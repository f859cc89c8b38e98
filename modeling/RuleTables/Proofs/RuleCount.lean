import Mathlib.Algebra.GroupWithZero.Nat
import RuleTables.Proofs.DocumentText

namespace RuleTables

namespace Xml

/-- How many tags of the name are opened in a text, with an attribute behind the name. -/
def opened (tag : String) : List Char → Nat
  | [] => 0
  | c :: cs =>
    (if '<' :: (tag.toList ++ [' ']) <+: c :: cs then 1 else 0) + opened tag cs

section Opened

variable {tag t : String} {as : List (String × String)} {xs r : List Char} {c : Char}

theorem opened_append (h : '<' ∉ xs) : opened tag (xs ++ r) = opened tag r := by
  induction xs with
  | nil => rfl
  | cons c xs ih =>
    obtain ⟨hc, hx⟩ := not_or.mp (mt List.mem_cons.mpr h)
    have hp : ¬ '<' :: (tag.toList ++ [' ']) <+: c :: (xs ++ r) := fun hp =>
      hc (List.cons_prefix_cons.mp hp).1
    rw [List.cons_append, opened, if_neg hp, Nat.zero_add, ih hx]

theorem opened_mark (h : tag.toList.head? ≠ some c) (ht : tag.toList ≠ []) :
    opened tag ('<' :: c :: r) = opened tag (c :: r) := by
  -- no tag of the name is opened where the first character of the name does not come next
  obtain ⟨d, ds, hd⟩ := List.exists_cons_of_ne_nil ht
  have hp : ¬ '<' :: (tag.toList ++ [' ']) <+: '<' :: c :: r := by
    rw [List.cons_prefix_cons, hd, List.cons_append, List.cons_prefix_cons]
    rintro ⟨-, rfl, -⟩
    exact h (by rw [hd]; rfl)
  rw [opened, if_neg hp, Nat.zero_add]

structure IsPlainTag (t : String) (as : List (String × String)) : Prop where
  name : isName t
  tag : '<' ∉ t.toList
  attributes : ∀ a ∈ as, '<' ∉ a.1.toList

theorem lt_not_mem_escapeAttribute (c : Char) : '<' ∉ escapeAttribute c := by
  unfold escapeAttribute
  split
  · decide
  · decide
  · decide
  · exact lt_not_mem_escapeText _

theorem lt_not_mem_attributes (h : ∀ a ∈ as, '<' ∉ a.1.toList) :
    '<' ∉ as.flatMap attributeText := by
  rw [List.mem_flatMap]
  rintro ⟨a, ha, hm⟩
  simp [attributeText, h a ha, lt_not_mem_escapeAttribute] at hm

theorem opened_openTag (h : IsPlainTag t as) (hn : isName tag) (ha : as ≠ []) :
    opened tag (openTag t as ++ r) = (if t = tag then 1 else 0) + opened tag r := by
  obtain ⟨a, as, rfl⟩ := List.exists_cons_of_ne_nil ha
  have hp : '<' :: (tag.toList ++ [' ']) <+:
      '<' :: (t.toList ++ ((a :: as).flatMap attributeText ++ r)) ↔ t = tag := by
    rw [List.cons_prefix_cons, and_iff_right rfl, List.flatMap_cons, attributeText]
    constructor
    · rintro ⟨s, hs⟩
      rw [List.append_assoc, List.singleton_append, List.cons_append, List.cons_append] at hs
      exact (String.toList_inj.mp (append_cons_inj (isNameChar_of_isName hn)
        (isNameChar_of_isName h.name) (by decide) (by decide) hs).1).symm
    · rintro rfl
      exact (List.prefix_append_right_inj _).mpr (List.prefix_append [' '] _)
  have hl : '<' ∉ t.toList ++ (a :: as).flatMap attributeText := fun hm =>
    (List.mem_append.mp hm).elim h.tag (lt_not_mem_attributes h.attributes)
  rw [openTag, List.cons_append, List.cons_append, List.append_assoc, opened, if_congr hp rfl rfl,
    ← List.append_assoc, opened_append hl]

theorem opened_closeTag (h : '<' ∉ t.toList) (hn : isName tag) :
    opened tag (closeTag t ++ r) = opened tag r := by
  have hl : '<' ∉ '/' :: t.toList ++ ['>'] := by simpa using h
  rw [isName, Bool.and_eq_true, Bool.not_eq_true', List.all_eq_true] at hn
  have ht : tag.toList ≠ [] := fun ht => by simp [String.toList_eq_nil_iff.mp ht] at hn
  have hc : tag.toList.head? ≠ some '/' := fun hc =>
    absurd (hn.2 '/' (List.mem_of_mem_head? hc)) (by decide)
  exact (opened_mark hc ht).trans (opened_append hl)

/-- The text of the element opens so many tags of the name, wherever it stands. -/
def Opens (tag : String) (e : Element) (n : Nat) : Prop :=
  ∀ pretty depth r, opened tag (write pretty depth e ++ r) = n + opened tag r

theorem opened_lines {es : List Element} {n : Element → Nat} (h : ∀ e ∈ es, Opens tag e (n e))
    (pretty : Bool) (depth : Nat) :
    opened tag (es.flatMap (line pretty depth) ++ r) = (es.map n).sum + opened tag r := by
  induction es with
  | nil => simp
  | cons e es ih =>
    obtain ⟨he, hs⟩ := List.forall_mem_cons.mp h
    rw [List.flatMap_cons, line, List.append_assoc, List.append_assoc,
      opened_append (lt_not_mem_newLine pretty depth), he, ih hs, List.map_cons, List.sum_cons,
      Nat.add_assoc]

theorem opens_parent {es : List Element} {n : Element → Nat} (ht : IsPlainTag t as)
    (hn : isName tag) (ha : as ≠ []) (h : ∀ e ∈ es, Opens tag e (n e)) :
    Opens tag (.parent t as es) ((if t = tag then 1 else 0) + (es.map n).sum) := by
  intro pretty depth r
  rw [write_eq, List.append_assoc, Element.tag, Element.attributes, opened_openTag ht hn ha,
    Nat.add_assoc]
  congr 1
  cases es with
  | nil =>
    rw [body, opened_append (by decide), List.map_nil, List.sum_nil, Nat.zero_add]
  | cons e es =>
    have hb : '<' ∉ ['>'] := by decide
    rw [body, ← List.singleton_append, List.append_assoc, List.append_assoc, opened_append hb,
      opened_lines h, List.append_assoc, opened_append (lt_not_mem_newLine pretty depth),
      opened_closeTag ht.tag hn]

theorem opens_around {es : List Element} (ht : IsPlainTag t as) (hn : isName tag) (ha : as ≠ [])
    (h : ∀ e ∈ es, Opens tag e 0) : Opens tag (.parent t as es) (if t = tag then 1 else 0) := by
  have hs : (es.map fun _ => (0 : Nat)).sum = 0 := by
    simp [List.map_const']
  have hp := opens_parent ht hn ha h
  rwa [hs, Nat.add_zero] at hp

end Opened

end Xml

namespace Document

open Xml

def ruleCount (text : String) : Nat :=
  opened "rule" text.toList

theorem opens_textElement (s : String) : Opens "rule" (textElement s) 0 := by
  intro pretty depth r
  have hs : '<' ∉ s.toList.flatMap escapeText := by
    simpa using fun c _ => lt_not_mem_escapeText c
  have hb : '<' ∉ 't' :: 'e' :: 'x' :: 't' :: '>' :: s.toList.flatMap escapeText := by
    simpa using hs
  have hw : write pretty depth (textElement s) ++ r =
      '<' :: (('t' :: 'e' :: 'x' :: 't' :: '>' :: s.toList.flatMap escapeText) ++
        (closeTag "text" ++ r)) := by
    simp [textElement, write, openTag]
  rw [hw, List.cons_append, opened_mark (by decide) (by decide), ← List.cons_append,
    opened_append hb, opened_closeTag (by decide) (by decide), Nat.zero_add]

theorem isName_rule : isName "rule" := by decide

theorem Input.opens_element (i : Input) : Opens "rule" i.element 0 := by
  have hx : Opens "rule" (.parent "inputExpression"
      [("id", i.expressionId), ("typeRef", i.typeRef)] [textElement i.expression]) 0 :=
    opens_around ⟨by decide, by decide, by simp⟩ isName_rule (List.cons_ne_nil _ _) fun e he =>
      List.mem_singleton.mp he ▸ opens_textElement _
  exact opens_around ⟨by decide, by decide, by simp⟩ isName_rule (List.cons_ne_nil _ _) fun e he =>
    List.mem_singleton.mp he ▸ hx

theorem Output.opens_element (o : Output) : Opens "rule" o.element 0 :=
  opens_around ⟨by decide, by decide, by simp⟩ isName_rule (List.cons_ne_nil _ _) nofun

theorem Entry.opens_element {tag : String} (ht : isName tag) (hl : '<' ∉ tag.toList)
    (hr : tag ≠ "rule") (e : Entry) : Opens "rule" (e.element tag) 0 := by
  have h : Opens "rule" (e.element tag) (if tag = "rule" then 1 else 0) :=
    opens_around ⟨ht, hl, by simp⟩ isName_rule (List.cons_ne_nil _ _) fun c hc =>
      List.mem_singleton.mp hc ▸ opens_textElement _
  rwa [if_neg hr] at h

theorem Rule.opens_element (r : Rule) : Opens "rule" r.element 1 := by
  refine opens_around ⟨by decide, by decide, by simp⟩ isName_rule (List.cons_ne_nil _ _)
    fun c hc => ?_
  rcases List.mem_append.mp hc with hc | hc
  · obtain ⟨e, -, rfl⟩ := List.mem_map.mp hc
    exact e.opens_element (by decide) (by decide) (by decide)
  · obtain ⟨e, -, rfl⟩ := List.mem_map.mp hc
    exact e.opens_element (by decide) (by decide) (by decide)

theorem opens_element (d : Document) : Opens "rule" d.element d.rules.length := by
  let parts := d.inputs.map (·.element) ++ d.outputs.map (·.element) ++ d.rules.map (·.element)
  have hparts : ∀ e ∈ parts, Opens "rule" e (if e.tag = "rule" then 1 else 0) := by
    intro e he
    simp only [parts, List.mem_append, List.mem_map] at he
    rcases he with (⟨i, -, rfl⟩ | ⟨o, -, rfl⟩) | ⟨r, -, rfl⟩
    · exact i.opens_element
    · exact o.opens_element
    · exact r.opens_element
  have hsum : (parts.map fun e => if e.tag = "rule" then 1 else 0).sum = d.rules.length := by
    simp [parts, Function.comp_def, Input.element, Output.element, Rule.element, Element.tag,
      List.map_const']
  have around : ∀ (t : String) (as : List (String × String)) (e : Element), IsPlainTag t as →
      as ≠ [] → t ≠ "rule" → Opens "rule" e d.rules.length →
        Opens "rule" (.parent t as [e]) d.rules.length := by
    intro t as e ht ha hr he
    have hes : ∀ x ∈ [e], Opens "rule" x d.rules.length := List.forall_mem_singleton.mpr he
    have h := opens_parent ht isName_rule ha hes
    rwa [if_neg hr, Nat.zero_add, List.map_singleton, List.sum_singleton] at h
  have htable : Opens "rule" (.parent "decisionTable"
      [("id", d.tableId), ("hitPolicy", d.hitPolicy.text)] parts) d.rules.length := by
    have h := opens_parent (t := "decisionTable") ⟨by decide, by decide, by simp⟩ isName_rule
      (List.cons_ne_nil ("id", d.tableId) [("hitPolicy", d.hitPolicy.text)]) hparts
    rwa [hsum, if_neg (by decide), Nat.zero_add] at h
  exact around _ _ _ ⟨by decide, by decide, by simp⟩ (List.cons_ne_nil _ _) (by decide)
    (around _ _ _ ⟨by decide, by decide, by simp⟩ (List.cons_ne_nil _ _) (by decide) htable)

/-- The text of a document begins as many rules as the document has. -/
theorem ruleCount_render (d : Document) (pretty : Bool) :
    ruleCount (d.render pretty) = d.rules.length := by
  have hd : declaration = '<' :: '?' :: declaration.drop 2 := by decide
  have hl : '<' ∉ '?' :: declaration.drop 2 := by decide
  have hn : opened "rule" (newLine pretty 0) = 0 := by
    rw [← List.append_nil (newLine pretty 0), opened_append (lt_not_mem_newLine pretty 0)]
    rfl
  rw [ruleCount, render, Xml.render, String.toList_ofList, List.append_assoc, hd, List.cons_append,
    List.cons_append, opened_mark (by decide) (by decide), ← List.cons_append, opened_append hl,
    d.opens_element, hn, Nat.add_zero]

end Document

end RuleTables
