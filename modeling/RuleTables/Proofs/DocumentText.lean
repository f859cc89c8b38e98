import RuleTables.Document.Drawn
import RuleTables.Proofs.XmlText

namespace RuleTables

theorem HitPolicy.text_inj {p q : HitPolicy} (h : p.text = q.text) : p = q := by
  have hp : ∀ p : HitPolicy, ofText? p.text = some p := by
    intro p
    cases p <;> decide
  exact Option.some.inj (by rw [← hp p, h, hp q])

namespace Document

open Xml

section Elements

theorem isNamed_textElement (s : String) : (textElement s).IsNamed :=
  .text (by decide) nofun

theorem Input.isNamed_element (i : Input) : i.element.IsNamed := by
  refine .parent (by decide) (by simp; decide) fun e he => ?_
  rw [List.mem_singleton.mp he]
  refine .parent (by decide) (by simp; decide) fun e he => ?_
  rw [List.mem_singleton.mp he]
  exact isNamed_textElement i.expression

theorem Output.isNamed_element (o : Output) : o.element.IsNamed :=
  .parent (by decide) (by simp; decide) nofun

theorem Entry.isNamed_element {tag : String} (h : isName tag) (e : Entry) :
    (e.element tag).IsNamed := by
  refine .parent h (by simp; decide) fun c hc => ?_
  rw [List.mem_singleton.mp hc]
  exact isNamed_textElement e.text

theorem Rule.isNamed_element (r : Rule) : r.element.IsNamed := by
  refine .parent (by decide) (by simp; decide) fun c hc => ?_
  rcases List.mem_append.mp hc with hc | hc
  · obtain ⟨e, -, rfl⟩ := List.mem_map.mp hc
    exact e.isNamed_element (by decide)
  · obtain ⟨e, -, rfl⟩ := List.mem_map.mp hc
    exact e.isNamed_element (by decide)

theorem isNamed_element (d : Document) : d.element.IsNamed := by
  refine .parent (by decide) (by simp; decide) fun c hc => ?_
  rw [List.mem_singleton.mp hc]
  refine .parent (by decide) (by simp; decide) fun c hc => ?_
  rw [List.mem_singleton.mp hc]
  refine .parent (by decide) (by simp; decide) fun c hc => ?_
  simp only [List.mem_append, List.mem_map] at hc
  rcases hc with (⟨i, -, rfl⟩ | ⟨o, -, rfl⟩) | ⟨r, -, rfl⟩
  · exact i.isNamed_element
  · exact o.isNamed_element
  · exact r.isNamed_element

theorem Input.element_inj {i j : Input} (h : i.element = j.element) : i = j := by
  cases i
  cases j
  simpa [Input.element, textElement, and_assoc] using h

theorem Output.element_inj {o p : Output} (h : o.element = p.element) : o = p := by
  cases o
  cases p
  simpa [Output.element] using h

theorem Entry.element_inj {tag : String} {e f : Entry} (h : e.element tag = f.element tag) :
    e = f := by
  cases e
  cases f
  simpa [Entry.element, textElement] using h

theorem append_inj_of_tag {t : String} {xs xs' ys ys' : List Element} (hx : ∀ e ∈ xs, e.tag = t)
    (hx' : ∀ e ∈ xs', e.tag = t) (hy : ∀ e ∈ ys, e.tag ≠ t) (hy' : ∀ e ∈ ys', e.tag ≠ t)
    (h : xs ++ ys = xs' ++ ys') : xs = xs' ∧ ys = ys' := by
  have front : ∀ {xs ys : List Element}, (∀ e ∈ xs, e.tag = t) → (∀ e ∈ ys, e.tag ≠ t) →
      (xs ++ ys).filter (·.tag = t) = xs := by
    intro xs ys hx hy
    rw [List.filter_append, List.filter_eq_self.mpr (by simpa using hx),
      List.filter_eq_nil_iff.mpr (by simpa using hy), List.append_nil]
  have hs : xs = xs' := by rw [← front hx hy, h, front hx' hy']
  exact ⟨hs, List.append_cancel_left (hs ▸ h)⟩

theorem Rule.element_inj {r q : Rule} (h : r.element = q.element) : r = q := by
  obtain ⟨-, ha, hc⟩ := Element.parent.inj h
  have inputs : ∀ es : List Entry, ∀ c ∈ es.map (Entry.element "inputEntry"),
      c.tag = "inputEntry" := fun es => List.forall_mem_map.mpr fun _ _ => rfl
  have outputs : ∀ es : List Entry, ∀ c ∈ es.map (Entry.element "outputEntry"),
      c.tag ≠ "inputEntry" := fun es =>
    List.forall_mem_map.mpr fun _ _ => (by decide : "outputEntry" ≠ "inputEntry")
  obtain ⟨hi, ho⟩ := append_inj_of_tag (inputs _) (inputs _) (outputs _) (outputs _) hc
  rw [List.map_inj_right fun _ _ => Entry.element_inj] at hi ho
  cases r
  cases q
  simp_all

theorem columns_inj {is js : List Input} {os ps : List Output} {rs qs : List Rule}
    (h : is.map (·.element) ++ (os.map (·.element) ++ rs.map (·.element)) =
      js.map (·.element) ++ (ps.map (·.element) ++ qs.map (·.element))) :
    is = js ∧ os = ps ∧ rs = qs := by
  have inputs : ∀ is : List Input, ∀ c ∈ is.map (·.element), c.tag = "input" := fun is =>
    List.forall_mem_map.mpr fun _ _ => rfl
  have outputs : ∀ os : List Output, ∀ c ∈ os.map (·.element), c.tag = "output" := fun os =>
    List.forall_mem_map.mpr fun _ _ => rfl
  have rules : ∀ rs : List Rule, ∀ c ∈ rs.map (·.element), c.tag = "rule" := fun rs =>
    List.forall_mem_map.mpr fun _ _ => rfl
  have later : ∀ (os : List Output) (rs : List Rule),
      ∀ c ∈ os.map (·.element) ++ rs.map (·.element), c.tag ≠ "input" := by
    intro os rs c hc
    rcases List.mem_append.mp hc with hc | hc
    · rw [outputs os c hc]
      decide
    · rw [rules rs c hc]
      decide
  have last : ∀ rs : List Rule, ∀ c ∈ rs.map (·.element), c.tag ≠ "output" := by
    intro rs c hc
    rw [rules rs c hc]
    decide
  obtain ⟨hi, ht⟩ := append_inj_of_tag (inputs _) (inputs _) (later _ _) (later _ _) h
  obtain ⟨ho, hr⟩ := append_inj_of_tag (outputs _) (outputs _) (last _) (last _) ht
  rw [List.map_inj_right fun _ _ => Input.element_inj] at hi
  rw [List.map_inj_right fun _ _ => Output.element_inj] at ho
  rw [List.map_inj_right fun _ _ => Rule.element_inj] at hr
  exact ⟨hi, ho, hr⟩

theorem element_inj {d k : Document} (h : d.element = k.element) : d = k := by
  simp only [element, Element.parent.injEq, List.cons.injEq, Prod.mk.injEq, true_and, and_true,
    List.append_assoc] at h
  obtain ⟨⟨hdi, hdn⟩, ⟨hi, hn⟩, ⟨ht, hp⟩, hc⟩ := h
  obtain ⟨his, hos, hrs⟩ := columns_inj hc
  have hps := HitPolicy.text_inj hp
  cases d
  cases k
  simp_all

/-- Documents with the same text are the same, whatever stands in their names and cells. -/
theorem render_inj {d k : Document} {pretty : Bool} (h : d.render pretty = k.render pretty) :
    d = k :=
  element_inj (Xml.render_inj d.isNamed_element k.isNamed_element h)

theorem render_eq_iff {d : Document} {pretty : Bool} {x : String} (hx : d.render pretty = x)
    (k : Document) : k.render pretty = x ↔ k = d :=
  ⟨fun hk => render_inj (hk.trans hx.symm), fun hk => hk ▸ hx⟩

end Elements

/-- The table that a document was drawn from. -/
def drawn (d : Document) : DrawnTable where
  decisionName := d.decisionName
  inputs := d.inputs.map fun i => ⟨i.label, i.expression, i.typeRef⟩
  outputs := d.outputs.map fun o => ⟨o.label, o.name, o.typeRef⟩
  rules := d.rules.map fun r => ⟨r.inputs.map (·.text), r.outputs.map (·.text)⟩
  hitPolicy := d.hitPolicy

theorem map_countFrom {α β : Type} (f : α → β) (start : Nat) (xs : List α) :
    (countFrom start xs).map (fun x => f x.2) = xs.map f := by
  induction xs generalizing start with
  | nil => rfl
  | cons x xs ih => rw [countFrom, List.map_cons, List.map_cons, ih]

theorem length_countFrom {α : Type} (start : Nat) (xs : List α) :
    (countFrom start xs).length = xs.length := by
  have h := congrArg List.length (map_countFrom id start xs)
  rwa [List.length_map, List.length_map] at h

theorem entries_text (name : String) (rule start : Nat) (texts : List String) :
    (entries name rule start texts).map (·.text) = texts := by
  rw [entries, List.map_map]
  exact (map_countFrom id start texts).trans (List.map_id texts)

end Document

namespace DrawnTable

theorem drawn_document (t : DrawnTable) : t.document.drawn = t := by
  have hi : t.document.inputs.map (fun i => (⟨i.label, i.expression, i.typeRef⟩ : DrawnInput)) =
      t.inputs := by
    rw [document, List.map_map]
    exact (Document.map_countFrom id 0 t.inputs).trans (List.map_id t.inputs)
  have ho : t.document.outputs.map (fun o => (⟨o.label, o.name, o.typeRef⟩ : DrawnOutput)) =
      t.outputs := by
    rw [document, List.map_map]
    exact (Document.map_countFrom id 0 t.outputs).trans (List.map_id t.outputs)
  have hr : t.document.rules.map
      (fun r => (⟨r.inputs.map (·.text), r.outputs.map (·.text)⟩ : DrawnRule)) = t.rules := by
    rw [document, List.map_map]
    refine .trans (List.map_congr_left fun r _ => ?_)
      ((Document.map_countFrom id 0 t.rules).trans (List.map_id t.rules))
    rw [Function.comp_apply, ruleDocument, Document.entries_text, Document.entries_text, id]
  rw [Document.drawn, hi, ho, hr]
  rfl

variable {pretty : Bool} {t u : DrawnTable} {s s' : String}

theorem text_eq_ok_iff : t.text pretty = .ok s ↔ (Text.allBlank t.decisionName = false ∧
    t.countFault? = none ∧ t.document.isWritable) ∧ t.document.render pretty = s := by
  have hh : t.document.isWritable → t.document.headingWritable := by
    rw [Document.isWritable, Bool.and_eq_true, Bool.and_eq_true]
    exact fun h => h.1.1
  rw [text]
  cases Text.allBlank t.decisionName <;> cases t.countFault? <;>
    cases hw : t.document.isWritable <;> cases hd : t.document.headingWritable <;> simp_all

/-- Two drawn tables that are accepted have the same text just when they are the same table. -/
theorem text_eq_iff (ht : t.text pretty = .ok s) (hu : u.text pretty = .ok s') :
    s = s' ↔ t = u := by
  constructor
  · intro h
    have hd : t.document.render pretty = u.document.render pretty := by
      rw [(text_eq_ok_iff.mp ht).2, h, (text_eq_ok_iff.mp hu).2]
    rw [← drawn_document t, Document.render_inj hd, drawn_document u]
  · rintro rfl
    exact Except.ok.inj (ht.symm.trans hu)

def oneCell (cell : String) : DrawnTable where
  decisionName := "Grade"
  inputs := [⟨"Class", "class", "string"⟩]
  outputs := [⟨"", "grade", "string"⟩]
  rules := [⟨["\"vip\""], [cell]⟩]
  hitPolicy := .first

theorem oneCell_text_ne : ∃ s s', (oneCell "</text>").text true = .ok s ∧
    (oneCell "&lt;/text>").text true = .ok s' ∧ s ≠ s' := by
  have accepted : ∀ cell ∈ ["</text>", "&lt;/text>"],
      ∃ s, (oneCell cell).text true = .ok s := by
    intro cell hc
    refine ⟨_, text_eq_ok_iff.mpr ⟨?_, rfl⟩⟩
    simp only [List.mem_cons, List.not_mem_nil, or_false] at hc
    rcases hc with rfl | rfl <;> exact ⟨by decide, rfl, by decide⟩
  obtain ⟨s, hs⟩ := accepted "</text>" (by simp)
  obtain ⟨s', hs'⟩ := accepted "&lt;/text>" (by simp)
  exact ⟨s, s', hs, hs', fun he => absurd ((text_eq_iff hs hs').mp he) (by decide)⟩

end DrawnTable

end RuleTables
