import Mathlib.Data.List.Forall2
import RuleTables.Proofs.TreeText

namespace RuleTables

namespace Condition

variable {c d : Condition}

/-- What does not count when conditions are compared. -/
def look (c : Condition) : Kind × Bool := (c.kind, c.grouped)

theorem same_self (c : Condition) : c.same c := by
  simp [same]

theorem eq_of_same (h : c.same d) (hl : c.look = d.look) : c = d := by
  obtain ⟨parameter, operator, value, kind, grouped⟩ := c
  obtain ⟨parameter', operator', value', kind', grouped'⟩ := d
  simp only [same, Bool.and_eq_true, decide_eq_true_eq] at h
  obtain ⟨⟨rfl, rfl⟩, rfl⟩ := h
  obtain ⟨rfl, rfl⟩ := Prod.mk.inj hl
  rfl

end Condition

namespace Expr

section Same

variable {e f : Expr} {ns ms : List (Node Expr)}

theorem sameNodes_iff : sameNodes ns ms ↔
    List.Forall₂ (fun n m => n.connective = m.connective ∧ n.child.same m.child) ns ms := by
  induction ns generalizing ms with
  | nil => cases ms <;> simp [sameNodes]
  | cons n ns ih => cases ms <;> simp [sameNodes, ih]

theorem same_condition_iff {c : Condition} :
    (condition c).same f ↔ ∃ d, f = condition d ∧ c.same d := by
  cases f <;> simp [same]

theorem same_composite_iff : (composite ns).same f ↔ ∃ ms, f = composite ms ∧
    List.Forall₂ (fun n m => n.connective = m.connective ∧ n.child.same m.child) ns ms := by
  cases f <;> simp [same, sameNodes_iff]

theorem same_group_iff : (group e).same f ↔ ∃ g, f = group g ∧ e.same g := by
  cases f <;> simp [same]

theorem same_constant_iff {b : Bool} {label : String} :
    (constant b label).same f ↔ constant b label = f := by
  cases f <;> simp [same]

theorem same_self (e : Expr) : e.same e := by
  induction e with
  | condition c => exact c.same_self
  | composite ns ih =>
    rw [same, sameNodes_iff, List.forall₂_same]
    exact fun n hn => ⟨rfl, ih n hn⟩
  | group e ih => exact ih
  | constant b label => exact same_constant_iff.mpr rfl
  | foreign v => simp [same]

end Same

/-- The looks of the conditions, from left to right. -/
def looks (e : Expr) : List (Kind × Bool) := e.leaves.map (·.look)

theorem looks_composite (ns : List (Node Expr)) :
    (composite ns).looks = ns.flatMap (·.child.looks) := by
  simp only [looks, leaves, nodeLeaves_eq_flatMap, List.map_flatMap]

section Looks

variable {e f : Expr} {ns ms : List (Node Expr)} {xs ys : List (Kind × Bool)}

theorem nodeLooks_append_inj
    (hn : ∀ n ∈ ns, ∀ {f xs ys}, n.child.same f → n.child.looks ++ xs = f.looks ++ ys →
      n.child = f ∧ xs = ys)
    (h : List.Forall₂ (fun n m => n.connective = m.connective ∧ n.child.same m.child) ns ms)
    (hl : ns.flatMap (·.child.looks) ++ xs = ms.flatMap (·.child.looks) ++ ys) :
    ns = ms ∧ xs = ys := by
  induction h with
  | nil => exact ⟨rfl, hl⟩
  | @cons n m ns ms h _ ih =>
    obtain ⟨c, e⟩ := n
    obtain ⟨d, f⟩ := m
    obtain ⟨rfl, hs⟩ := h
    obtain ⟨hm, hns⟩ := List.forall_mem_cons.mp hn
    rw [List.flatMap_cons, List.flatMap_cons, List.append_assoc, List.append_assoc] at hl
    obtain ⟨rfl, hr⟩ := hm hs hl
    obtain ⟨rfl, hx⟩ := ih hns hr
    exact ⟨rfl, hx⟩

theorem looks_append_inj (hc : e.isComplete) (h : e.same f)
    (hl : e.looks ++ xs = f.looks ++ ys) : e = f ∧ xs = ys := by
  -- expressions that are the same have as many conditions, so the lists can be cut in one way only
  induction e generalizing f xs ys with
  | condition c =>
    obtain ⟨d, rfl, hs⟩ := same_condition_iff.mp h
    obtain ⟨hl, hr⟩ := List.cons.inj hl
    exact ⟨congrArg condition (Condition.eq_of_same hs hl), hr⟩
  | composite ns ih =>
    obtain ⟨ms, rfl, hs⟩ := same_composite_iff.mp h
    rw [looks_composite, looks_composite] at hl
    obtain ⟨rfl, hr⟩ := nodeLooks_append_inj
      (fun n hn => ih n hn (isComplete_composite.mp hc n hn)) hs hl
    exact ⟨rfl, hr⟩
  | group e ih =>
    obtain ⟨f, rfl, hs⟩ := same_group_iff.mp h
    obtain ⟨rfl, hr⟩ := ih (isComplete_group.mp hc) hs hl
    exact ⟨rfl, hr⟩
  | constant b label =>
    obtain rfl := same_constant_iff.mp h
    exact ⟨rfl, hl⟩
  | foreign v => cases hc

theorem eq_iff_same (hc : e.isComplete) : e = f ↔ e.same f ∧ e.looks = f.looks := by
  constructor
  · rintro rfl
    exact ⟨same_self e, rfl⟩
  · rintro ⟨h, hl⟩
    exact (looks_append_inj hc h (congrArg (· ++ []) hl)).1

end Looks

section Text

variable {e f : Expr}

theorem jsonText_inj (he : e.isComplete) (hf : f.isComplete) {broken : Bool}
    (h : e.jsonText broken = f.jsonText broken) : e = f := by
  have ht : e.tree.sorted = f.tree.sorted := by
    have hp := parse_jsonText he broken
    rw [h, parse_jsonText hf broken] at hp
    exact (Except.ok.inj hp).symm
  have hr := ofTree_sorted false he nofun
  rw [ht, ofTree_sorted false hf nofun] at hr
  exact (Except.ok.inj hr).symm

theorem toJsonText_eq_ok (h : e.isComplete) (broken : Bool) :
    e.toJsonText broken = .ok (e.jsonText broken) := by
  rw [toJsonText, obstacle?_eq_none h]
  rfl

/-- Two expressions have the same JSON text, on one line or on many, just when they are the same and
their conditions have the same kinds and the same grouping in order. -/
theorem toJsonText_same_iff (he : e.isComplete) (hf : f.isComplete) (broken : Bool) :
    ∃ s t, e.toJsonText broken = .ok s ∧ f.toJsonText broken = .ok t ∧
      (s = t ↔ e.same f ∧ e.looks = f.looks) := by
  refine ⟨_, _, toJsonText_eq_ok he broken, toJsonText_eq_ok hf broken, ?_⟩
  rw [← eq_iff_same he]
  constructor
  · exact jsonText_inj he hf
  · rintro rfl
    rfl

end Text

def numberCode : Expr := condition (.equals "code" "123")

def textCode : Expr := condition ⟨"code", some .equals, "123", .string, false⟩

def eitherCode (a b : Expr) : Expr := composite [⟨none, a⟩, ⟨some .or, group b⟩]

theorem eitherCode_exchanged :
    (eitherCode numberCode textCode).isComplete ∧ (eitherCode textCode numberCode).isComplete ∧
    (eitherCode numberCode textCode).same (eitherCode textCode numberCode) ∧
    ∃ s t, (eitherCode numberCode textCode).toJsonText true = .ok s ∧
      (eitherCode textCode numberCode).toJsonText true = .ok t ∧ s ≠ t := by
  have he : (eitherCode numberCode textCode).isComplete := by decide
  have hf : (eitherCode textCode numberCode).isComplete := by decide
  have hl : (eitherCode numberCode textCode).looks ≠ (eitherCode textCode numberCode).looks := by
    decide
  obtain ⟨s, t, hs, ht, h⟩ := toJsonText_same_iff he hf true
  exact ⟨he, hf, by decide, s, t, hs, ht, fun hst => hl (h.mp hst).2⟩

/-- The two codes are the same, but their texts are not. -/
theorem numberCode_text_ne : numberCode.isComplete ∧ textCode.isComplete ∧
    numberCode.same textCode ∧
    ∀ broken, numberCode.toJsonText broken ≠ textCode.toJsonText broken := by
  have hn : numberCode.isComplete := by decide
  have ht : textCode.isComplete := by decide
  refine ⟨hn, ht, by decide, fun broken h => ?_⟩
  rw [toJsonText_eq_ok hn, toJsonText_eq_ok ht] at h
  have he : numberCode = textCode := jsonText_inj hn ht (Except.ok.inj h)
  cases he

end Expr

end RuleTables
