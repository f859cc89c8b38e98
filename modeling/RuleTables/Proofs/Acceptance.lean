import Mathlib.Logic.Relation
import RuleTables.Proofs.RowMeaning
import RuleTables.Proofs.RowSplit
import RuleTables.Proofs.StrictReading

namespace RuleTables

namespace Condition

/-- A condition that can be used: it has a parameter, an operator that compares values of its kind,
and a value if the operator needs one. -/
structure IsSound (c : Condition) : Prop where
  parameter : Text.allBlank c.parameter = false
  operator : ∃ op, c.operator = some op ∧ op.supports c.kind ∧
    (op.needsValue → Text.allBlank c.value = false)

theorem findings_eq_nil_iff {c : Condition} : c.findings = [] ↔ c.IsSound := by
  have hs : c.IsSound ↔ Text.allBlank c.parameter = false ∧ ∃ op, c.operator = some op ∧
      op.supports c.kind ∧ (op.needsValue → Text.allBlank c.value = false) :=
    ⟨fun h => ⟨h.parameter, h.operator⟩, fun h => ⟨h.1, h.2⟩⟩
  rw [hs, findings, List.append_eq_nil_iff]
  apply and_congr
  · cases Text.allBlank c.parameter <;> simp
  · cases c.operator with
    | none => simp
    | some op => cases op.supports c.kind <;> simp

theorem isWarning_eq_false {c : Condition} {f : Finding} (h : f ∈ c.findings) :
    f.isWarning = false := by
  cases f with
  | layout fault => exact absurd h (Expr.layout_not_mem_condition c fault)
  | noParameter | noOperator | wrongKind _ _ | noValue _ | unsupported _ => rfl

end Condition

namespace Expr

section Valid

variable {e : Expr} {ns : List (Node Expr)}

theorem isValid_condition_iff {c : Condition} : (condition c).validate.isValid ↔ c.IsSound := by
  rw [isValid_iff, findings, ← Condition.findings_eq_nil_iff, List.eq_nil_iff_forall_not_mem]
  apply forall_congr'
  intro f
  constructor
  · intro h hf
    rw [Condition.isWarning_eq_false hf] at h
    exact Bool.false_ne_true (h hf)
  · intro h hf
    exact absurd hf h

theorem laterFindings_isWarning_iff (position : Nat) :
    (∀ f ∈ laterFindings position ns, f.isWarning) ↔
      (∀ n ∈ ns, n.connective.isSome) ∧ ∀ n ∈ ns, n.child.validate.isValid := by
  induction ns generalizing position with
  | nil => simp [laterFindings]
  | cons n ns ih =>
    have hc : (∀ f ∈ if n.connective.isNone then [Finding.layout (.missing position)] else [],
        f.isWarning) ↔ n.connective.isSome := by
      cases n.connective <;> simp [Finding.isWarning]
    rw [laterFindings_cons, List.forall_mem_append, List.forall_mem_append, hc, ih (position + 1),
      ← isValid_iff, List.forall_mem_cons, List.forall_mem_cons]
    exact and_and_and_comm

theorem isValid_composite_iff : (composite ns).validate.isValid ↔
    (∀ n ∈ ns.tail, n.connective.isSome) ∧ ∀ n ∈ ns, n.child.validate.isValid := by
  cases ns with
  | nil => simp [isValid_iff, findings, firstFindings, Finding.isWarning]
  | cons n ns =>
    have hc : ∀ f ∈ (n.connective.map fun c => Finding.layout (.leading c)).toList,
        f.isWarning := by
      cases n.connective <;> simp [Finding.isWarning]
    rw [isValid_iff, findings_composite_cons, List.forall_mem_append, List.forall_mem_append,
      ← isValid_iff, laterFindings_isWarning_iff, List.tail_cons, List.forall_mem_cons]
    constructor
    · rintro ⟨⟨-, hn⟩, hs, ht⟩
      exact ⟨hs, hn, ht⟩
    · rintro ⟨hs, hn, ht⟩
      exact ⟨⟨hc, hn⟩, hs, ht⟩

/-- What is asked of everything that is reached in a valid expression. -/
structure IsAcceptable (e : Expr) : Prop where
  children : ∀ v, ¬ e.Reaches (foreign v)
  connectives : ∀ ns, e.Reaches (composite ns) → ∀ n ∈ ns.tail, n.connective.isSome
  conditions : ∀ c, e.Reaches (condition c) → c.IsSound

theorem isAcceptable_composite_iff : (composite ns).IsAcceptable ↔
    (∀ n ∈ ns.tail, n.connective.isSome) ∧ ∀ n ∈ ns, n.child.IsAcceptable := by
  constructor
  · intro h
    refine ⟨h.connectives ns (.refl _), fun n hn => ⟨?_, ?_, ?_⟩⟩
    · exact fun v hr => h.children v (.node hn hr)
    · exact fun ms hr => h.connectives ms (.node hn hr)
    · exact fun c hr => h.conditions c (.node hn hr)
  · rintro ⟨ht, hs⟩
    refine ⟨?_, ?_, ?_⟩
    · rintro v (_ | ⟨hn, hr⟩)
      exact (hs _ hn).children v hr
    · rintro ms (_ | ⟨hn, hr⟩)
      · exact ht
      · exact (hs _ hn).connectives ms hr
    · rintro c (_ | ⟨hn, hr⟩)
      exact (hs _ hn).conditions c hr

theorem isAcceptable_group_iff : (group e).IsAcceptable ↔ e.IsAcceptable := by
  constructor
  · intro h
    exact ⟨fun v hr => h.children v (.group hr), fun ms hr => h.connectives ms (.group hr),
      fun c hr => h.conditions c (.group hr)⟩
  · intro h
    refine ⟨?_, ?_, ?_⟩
    · rintro v (_ | _ | hr)
      exact h.children v hr
    · rintro ms (_ | _ | hr)
      exact h.connectives ms hr
    · rintro c (_ | _ | hr)
      exact h.conditions c hr

theorem isAcceptable_condition_iff {c : Condition} : (condition c).IsAcceptable ↔ c.IsSound := by
  constructor
  · exact fun h => h.conditions c (.refl _)
  · intro h
    exact ⟨by simp, by simp, by simpa using h⟩

theorem isValid_iff_isAcceptable : e.validate.isValid ↔ e.IsAcceptable := by
  induction e with
  | condition c => rw [isValid_condition_iff, isAcceptable_condition_iff]
  | composite ns ih => rw [isValid_composite_iff, isAcceptable_composite_iff, forall₂_congr ih]
  | group e ih => rw [isAcceptable_group_iff, ← ih, isValid_iff, isValid_iff, findings]
  | constant b label => exact iff_of_true rfl ⟨by simp, by simp, by simp⟩
  | foreign v =>
    apply iff_of_false
    · simp [isValid_iff, findings, Finding.isWarning]
    · exact fun h => h.children v (.refl _)

end Valid

section Groups

variable {e f : Expr}

/-- The second expression is the first one with one more group in it, around any part of it. -/
inductive Wraps : Expr → Expr → Prop
  | around (e : Expr) : Wraps e (group e)
  | inGroup {e f : Expr} (h : Wraps e f) : Wraps (group e) (group f)
  | inNode {e f : Expr} (before after : List (Node Expr)) (c : Option Connective) (h : Wraps e f) :
    Wraps (composite (before ++ ⟨c, e⟩ :: after)) (composite (before ++ ⟨c, f⟩ :: after))

/-- Groups are put in and taken away, anywhere and any number of times. -/
abbrev Regroups : Expr → Expr → Prop := Relation.EqvGen Wraps

theorem laterFindings_append (position : Nat) (ns ms : List (Node Expr)) :
    laterFindings position (ns ++ ms) =
      laterFindings position ns ++ laterFindings (position + ns.length) ms := by
  induction ns generalizing position with
  | nil => rfl
  | cons n ns ih =>
    simp only [List.cons_append, laterFindings_cons, ih, List.length_cons, List.append_assoc,
      Nat.add_assoc, Nat.add_comm 1]

theorem findings_composite_congr (before after : List (Node Expr)) (c : Option Connective)
    (h : e.findings = f.findings) :
    (composite (before ++ ⟨c, e⟩ :: after)).findings =
      (composite (before ++ ⟨c, f⟩ :: after)).findings := by
  cases before with
  | nil =>
    rw [List.nil_append, List.nil_append, findings_composite_cons, findings_composite_cons, h]
  | cons n ns =>
    rw [List.cons_append, List.cons_append, findings_composite_cons, findings_composite_cons,
      laterFindings_append, laterFindings_append, laterFindings_cons, laterFindings_cons, h]

theorem Wraps.findings_eq (h : Wraps e f) : e.findings = f.findings := by
  induction h with
  | around e => rfl
  | inGroup h ih => exact ih
  | inNode before after c h ih => exact findings_composite_congr before after c ih

theorem Regroups.findings_eq (h : Regroups e f) : e.findings = f.findings := by
  induction h with
  | rel e f h => exact h.findings_eq
  | refl e => rfl
  | symm e f h ih => exact ih.symm
  | trans e f g _ _ ih ih' => exact ih.trans ih'

end Groups

/-- Validation accepts an expression just where everything reached in it is as asked, and regrouping
changes neither list of messages. -/
theorem validate_accepts (e : Expr) : (e.validate.isValid ↔ e.IsAcceptable) ∧
    ∀ f, Regroups e f →
      f.validate.errors = e.validate.errors ∧ f.validate.warnings = e.validate.warnings := by
  refine ⟨isValid_iff_isAcceptable, fun f h => ?_⟩
  have hv : f.validate = e.validate := by rw [validate, validate, h.findings_eq]
  exact ⟨congrArg Findings.errors hv, congrArg Findings.warnings hv⟩

def largeOrVipFlat : Expr :=
  composite [⟨none, condition (.greaterThan "amount" "500")⟩,
    ⟨some .or, composite [⟨none, condition (.equals "class" "vip")⟩,
      ⟨some .and, alwaysTrue⟩]⟩]

theorem largeOrVip_ungrouped : Regroups largeOrVip largeOrVipFlat ∧
    largeOrVipFlat.validate.errors = largeOrVip.validate.errors ∧
    largeOrVipFlat.validate.warnings = largeOrVip.validate.warnings := by
  have hw : Wraps largeOrVipFlat largeOrVip :=
    .inNode [⟨none, condition (.greaterThan "amount" "500")⟩] [] (some .or) (.around _)
  have hr : Regroups largeOrVip largeOrVipFlat := .symm _ _ (.rel _ _ hw)
  exact ⟨hr, (validate_accepts largeOrVip).2 largeOrVipFlat hr⟩

end Expr

end RuleTables
