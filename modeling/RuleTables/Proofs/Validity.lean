import RuleTables.Expr.Findings
import RuleTables.Proofs.Shape

namespace RuleTables

theorem Condition.exists_operator {c : Condition} (h : ∀ f ∈ c.findings, f.isWarning) :
    ∃ op, c.operator = some op ∧ (op.needsValue → Text.allBlank c.value = false) := by
  cases ho : c.operator with
  | none => exact absurd (h .noOperator (by simp [findings, ho])) (by decide)
  | some op =>
    refine ⟨op, rfl, fun hn => Bool.eq_false_iff.mpr fun hb => ?_⟩
    have hf : Finding.noValue op ∈ c.findings := by simp [findings, ho, hn, hb]
    exact absurd (h _ hf) (by simp [Finding.isWarning])

namespace Expr

variable {e : Expr} {ns : List (Node Expr)} {n : Node Expr}

theorem isValid_iff : e.validate.isValid ↔ ∀ f ∈ e.findings, f.isWarning := by
  simp [validate, Findings.ofList, Findings.isValid]

theorem laterFindings_cons (position : Nat) (n : Node Expr) (ns : List (Node Expr)) :
    laterFindings position (n :: ns) =
      (if n.connective.isNone then [.layout (.missing position)] else []) ++ n.child.findings ++
        laterFindings (position + 1) ns := by
  obtain ⟨c, e⟩ := n
  cases c <;> rfl

theorem findings_composite_cons (n : Node Expr) (ns : List (Node Expr)) :
    (composite (n :: ns)).findings =
      (n.connective.map fun c => .layout (.leading c)).toList ++ n.child.findings ++
        laterFindings 1 ns := by
  obtain ⟨c, e⟩ := n
  cases c <;> rfl

theorem findings_subset_laterFindings (position : Nat) (hn : n ∈ ns) :
    n.child.findings ⊆ laterFindings position ns := by
  induction ns generalizing position with
  | nil => cases hn
  | cons m ns ih =>
    intro f hf
    rw [laterFindings_cons, List.mem_append, List.mem_append]
    rcases List.mem_cons.mp hn with rfl | hn
    · exact .inl (.inr hf)
    · exact .inr (ih (position + 1) hn hf)

theorem findings_subset_composite (hn : n ∈ ns) : n.child.findings ⊆ (composite ns).findings := by
  intro f hf
  cases ns with
  | nil => cases hn
  | cons m ns =>
    rw [findings_composite_cons, List.mem_append, List.mem_append]
    rcases List.mem_cons.mp hn with rfl | hn
    · exact .inl (.inr hf)
    · exact .inr (findings_subset_laterFindings 1 hn hf)

theorem findings_subset_of_mem_leaves {c : Condition} (hc : c ∈ e.leaves) :
    c.findings ⊆ e.findings := by
  induction e with
  | condition d =>
    rw [List.mem_singleton.mp hc]
    exact List.Subset.refl _
  | composite ns ih =>
    rw [leaves, nodeLeaves_eq_flatMap] at hc
    obtain ⟨n, hn, hc⟩ := List.mem_flatMap.mp hc
    exact List.Subset.trans (ih n hn hc) (findings_subset_composite hn)
  | group e ih => exact ih hc
  | constant b label => cases hc
  | foreign v => cases hc

theorem isComplete_of_isValid (h : ∀ f ∈ e.findings, f.isWarning) : e.isComplete := by
  induction e with
  | condition c =>
    obtain ⟨op, ho, -⟩ := Condition.exists_operator h
    exact congrArg Option.isSome ho
  | composite ns ih =>
    exact isComplete_composite.mpr fun n hn =>
      ih n hn fun f hf => h f (findings_subset_composite hn hf)
  | group e ih => exact isComplete_group.mpr (ih h)
  | constant b label => rfl
  | foreign v => cases h (.unsupported v.typeName) (List.mem_singleton.mpr rfl)

end Expr

end RuleTables
