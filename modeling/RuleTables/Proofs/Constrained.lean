import Mathlib.Data.List.Forall2
import RuleTables.Proofs.Columns
import RuleTables.Proofs.Separation
import RuleTables.Proofs.Validity

namespace RuleTables

namespace Operator

theorem inQuotes_ne_empty (value : String) : inQuotes value ≠ "" := by
  simp [inQuotes]

theorem literal_ne_empty {value : String} (kind : Kind) (h : value ≠ "") :
    literal kind value ≠ "" := by
  rw [literal]
  split
  · exact inQuotes_ne_empty value
  · exact h

theorem items_ne_empty {value : String} (kind : Kind) (h : Text.allBlank value = false) :
    items kind value ≠ "" := by
  -- several items have a comma between them, and a single one is the value without its blanks
  rw [items, Ne, Text.join_eq_empty_iff, List.map_eq_nil_iff, List.map_eq_singleton_iff]
  rintro (hn | ⟨item, hi, hl⟩)
  · exact Text.pieces_ne_nil ',' value hn
  · have hj := Text.join_pieces value
    rw [hi, Text.join, String.intercalate_singleton] at hj
    have ht : Text.trim item ≠ "" := by
      rw [hj, Ne, Text.trim_eq_empty_iff, h]
      simp
    exact literal_ne_empty kind ht hl

theorem unaryTest_ne_empty (op : Operator) {value : String} (kind : Kind)
    (h : op.needsValue → Text.allBlank value = false) : op.unaryTest value kind ≠ "" := by
  unfold unaryTest
  cases op with
  | equals => exact literal_ne_empty kind (Text.ne_empty_of_not_allBlank (h rfl))
  | between =>
    dsimp only
    split
    · simp
    · exact Text.ne_empty_of_not_allBlank (h rfl)
  | oneOf => exact items_ne_empty kind (h rfl)
  | _ => simp

end Operator

theorem Condition.cell_ne_empty {c : Condition} (h : ∀ f ∈ c.findings, f.isWarning) :
    c.cell ≠ "" := by
  obtain ⟨op, ho, hv⟩ := exists_operator h
  rw [cell, ho]
  exact op.unaryTest_ne_empty c.kind hv

/-- A number that is missing leaves the cell empty, so the check for a value is needed. -/
example : (Condition.of "amount" (some .equals) "" (some .integer) true).cell = "" := by decide

namespace Expr

variable {e : Expr}

theorem cell_eq_empty_iff {cs : List Condition} {column : String} (h : ∀ c ∈ cs, c.cell ≠ "") :
    cell cs column = "" ↔ ∀ c ∈ cs, c.parameter ≠ column := by
  -- a number that is missing leaves the cell empty, so the check for a value is needed
  refine ⟨fun he c hc hp => ?_, cell_eq_empty⟩
  have hm : c.cell ∈ (cs.filter (·.parameter = column)).map (·.cell) :=
    List.mem_map_of_mem (List.mem_filter.mpr ⟨hc, by simpa using hp⟩)
  rcases Text.join_eq_empty_iff.mp he with hn | hs
  · rw [hn] at hm
    cases hm
  · rw [hs] at hm
    exact h c hc (List.mem_singleton.mp hm)

def isOn (g : List Expr) (column : String) : Bool :=
  (g.flatMap leaves).any (·.parameter = column)

theorem constrained_row {columns outputs : List String} {g : List Expr}
    (h : ∀ c ∈ g.flatMap leaves, c.cell ≠ "") :
    (row columns outputs g).constrained.map (·.1) = columns.eraseDups.filter (isOn g) := by
  rw [Row.constrained, entries_row, List.filter_map, List.map_map]
  refine (List.map_id _).trans (List.filter_congr fun column _ => ?_)
  rw [Bool.eq_iff_iff, isOn, List.any_eq_true, Function.comp_apply, decide_eq_true_iff, Ne,
    cell_eq_empty_iff h]
  push Not
  simp only [decide_eq_true_eq]

/-- An expression in which no error is found has its rows, one for each group. A cell is empty just
when no condition of the group is on its column, so what a row restricts are the columns that its
group names. -/
theorem compileRows_constrained (h : e.validate.isValid) (columns outputs : List String) :
    ∃ rows, e.compileRows columns outputs = .ok rows ∧ List.Forall₂ (fun g r =>
      (∀ column ∈ columns, ∃ text, Assoc.find? column r.entries = some text ∧
        (text = "" ↔ ∀ c ∈ g.flatMap leaves, c.parameter ≠ column)) ∧
      r.constrained.map (·.1) = columns.eraseDups.filter (isOn g)) e.compiledGroups rows := by
  rw [isValid_iff] at h
  refine ⟨_, compileRows_eq (isComplete_of_isValid h) columns outputs, ?_⟩
  rw [List.forall₂_map_right_iff, List.forall₂_same]
  intro g hg
  have hc : ∀ c ∈ g.flatMap leaves, c.cell ≠ "" := fun c hc =>
    Condition.cell_ne_empty fun f hf => h f (findings_subset_of_mem_leaves
      (mem_leaves_of_mem_rowGroups (List.mem_filter.mp hg).1 hc) hf)
  exact ⟨fun column hm => ⟨_, find?_row outputs g hm, cell_eq_empty_iff hc⟩, constrained_row hc⟩

def listedOrVip : Expr :=
  composite [⟨none, condition (.of "amount" (some .oneOf) "10,," (some .integer) true)⟩,
    ⟨some .or, group (composite [⟨none, condition (.equals "class" "vip")⟩])⟩]

theorem listedOrVip_constrained : listedOrVip.validate.isValid ∧ ∃ r s,
    listedOrVip.compileRows ["class", "amount", "class"] [] = .ok [r, s] ∧
      r.constrained.map (·.1) = ["amount"] ∧ s.constrained.map (·.1) = ["class"] := by
  have hv : listedOrVip.validate.isValid := by decide
  obtain ⟨rows, hr, hf⟩ := compileRows_constrained hv ["class", "amount", "class"] []
  obtain _ | ⟨⟨-, hx⟩, _ | ⟨⟨-, hy⟩, _ | _⟩⟩ := hf
  exact ⟨hv, _, _, hr, hx, hy⟩

end Expr

end RuleTables
