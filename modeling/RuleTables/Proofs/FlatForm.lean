import RuleTables.Proofs.RecordStable
import RuleTables.Proofs.RowGroups
import RuleTables.Proofs.Validity

namespace RuleTables

namespace Condition

/-- The condition with the kind that its value looks like. -/
def reread (c : Condition) : Condition :=
  .of c.parameter c.operator c.value none c.grouped

/-- The operator compares values of the kind that the value looks like. -/
def fitsValue (c : Condition) : Bool :=
  c.operator.all (·.supports (.infer c.value))

variable {c : Condition}

theorem parameter_not_blank (h : ∀ f ∈ c.findings, f.isWarning) :
    Text.allBlank c.parameter = false := by
  rw [← Bool.not_eq_true]
  intro hb
  exact absurd (h .noParameter (by simp [findings, hb])) (by decide)

theorem isWarning_reread_iff (h : ∀ f ∈ c.findings, f.isWarning) :
    (∀ f ∈ c.reread.findings, f.isWarning) ↔ c.fitsValue := by
  obtain ⟨op, ho, hv⟩ := exists_operator h
  have hp := parameter_not_blank h
  have hn : (op.needsValue && Text.allBlank c.value) = false := by
    cases hn : op.needsValue with
    | false => rfl
    | true => exact hv hn
  have hf : c.reread.findings =
      if op.supports (.infer c.value) then [] else [.wrongKind op (.infer c.value)] := by
    simp [reread, of, findings, hp, ho, hn]
  rw [hf, fitsValue, ho, Option.all_some]
  cases op.supports (.infer c.value) <;> simp [Finding.isWarning]

end Condition

namespace Expr

variable {e : Expr} {ns : List (Node Expr)}

theorem laterFindings_eq_flatMap (h : ∀ n ∈ ns, n.connective.isSome) (position : Nat) :
    laterFindings position ns = ns.flatMap (·.child.findings) := by
  induction ns generalizing position with
  | nil => rfl
  | cons n ns ih =>
    have hn : n.connective.isNone = false := by
      simpa using h n List.mem_cons_self
    rw [laterFindings_cons, ih (fun m hm => h m (List.mem_cons_of_mem _ hm)), hn]
    rfl

theorem findings_assemble (ps : List Place) :
    (assemble ps).findings = ps.flatMap (·.flat.findings) := by
  match ps with
  | [] => rfl
  | [p] => simp [assemble, findings]
  | p :: q :: ps =>
    have hl : ∀ n ∈ (q :: ps).map fun r => (⟨some r.joiner, condition r.flat⟩ : Node Expr),
        n.connective.isSome := List.forall_mem_map.mpr fun _ _ => rfl
    rw [assemble, findings_composite_cons, laterFindings_eq_flatMap hl, List.flatMap_map]
    rfl

theorem findings_flatForm (e : Expr) :
    e.flatForm.findings = e.leaves.flatMap (·.reread.findings) := by
  rw [← places_conditions, List.flatMap_map]
  unfold flatForm
  split
  · rfl
  · exact findings_assemble _

theorem isValid_flatForm_iff (h : e.validate.isValid) :
    e.flatForm.validate.isValid ↔ ∀ c ∈ e.leaves, c.fitsValue := by
  rw [isValid_iff] at h ⊢
  have hk : ∀ c ∈ e.leaves, (∀ f ∈ c.reread.findings, f.isWarning) ↔ c.fitsValue := fun c hc =>
    Condition.isWarning_reread_iff fun f hf => h f (findings_subset_of_mem_leaves hc hf)
  rw [findings_flatForm, List.forall_mem_flatMap]
  exact forall₂_congr hk

theorem isStorable_of_isValid (h : e.validate.isValid)
    (hs : ∀ c ∈ e.leaves, FlatRecord.isName c.parameter ∧ Text.holds c.value "<>" = false) :
    e.leaves.all (·.isStorable) := by
  rw [isValid_iff] at h
  refine List.all_eq_true.mpr fun c hc => ?_
  obtain ⟨hn, hv⟩ := hs c hc
  have hb := Condition.parameter_not_blank fun f hf => h f (findings_subset_of_mem_leaves hc hf)
  have hp : c.parameter ≠ "" := Text.ne_empty_of_not_allBlank hb
  simp [Condition.isStorable, hp, hn, hv]

/-- A valid expression that is stored and read back is valid just when the operators of all its
conditions compare values of the kind that their values look like. -/
theorem isValid_decodeText_iff (hv : e.validate.isValid)
    (hs : ∀ c ∈ e.leaves, FlatRecord.isName c.parameter ∧ Text.holds c.value "<>" = false) :
    ∃ s, e.encodeText = .ok s ∧
      ((decodeText s).validate.isValid ↔ ∀ c ∈ e.leaves, c.fitsValue) := by
  have hc := isComplete_of_isValid (isValid_iff.mp hv)
  refine ⟨e.recordText, encodeText_eq hc, ?_⟩
  rw [decodeText_recordText hc (isStorable_of_isValid hv hs), isValid_flatForm_iff hv]

def largeOrListed : Expr :=
  composite [⟨none, condition (.of "amount" (some .greaterThan) "500" (some .long) true)⟩,
    ⟨some .or, condition (.of "class" (some .oneOf) "gold, vip" none true)⟩]

theorem largeOrListed_stays_valid : largeOrListed.validate.isValid ∧
    ∃ s, largeOrListed.encodeText = .ok s ∧ (decodeText s).validate.isValid := by
  have hv : largeOrListed.validate.isValid := by decide
  have hs : ∀ c ∈ largeOrListed.leaves,
      FlatRecord.isName c.parameter ∧ Text.holds c.value "<>" = false := by decide
  have hf : ∀ c ∈ largeOrListed.leaves, c.fitsValue := by decide
  obtain ⟨s, he, hd⟩ := isValid_decodeText_iff hv hs
  exact ⟨hv, s, he, hd.mpr hf⟩

def sinceAndAged : Expr :=
  composite [⟨none, condition (.of "start" (some .greaterThan) "2024-01-01" (some .date) true)⟩,
    ⟨some .and, condition (.of "age" (some .between) "18,65" (some .integer) true)⟩]

/-- Neither a day nor a range looks like anything but text. -/
theorem sinceAndAged_not_valid : sinceAndAged.isLaidOut ∧ sinceAndAged.validate.isValid ∧
    (∀ c ∈ sinceAndAged.leaves,
      FlatRecord.isName c.parameter ∧ Text.holds c.value "<>" = false) ∧
    ∃ s, sinceAndAged.encodeText = .ok s ∧ (decodeText s).validate.isValid = false ∧
      (decodeText s).validate.errors =
        ["Operator 'greater than' does not support data type STRING",
          "Operator 'between' does not support data type STRING"] := by
  have hc : sinceAndAged.isComplete := by decide
  have hs : sinceAndAged.leaves.all (·.isStorable) := by decide
  refine ⟨by decide, by decide, by decide, sinceAndAged.recordText, encodeText_eq hc, ?_⟩
  rw [decodeText_recordText hc hs]
  decide

section Rows

theorem compiledGroups_of_holdable (h : e.holdable) : e.compiledGroups = e.rowGroups := by
  refine List.filter_eq_self.mpr fun g hg => List.all_eq_true.mpr fun x hx => ?_
  obtain rfl | ⟨ns, rfl, n, hn, rfl⟩ := mem_rowGroups hg hx
  · exact h
  · rw [holdable, nodesHoldable_eq_all, List.all_eq_true] at h
    exact h n hn

theorem holdable_assemble (ps : List Place) : (assemble ps).holdable := by
  match ps with
  | [] | [_] => rfl
  | p :: q :: ps =>
    rw [assemble, holdable, nodesHoldable_eq_all, List.all_cons, List.all_map]
    exact List.all_eq_true.mpr fun _ _ => rfl

theorem length_compiledGroups_assemble (ps : List Place) :
    (assemble ps).compiledGroups.length = ps.tail.countP (·.joiner = .or) + 1 := by
  rw [compiledGroups_of_holdable (holdable_assemble ps)]
  match ps with
  | [] | [_] => rfl
  | p :: q :: ps =>
    rw [assemble, rowGroups, nodeGroups_eq_runs, List.length_map, Node.length_runs, List.countP_map]
    simp [Function.comp_def]

theorem compiledGroups_flatForm (e : Expr) :
    (∃ label, e = constant false label) ∧ e.flatForm.compiledGroups = [] ∨
    (∀ label, e ≠ constant false label) ∧
      e.flatForm.compiledGroups.length = e.places.tail.countP (·.joiner = .or) + 1 := by
  unfold flatForm
  split
  · next label => exact .inl ⟨⟨label, rfl⟩, rfl⟩
  · next hf => exact .inr ⟨hf, length_compiledGroups_assemble _⟩

/-- A false constant has no rows when it is stored and read back. Anything else has rows, one more
than it has later conditions joined by `or`: no false constant in it keeps it from them. -/
theorem compileOwnRows_decodeText (hc : e.isComplete) (hs : e.leaves.all (·.isStorable))
    (outputs : List String) : ∃ s rows, e.encodeText = .ok s ∧
      (decodeText s).compileOwnRows outputs = .ok rows ∧
      (rows = [] ↔ ∃ label, e = constant false label) ∧
      (rows ≠ [] → rows.length = e.places.tail.countP (·.joiner = .or) + 1) := by
  have hd := compileOwnRows_eq (isComplete_decodeText e.recordText) outputs
  refine ⟨e.recordText, _, encodeText_eq hc, hd, ?_⟩
  rw [decodeText_recordText hc hs, ← List.length_eq_zero_iff, List.length_map]
  rcases compiledGroups_flatForm e with ⟨he, hn⟩ | ⟨he, hl⟩
  · rw [hn]
    exact ⟨iff_of_true rfl he, fun h => absurd rfl h⟩
  · rw [hl]
    exact ⟨iff_of_false (Nat.succ_ne_zero _) fun ⟨label, h⟩ => he label h, fun _ => rfl⟩

def neverLargeOrVip : Expr :=
  composite [⟨none, condition (.greaterThan "amount" "500")⟩, ⟨some .and, alwaysFalse⟩,
    ⟨some .or, composite [⟨none, condition (.equals "class" "vip")⟩,
      ⟨some .and, alwaysFalse⟩]⟩]

theorem neverLargeOrVip_has_rows : neverLargeOrVip.isComplete ∧
    neverLargeOrVip.leaves.all (·.isStorable) ∧ neverLargeOrVip.compiledGroups = [] ∧
    ∃ s rows, neverLargeOrVip.encodeText = .ok s ∧
      (decodeText s).compileOwnRows ["\"no\""] = .ok rows ∧ rows.length = 2 := by
  have hc : neverLargeOrVip.isComplete := by decide
  have hs : neverLargeOrVip.leaves.all (·.isStorable) := by decide
  obtain ⟨s, rows, he, hd, hn, hl⟩ := compileOwnRows_decodeText hc hs ["\"no\""]
  exact ⟨hc, hs, rfl, s, rows, he, hd, hl fun h => nomatch hn.mp h⟩

def neverLarge : Expr :=
  composite [⟨none, condition (.greaterThan "amount" "500")⟩, ⟨some .and, alwaysFalse⟩]

theorem neverLarge_comes_alive : neverLarge.isLaidOut ∧ neverLarge.isComplete ∧
    neverLarge.leaves.all (·.isStorable) ∧ neverLarge.compileOwnRows [] = .ok [] ∧
    ∃ s, neverLarge.encodeText = .ok s ∧
      (decodeText s).compileOwnRows [] = .ok [⟨[("amount", "> 500")], []⟩] := by
  have hc : neverLarge.isComplete := by decide
  have hs : neverLarge.leaves.all (·.isStorable) := by decide
  refine ⟨by decide, hc, hs, ?_, neverLarge.recordText, encodeText_eq hc, ?_⟩
  · rw [compileOwnRows_eq hc]
    rfl
  · rw [decodeText_recordText hc hs]
    rfl

end Rows

end Expr

end RuleTables
