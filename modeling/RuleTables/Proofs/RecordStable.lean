import RuleTables.Proofs.RecordRoundTrip

namespace RuleTables

namespace FlatRecord

variable {r : FlatRecord}

theorem isStorable_of_parse {row : String} (h : parse row = some r)
    (hw : Text.holds row "<>" = false) (hn : r.isSentinel = false) : r.condition.isStorable := by
  obtain ⟨q, ha, rfl, rfl⟩ := exists_toText_of_parse h
  have hm : ',' ∉ (Text.trim q.parameter).toList :=
    isApart_iff.mp (isApart_trimmed ha) _ (by simp [trimmed])
  have hne : Text.trim q.parameter ≠ "" := by simpa [isSentinel, trimmed] using hn
  rw [holds_toText, Bool.not_eq_false'] at hw
  simp only [isWhole, List.all_cons, Bool.and_eq_true, Bool.not_eq_true'] at hw
  obtain ⟨-, -, hpw, -, hv, -⟩ := hw
  simp [Condition.isStorable, condition, Condition.of, trimmed, isName, hm, hne, hv,
    Text.holds_trim hpw, Text.trim_trim]

theorem flat_condition (r : FlatRecord) (entries : List (Nat × Option Connective)) :
    Place.flat ⟨r.condition, entries, 0, 0⟩ = r.condition := by
  simp [Place.flat, condition, Condition.of]

def node (r : FlatRecord) : Node Expr := ⟨some r.joiner, .condition r.condition⟩

theorem placesFrom_nodes (rs : List FlatRecord) (k : Nat) :
    (Expr.placesFrom (k + 1) (rs.map node)).map
      (fun p => (⟨some p.joiner, .condition p.flat⟩ : Node Expr)) = rs.map node := by
  induction rs generalizing k with
  | nil => rfl
  | cons r rs ih =>
    have hj : Place.joiner ⟨r.condition, [(k + 1, some r.joiner)], 0, 0⟩ = r.joiner := by
      simp [Place.joiner, Place.connective]
    rw [List.map_cons, node, Expr.placesFrom, List.map_append, ih (k + 1)]
    simp [Expr.places, Place.inEntry, hj, flat_condition]

theorem flatForm_decode (rs : List FlatRecord) : (decode rs).flatForm = decode rs := by
  unfold decode
  cases rs.filter (!·.isSentinel) with
  | nil => cases rs.any isFalse <;> rfl
  | cons r ds =>
    cases ds with
    | nil => exact congrArg Expr.condition (flat_condition r [])
    | cons s ds =>
      have hf : Expr.flatForm (.composite (nodes (r :: s :: ds))) =
          .composite (⟨none, .condition (Place.flat ⟨r.condition, [(0, none)], 0, 0⟩)⟩ ::
            (Expr.placesFrom 1 ((s :: ds).map node)).map
              fun p => ⟨some p.joiner, .condition p.flat⟩) := rfl
      rw [hf, flat_condition, placesFrom_nodes (s :: ds) 0]
      rfl

theorem leaves_decode (rs : List FlatRecord) :
    (decode rs).leaves = (rs.filter (!·.isSentinel)).map condition := by
  unfold decode
  cases rs.filter (!·.isSentinel) with
  | nil => cases rs.any isFalse <;> rfl
  | cons r ds =>
    cases ds with
    | nil => rfl
    | cons s ds =>
      have hm : (ds.map node).flatMap (·.child.leaves) = ds.map condition := by
        rw [List.flatMap_map, List.map_eq_flatMap]
        rfl
      rw [Expr.leaves, Expr.nodeLeaves_eq_flatMap]
      exact congrArg (r.condition :: s.condition :: ·) hm

theorem isComplete_decode (rs : List FlatRecord) : (decode rs).isComplete := by
  unfold decode
  cases rs.filter (!·.isSentinel) with
  | nil => cases rs.any isFalse <;> rfl
  | cons r ds =>
    cases ds with
    | nil => rfl
    | cons s ds =>
      refine Expr.isComplete_composite.mpr fun n hn => ?_
      rcases List.mem_cons.mp hn with rfl | hn
      · rfl
      · obtain ⟨q, -, rfl⟩ := List.mem_map.mp hn
        rfl

end FlatRecord

namespace Expr

theorem isStorable_decodeText (s : String) : (decodeText s).leaves.all (·.isStorable) := by
  rw [decodeText]
  split
  · rfl
  · rw [FlatRecord.leaves_decode, List.all_map, List.all_eq_true]
    intro r hr
    obtain ⟨hr, hn⟩ := List.mem_filter.mp hr
    obtain ⟨row, hrow, hp⟩ := List.mem_filterMap.mp hr
    exact FlatRecord.isStorable_of_parse hp (Text.not_holds_of_mem_pairPieces hrow)
      ((Bool.not_eq_true' _).mp hn)

theorem isComplete_decodeText (s : String) : (decodeText s).isComplete := by
  rw [decodeText]
  split
  · rfl
  · exact FlatRecord.isComplete_decode _

theorem flatForm_decodeText (s : String) : (decodeText s).flatForm = decodeText s := by
  rw [decodeText]
  split
  · rfl
  · exact FlatRecord.flatForm_decode _

/-- Whatever the text, reading it builds a proper expression, and writing that one and reading it
again gives the same. -/
theorem decodeOptional_stable (t : Option String) :
    (∀ ns, decodeOptional t = composite ns → composite? ns = .ok (decodeOptional t)) ∧
    ∃ s, (decodeOptional t).encodeText = .ok s ∧ decodeText s = decodeOptional t := by
  have ht : decodeOptional t = decodeText (t.getD "") := by cases t <;> rfl
  rw [ht]
  have hc := isComplete_decodeText (t.getD "")
  have hf := flatForm_decodeText (t.getD "")
  refine ⟨fun ns hns => ?_, (decodeText (t.getD "")).recordText, ?_, ?_⟩
  · have hl := isLaidOut_flatForm (decodeText (t.getD ""))
    rw [hf, hns] at hl
    rw [hns, composite?_eq_ok (isLaidOut_composite.mp hl).1]
  · rw [encodeText, obstacle?_eq_none hc]
    rfl
  · rw [decodeText_recordText hc (isStorable_decodeText _), hf]

end Expr

end RuleTables
