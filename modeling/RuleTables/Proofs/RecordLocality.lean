import RuleTables.Proofs.RecordStable

namespace RuleTables

namespace Text

theorem infix_of_mem_splitAtPair {a b : Char} {xs p : List Char} (h : p ∈ splitAtPair a b xs) :
    p <:+: xs := by
  fun_induction splitAtPair a b xs generalizing p with
  | case1 => exact List.mem_singleton.mp h ▸ List.infix_rfl
  | case2 c => exact List.mem_singleton.mp h ▸ List.infix_rfl
  | case3 c d cs hc ih =>
    rcases List.mem_cons.mp h with rfl | h
    · exact List.nil_infix
    · exact (ih h).trans (List.suffix_append [c, d] cs).isInfix
  | case4 c d cs hc ih =>
    obtain ⟨q, qs, hq⟩ := List.exists_cons_of_ne_nil (splitAtPair_ne_nil a b (d :: cs))
    rw [hq] at h
    rcases List.mem_cons.mp h with rfl | h
    · exact (List.cons_prefix_cons.mpr ⟨rfl, prefix_of_splitAtPair hq⟩).isInfix
    · exact (ih (by rw [hq]; exact List.mem_cons_of_mem _ h)).trans (List.suffix_cons c _).isInfix

theorem count_le_of_mem_pairPieces {a b : Char} {s p : String} (c : Char)
    (h : p ∈ pairPieces a b s) : p.toList.count c ≤ s.toList.count c := by
  obtain ⟨q, hq, rfl⟩ := List.mem_map.mp h
  rw [String.toList_ofList]
  exact (infix_of_mem_splitAtPair hq).sublist.count_le c

theorem length_splitAt (c : Char) (cs : List Char) : (splitAt c cs).length = cs.count c + 1 := by
  induction cs with
  | nil => rfl
  | cons d cs ih =>
    rw [splitAt]
    by_cases h : d = c
    · rw [if_pos h, List.length_cons, ih, h, List.count_cons_self]
    · obtain ⟨p, ps, hp⟩ := List.exists_cons_of_length_eq_add_one ih
      rw [if_neg h, List.count_cons_of_ne h, ← ih, hp]
      rfl

theorem length_pieces (c : Char) (s : String) : (pieces c s).length = s.toList.count c + 1 := by
  rw [pieces, List.length_map, length_splitAt]

end Text

namespace FlatRecord

/-- How many fields there are between the commas of a row. -/
def fieldCount (row : String) : Nat := (Text.pieces ',' row).length

theorem fieldCount_eq (row : String) : fieldCount row = row.toList.count ',' + 1 := by
  rw [fieldCount, Text.length_pieces]

theorem parse_eq_none_iff {row : String} : parse row = none ↔ fieldCount row < 6 := by
  unfold parse fieldCount
  split
  · next h => simp [h]
  · next h =>
    simp only [true_iff]
    by_contra hl
    match hp : Text.pieces ',' row with
    | c :: o :: p :: y :: v :: w :: ws => exact h c o p y v w ws hp
    | [] | [_] | [_, _] | [_, _, _] | [_, _, _, _] | [_, _, _, _, _] => simp [hp] at hl

theorem ofText_eq_nil {row : String} (h : fieldCount row < 6) : ofText row = [] := by
  refine List.filterMap_eq_nil_iff.mpr fun p hp => parse_eq_none_iff.mpr ?_
  have hc := Text.count_le_of_mem_pairPieces ',' hp
  rw [fieldCount_eq] at h ⊢
  omega

theorem ofText_append (s t : String) : ofText (s ++ "<>" ++ t) = ofText s ++ ofText t := by
  rw [ofText, Text.pairPieces_append, List.filterMap_append]
  rfl

theorem ofText_join_eq (rows : List String) :
    ofText (Text.join "<>" rows) = rows.flatMap ofText := by
  cases rows with
  | nil => rfl
  | cons row rows => exact Text.flatMap_of_join ofText_append (List.cons_ne_nil row rows)

def ofConditions (s : String) : List FlatRecord := (ofText s).filter (!·.isSentinel)

theorem ofConditions_append (s t : String) :
    ofConditions (s ++ "<>" ++ t) = ofConditions s ++ ofConditions t := by
  rw [ofConditions, ofText_append, List.filter_append]
  rfl

theorem joiner_eq (r : FlatRecord) : r.joiner =
    if Text.lower (Text.trim r.connective) = "or" ∨ Text.trim r.connective = "||" then .or
    else .and := by
  have hblank : Text.allBlank r.connective ↔ Text.trim r.connective = "" :=
    Text.trim_eq_empty_iff.symm
  rw [joiner, Connective.ofSymbol?]
  simp only [hblank]
  generalize Text.trim r.connective = u
  -- blank text and the signs, and else the symbols, which do not clash with them
  by_cases hs : u ∈ ["", "&&", "||"]
  · simp only [List.mem_cons, List.not_mem_nil, or_false] at hs
    rcases hs with rfl | rfl | rfl <;> decide
  · simp only [List.mem_cons, List.not_mem_nil, or_false, not_or] at hs
    obtain ⟨h0, ha, ho⟩ := hs
    generalize Text.lower u = l
    by_cases h : l = "and"
    · subst h
      simp [h0, Connective.all, Connective.symbol, ho]
    · by_cases h' : l = "or"
      · subst h'
        simp [h0, Connective.all, Connective.symbol, Connective.sign, ha, ho]
      · simp [h0, Connective.all, Connective.symbol, Connective.sign, ha, ho, h, h']

theorem exists_row (h : r ∈ ofText s) : ∃ row ∈ Text.pairPieces '<' '>' s,
    parse row = some r ∧ r.connective = Text.trim ((Text.pieces ',' row).headD "") := by
  obtain ⟨row, hm, hp⟩ := List.mem_filterMap.mp h
  obtain ⟨c, o, p, y, k, vs, -, hs, rfl⟩ := pieces_of_parse hp
  exact ⟨row, hm, hp, by rw [hs]; rfl⟩

end FlatRecord

namespace Expr

/-- The conditions of an expression, each with the connective of the node that it stands in. -/
def joinedLeaves : Expr → List (Option Connective × Condition)
  | composite ns => ns.flatMap fun n => n.child.leaves.map (n.connective, ·)
  | e => e.leaves.map (none, ·)

theorem joinedLeaves_decode (rs : List FlatRecord) : (FlatRecord.decode rs).joinedLeaves =
    (rs.filter (!·.isSentinel)).mapIdx fun i r =>
      (if i = 0 then none else some r.joiner, r.condition) := by
  unfold FlatRecord.decode
  cases rs.filter (!·.isSentinel) with
  | nil => cases rs.any FlatRecord.isFalse <;> rfl
  | cons r rs =>
    cases rs with
    | nil => rfl
    | cons s rs =>
      have hm : ((s :: rs).map FlatRecord.node).flatMap
          (fun n => n.child.leaves.map (n.connective, ·)) =
            (s :: rs).map fun r => (some r.joiner, r.condition) := by
        rw [List.flatMap_map, List.map_eq_flatMap]
        rfl
      rw [List.mapIdx_cons]
      refine congrArg ((none, r.condition) :: ·) (hm.trans ?_)
      exact List.ext_getElem (by simp) fun i _ _ => by
        rw [List.getElem_map, List.getElem_mapIdx, if_neg i.succ_ne_zero]

theorem decodeText_eq (s : String) : decodeText s = FlatRecord.decode (FlatRecord.ofText s) := by
  -- blank text is no exception: it is one row with one field
  rw [decodeText]
  split
  · next h =>
    have hc : ',' ∉ s.toList := fun hm => by
      have := List.all_eq_true.mp h _ hm
      revert this
      decide
    have hf : FlatRecord.fieldCount s < 6 := by
      rw [FlatRecord.fieldCount_eq, List.count_eq_zero.mpr hc]
      decide
    rw [FlatRecord.ofText_eq_nil hf]
    rfl
  · rfl

theorem leaves_decodeText (s : String) :
    (decodeText s).leaves = (FlatRecord.ofConditions s).map FlatRecord.condition := by
  rw [decodeText_eq, FlatRecord.leaves_decode]
  rfl

theorem decodeText_insert (before inserted after : List String)
    (h : ∀ row ∈ inserted, FlatRecord.fieldCount row < 6) :
    decodeText (Text.join "<>" (before ++ inserted ++ after)) =
      decodeText (Text.join "<>" (before ++ after)) := by
  have hi : inserted.flatMap FlatRecord.ofText = [] :=
    List.flatMap_eq_nil_iff.mpr fun row hr => FlatRecord.ofText_eq_nil (h row hr)
  simp only [decodeText_eq, FlatRecord.ofText_join_eq, List.flatMap_append, hi, List.append_nil]

/-- Reading is local to the records. The conditions of two texts that are joined are those of the
one and then those of the other, each condition but the first joined as the first field of its own
row says; and rows that have too few fields may stand anywhere. -/
theorem decodeText_append :
    (∀ s, (decodeText s).leaves = (FlatRecord.ofConditions s).map FlatRecord.condition) ∧
      (∀ s, ∀ r ∈ FlatRecord.ofConditions s, ∃ row ∈ Text.pairPieces '<' '>' s,
        FlatRecord.parse row = some r ∧
          r.connective = Text.trim ((Text.pieces ',' row).headD "")) ∧
      (∀ s t, (decodeText (s ++ "<>" ++ t)).leaves =
        (decodeText s).leaves ++ (decodeText t).leaves) ∧
      (∀ s t, (decodeText (s ++ "<>" ++ t)).joinedLeaves =
        (FlatRecord.ofConditions s ++ FlatRecord.ofConditions t).mapIdx fun i r =>
          (if i = 0 then none
            else some (if Text.lower (Text.trim r.connective) = "or" ∨
              Text.trim r.connective = "||" then .or else .and), r.condition)) ∧
      ∀ before inserted after : List String, (∀ row ∈ inserted, FlatRecord.fieldCount row < 6) →
        decodeText (Text.join "<>" (before ++ inserted ++ after)) =
          decodeText (Text.join "<>" (before ++ after)) := by
  refine ⟨leaves_decodeText, fun s r hr => FlatRecord.exists_row (List.mem_of_mem_filter hr),
    fun s t => ?_, fun s t => ?_, decodeText_insert⟩
  · rw [leaves_decodeText, FlatRecord.ofConditions_append, List.map_append, leaves_decodeText,
      leaves_decodeText]
  · simp only [← FlatRecord.joiner_eq]
    rw [← FlatRecord.ofConditions_append, decodeText_eq, joinedLeaves_decode]
    rfl

theorem decodeText_comment :
    decodeText
        (Text.join "<>" (["and, ,age,>,17, "] ++ ["see above, <>"] ++ ["Or, ,vip,==,true, "])) =
      decodeText (Text.join "<>" (["and, ,age,>,17, "] ++ ["Or, ,vip,==,true, "])) ∧
    (decodeText ("and, ,age,>,17, " ++ "<>" ++
        "Or, ,vip,==,true, <>and, ,rush,==,true, ")).joinedLeaves =
      [(none, ⟨"age", some .greaterThan, "17", .integer, false⟩),
        (some .or, ⟨"vip", some .equals, "true", .boolean, false⟩),
        (some .and, ⟨"rush", some .equals, "true", .boolean, false⟩)] := by
  obtain ⟨-, -, -, hj, hi⟩ := decodeText_append
  exact ⟨hi _ _ _ (by decide), (hj _ _).trans (by decide)⟩

end Expr

end RuleTables
