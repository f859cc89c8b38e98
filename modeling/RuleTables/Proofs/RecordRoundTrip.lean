import RuleTables.Proofs.Places
import RuleTables.Proofs.RecordText

namespace RuleTables

/-- Text that may stand as a name in a record: without separators, and without blanks around it. -/
def FlatRecord.isName (s : String) : Bool :=
  !s.toList.contains ',' && !Text.holds s "<>" && Text.trim s = s

theorem Operator.ofSymbol?_symbol (op : Operator) : ofSymbol? op.symbol = some op := by
  cases op <;> decide

theorem Operator.isName_symbol (op : Option Operator) :
    FlatRecord.isName ((op.map (·.symbol)).getD "") := by
  cases op with
  | none => decide
  | some op => cases op <;> decide

theorem Connective.ofSymbol?_symbol (c : Option Connective) :
    ofSymbol? ((c.map (·.symbol)).getD "") = some c := by
  cases c with
  | none => decide
  | some c => cases c <;> decide

theorem Connective.isName_symbol (c : Option Connective) :
    FlatRecord.isName ((c.map (·.symbol)).getD "") := by
  cases c with
  | none => decide
  | some c => cases c <;> decide

/-- A condition that a record can hold. -/
def Condition.isStorable (c : Condition) : Bool :=
  c.parameter ≠ "" && FlatRecord.isName c.parameter && !Text.holds c.value "<>"

namespace Place

def joiner (p : Place) : Connective := (p.connective none).getD .and

/-- The condition as it is read back: its kind is guessed from its value, and it is grouped when it
was or begins a group. -/
def flat (p : Place) : Condition :=
  .of p.condition.parameter p.condition.operator p.condition.value none
    (p.condition.grouped || p.opened ≠ 0)

variable {p : Place} {outer : Option Connective}

theorem not_mem_marks {c : Char} (ho : c ≠ '(') (hk : c ≠ ')') (hb : c ≠ ' ') (p : Place) :
    c ∉ p.openMark.toList ∧ c ∉ p.closeMark.toList := by
  cases hg : p.condition.grouped <;> simp [openMark, closeMark, hg, ho, hk, hb]

theorem record_returns (outer : Option Connective) (h : p.condition.isStorable) :
    (p.record outer).isApart ∧ (p.record outer).trimmed = p.record outer ∧
      (p.record outer).isWhole := by
  have hc := Connective.isName_symbol (p.connective outer)
  have hy := Operator.isName_symbol p.condition.operator
  obtain ⟨ho, hk⟩ := not_mem_marks (c := ',') (by decide) (by decide) (by decide) p
  obtain ⟨ho', hk'⟩ := not_mem_marks (c := '<') (by decide) (by decide) (by decide) p
  simp only [FlatRecord.isName, Bool.and_eq_true, Bool.not_eq_true', decide_eq_true_eq,
    List.contains_eq_mem, decide_eq_false_iff_not, Condition.isStorable] at hc hy h
  obtain ⟨⟨hc, hcw⟩, hct⟩ := hc
  obtain ⟨⟨hy, hyw⟩, hyt⟩ := hy
  obtain ⟨⟨-, ⟨hp, hpw⟩, hpt⟩, hv⟩ := h
  refine ⟨?_, ?_, ?_⟩
  · simp [FlatRecord.isApart_iff, record, hc, hp, hy, ho, hk]
  · simp [FlatRecord.trimmed_eq_self_iff, record, hct, hpt, hyt]
  · have how := Text.holds_eq_false_of_not_mem "<>" (by decide) ho'
    have hkw := Text.holds_eq_false_of_not_mem "<>" (by decide) hk'
    simp [FlatRecord.isWhole, record, hcw, hpw, hyw, hv, how, hkw]

theorem record_condition (h : p.condition.operator.isSome) :
    (p.record outer).condition = p.flat := by
  obtain ⟨op, ho⟩ := Option.isSome_iff_exists.mp h
  have hm : p.openMark.toList.contains '(' = (p.condition.grouped || p.opened ≠ 0) := by
    cases hg : p.condition.grouped <;> cases ho : p.opened <;> simp [openMark, hg, ho]
  rw [FlatRecord.condition, FlatRecord.operator, record, flat, ho, Option.map_some,
    Option.getD_some, Operator.ofSymbol?_symbol, Option.getD_some, hm]

theorem record_joiner (p : Place) : (p.record none).joiner = p.joiner := by
  rw [FlatRecord.joiner, record, joiner, Connective.ofSymbol?_symbol, Option.getD_some]

end Place

namespace Expr

def assemble : List Place → Expr
  | [] => alwaysTrue
  | [p] => condition p.flat
  | p :: q :: ps =>
    composite (⟨none, condition p.flat⟩ ::
      (q :: ps).map fun r => ⟨some r.joiner, condition r.flat⟩)

/-- What is left of an expression when it is read back from its records. -/
def flatForm : Expr → Expr
  | constant false _ => alwaysFalse
  | e => assemble e.places

variable {e : Expr}

theorem isLaidOut_assemble (ps : List Place) : (assemble ps).isLaidOut := by
  match ps with
  | [] | [_] => rfl
  | p :: q :: ps =>
    refine isLaidOut_composite.mpr ⟨layoutFault?_eq_none_iff.mpr ⟨_, _, rfl, rfl, ?_⟩, ?_⟩
    · intro n hn
      obtain ⟨r, -, rfl⟩ := List.mem_map.mp hn
      rfl
    · intro n hn
      rcases List.mem_cons.mp hn with rfl | hn
      · rfl
      · obtain ⟨r, -, rfl⟩ := List.mem_map.mp hn
        rfl

theorem decode_map_record {ps : List Place} (hn : ps ≠ [])
    (h : ∀ p ∈ ps, p.condition.isStorable ∧ p.condition.operator.isSome) :
    FlatRecord.decode (ps.map (Place.record none)) = assemble ps := by
  have hf : (ps.map (Place.record none)).filter (!·.isSentinel) = ps.map (Place.record none) := by
    refine List.filter_eq_self.mpr fun r hr => ?_
    obtain ⟨p, hp, rfl⟩ := List.mem_map.mp hr
    have hs := (h p hp).1
    simp only [Condition.isStorable, Bool.and_eq_true, decide_eq_true_eq] at hs
    simpa [FlatRecord.isSentinel, Place.record] using hs.1.1
  have hc : ∀ p ∈ ps, (p.record none).condition = p.flat := fun p hp =>
    Place.record_condition (h p hp).2
  rw [FlatRecord.decode, hf]
  cases ps with
  | nil => exact absurd rfl hn
  | cons p ps =>
    cases ps with
    | nil => simp [assemble, hc]
    | cons q ps =>
      have hm : ((q :: ps).map (Place.record none)).map
          (fun s => (⟨some s.joiner, condition s.condition⟩ : Node Expr)) =
          (q :: ps).map fun r => ⟨some r.joiner, condition r.flat⟩ := by
        rw [List.map_map]
        refine List.map_congr_left fun r hr => ?_
        rw [Function.comp_apply, Place.record_joiner, hc r (List.mem_cons_of_mem p hr)]
      rw [assemble, ← hm, ← hc p List.mem_cons_self]
      rfl

theorem records_of_places (hn : e.places ≠ []) :
    e.records = e.places.map (Place.record none) ∧ e.flatForm = assemble e.places := by
  cases e with
  | constant b label => exact absurd rfl hn
  | condition _ | composite _ | group _ | foreign _ =>
    obtain ⟨p, ps, hp⟩ := List.exists_cons_of_ne_nil hn
    rw [records, FlatRecord.ofExpr_eq_map, flatForm, hp]
    · exact ⟨rfl, rfl⟩
    · nofun
    · nofun

theorem records_of_no_places (hn : e.places = []) : ∃ value ∈ ["", "true", "false"],
    e.records = [.sentinel value] ∧ e.flatForm = always (value ≠ "false") := by
  cases e with
  | constant b label =>
    cases b with
    | false => exact ⟨"false", by simp, rfl, rfl⟩
    | true => exact ⟨"true", by simp, rfl, rfl⟩
  | condition _ | composite _ | group _ | foreign _ =>
    refine ⟨"", by simp, ?_, ?_⟩
    · rw [records, FlatRecord.ofExpr_eq_map, hn]
      · rfl
      · nofun
    · rw [flatForm, hn]
      · rfl
      · nofun

theorem mem_places (hc : e.isComplete) (hs : e.leaves.all (·.isStorable)) :
    ∀ p ∈ e.places, p.condition.isStorable ∧ p.condition.operator.isSome := by
  intro p hp
  have hm : p.condition ∈ e.leaves := by
    rw [← places_conditions]
    exact List.mem_map_of_mem hp
  exact ⟨List.all_eq_true.mp hs _ hm, operator_isSome hc _ hm⟩

theorem decode_records (hc : e.isComplete) (hs : e.leaves.all (·.isStorable)) :
    FlatRecord.decode e.records = e.flatForm := by
  by_cases hn : e.places = []
  · obtain ⟨value, hv, hr, hf⟩ := records_of_no_places hn
    rw [hr, hf]
    simp only [List.mem_cons, List.not_mem_nil, or_false] at hv
    rcases hv with rfl | rfl | rfl <;> rfl
  · obtain ⟨hr, hf⟩ := records_of_places hn
    rw [hr, hf, decode_map_record hn (mem_places hc hs)]

theorem decodeText_recordText (hc : e.isComplete) (hs : e.leaves.all (·.isStorable)) :
    decodeText e.recordText = e.flatForm := by
  have hr : e.records ≠ [] ∧ ∀ r ∈ e.records, r.isApart ∧ r.trimmed = r ∧ r.isWhole := by
    by_cases hn : e.places = []
    · obtain ⟨value, hv, hr, -⟩ := records_of_no_places hn
      rw [hr]
      refine ⟨List.cons_ne_nil _ _, fun r hm => ?_⟩
      rw [List.mem_singleton.mp hm]
      simp only [List.mem_cons, List.not_mem_nil, or_false] at hv
      rcases hv with rfl | rfl | rfl <;> decide
    · rw [(records_of_places hn).1]
      refine ⟨List.map_eq_nil_iff.not.mpr hn, fun r hm => ?_⟩
      obtain ⟨p, hp, rfl⟩ := List.mem_map.mp hm
      exact Place.record_returns none (mem_places hc hs p hp).1
  rw [decodeText, recordText, FlatRecord.not_allBlank_join hr.1, FlatRecord.ofText_join hr.1 hr.2]
  exact decode_records hc hs

theorem encodeText_eq (h : e.isComplete) : e.encodeText = .ok e.recordText := by
  rw [encodeText, obstacle?_eq_none h]
  rfl

theorem isLaidOut_flatForm (e : Expr) : e.flatForm.isLaidOut := by
  unfold flatForm
  split
  · rfl
  · exact isLaidOut_assemble _

/-- An expression that can be stored is written as text, and what is read back from the text is one
flat composite, properly laid out, of the conditions from left to right. -/
theorem decodeText_encodeText (hc : e.isComplete) (hs : e.leaves.all (·.isStorable)) :
    ∃ s, e.encodeText = .ok s ∧ decodeText s = e.flatForm ∧ e.flatForm.isLaidOut ∧
      e.places.map (·.condition) = e.leaves := by
  refine ⟨e.recordText, ?_, decodeText_recordText hc hs, isLaidOut_flatForm e, places_conditions e⟩
  rw [encodeText, obstacle?_eq_none hc]
  rfl

def rushOrListed : Expr :=
  composite [⟨none, condition (.of "rush" (some .equals) "true" none false)⟩,
    ⟨some .or, group (composite [⟨none, alwaysTrue⟩,
      ⟨some .and, condition (.of "amount" (some .oneOf) "10, 20" none false)⟩])⟩]

theorem rushOrListed_comes_back : rushOrListed.isComplete ∧
    rushOrListed.leaves.all (·.isStorable) ∧ ∃ s, rushOrListed.encodeText = .ok s ∧
      decodeText s = composite [⟨none, condition (.of "rush" (some .equals) "true" none false)⟩,
        ⟨some .and, condition (.of "amount" (some .oneOf) "10, 20" none true)⟩] := by
  have hc : rushOrListed.isComplete := by decide
  have hs : rushOrListed.leaves.all (·.isStorable) := by decide
  obtain ⟨s, he, hd, -⟩ := decodeText_encodeText hc hs
  exact ⟨hc, hs, s, he, hd.trans rfl⟩

end Expr

end RuleTables
