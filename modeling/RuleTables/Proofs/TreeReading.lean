import Mathlib.Data.List.Forall2
import RuleTables.Proofs.StrictReading

namespace RuleTables

theorem Condition.operator_isSome_of_ofTree {ms : Json.Members} {c : Condition}
    (h : ofTree ms = .ok c) : c.operator.isSome := by
  unfold ofTree at h
  obtain ⟨typeRef, -, h⟩ := bind_eq_ok_iff.mp h
  cases hp : Assoc.find? "parameter" ms with
  | none => rw [hp] at h; cases h
  | some p =>
    cases p with
    | text parameter =>
      cases ho : Assoc.find? "operator" ms with
      | none => rw [hp, ho] at h; cases h
      | some v =>
        rw [hp, ho] at h
        obtain ⟨parameter, -, h⟩ := bind_eq_ok_iff.mp h
        obtain ⟨operator, -, h⟩ := bind_eq_ok_iff.mp h
        obtain ⟨value, -, h⟩ := bind_eq_ok_iff.mp h
        split at h <;> cases h <;> rfl
    | null | bool _ | int _ | real _ | list _ | object _ => rw [hp] at h; cases h

namespace Expr

variable {strict : Bool} {v : Json} {e : Expr}

theorem childIn_eq (strict : Bool) (absent : TreeFault) (ms : Json.Members) :
    childIn strict absent ms =
      (Assoc.find? "expression" ms).elim (.error absent) (ofTree strict) := by
  induction ms with
  | nil => rw [childIn]; rfl
  | cons m ms ih =>
    rw [childIn, Assoc.find?]
    split
    · rfl
    · exact ih

theorem nodesIn_eq (strict : Bool) (whole : Json) (ms : Json.Members) :
    nodesIn strict whole ms = (Assoc.find? "nodes" ms).elim
      (.error (.absent "composite" "nodes" whole)) (nodesOfTree strict whole) := by
  induction ms with
  | nil => rw [nodesIn]; rfl
  | cons m ms ih =>
    rw [nodesIn, Assoc.find?]
    split
    · rfl
    · exact ih

theorem exists_of_childIn {absent : TreeFault} {ms : Json.Members}
    (h : childIn strict absent ms = .ok e) :
    ∃ w, Assoc.find? "expression" ms = some w ∧ ofTree strict w = .ok e := by
  rw [childIn_eq] at h
  cases hw : Assoc.find? "expression" ms with
  | none => rw [hw] at h; cases h
  | some w => rw [hw] at h; exact ⟨w, rfl, h⟩

/-- An entry of a composite that was read as the node. -/
def IsEntry (strict : Bool) (n : Node Expr) (entry : Json) : Prop :=
  ∃ ms w, entry = .object ms ∧ Assoc.find? "expression" ms = some w ∧ ofTree strict w = .ok n.child

/-- An object that was read as the expression, by its type. -/
inductive IsReading (strict : Bool) : Json → Expr → Prop
  | condition {ms c} (type : Assoc.find? "type" ms = some (.text "condition"))
      (fields : Condition.ofTree ms = .ok c) : IsReading strict (.object ms) (condition c)
  | composite {ms entries ns} (type : Assoc.find? "type" ms = some (.text "composite"))
      (nodes : Assoc.find? "nodes" ms = some (.list entries))
      (each : List.Forall₂ (IsEntry strict) ns entries) :
      IsReading strict (.object ms) (composite ns)
  | group {ms w e} (type : Assoc.find? "type" ms = some (.text "group"))
      (child : Assoc.find? "expression" ms = some w) (read : ofTree strict w = .ok e) :
      IsReading strict (.object ms) (group e)
  | constant {ms b label} (type : Assoc.find? "type" ms = some (.text "constant")) :
      IsReading strict (.object ms) (constant b label)

theorem isEntry_of_nodeOfTree {whole entry : Json} {n : Node Expr}
    (h : nodeOfTree strict whole entry = .ok n) : IsEntry strict n entry := by
  cases entry with
  | object ms =>
    rw [nodeOfTree] at h
    obtain ⟨c, -, h⟩ := bind_eq_ok_iff.mp h
    obtain ⟨e, he, hn⟩ := bind_eq_ok_iff.mp h
    cases hn
    obtain ⟨w, hw, hr⟩ := exists_of_childIn he
    exact ⟨ms, w, rfl, hw, hr⟩
  | null | bool _ | int _ | real _ | text _ | list _ => simp [nodeOfTree] at h

theorem forall₂_of_nodesOfEntries {whole : Json} {entries : List Json} {ns : List (Node Expr)}
    (h : nodesOfEntries strict whole entries = .ok ns) :
    List.Forall₂ (IsEntry strict) ns entries := by
  induction entries generalizing ns with
  | nil =>
    rw [nodesOfEntries] at h
    cases h
    exact .nil
  | cons entry entries ih =>
    rw [nodesOfEntries] at h
    obtain ⟨n, hn, h⟩ := bind_eq_ok_iff.mp h
    obtain ⟨ms, hm, hs⟩ := bind_eq_ok_iff.mp h
    cases hs
    exact .cons (isEntry_of_nodeOfTree hn) (ih hm)

theorem exists_of_nodesIn {whole : Json} {ms : Json.Members} {ns : List (Node Expr)}
    (h : nodesIn strict whole ms = .ok ns) : ∃ entries,
      Assoc.find? "nodes" ms = some (.list entries) ∧ List.Forall₂ (IsEntry strict) ns entries := by
  rw [nodesIn_eq] at h
  cases hw : Assoc.find? "nodes" ms with
  | none => rw [hw] at h; cases h
  | some w =>
    rw [hw, Option.elim_some] at h
    cases w with
    | list entries => rw [nodesOfTree] at h; exact ⟨entries, rfl, forall₂_of_nodesOfEntries h⟩
    | null | bool _ | int _ | real _ | text _ | object _ => simp [nodesOfTree] at h

theorem eq_of_compositeOfTree {whole : Json} {ns : List (Node Expr)}
    (h : compositeOfTree strict whole ns = .ok e) : e = composite ns := by
  unfold compositeOfTree at h
  split at h
  · cases h
  · exact (Except.ok.inj h).symm

theorem isReading_of_ofTree (h : ofTree strict v = .ok e) : IsReading strict v e := by
  cases v with
  | object ms =>
    rw [ofTree] at h
    split at h
    · next type =>
      obtain ⟨c, hc, rfl⟩ := map_eq_ok_iff.mp h
      exact .condition type hc
    · next type =>
      obtain ⟨ns, hn, hc⟩ := bind_eq_ok_iff.mp h
      obtain ⟨entries, hs, each⟩ := exists_of_nodesIn hn
      rw [eq_of_compositeOfTree hc]
      exact .composite type hs each
    · next type =>
      obtain ⟨e, he, rfl⟩ := map_eq_ok_iff.mp h
      obtain ⟨w, hw, hr⟩ := exists_of_childIn he
      exact .group type hw hr
    · next type =>
      obtain ⟨b, label, rfl⟩ := exists_of_constantOfTree h
      cases label <;> cases b <;> exact .constant type
    · cases h
  | null | bool _ | int _ | real _ | text _ | list _ => simp [ofTree] at h

theorem exists_isEntry {entries : List Json} {ns : List (Node Expr)} {n : Node Expr}
    (each : List.Forall₂ (IsEntry strict) ns entries) (hn : n ∈ ns) :
    ∃ entry, IsEntry strict n entry := by
  induction each with
  | nil => cases hn
  | @cons m entry ns entries hm each ih =>
    rcases List.mem_cons.mp hn with rfl | hn
    · exact ⟨entry, hm⟩
    · exact ih hn

theorem isComplete_of_ofTree (h : ofTree strict v = .ok e) : e.isComplete := by
  induction e generalizing v with
  | condition c =>
    cases isReading_of_ofTree h with
    | condition _ fields => exact Condition.operator_isSome_of_ofTree fields
  | composite ns ih =>
    cases isReading_of_ofTree h with
    | composite _ _ each =>
      refine isComplete_composite.mpr fun n hn => ?_
      obtain ⟨entry, ms, w, -, -, hr⟩ := exists_isEntry each hn
      exact ih n hn hr
  | group e ih =>
    cases isReading_of_ofTree h with
    | group _ _ read => exact isComplete_group.mpr (ih read)
  | constant b label => rfl
  | foreign w => cases isReading_of_ofTree h

end Expr

end RuleTables
