import RuleTables.Proofs.RecordRoundTrip
import RuleTables.Proofs.RowSplit

namespace RuleTables

namespace Expr

mutual

/-- Puts the conditions of an expression behind those that were found before it, and tells whether
no false constant was met. -/
def gather (found : List Condition) : Expr → Except Fault (List Condition × Bool)
  | condition c => .ok (found ++ [c], true)
  | composite ns => gatherNodes found ns
  | group e => gather found e
  | constant b _ => .ok (found, b)
  | foreign v => .error (.unsupported v.typeName)

def gatherNodes (found : List Condition) : List (Node Expr) → Except Fault (List Condition × Bool)
  | [] => .ok (found, true)
  | ⟨_, e⟩ :: ns => do
    let (found, holds) ← gather found e
    let (found, rest) ← gatherNodes found ns
    return (found, holds && rest)

end

def gatherGroup (g : List Expr) : Except Fault (List Condition × Bool) :=
  gatherNodes [] (g.map (⟨none, ·⟩))

section Gathering

theorem gatherNodes_eq {ns : List (Node Expr)}
    (h : ∀ n ∈ ns, ∀ found, gather found n.child =
      guarded n.child.foreign? (found ++ n.child.leaves, n.child.holdable))
    (found : List Condition) : gatherNodes found ns =
      guarded (ns.findSome? (·.child.foreign?))
        (found ++ ns.flatMap (·.child.leaves), ns.all (·.child.holdable)) := by
  induction ns generalizing found with
  | nil => simp [gatherNodes, guarded]
  | cons n ns ih =>
    obtain ⟨hn, hs⟩ := List.forall_mem_cons.mp h
    rw [gatherNodes, hn, List.findSome?_cons, List.flatMap_cons, List.all_cons]
    cases n.child.foreign? with
    | some f => rfl
    | none =>
      change (do
        let (found, rest) ← gatherNodes (found ++ n.child.leaves) ns
        return (found, n.child.holdable && rest)) = _
      rw [ih hs, List.append_assoc]
      cases ns.findSome? (·.child.foreign?) <;> rfl

theorem gather_eq (e : Expr) (found : List Condition) :
    gather found e = guarded e.foreign? (found ++ e.leaves, e.holdable) := by
  induction e generalizing found with
  | condition c => rfl
  | composite ns ih =>
    rw [gather, gatherNodes_eq ih, foreign?, nodesForeign?_eq_findSome?, leaves,
      nodeLeaves_eq_flatMap, holdable, nodesHoldable_eq_all]
  | group e ih => exact ih found
  | constant b label => simp [gather, guarded, foreign?, leaves, holdable]
  | foreign v => rfl

theorem gatherGroup_eq (g : List Expr) :
    gatherGroup g = guarded (g.findSome? foreign?) (g.flatMap leaves, g.all holdable) := by
  rw [gatherGroup, gatherNodes_eq fun n _ => gather_eq n.child, List.findSome?_map,
    List.flatMap_map, List.all_map]
  rfl

end Gathering

def rowOver (columns outputs : List String) (cs : List Condition) : Row :=
  ⟨columns.eraseDups.map fun column => (column, cell cs column), outputs⟩

theorem row_eq_rowOver (columns outputs : List String) (g : List Expr) :
    row columns outputs g = rowOver columns outputs (g.flatMap leaves) := by
  rw [row, foldl_addName, rowOver]

variable {e : Expr}

theorem leaves_rowGroups (e : Expr) : e.rowGroups.flatMap (·.flatMap leaves) = e.leaves := by
  cases e with
  | composite ns =>
    rw [rowGroups, ← List.flatMap_assoc, List.flatMap_id', (splits_nodeGroups ns).children,
      List.flatMap_map, leaves, nodeLeaves_eq_flatMap]
  | condition _ | group _ | constant _ _ | foreign _ => simp [rowGroups]

theorem gatherGroup_of_mem_rowGroups (h : e.isComplete) {g : List Expr} (hg : g ∈ e.rowGroups) :
    gatherGroup g = .ok (g.flatMap leaves, g.all holdable) := by
  rw [gatherGroup_eq, foreign?_of_mem_rowGroups (foreign?_eq_none h) hg]
  rfl

theorem compileRows_eq_rowOver (h : e.isComplete) (columns outputs : List String) :
    e.compileRows columns outputs =
      .ok (((e.rowGroups.map fun g => (g.flatMap leaves, g.all holdable)).filter (·.2)).map
        fun f => rowOver columns outputs f.1) := by
  rw [compileRows_eq h, compiledGroups, List.filter_map, List.map_map]
  exact congrArg _ (List.map_congr_left fun g _ => row_eq_rowOver columns outputs g)

end Expr

/-- The record tells the condition: its parameter, the symbol of its operator and its value. -/
structure FlatRecord.Tells (c : Condition) (r : FlatRecord) : Prop where
  parameter : r.parameter = c.parameter
  symbol : c.operator.map (·.symbol) = some r.symbol
  value : r.value = c.value

theorem Place.tells_record (outer : Option Connective) {p : Place}
    (h : p.condition.operator.isSome) : FlatRecord.Tells p.condition (p.record outer) := by
  obtain ⟨op, ho⟩ := Option.isSome_iff_exists.mp h
  exact ⟨rfl, by rw [record, ho]; rfl, rfl⟩

namespace Expr

variable {e : Expr}

theorem forall₂_tells_records (h : e.isComplete) (hl : e.leaves ≠ []) :
    List.Forall₂ FlatRecord.Tells e.leaves e.records := by
  have hp : e.places ≠ [] := fun hp => hl (by rw [← places_conditions, hp]; rfl)
  rw [(records_of_places hp).1, ← places_conditions, List.forall₂_map_left_iff,
    List.forall₂_map_right_iff, List.forall₂_same]
  intro p hm
  refine p.tells_record none (operator_isSome h p.condition ?_)
  rw [← places_conditions]
  exact List.mem_map_of_mem hm

/-- The conditions that are gathered group by group are all conditions from left to right, whether
or not their groups become rows, and the rows are made of them. If there are any, the flat records
are one for each of them in the same order. -/
theorem leaves_gathered_recorded (hc : e.isComplete) :
    (∃ found, List.Forall₂ (fun g f => gatherGroup g = .ok f) e.rowGroups found ∧
      found.flatMap (·.1) = e.leaves ∧
      ∀ columns outputs, e.compileRows columns outputs =
        .ok ((found.filter (·.2)).map fun f => rowOver columns outputs f.1)) ∧
    (e.leaves ≠ [] →
      ∃ rs, e.encodeRecords = .ok rs ∧ List.Forall₂ FlatRecord.Tells e.leaves rs) := by
  refine ⟨⟨_, ?_, ?_, compileRows_eq_rowOver hc⟩, fun hl => ⟨_, ?_, forall₂_tells_records hc hl⟩⟩
  · rw [List.forall₂_map_right_iff, List.forall₂_same]
    exact fun g hg => gatherGroup_of_mem_rowGroups hc hg
  · rw [List.flatMap_map]
    exact leaves_rowGroups e
  · rw [encodeRecords, obstacle?_eq_none hc]
    rfl

def largeOrNeverRush : Expr :=
  composite [⟨none, condition (.greaterThan "amount" "500")⟩,
    ⟨some .or, group (composite [⟨none, alwaysFalse⟩,
      ⟨some .and, condition (.equals "rush" "true")⟩])⟩,
    ⟨some .and, condition (.equals "class" "vip")⟩]

/-- Two conditions stand in the group of the false constant: no row has them, yet they are gathered
and recorded. -/
theorem largeOrNeverRush_gathered : largeOrNeverRush.isComplete ∧ largeOrNeverRush.leaves ≠ [] ∧
    (∃ f₁ f₂, List.Forall₂ (fun g f => gatherGroup g = .ok f) largeOrNeverRush.rowGroups [f₁, f₂] ∧
      (f₁.2, f₂.2) = (true, false) ∧ f₁.1 ++ f₂.1 = largeOrNeverRush.leaves ∧
      largeOrNeverRush.compileRows ["amount", "class"] [] =
        .ok [rowOver ["amount", "class"] [] f₁.1]) ∧
    ∃ rs, largeOrNeverRush.encodeRecords = .ok rs ∧
      rs.map (fun r => (r.parameter, r.symbol, r.value)) =
        [("amount", ">", "500"), ("rush", "==", "true"), ("class", "==", "vip")] := by
  have hc : largeOrNeverRush.isComplete := by decide
  have hl : largeOrNeverRush.leaves ≠ [] := List.cons_ne_nil _ _
  obtain ⟨⟨found, hf, hleaves, hr⟩, hs⟩ := leaves_gathered_recorded hc
  obtain ⟨rs, he, -⟩ := hs hl
  refine ⟨hc, hl, ?_, rs, he, ?_⟩
  · obtain ⟨f₁, fs, h₁, ht, rfl⟩ := List.forall₂_cons_left_iff.mp hf
    obtain ⟨f₂, fs, h₂, hn, rfl⟩ := List.forall₂_cons_left_iff.mp ht
    obtain rfl := List.forall₂_nil_left_iff.mp hn
    have hh₁ : f₁.2 = true := congrArg (·.2) (Except.ok.inj h₁).symm
    have hh₂ : f₂.2 = false := congrArg (·.2) (Except.ok.inj h₂).symm
    refine ⟨f₁, f₂, hf, ?_, ?_, ?_⟩
    · rw [hh₁, hh₂]
    · simpa using hleaves
    · rw [hr]
      simp [hh₁, hh₂]
  · cases he
    decide

end Expr

end RuleTables
