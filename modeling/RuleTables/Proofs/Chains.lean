import RuleTables.Proofs.Alternatives
import RuleTables.Proofs.DraftRuns
import RuleTables.Proofs.FlatForm
import RuleTables.Proofs.LeafOrder
import RuleTables.Proofs.RowMeaning

namespace RuleTables.Expr

/-- The conditions, each announced by the connective. -/
def chain (k : Connective) (cs : List Condition) : Expr :=
  chained k (cs.map condition)

section Shapes

variable {k : Connective} {cs : List Condition}

theorem chain_nil (k : Connective) : chain k [] = alwaysTrue :=
  Draft.chained_eq k []

theorem chain_singleton (k : Connective) (c : Condition) : chain k [c] = condition c :=
  Draft.chained_eq k [condition c]

theorem chain_cons_cons (k : Connective) (c d : Condition) (cs : List Condition) :
    chain k (c :: d :: cs) = composite (joinedBy k ((c :: d :: cs).map condition)) :=
  Draft.chained_eq_composite k (by simp)

theorem flatMap_leaves_conditions (cs : List Condition) :
    (cs.map condition).flatMap leaves = cs := by
  rw [List.flatMap_map]
  exact List.flatMap_singleton' cs

theorem leaves_chain (k : Connective) (cs : List Condition) : (chain k cs).leaves = cs := by
  match cs with
  | [] => rw [chain_nil]; rfl
  | [c] => rw [chain_singleton]; rfl
  | c :: d :: cs => rw [chain_cons_cons, leaves_joinedBy, flatMap_leaves_conditions]

theorem child_of_mem_joinedBy {n : Node Expr} (h : n ∈ joinedBy k (cs.map condition)) :
    ∃ c, n.child = condition c := by
  have hn : n.child ∈ cs.map condition := by
    rw [← map_child_joinedBy k (cs.map condition)]
    exact List.mem_map_of_mem h
  obtain ⟨c, -, hc⟩ := List.mem_map.mp hn
  exact ⟨c, hc.symm⟩

theorem holdable_chain (k : Connective) (cs : List Condition) : (chain k cs).holdable := by
  match cs with
  | [] => rw [chain_nil]; rfl
  | [c] => rw [chain_singleton]; rfl
  | c :: d :: cs =>
    rw [chain_cons_cons, holdable, nodesHoldable_eq_all, List.all_eq_true]
    intro n hn
    obtain ⟨c, hc⟩ := child_of_mem_joinedBy hn
    rw [hc]
    rfl

theorem foreign?_chain (k : Connective) (cs : List Condition) : (chain k cs).foreign? = none := by
  match cs with
  | [] => rw [chain_nil]; rfl
  | [c] => rw [chain_singleton]; rfl
  | c :: d :: cs =>
    rw [chain_cons_cons, foreign?, nodesForeign?_eq_findSome?, List.findSome?_eq_none_iff]
    intro n hn
    obtain ⟨c, hc⟩ := child_of_mem_joinedBy hn
    rw [hc]
    rfl

theorem isUncut_chain_and (cs : List Condition) : (chain .and cs).isUncut := by
  match cs with
  | [] => rw [chain_nil]; rfl
  | [c] => rw [chain_singleton]; rfl
  | c :: d :: cs =>
    rw [chain_cons_cons]
    simp [isUncut, joinedBy]

end Shapes

section Rows

/-- The conditions of each row. Without conditions there is a row all the same. -/
def portions : Connective → List Condition → List (List Condition)
  | .or, c :: cs => (c :: cs).map ([·])
  | _, cs => [cs]

variable {k : Connective} {cs : List Condition} {columns outputs : List String} {rows : List Row}

theorem leaves_rowGroups_chain (k : Connective) (cs : List Condition) :
    (chain k cs).rowGroups.map (·.flatMap leaves) = portions k cs := by
  cases k with
  | and =>
    obtain ⟨g, hg, hl, -⟩ := rowGroups_of_isUncut (isUncut_chain_and cs)
    rw [hg, List.map_singleton, hl, leaves_chain, portions]
    exact nofun
  | or =>
    match cs with
    | [] => rw [chain_nil]; rfl
    | [c] => rw [chain_singleton]; rfl
    | c :: d :: cs =>
      rw [chain_cons_cons, rowGroups_joinedBy_or, List.map_map, List.map_map, portions]
      rfl

theorem compiledGroups_chain (k : Connective) (cs : List Condition) :
    (chain k cs).compiledGroups = (chain k cs).rowGroups :=
  compiledGroups_of_holdable (holdable_chain k cs)

theorem rows_chain (k : Connective) (cs : List Condition) (columns outputs : List String) :
    (chain k cs).compiledGroups.map (row columns outputs) =
      (portions k cs).map (rowOver columns outputs) := by
  rw [compiledGroups_chain, ← leaves_rowGroups_chain, List.map_map]
  exact List.map_congr_left fun g _ => row_eq_rowOver columns outputs g

theorem fires_chain (k : Connective) (cs : List Condition) (v : Condition → Bool) :
    (chain k cs).fires v = (portions k cs).any (·.all v) := by
  rw [fires, compiledGroups_chain, ← leaves_rowGroups_chain, List.any_map]
  rfl

theorem compilesOver_chain_iff : (chain k cs).CompilesOver columns ↔
    ∀ c ∈ cs, c.parameter ∈ columns → c.operator.isSome := by
  have hs : ∀ g ∈ (chain k cs).rowGroups, IsSatisfiable g := fun g hg =>
    all_holdable_iff.mp (List.filter_eq_self.mp (compiledGroups_chain k cs) g hg)
  rw [CompilesOver, ← foreign?_eq_none_iff, and_iff_right (foreign?_chain k cs)]
  constructor
  · intro h c hc
    rw [← leaves_chain k cs, ← leaves_rowGroups] at hc
    obtain ⟨g, hg, hcg⟩ := List.mem_flatMap.mp hc
    exact h g hg (hs g hg) c hcg
  · intro h g hg _ c hc
    refine h c ?_
    rw [← leaves_chain k cs, ← leaves_rowGroups]
    exact List.mem_flatMap.mpr ⟨g, hg, hc⟩

theorem compileRows_chain_iff : (chain k cs).compileRows columns outputs = .ok rows ↔
    (∀ c ∈ cs, c.parameter ∈ columns → c.operator.isSome) ∧
      rows = (portions k cs).map (rowOver columns outputs) := by
  rw [compileRows_returns_iff, ← compiledGroups_eq, rows_chain, compilesOver_chain_iff]

theorem parameterNames_chain (k : Connective) (cs : List Condition) :
    parameterNames [chain k cs] = (cs.map (·.parameter)).eraseDups := by
  rw [parameterNames_eq, namesIn, List.flatMap_singleton, leaves_chain]

theorem rowOver_eraseDups (columns outputs : List String) (cs : List Condition) :
    rowOver columns.eraseDups outputs cs = rowOver columns outputs cs := by
  rw [rowOver, rowOver, eraseDups_of_nodup (nodup_eraseDups columns)]

theorem compileOwnRows_chain_iff : (chain k cs).compileOwnRows outputs = .ok rows ↔
    (∀ c ∈ cs, c.operator.isSome) ∧
      rows = (portions k cs).map (rowOver (cs.map (·.parameter)) outputs) := by
  have hm : ∀ c ∈ cs, c.parameter ∈ (cs.map (·.parameter)).eraseDups := fun c hc =>
    List.mem_eraseDups.mpr (List.mem_map_of_mem hc)
  have hr : rowOver (cs.map (·.parameter)).eraseDups outputs =
      rowOver (cs.map (·.parameter)) outputs :=
    funext (rowOver_eraseDups _ outputs)
  rw [compileOwnRows_returns_iff, compileRows_chain_iff, parameterNames_chain, hr]
  exact and_congr_left fun _ => forall₂_congr fun c hc => forall_prop_of_true (hm c hc)

theorem fires_chain_and (cs : List Condition) (v : Condition → Bool) :
    (chain .and cs).fires v = cs.all v := by
  rw [fires_chain, portions, List.any_cons, List.any_nil, Bool.or_false]
  exact nofun

theorem fires_chain_or (cs : List Condition) (v : Condition → Bool) :
    (chain .or cs).fires v = (cs.isEmpty || cs.any v) := by
  rw [fires_chain]
  cases cs with
  | nil => rfl
  | cons c cs =>
    rw [portions, List.any_map, List.isEmpty_cons, Bool.false_or]
    congr 1
    funext d
    exact Bool.and_true (v d)

/-- Conditions that are announced by `and` share a row, and some row fires when all of them hold.
Announced by `or` each has its own row, and some row fires when one of them holds. Without
conditions both are the true constant: its one row holds no condition, and it always fires. -/
theorem chain_rows_fire (cs : List Condition) (columns outputs : List String) :
    (∀ k rows, (chain k cs).compileRows columns outputs = .ok rows ↔
      (∀ c ∈ cs, c.parameter ∈ columns → c.operator.isSome) ∧
        rows = (portions k cs).map (rowOver columns outputs)) ∧
    (∀ k rows, (chain k cs).compileOwnRows outputs = .ok rows ↔
      (∀ c ∈ cs, c.operator.isSome) ∧
        rows = (portions k cs).map (rowOver (cs.map (·.parameter)) outputs)) ∧
    (∀ k v, (chain k cs).fires v = (portions k cs).any (·.all v)) ∧
    (∀ v, (chain .and cs).fires v = cs.all v ∧
      (chain .or cs).fires v = (cs.isEmpty || cs.any v)) ∧
    ∀ k, chain k [] = alwaysTrue ∧ portions k [] = [[]] :=
  ⟨fun _ _ => compileRows_chain_iff, fun _ _ => compileOwnRows_chain_iff,
    fun k v => fires_chain k cs v, fun v => ⟨fires_chain_and cs v, fires_chain_or cs v⟩,
    fun k => ⟨chain_nil k, by cases k <;> rfl⟩⟩

/-- None of no conditions holds, and yet the row that they have as alternatives fires. -/
theorem no_alternatives_fire : (chain .or []).compileOwnRows [] = .ok [⟨[], []⟩] ∧
    ∀ v, (chain .or []).fires v = true ∧ ¬ ∃ c ∈ ([] : List Condition), v c = true := by
  rw [chain_nil]
  exact ⟨rfl, fun _ => ⟨rfl, by simp⟩⟩

end Rows

end RuleTables.Expr
