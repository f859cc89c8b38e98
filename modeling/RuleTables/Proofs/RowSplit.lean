import RuleTables.Proofs.RuleBlocks

namespace RuleTables

def beginnings {α : Type} : List α → List Bool
  | [] => []
  | _ :: xs => true :: xs.map fun _ => false

theorem beginnings_map {α β : Type} (f : α → β) (xs : List α) :
    beginnings (xs.map f) = beginnings xs := by
  cases xs with
  | nil => rfl
  | cons x xs => simp [beginnings]

namespace Node

variable {α : Type}

theorem flatten_runs (ns : List (Node α)) : (runs ns).flatten = ns :=
  List.flatten_splitBy _ ns

theorem ne_nil_of_mem_runs {ns r : List (Node α)} (h : r ∈ runs ns) : r ≠ [] :=
  List.ne_nil_of_mem_splitBy h

theorem beginnings_runs (n : Node α) (ns : List (Node α)) : (runs (n :: ns)).flatMap beginnings =
    true :: ns.map fun m => decide (m.connective = some .or) := by
  induction ns generalizing n with
  | nil => rfl
  | cons m ns ih =>
    by_cases h : m.connective = some .or
    · rw [runs_or n m ns h, List.flatMap_cons, ih, List.map_cons, decide_eq_true h]
      rfl
    · rw [runs_and n m ns h, List.map_cons, decide_eq_false h]
      have hm := ih m
      obtain ⟨r, rs, hr⟩ := runs_cons m ns
      rw [hr, List.flatMap_cons, beginnings, List.cons_append] at hm
      rw [hr, List.modifyHead_cons, List.flatMap_cons, beginnings, List.map_cons, List.cons_append,
        List.cons_append, (List.cons.inj hm).2]

end Node

namespace Expr

/-- The groups are the children in order, and they begin at the first node and at the nodes that are
joined by `or`. -/
structure Splits (ns : List (Node Expr)) (gs : List (List Expr)) : Prop where
  children : gs.flatten = ns.map (·.child)
  filled : ∀ g ∈ gs, g ≠ []
  cuts : gs.flatMap beginnings = ns.mapIdx fun i n => decide (i = 0 ∨ n.connective = some .or)

theorem splits_nodeGroups (ns : List (Node Expr)) : Splits ns (nodeGroups ns) where
  children := by rw [nodeGroups_eq_runs, ← List.map_flatten, Node.flatten_runs]
  filled := by
    rw [nodeGroups_eq_runs, List.forall_mem_map]
    exact fun r hr => List.map_eq_nil_iff.not.mpr (Node.ne_nil_of_mem_runs hr)
  cuts := by
    rw [nodeGroups_eq_runs, List.flatMap_map]
    simp only [beginnings_map]
    cases ns with
    | nil => rfl
    | cons n ns =>
      rw [Node.beginnings_runs, List.mapIdx_cons]
      exact congrArg₂ List.cons (by simp) (List.ext_getElem (by simp) (by simp))

theorem nodeGroups_append (ns : List (Node Expr)) (e : Expr) (ms : List (Node Expr)) :
    nodeGroups (ns ++ ⟨some .or, e⟩ :: ms) = nodeGroups ns ++ nodeGroups (⟨some .or, e⟩ :: ms) := by
  rw [nodeGroups_eq_runs, Node.runs_append ns ms rfl, List.map_append, ← nodeGroups_eq_runs,
    ← nodeGroups_eq_runs]

theorem guarded_or {α : Type} (f g : Option Fault) (xs ys : List α) :
    guarded (f.or g) (xs ++ ys) = do
      let as ← guarded f xs
      let bs ← guarded g ys
      return as ++ bs := by
  cases f <;> cases g <;> rfl

theorem compileRows_append (columns outputs : List String) (ns : List (Node Expr)) (e : Expr)
    (ms : List (Node Expr)) :
    compileRows columns outputs (composite (ns ++ ⟨some .or, e⟩ :: ms)) = do
      let rows ← compileRows columns outputs (composite ns)
      let more ← compileRows columns outputs (composite (⟨some .or, e⟩ :: ms))
      return rows ++ more := by
  simp only [compileRows, rowsOf, rowGroups, nodeGroups_append, List.findSome?_append,
    List.filter_append, List.map_append, guarded_or]

section Reaching

/-- An expression that can be reached from another one, through the groups and the nodes in it. -/
inductive Reaches : Expr → Expr → Prop
  | refl (e : Expr) : Reaches e e
  | node {ns : List (Node Expr)} {n : Node Expr} {x : Expr} (hn : n ∈ ns) (h : Reaches n.child x) :
    Reaches (composite ns) x
  | group {e x : Expr} (h : Reaches e x) : Reaches (group e) x

variable {e : Expr} {g : List Expr}

section Parts

variable {x : Expr}

@[simp] theorem reaches_condition_iff {c : Condition} :
    (condition c).Reaches x ↔ x = condition c := by
  constructor
  · rintro ⟨⟩
    rfl
  · rintro rfl
    exact .refl _

@[simp] theorem reaches_composite_iff {ns : List (Node Expr)} :
    (composite ns).Reaches x ↔ x = composite ns ∨ ∃ n ∈ ns, n.child.Reaches x := by
  constructor
  · rintro (_ | ⟨hn, h⟩)
    · exact .inl rfl
    · exact .inr ⟨_, hn, h⟩
  · rintro (rfl | ⟨n, hn, h⟩)
    · exact .refl _
    · exact .node hn h

@[simp] theorem reaches_group_iff : (group e).Reaches x ↔ x = group e ∨ e.Reaches x := by
  constructor
  · rintro (_ | _ | h)
    · exact .inl rfl
    · exact .inr h
  · rintro (rfl | h)
    · exact .refl _
    · exact .group h

@[simp] theorem reaches_constant_iff {b : Bool} {label : String} :
    (constant b label).Reaches x ↔ x = constant b label := by
  constructor
  · rintro ⟨⟩
    rfl
  · rintro rfl
    exact .refl _

@[simp] theorem reaches_foreign_iff {v : Json} : (foreign v).Reaches x ↔ x = foreign v := by
  constructor
  · rintro ⟨⟩
    rfl
  · rintro rfl
    exact .refl _

end Parts

theorem holdable_iff : e.holdable ↔ ∀ label, ¬ e.Reaches (constant false label) := by
  induction e with
  | condition c => exact iff_of_true rfl fun _ h => by cases h
  | composite ns ih =>
    rw [holdable, nodesHoldable_eq_all, List.all_eq_true]
    refine ⟨fun h label hr => ?_, fun h n hn => (ih n hn).mpr fun label hr => h label (.node hn hr)⟩
    cases hr with
    | node hn hr => exact (ih _ hn).mp (h _ hn) label hr
  | group e ih =>
    refine ih.trans ⟨fun h label hr => ?_, fun h label hr => h label (.group hr)⟩
    cases hr with
    | group hr => exact h label hr
  | constant b label =>
    cases b with
    | false => exact iff_of_false Bool.false_ne_true fun h => h label (.refl _)
    | true => exact iff_of_true rfl fun _ h => by cases h
  | foreign v => exact iff_of_true rfl fun _ h => by cases h

theorem foreign?_eq_none_iff : e.foreign? = none ↔ ∀ v, ¬ e.Reaches (foreign v) := by
  induction e with
  | condition c => exact iff_of_true rfl fun _ h => by cases h
  | composite ns ih =>
    rw [foreign?, nodesForeign?_eq_findSome?, List.findSome?_eq_none_iff]
    refine ⟨fun h v hr => ?_, fun h n hn => (ih n hn).mpr fun v hr => h v (.node hn hr)⟩
    cases hr with
    | node hn hr => exact (ih _ hn).mp (h _ hn) v hr
  | group e ih =>
    refine ih.trans ⟨fun h v hr => ?_, fun h v hr => h v (.group hr)⟩
    cases hr with
    | group hr => exact h v hr
  | constant b label => exact iff_of_true rfl fun _ h => by cases h
  | foreign v => exact iff_of_false (Option.some_ne_none _) fun h => h v (.refl _)

/-- No false constant can be reached in the group. -/
def IsSatisfiable (g : List Expr) : Prop :=
  ∀ x ∈ g, ∀ label, ¬ x.Reaches (constant false label)

theorem all_holdable_iff : g.all holdable ↔ IsSatisfiable g := by
  rw [List.all_eq_true]
  exact forall₂_congr fun x _ => holdable_iff

instance : DecidablePred IsSatisfiable := fun _ => decidable_of_iff _ all_holdable_iff

theorem compiledGroups_eq (e : Expr) :
    e.compiledGroups = e.rowGroups.filter fun g => decide (IsSatisfiable g) := by
  refine List.filter_congr fun g _ => ?_
  rw [Bool.eq_iff_iff, decide_eq_true_eq, all_holdable_iff]

end Reaching

section Returning

variable {e : Expr} {columns outputs : List String} {rows : List Row}

/-- What rows over the columns need: nothing can be reached that is no expression, and in a group
that becomes a row the conditions on the columns have their operators. -/
def CompilesOver (columns : List String) (e : Expr) : Prop :=
  (∀ v, ¬ e.Reaches (foreign v)) ∧ ∀ g ∈ e.rowGroups, IsSatisfiable g →
    ∀ c ∈ g.flatMap leaves, c.parameter ∈ columns → c.operator.isSome

theorem foreign?_eq_none_of_rowGroups (h : ∀ g ∈ e.rowGroups, g.findSome? foreign? = none) :
    e.foreign? = none := by
  cases e with
  | composite ns =>
    rw [foreign?, nodesForeign?_eq_findSome?, List.findSome?_eq_none_iff]
    intro n hn
    have hm : n.child ∈ (nodeGroups ns).flatten := by
      rw [(splits_nodeGroups ns).children]
      exact List.mem_map_of_mem hn
    obtain ⟨g, hg, hx⟩ := List.mem_flatten.mp hm
    exact List.findSome?_eq_none_iff.mp (h g hg) _ hx
  | condition _ | group _ | constant _ _ | foreign _ =>
    exact List.findSome?_eq_none_iff.mp (h _ (List.mem_singleton.mpr rfl)) _
      (List.mem_singleton.mpr rfl)

theorem groupFaults_eq_none_iff :
    (∀ g ∈ e.rowGroups, groupFault? columns g = none) ↔ e.CompilesOver columns := by
  rw [CompilesOver, ← foreign?_eq_none_iff]
  simp only [groupFault?_eq_none_iff, all_holdable_iff]
  constructor
  · exact fun h => ⟨foreign?_eq_none_of_rowGroups fun g hg => (h g hg).1, fun g hg => (h g hg).2⟩
  · exact fun h g hg => ⟨foreign?_of_mem_rowGroups h.1 hg, h.2 g hg⟩

theorem compileRows_returns_iff : e.compileRows columns outputs = .ok rows ↔
    e.CompilesOver columns ∧
      rows = (e.rowGroups.filter fun g => decide (IsSatisfiable g)).map (row columns outputs) := by
  rw [compileRows, guarded_eq_ok_iff, List.findSome?_eq_none_iff, groupFaults_eq_none_iff,
    ← compiledGroups_eq, eq_comm]
  rfl

theorem compilesOver_of_isComplete (h : e.isComplete) : e.CompilesOver columns :=
  (compileRows_returns_iff.mp (compileRows_eq h columns [])).1

theorem compileOwnRows_returns_iff : e.compileOwnRows outputs = .ok rows ↔
    e.compileRows (parameterNames [e]) outputs = .ok rows := by
  rw [compileOwnRows, parameters_singleton, bind_eq_ok_iff]
  constructor
  · rintro ⟨names, hn, h⟩
    obtain ⟨-, rfl⟩ := guarded_eq_ok_iff.mp hn
    exact h
  · intro h
    have hf := foreign?_eq_none_iff.mpr (compileRows_returns_iff.mp h).1.1
    exact ⟨_, guarded_eq_ok_iff.mpr ⟨hf, rfl⟩, h⟩

end Returning

/-- The groups of a composite are its children, cut before every later `or`. So the rows of nodes
and of further nodes that begin with an `or` are the rows of both, one after the other, and fail as
they do. Any expression has one row for each group in which no false constant can be reached, in
the order of the groups, unless something is missing in it: an operator, or an expression. -/
theorem compileRows_split (columns outputs : List String) :
    (∀ ns, Splits ns (composite ns).rowGroups) ∧
    (∀ ns e ms, compileRows columns outputs (composite (ns ++ ⟨some .or, e⟩ :: ms)) = do
      let rows ← compileRows columns outputs (composite ns)
      let more ← compileRows columns outputs (composite (⟨some .or, e⟩ :: ms))
      return rows ++ more) ∧
    ∀ e : Expr, (e.isComplete → e.CompilesOver columns) ∧ ∀ rows,
      (e.compileRows columns outputs = .ok rows ↔ e.CompilesOver columns ∧
        rows = (e.rowGroups.filter fun g => decide (IsSatisfiable g)).map (row columns outputs)) ∧
      (e.compileOwnRows outputs = .ok rows ↔
        e.compileRows (parameterNames [e]) outputs = .ok rows) :=
  ⟨splits_nodeGroups, compileRows_append columns outputs, fun _ =>
    ⟨compilesOver_of_isComplete, fun _ => ⟨compileRows_returns_iff, compileOwnRows_returns_iff⟩⟩⟩

/-- A connective in front and one that is missing cut nothing, and a group that holds a false
constant has no row. -/
example :
    let e := composite [⟨some .or, condition (.equals "class" "vip")⟩,
      ⟨none, condition (.equals "rush" "true")⟩, ⟨some .or, group alwaysFalse⟩]
    e.rowGroups.map (·.length) = [2, 1] ∧ e.compileOwnRows [] =
      .ok [⟨[("class", "\x22vip\x22"), ("rush", "true")], []⟩] :=
  ⟨rfl, rfl⟩

end Expr

end RuleTables
