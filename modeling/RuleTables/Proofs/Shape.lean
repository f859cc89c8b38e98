import RuleTables.Table.Rows

namespace RuleTables.Expr

/-- A property of all children of a composite holds of the composite, and so on for the other
forms: then it holds of every expression. -/
@[induction_eliminator]
theorem induct {motive : Expr → Prop} (condition : ∀ c, motive (condition c))
    (composite : ∀ ns, (∀ n ∈ ns, motive n.child) → motive (composite ns))
    (group : ∀ e, motive e → motive (group e))
    (constant : ∀ b label, motive (constant b label))
    (foreign : ∀ v, motive (foreign v)) (e : Expr) : motive e :=
  @Expr.rec motive (fun ns => ∀ n ∈ ns, motive n.child) (fun n => motive n.child)
    condition composite group constant foreign
    (fun _ h => absurd h List.not_mem_nil)
    (fun _ _ hn hns m hm => (List.mem_cons.mp hm).elim (fun he => he ▸ hn) (hns m))
    (fun _ _ h => h) e

section Walks

@[simp] theorem nodeLeaves_eq_flatMap (ns : List (Node Expr)) :
    nodeLeaves ns = ns.flatMap (·.child.leaves) := by
  induction ns with
  | nil => rfl
  | cons n ns ih => rw [nodeLeaves, ih, List.flatMap_cons]

@[simp] theorem nodesHoldable_eq_all (ns : List (Node Expr)) :
    nodesHoldable ns = ns.all (·.child.holdable) := by
  induction ns with
  | nil => rfl
  | cons n ns ih => rw [nodesHoldable, ih, List.all_cons]

@[simp] theorem nodesForeign?_eq_findSome? (ns : List (Node Expr)) :
    nodesForeign? ns = ns.findSome? (·.child.foreign?) := by
  induction ns with
  | nil => rfl
  | cons n ns ih => rw [nodesForeign?, ih, List.findSome?_cons]; cases n.child.foreign? <;> rfl

@[simp] theorem nodesObstacle?_eq_findSome? (missing : Fault) (ns : List (Node Expr)) :
    nodesObstacle? missing ns = ns.findSome? (·.child.obstacle? missing) := by
  induction ns with
  | nil => rfl
  | cons n ns ih =>
    rw [nodesObstacle?, ih, List.findSome?_cons]; cases n.child.obstacle? missing <;> rfl

end Walks

mutual

/-- Whether the expression and all expressions in it pass a test. -/
def every (p : Expr → Bool) : Expr → Bool
  | condition c => p (condition c)
  | composite ns => p (composite ns) && everyChild p ns
  | group e => p (group e) && every p e
  | constant b label => p (constant b label)
  | foreign v => p (foreign v)

def everyChild (p : Expr → Bool) : List (Node Expr) → Bool
  | [] => true
  | ⟨_, e⟩ :: ns => every p e && everyChild p ns

end

@[simp] theorem everyChild_eq_all (p : Expr → Bool) (ns : List (Node Expr)) :
    everyChild p ns = ns.all (·.child.every p) := by
  induction ns with
  | nil => rfl
  | cons n ns ih => rw [everyChild, ih, List.all_cons]

/-- Every condition has its operator, and every child is an expression. -/
def isComplete (e : Expr) : Bool :=
  e.every fun
    | condition c => c.operator.isSome
    | foreign _ => false
    | _ => true

/-- Every composite is laid out properly. -/
def isLaidOut (e : Expr) : Bool :=
  e.every fun
    | composite ns => layoutFault? ns = none
    | _ => true

/-- No node after the first of a composite is joined by `or`. -/
def isConjunctive (e : Expr) : Bool :=
  e.every fun
    | composite ns => ns.tail.all (·.connective ≠ some .or)
    | _ => true

/-- An `or` stands nowhere but between nodes of the expression itself. -/
def orsOnTop : Expr → Bool
  | composite ns => ns.all (·.child.isConjunctive)
  | e => e.isConjunctive

theorem missingConnective?_eq_none_iff {position : Nat} {ns : List (Node Expr)} :
    missingConnective? position ns = none ↔ ∀ n ∈ ns, n.connective.isSome := by
  induction ns generalizing position with
  | nil => simp [missingConnective?]
  | cons n ns ih =>
    rw [missingConnective?, List.forall_mem_cons, ← @ih (position + 1)]
    cases n.connective <;> simp

theorem layoutFault?_eq_none_iff {ns : List (Node Expr)} :
    layoutFault? ns = none ↔
      ∃ n ms, ns = n :: ms ∧ n.connective = none ∧ ∀ m ∈ ms, m.connective.isSome := by
  cases ns with
  | nil => simp [layoutFault?]
  | cons n ms =>
    rw [layoutFault?]
    constructor
    · cases hn : n.connective with
      | none =>
        intro h
        exact ⟨n, ms, rfl, hn, missingConnective?_eq_none_iff.mp (Option.map_eq_none_iff.mp h)⟩
      | some c => nofun
    · rintro ⟨k, ks, he, hn, hs⟩
      obtain ⟨rfl, rfl⟩ := List.cons.inj he
      rw [hn]
      exact Option.map_eq_none_iff.mpr (missingConnective?_eq_none_iff.mpr hs)

theorem composite?_eq_ok {ns : List (Node Expr)} (h : layoutFault? ns = none) :
    composite? ns = .ok (composite ns) := by
  rw [composite?, h]

section Parts

variable {ns : List (Node Expr)} {e : Expr}

theorem isComplete_composite : (composite ns).isComplete ↔ ∀ n ∈ ns, n.child.isComplete := by
  simp only [isComplete, every, everyChild_eq_all, Bool.true_and, List.all_eq_true]

theorem isComplete_group : (group e).isComplete ↔ e.isComplete := by
  simp only [isComplete, every, Bool.true_and]

theorem isLaidOut_composite :
    (composite ns).isLaidOut ↔ layoutFault? ns = none ∧ ∀ n ∈ ns, n.child.isLaidOut := by
  simp only [isLaidOut, every, everyChild_eq_all, Bool.and_eq_true, decide_eq_true_eq,
    List.all_eq_true]

theorem isLaidOut_group : (group e).isLaidOut ↔ e.isLaidOut := by
  simp only [isLaidOut, every, Bool.true_and]

theorem isConjunctive_composite : (composite ns).isConjunctive ↔
    (∀ n ∈ ns.tail, n.connective ≠ some .or) ∧ ∀ n ∈ ns, n.child.isConjunctive := by
  simp only [isConjunctive, every, everyChild_eq_all, Bool.and_eq_true, decide_eq_true_eq,
    List.all_eq_true]

theorem isConjunctive_group : (group e).isConjunctive ↔ e.isConjunctive := by
  simp only [isConjunctive, every, Bool.true_and]

end Parts

theorem obstacle?_eq_none {e : Expr} (h : e.isComplete) (missing : Fault) :
    e.obstacle? missing = none := by
  induction e with
  | condition c =>
    have hc : c.operator.isSome := h
    simp [obstacle?, Option.isSome_iff_ne_none.mp hc]
  | composite ns ih =>
    rw [obstacle?, nodesObstacle?_eq_findSome?, List.findSome?_eq_none_iff]
    exact fun n hn => ih n hn (isComplete_composite.mp h n hn)
  | group e ih => exact ih (isComplete_group.mp h)
  | constant b label => rfl
  | foreign v => cases h

theorem foreign?_eq_none {e : Expr} (h : e.isComplete) : e.foreign? = none := by
  induction e with
  | condition c => rfl
  | composite ns ih =>
    rw [foreign?, nodesForeign?_eq_findSome?, List.findSome?_eq_none_iff]
    exact fun n hn => ih n hn (isComplete_composite.mp h n hn)
  | group e ih => exact ih (isComplete_group.mp h)
  | constant b label => rfl
  | foreign v => cases h

theorem operator_isSome {e : Expr} (h : e.isComplete) : ∀ c ∈ e.leaves, c.operator.isSome := by
  induction e with
  | condition c =>
    intro d hd
    rw [List.mem_singleton.mp hd]
    exact h
  | composite ns ih =>
    intro c hc
    rw [leaves, nodeLeaves_eq_flatMap] at hc
    obtain ⟨n, hn, hc⟩ := List.mem_flatMap.mp hc
    exact ih n hn (isComplete_composite.mp h n hn) c hc
  | group e ih => exact ih (isComplete_group.mp h)
  | constant b label => intro c hc; cases hc
  | foreign v => cases h

end RuleTables.Expr
