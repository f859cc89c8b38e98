import RuleTables.Proofs.RowGroups

namespace RuleTables.Expr

variable {v : Condition → Bool} {e : Expr} {ns : List (Node Expr)}

def someRun (ns : List (Node Bool)) : Bool :=
  ns.isEmpty || (Node.runs ns).any (·.all (·.child))

mutual

/-- The truth of an expression under a valuation of its conditions. -/
def eval (v : Condition → Bool) : Expr → Bool
  | condition c => v c
  | composite ns => someRun (evalNodes v ns)
  | group e => eval v e
  | constant b _ => b
  | foreign _ => false

def evalNodes (v : Condition → Bool) : List (Node Expr) → List (Node Bool)
  | [] => []
  | ⟨c, e⟩ :: ns => ⟨c, eval v e⟩ :: evalNodes v ns

end

/-- Some row fires: all conditions of its group hold. -/
def fires (v : Condition → Bool) (e : Expr) : Bool :=
  e.compiledGroups.any fun g => (g.flatMap leaves).all v

/-- All conditions in an expression hold, and no false constant can be reached. -/
def conjoined (v : Condition → Bool) (e : Expr) : Bool :=
  e.holdable && e.leaves.all v

theorem evalNodes_eq_map (v : Condition → Bool) (ns : List (Node Expr)) :
    evalNodes v ns = ns.map (Node.map (eval v)) := by
  induction ns with
  | nil => rfl
  | cons n ns ih => rw [evalNodes, ih]; rfl

theorem eval_composite (v : Condition → Bool) (ns : List (Node Expr)) :
    eval v (composite ns) = (ns.isEmpty || (Node.runs ns).any (·.all (·.child.eval v))) := by
  rw [eval, evalNodes_eq_map, someRun, Node.runs_map, List.any_map, List.isEmpty_map]
  congr 2
  funext r
  exact List.all_map

theorem all_conjoined {α : Type} (v : Condition → Bool) (f : α → Expr) (xs : List α) :
    xs.all (fun x => (f x).conjoined v) =
      (xs.all (fun x => (f x).holdable) && (xs.flatMap fun x => (f x).leaves).all v) := by
  rw [List.all_flatMap, Bool.eq_iff_iff]
  simp only [Bool.and_eq_true, List.all_eq_true, conjoined]
  constructor
  · intro h
    exact ⟨fun x hx => (h x hx).1, fun x hx => (h x hx).2⟩
  · rintro ⟨hh, hl⟩ x hx
    exact ⟨hh x hx, hl x hx⟩

theorem conjoined_composite (v : Condition → Bool) (ns : List (Node Expr)) :
    conjoined v (composite ns) = ns.all (·.child.conjoined v) := by
  rw [conjoined, holdable, leaves, nodesHoldable_eq_all, nodeLeaves_eq_flatMap, all_conjoined]

theorem fires_eq (v : Condition → Bool) (e : Expr) :
    e.fires v = e.rowGroups.any (·.all (conjoined v)) := by
  rw [fires, compiledGroups, List.any_filter]
  congr 1
  funext g
  exact (all_conjoined v id g).symm

theorem fires_composite (v : Condition → Bool) (ns : List (Node Expr)) :
    (composite ns).fires v = (Node.runs ns).any (·.all (·.child.conjoined v)) := by
  rw [fires_eq, rowGroups, nodeGroups_eq_runs, List.any_map]
  congr 1
  funext r
  exact List.all_map

theorem fires_of_not_composite (v : Condition → Bool) (h : ∀ ns, e ≠ composite ns) :
    e.fires v = e.conjoined v := by
  have hg : e.rowGroups = [[e]] := by
    cases e with
    | composite ns => exact absurd rfl (h ns)
    | condition _ | group _ | constant _ _ | foreign _ => rfl
  rw [fires_eq, hg]
  simp

theorem eval_of_conjoined (h : e.isComplete) (hv : e.conjoined v) : e.eval v := by
  induction e with
  | condition c => simpa [conjoined, holdable, leaves, eval] using hv
  | composite ns ih =>
    rw [conjoined_composite, List.all_eq_true] at hv
    have hn : ∀ n ∈ ns, n.child.eval v := fun n hn =>
      ih n hn (isComplete_composite.mp h n hn) (hv n hn)
    rw [eval_composite]
    cases hr : Node.runs ns with
    | nil => simp [not_imp_not.mp Node.runs_ne_nil hr]
    | cons r rs =>
      have hm : ∀ n ∈ r, n ∈ ns := fun n hn => Node.mem_of_mem_runs (by simp [hr]) hn
      simp only [List.any_cons, Bool.or_eq_true, List.all_eq_true]
      exact .inr (.inl fun n hk => hn n (hm n hk))
  | group e ih => exact ih (isComplete_group.mp h) hv
  | constant b label => simpa [conjoined, holdable, leaves, eval] using hv
  | foreign w => cases h

theorem eval_composite_of_isConjunctive (h : (composite ns).isConjunctive) :
    eval v (composite ns) = ns.all (·.child.eval v) := by
  rw [eval_composite]
  cases ns with
  | nil => rfl
  | cons n ns =>
    rw [Node.runs_eq_singleton (List.cons_ne_nil n ns) (isConjunctive_composite.mp h).1]
    simp

theorem conjoined_of_eval (h : e.isConjunctive) (hv : e.eval v) : e.conjoined v := by
  induction e with
  | condition c => simpa [conjoined, holdable, leaves, eval] using hv
  | composite ns ih =>
    rw [eval_composite_of_isConjunctive h, List.all_eq_true] at hv
    rw [conjoined_composite, List.all_eq_true]
    intro n hn
    exact ih n hn ((isConjunctive_composite.mp h).2 n hn) (hv n hn)
  | group e ih => exact ih (isConjunctive_group.mp h) hv
  | constant b label => simpa [conjoined, holdable, leaves, eval] using hv
  | foreign w => cases hv

theorem eval_of_fires (h : e.isComplete) (hv : e.fires v) : e.eval v := by
  cases e with
  | composite ns =>
    rw [fires_composite, List.any_eq_true] at hv
    obtain ⟨r, hr, ha⟩ := hv
    rw [eval_composite, Bool.or_eq_true, List.any_eq_true]
    refine .inr ⟨r, hr, List.all_eq_true.mpr fun n hn => ?_⟩
    exact eval_of_conjoined (isComplete_composite.mp h n (Node.mem_of_mem_runs hr hn))
      (List.all_eq_true.mp ha n hn)
  | condition _ | group _ | constant _ _ | foreign _ =>
    rw [fires_of_not_composite v (by nofun)] at hv
    exact eval_of_conjoined h hv

theorem fires_of_eval (h : e.orsOnTop) (hn : e ≠ composite []) (hv : e.eval v) : e.fires v := by
  cases e with
  | composite ns =>
    have hne : ns ≠ [] := fun hs => hn (hs ▸ rfl)
    rw [eval_composite, List.isEmpty_eq_false_iff.mpr hne, Bool.false_or, List.any_eq_true] at hv
    obtain ⟨r, hr, ha⟩ := hv
    rw [fires_composite, List.any_eq_true]
    refine ⟨r, hr, List.all_eq_true.mpr fun n hm => ?_⟩
    exact conjoined_of_eval (List.all_eq_true.mp h n (Node.mem_of_mem_runs hr hm))
      (List.all_eq_true.mp ha n hm)
  | condition _ | group _ | constant _ _ | foreign _ =>
    rw [fires_of_not_composite v (by nofun)]
    exact conjoined_of_eval h hv

theorem fires_eq_eval (h : e.isComplete) (ho : e.orsOnTop) (hn : e ≠ composite [])
    (v : Condition → Bool) : e.fires v = e.eval v :=
  Bool.eq_iff_iff.mpr ⟨eval_of_fires h, fires_of_eval ho hn⟩

/-- The rows of a complete expression are compiled without a fault, one for each group. If one of
them fires the expression is true, and the other way round where each `or` stands on top. -/
theorem compileRows_sound_complete (v : Condition → Bool) (h : e.isComplete) :
    (∀ columns outputs,
      e.compileRows columns outputs = .ok (e.compiledGroups.map (row columns outputs))) ∧
    (∀ outputs, e.compileOwnRows outputs =
      .ok (e.compiledGroups.map (row (parameterNames [e]) outputs))) ∧
    (e.fires v → e.eval v) ∧
    (e.orsOnTop → e ≠ composite [] → e.eval v → e.fires v) :=
  ⟨compileRows_eq h, compileOwnRows_eq h, eval_of_fires h, fires_of_eval⟩

def largeOrVip : Expr :=
  composite [⟨none, condition (.greaterThan "amount" "500")⟩,
    ⟨some .or, group (composite [⟨none, condition (.equals "class" "vip")⟩,
      ⟨some .and, alwaysTrue⟩])⟩]

def onClass (c : Condition) : Bool := c.parameter = "class"

theorem largeOrVip_fires_on_class :
    largeOrVip.isComplete ∧ largeOrVip.orsOnTop ∧ largeOrVip.eval onClass ∧
      largeOrVip.fires onClass := by
  have hc : largeOrVip.isComplete := by decide
  have ho : largeOrVip.orsOnTop := by decide
  have he : largeOrVip.eval onClass := by decide
  exact ⟨hc, ho, he, (compileRows_sound_complete onClass hc).2.2.2 ho nofun he⟩

/-- A nested `or` is read as one conjunction with the rest, so its row may miss. -/
example : (group largeOrVip).eval onClass = true ∧ (group largeOrVip).fires onClass = false := by
  decide

end RuleTables.Expr
