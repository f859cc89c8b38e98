import Mathlib.Data.List.SplitBy
import RuleTables.Proofs.Shape

namespace RuleTables

namespace Node

variable {α β : Type}

/-- The longest stretches of nodes inside which no node is joined to the one before it by `or`. -/
def runs (ns : List (Node α)) : List (List (Node α)) :=
  ns.splitBy fun _ n => n.connective ≠ some .or

def map (f : α → β) (n : Node α) : Node β :=
  ⟨n.connective, f n.child⟩

theorem runs_append (ns : List (Node α)) {m : Node α} (ms : List (Node α))
    (h : m.connective = some .or) : runs (ns ++ m :: ms) = runs ns ++ runs (m :: ms) :=
  List.splitBy_append (by simp [h])

theorem runs_or (n m : Node α) (ns : List (Node α)) (h : m.connective = some .or) :
    runs (n :: m :: ns) = [n] :: runs (m :: ns) :=
  runs_append [n] ns h

theorem runs_cons (n : Node α) (ns : List (Node α)) : ∃ r rs, runs (n :: ns) = (n :: r) :: rs := by
  obtain ⟨hf, hn, -⟩ := List.splitBy_eq_iff.mp (Eq.refl (runs (n :: ns)))
  cases hr : runs (n :: ns) with
  | nil => simp [hr] at hf
  | cons g gs =>
    rw [hr] at hf hn
    cases g with
    | nil => simp at hn
    | cons k r =>
      have hk : n = k := (List.cons.inj hf).1
      exact ⟨r, gs, by rw [hk]⟩

theorem runs_and (n m : Node α) (ns : List (Node α)) (h : m.connective ≠ some .or) :
    runs (n :: m :: ns) = (runs (m :: ns)).modifyHead (n :: ·) := by
  obtain ⟨r, rs, hr⟩ := runs_cons m ns
  obtain ⟨hf, hn, hc, hb⟩ := List.splitBy_eq_iff.mp hr
  rw [hr]
  refine List.splitBy_eq_iff.mpr ⟨?_, ?_, ?_, ?_⟩
  · simpa using hf
  · simpa using hn
  · intro x hx
    rcases List.mem_cons.mp hx with rfl | hx
    · exact List.isChain_cons_cons.mpr ⟨by simpa using h, hc _ List.mem_cons_self⟩
    · exact hc x (List.mem_cons_of_mem _ hx)
  · cases rs with
    | nil => exact .singleton _
    | cons s rs =>
      obtain ⟨⟨_, hs, hl⟩, ht⟩ := List.isChain_cons_cons.mp hb
      exact List.isChain_cons_cons.mpr ⟨⟨List.cons_ne_nil _ _, hs, by simpa using hl⟩, ht⟩

theorem length_runs (n : Node α) (ns : List (Node α)) :
    (runs (n :: ns)).length = ns.countP (·.connective = some .or) + 1 := by
  induction ns generalizing n with
  | nil => rfl
  | cons m ns ih =>
    by_cases h : m.connective = some .or
    · rw [runs_or n m ns h, List.length_cons, ih m, List.countP_cons_of_pos (by simpa using h)]
    · rw [runs_and n m ns h, List.length_modifyHead, ih m,
        List.countP_cons_of_neg (by simpa using h)]

theorem runs_ne_nil {ns : List (Node α)} (h : ns ≠ []) : runs ns ≠ [] :=
  List.splitBy_ne_nil.mpr h

theorem runs_eq_singleton {ns : List (Node α)} (hn : ns ≠ [])
    (h : ∀ n ∈ ns.tail, n.connective ≠ some .or) : runs ns = [ns] := by
  cases ns with
  | nil => exact absurd rfl hn
  | cons n ns =>
    induction ns generalizing n with
    | nil => rfl
    | cons m ns ih =>
      rw [runs_and n m ns (h m List.mem_cons_self),
        ih m (List.cons_ne_nil _ _) fun k hk => h k (List.mem_cons_of_mem _ hk)]
      rfl

theorem mem_of_mem_runs {ns r : List (Node α)} (hr : r ∈ runs ns) {n : Node α} (hn : n ∈ r) :
    n ∈ ns := by
  rw [← List.flatten_splitBy (fun _ n : Node α => decide (n.connective ≠ some .or)) ns]
  exact List.mem_flatten.mpr ⟨r, hr, hn⟩

theorem joined_by_and {n : Node α} (h : n.connective.isSome) (ho : n.connective ≠ some .or) :
    n.connective = some .and := by
  obtain ⟨c, hc⟩ := Option.isSome_iff_exists.mp h
  cases c with
  | and => exact hc
  | or => exact absurd hc ho

theorem connective_eq_and {ns r : List (Node α)} (h : ∀ n ∈ ns.tail, n.connective.isSome)
    (hr : r ∈ runs ns) {n : Node α} (hn : n ∈ r.tail) : n.connective = some .and := by
  cases ns with
  | nil => cases hr
  | cons k ns =>
    induction ns generalizing k r with
    | nil => rw [List.mem_singleton.mp hr] at hn; cases hn
    | cons m ns ih =>
      have ht : ∀ n ∈ ns, n.connective.isSome := fun n hn => h n (List.mem_cons_of_mem _ hn)
      by_cases hm : m.connective = some .or
      · rw [runs_or k m ns hm] at hr
        rcases List.mem_cons.mp hr with rfl | hr
        · cases hn
        · exact ih hn m ht hr
      · rw [runs_and k m ns hm] at hr
        obtain ⟨s, ss, hs⟩ := runs_cons m ns
        rw [hs] at hr
        rcases List.mem_cons.mp hr with rfl | hr
        · rcases List.mem_cons.mp hn with rfl | hn
          · exact joined_by_and (h n List.mem_cons_self) hm
          · exact ih (r := m :: s) hn m ht (by rw [hs]; exact List.mem_cons_self)
        · exact ih hn m ht (by rw [hs]; exact List.mem_cons_of_mem _ hr)

theorem runs_map (f : α → β) (ns : List (Node α)) :
    runs (ns.map (map f)) = (runs ns).map (·.map (map f)) := by
  cases ns with
  | nil => rfl
  | cons n ns =>
    induction ns generalizing n with
    | nil => rfl
    | cons m ns ih =>
      by_cases h : m.connective = some .or
      · rw [runs_or n m ns h, List.map_cons, List.map_cons, runs_or _ _ _ (by exact h),
          ← List.map_cons, ih m]
        rfl
      · rw [runs_and n m ns h, List.map_cons, List.map_cons, runs_and _ _ _ (by exact h),
          ← List.map_cons, ih m]
        cases runs (m :: ns) <;> rfl

end Node

namespace Expr

theorem nodeGroups_eq_runs (ns : List (Node Expr)) :
    nodeGroups ns = (Node.runs ns).map (·.map (·.child)) := by
  cases ns with
  | nil => rfl
  | cons n ns =>
    induction ns generalizing n with
    | nil => rfl
    | cons m ns ih =>
      by_cases h : m.connective = some .or
      · rw [Node.runs_or n m ns h, nodeGroups, if_pos h, ih m]
        rfl
      · rw [Node.runs_and n m ns h, nodeGroups, if_neg h, ih m]
        obtain ⟨r, rs, hr⟩ := Node.runs_cons m ns
        rw [hr]
        rfl

theorem mem_rowGroups {e x : Expr} {g : List Expr} (hg : g ∈ e.rowGroups) (hx : x ∈ g) :
    x = e ∨ ∃ ns, e = composite ns ∧ ∃ n ∈ ns, n.child = x := by
  cases e with
  | composite ns =>
    rw [rowGroups, nodeGroups_eq_runs] at hg
    obtain ⟨r, hr, rfl⟩ := List.mem_map.mp hg
    obtain ⟨n, hn, rfl⟩ := List.mem_map.mp hx
    exact .inr ⟨ns, rfl, n, Node.mem_of_mem_runs hr hn, rfl⟩
  | condition _ | group _ | constant _ _ | foreign _ =>
    simp only [rowGroups, List.mem_singleton] at hg
    subst hg
    exact .inl (List.mem_singleton.mp hx)

theorem isComplete_of_mem_rowGroups {e x : Expr} {g : List Expr} (h : e.isComplete)
    (hg : g ∈ e.rowGroups) (hx : x ∈ g) : x.isComplete := by
  obtain rfl | ⟨ns, rfl, n, hn, rfl⟩ := mem_rowGroups hg hx
  · exact h
  · exact isComplete_composite.mp h n hn

/-- The groups that become rows, in the order of the rows. -/
def compiledGroups (e : Expr) : List (List Expr) :=
  e.rowGroups.filter (·.all holdable)

theorem groupFault?_eq_none_iff {columns : List String} {g : List Expr} :
    groupFault? columns g = none ↔ g.findSome? foreign? = none ∧ (g.all holdable →
      ∀ c ∈ g.flatMap leaves, c.parameter ∈ columns → c.operator.isSome) := by
  have ha : ((g.flatMap leaves).any fun c =>
      columns.contains c.parameter && c.operator.isNone) = false ↔
        ∀ c ∈ g.flatMap leaves, c.parameter ∈ columns → c.operator.isSome := by
    rw [List.any_eq_false]
    refine forall₂_congr fun c _ => ?_
    simp [Option.isSome_iff_ne_none]
  rw [groupFault?, Option.or_eq_none_iff, ← ha]
  cases g.all holdable <;> simp

theorem groupFault?_eq_none {g : List Expr} (h : ∀ e ∈ g, e.isComplete) (columns : List String) :
    groupFault? columns g = none := by
  refine groupFault?_eq_none_iff.mpr ⟨?_, fun _ c hc _ => ?_⟩
  · exact List.findSome?_eq_none_iff.mpr fun e he => foreign?_eq_none (h e he)
  · obtain ⟨e, he, hc⟩ := List.mem_flatMap.mp hc
    exact operator_isSome (h e he) c hc

theorem compileRows_eq {e : Expr} (h : e.isComplete) (columns outputs : List String) :
    e.compileRows columns outputs = .ok (e.compiledGroups.map (row columns outputs)) := by
  have hf : e.rowGroups.findSome? (groupFault? columns) = none :=
    List.findSome?_eq_none_iff.mpr fun g hg =>
      groupFault?_eq_none (fun x hx => isComplete_of_mem_rowGroups h hg hx) columns
  rw [compileRows, hf]
  rfl

theorem parameters_singleton (e : Expr) :
    parameters [e] = guarded e.foreign? (parameterNames [e]) := by
  rw [parameters, List.findSome?_singleton]

theorem compileOwnRows_eq {e : Expr} (h : e.isComplete) (outputs : List String) :
    e.compileOwnRows outputs =
      .ok (e.compiledGroups.map (row (parameterNames [e]) outputs)) := by
  have hp : parameters [e] = .ok (parameterNames [e]) := by
    rw [parameters_singleton, foreign?_eq_none h]
    rfl
  rw [compileOwnRows, hp]
  exact compileRows_eq h (parameterNames [e]) outputs

end Expr

end RuleTables
