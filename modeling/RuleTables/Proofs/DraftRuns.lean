import RuleTables.Expr.Draft
import RuleTables.Proofs.Shape

namespace RuleTables.Draft

open RuleTables.Expr

section Check

/-- The expression of the draft, unless its nodes make no composite. -/
def tryBuild (d : Draft) : Except LayoutFault Expr :=
  match d.nodes with
  | [] => .ok alwaysTrue
  | [n] => .ok n.child
  | ns => composite? ns

/-- The nodes of the draft, as soon as it has any, make a composite. -/
def IsLaid (d : Draft) : Prop :=
  d.nodes = [] ∨ layoutFault? d.nodes = none

variable {d : Draft}

theorem isLaid_empty : empty.IsLaid := .inl rfl

theorem IsLaid.join (h : d.IsLaid) (c : Connective) : (d.join c).IsLaid := h

theorem IsLaid.add (h : d.IsLaid) (e : Expr) : (d.add e).IsLaid := by
  refine .inr (layoutFault?_eq_none_iff.mpr ?_)
  obtain hd | hd := h
  · exact ⟨⟨none, e⟩, [], by simp [Draft.add, hd], rfl, nofun⟩
  · obtain ⟨n, ms, hd, hn, hms⟩ := layoutFault?_eq_none_iff.mp hd
    refine ⟨n, ms ++ [⟨some (d.pending.getD .and), e⟩], by simp [Draft.add, hd], hn, fun m hm => ?_⟩
    obtain hm | hm := List.mem_append.mp hm
    · exact hms m hm
    · rw [List.mem_singleton.mp hm, Option.isSome_some]

theorem IsLaid.step (h : d.IsLaid) : (s : Step) → (d.step s).IsLaid
  | .join c => h.join c
  | .add e => h.add e
  | .group steps => h.add (.group (empty.run steps).build)

theorem IsLaid.run (h : d.IsLaid) (steps : List Step) : (d.run steps).IsLaid := by
  induction steps generalizing d with
  | nil => exact h
  | cons s ss ih => exact ih (h.step s)

theorem IsLaid.tryBuild_eq (h : d.IsLaid) : d.tryBuild = .ok d.build := by
  obtain ⟨ns, pending⟩ := d
  match ns, h with
  | [], _ => rfl
  | [_], _ => rfl
  | _ :: _ :: _, .inr h => exact composite?_eq_ok h

end Check

section Calls

/-- What a caller does to a draft. A group is filled by calls of its own. -/
inductive Call where
  | join (connective : Connective)
  | add (e : Expr)
  | group (calls : List Call)
  | build

/-- A property of all calls in a group, and of those after a call, carries over to the sequence:
then it holds of every sequence. -/
@[elab_as_elim]
theorem Call.induct {motive : List Call → Prop} (nil : motive [])
    (join : ∀ c cs, motive cs → motive (.join c :: cs))
    (add : ∀ e cs, motive cs → motive (.add e :: cs))
    (group : ∀ inner cs, motive inner → motive cs → motive (.group inner :: cs))
    (build : ∀ cs, motive cs → motive (.build :: cs)) (calls : List Call) : motive calls :=
  @Call.rec_1 (fun c => ∀ cs, motive cs → motive (c :: cs)) motive
    join add (fun inner h cs => group inner cs h) build nil (fun _ cs hc hcs => hc cs hcs) calls

mutual

/-- The draft after a call in which no composite is refused. A question leaves it as it is. -/
def perform (d : Draft) : Call → Except LayoutFault Draft
  | .join c => .ok (d.join c)
  | .add e => .ok (d.add e)
  | .group calls => do
    let inner ← performAll empty calls
    let e ← inner.tryBuild
    return d.add (.group e)
  | .build => do
    let _ ← d.tryBuild
    return d

def performAll (d : Draft) : List Call → Except LayoutFault Draft
  | [] => .ok d
  | c :: cs => do performAll (← d.perform c) cs

end

mutual

def Call.steps : Call → List Step
  | .join c => [.join c]
  | .add e => [.add e]
  | .group calls => [.group (stepsOf calls)]
  | .build => []

def stepsOf : List Call → List Step
  | [] => []
  | c :: cs => c.steps ++ stepsOf cs

end

theorem IsLaid.performAll_eq {d : Draft} (h : d.IsLaid) (calls : List Call) :
    d.performAll calls = .ok (d.run (stepsOf calls)) := by
  induction calls using Call.induct generalizing d with
  | nil => rfl
  | join c cs ih => exact ih (h.join c)
  | add e cs ih => exact ih (h.add e)
  | group inner cs ihInner ih =>
    have hi : (empty.run (stepsOf inner)).tryBuild = .ok (empty.run (stepsOf inner)).build :=
      (isLaid_empty.run _).tryBuild_eq
    have hp : d.perform (.group inner) = .ok (d.step (.group (stepsOf inner))) := by
      rw [perform, ihInner isLaid_empty]
      simp only [bind, Except.bind, hi]
      rfl
    rw [performAll, hp]
    exact ih (h.step _)
  | build cs ih =>
    have hp : d.perform .build = .ok d := by rw [perform, h.tryBuild_eq]; rfl
    rw [performAll, hp]
    exact ih h

end Calls

section Turns

/-- Some connectives, then one addition. The connectives at the end of a group are `idle`. -/
inductive Turn where
  | expression (joins : List Connective) (e : Expr)
  | group (joins : List Connective) (turns : List Turn) (idle : List Connective)

namespace Turn

@[elab_as_elim]
theorem induct {motive : List Turn → Prop} (nil : motive [])
    (expression : ∀ joins e ts, motive ts → motive (.expression joins e :: ts))
    (group : ∀ joins inner idle ts, motive inner → motive ts →
      motive (.group joins inner idle :: ts)) (turns : List Turn) : motive turns :=
  @Turn.rec_1 (fun t => ∀ ts, motive ts → motive (t :: ts)) motive
    expression (fun joins inner idle h ts => group joins inner idle ts h)
    nil (fun _ ts ht hts => ht ts hts) turns

def joins : Turn → List Connective
  | expression joins _ => joins
  | group joins _ _ => joins

def connective (t : Turn) : Connective :=
  t.joins.getLast?.getD .and

def lead (c : Connective) : Turn → Turn
  | expression joins e => expression (c :: joins) e
  | group joins turns idle => group (c :: joins) turns idle

end Turn

mutual

def Turn.added : Turn → Expr
  | .expression _ e => e
  | .group _ turns _ => .group (joined turns)

/-- The expression of a draft after the turns: its first connective is never one of theirs. -/
def joined : List Turn → Expr
  | [] => alwaysTrue
  | [t] => t.added
  | t :: ts => composite (⟨none, t.added⟩ :: later ts)

def later : List Turn → List (Node Expr)
  | [] => []
  | t :: ts => ⟨some t.connective, t.added⟩ :: later ts

end

theorem later_eq_map (ts : List Turn) :
    later ts = ts.map fun t => ⟨some t.connective, t.added⟩ := by
  induction ts with
  | nil => rfl
  | cons t ts ih => rw [later, ih, List.map_cons]

mutual

def Turn.addition : Turn → Step
  | .expression _ e => .add e
  | .group _ turns idle => .group (script turns idle)

/-- The turns as steps, with the connectives after the last of them. -/
def script : List Turn → List Connective → List Step
  | [], idle => idle.map .join
  | t :: ts, idle => t.joins.map .join ++ t.addition :: script ts idle

end

theorem cons_join_script (c : Connective) (turns : List Turn) (idle : List Connective) :
    ∃ turns' idle', .join c :: script turns idle = script turns' idle' := by
  cases turns with
  | nil => exact ⟨[], c :: idle, rfl⟩
  | cons t ts => exact ⟨t.lead c :: ts, idle, by cases t <;> rfl⟩

theorem exists_script (calls : List Call) :
    ∃ turns idle, stepsOf calls = script turns idle := by
  induction calls using Call.induct with
  | nil => exact ⟨[], [], rfl⟩
  | join c cs ih =>
    obtain ⟨turns, idle, h⟩ := ih
    obtain ⟨turns', idle', h'⟩ := cons_join_script c turns idle
    exact ⟨turns', idle', (congrArg (Step.join c :: ·) h).trans h'⟩
  | add e cs ih =>
    obtain ⟨turns, idle, h⟩ := ih
    exact ⟨.expression [] e :: turns, idle, congrArg (Step.add e :: ·) h⟩
  | group inner cs ihInner ih =>
    obtain ⟨ts, is, hi⟩ := ihInner
    obtain ⟨turns, idle, h⟩ := ih
    refine ⟨.group [] ts is :: turns, idle, ?_⟩
    rw [stepsOf, Call.steps, hi, h]
    rfl
  | build cs ih => exact ih

end Turns

section Answers

theorem run_joins (d : Draft) (cs : List Connective) (ss : List Step) :
    d.run (cs.map .join ++ ss) = run ⟨d.nodes, cs.getLast?.or d.pending⟩ ss := by
  induction cs generalizing d with
  | nil => rfl
  | cons c cs ih =>
    rw [List.map_cons, List.cons_append, run, ih, List.getLast?_cons]
    cases cs.getLast? <;> rfl

/-- What the turns do to an empty draft and to one with nodes and nothing pending. -/
structure Runs (turns : List Turn) : Prop where
  build_eq : ∀ idle, (empty.run (script turns idle)).build = joined turns
  nodes_eq : ∀ idle ns, ns ≠ [] → (run ⟨ns, none⟩ (script turns idle)).nodes = ns ++ later turns

theorem runs_nil : Runs [] where
  build_eq idle := by
    rw [script, ← List.append_nil (idle.map _), run_joins]
    rfl
  nodes_eq idle ns _ := by
    rw [script, ← List.append_nil (idle.map _), run_joins, later, List.append_nil]
    rfl

theorem Runs.cons {t : Turn} {ts : List Turn} (h : Runs ts)
    (ht : ∀ d : Draft, d.step t.addition = d.add t.added) : Runs (t :: ts) where
  build_eq idle := by
    -- The draft is empty until the addition, so whatever is pending by then is dropped.
    have hn : (empty.run (script (t :: ts) idle)).nodes = ⟨none, t.added⟩ :: later ts := by
      rw [script, run_joins, run, ht]
      exact h.nodes_eq idle [⟨none, t.added⟩] nofun
    rw [build, hn]
    cases ts <;> rfl
  nodes_eq idle ns hns := by
    have ha : add ⟨ns, t.joins.getLast?⟩ t.added =
        ⟨ns ++ [⟨some t.connective, t.added⟩], none⟩ := by
      simp [add, hns, Turn.connective]
    rw [script, run_joins, run, ht, Option.or_none, ha, h.nodes_eq idle _ (by simp), later,
      List.append_assoc]
    rfl

theorem runs (turns : List Turn) : Runs turns := by
  induction turns using Turn.induct with
  | nil => exact runs_nil
  | expression joins e ts ih => exact ih.cons fun _ => rfl
  | group joins inner idle ts ihInner ih =>
    -- The draft of a group begins empty, whatever the draft it is filled for has in it.
    refine ih.cons fun d => ?_
    rw [Turn.addition, step, ihInner.build_eq, Turn.added]

/-- Every sequence of calls is one of turns, and no call in it fails. The questions among the calls
leave no trace in the draft, and asked now, it answers with the expression that the turns make. -/
theorem calls_answered (calls : List Call) :
    (∃ turns idle, stepsOf calls = script turns idle) ∧
    ∀ turns idle, stepsOf calls = script turns idle →
      empty.performAll calls = .ok (empty.run (script turns idle)) ∧
      (empty.run (script turns idle)).tryBuild = .ok (joined turns) := by
  refine ⟨exists_script calls, fun turns idle h => ⟨?_, ?_⟩⟩
  · rw [isLaid_empty.performAll_eq, h]
  · rw [(isLaid_empty.run _).tryBuild_eq, (runs turns).build_eq]

def restlessCalls : List Call :=
  [.join .or, .build, .add (condition (.greaterThan "amount" "500")), .join .and, .build,
    .join .or,
    .group [.join .or, .add (condition (.equals "class" "vip")), .build,
      .add (condition (.equals "rush" "true")), .join .or],
    .build, .add alwaysTrue, .join .or]

theorem restlessCalls_answered : ∃ d, empty.performAll restlessCalls = .ok d ∧
    d.tryBuild = .ok (composite [⟨none, condition (.greaterThan "amount" "500")⟩,
      ⟨some .or, group (composite [⟨none, condition (.equals "class" "vip")⟩,
        ⟨some .and, condition (.equals "rush" "true")⟩])⟩,
      ⟨some .and, alwaysTrue⟩]) :=
  ⟨_, (calls_answered restlessCalls).2
    [.expression [.or] (condition (.greaterThan "amount" "500")),
      .group [.and, .or] [.expression [.or] (condition (.equals "class" "vip")),
        .expression [] (condition (.equals "rush" "true"))] [.or],
      .expression [] alwaysTrue]
    [.or] rfl⟩

theorem chained_eq (c : Connective) (es : List Expr) :
    chained c es = joined (es.map (.expression [c])) := by
  have hs : (es.flatMap fun e => [Step.join c, .add e]) = script (es.map (.expression [c])) [] := by
    induction es with
    | nil => rfl
    | cons e es ih => rw [List.flatMap_cons, ih]; rfl
  rw [chained, ofSteps, hs, (runs _).build_eq]

theorem chained_eq_composite (c : Connective) {es : List Expr} (h : 2 ≤ es.length) :
    chained c es = composite (joinedBy c es) := by
  match es, h with
  | e :: f :: es, _ =>
    rw [chained_eq, List.map_cons, List.map_cons, joined, later_eq_map, ← List.map_cons,
      List.map_map]
    · rfl
    · exact nofun

end Answers

end RuleTables.Draft
