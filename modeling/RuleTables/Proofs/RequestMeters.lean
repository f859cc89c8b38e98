import Mathlib.Logic.Relation
import RuleTables.Proofs.Posting
import RuleTables.Proofs.Tally

namespace RuleTables.Service

inductive Ending where
  | answered (status : Nat)
  | raised (kind : String)
  deriving DecidableEq

namespace Ending

def event (line : Line) : Ending → Event
  | answered status => .answered line status
  | raised kind => .raised line kind

def isAnswered : Ending → Bool
  | answered _ => true
  | raised _ => false

end Ending

/-- A request that was started, and how it ended if it did. -/
structure Admitted where
  line : Line
  ending : Option Ending
  deriving DecidableEq

/-- The meters, and all the requests that were started since they stood at zero. -/
structure Traffic where
  meters : Meters
  requests : List Admitted

namespace Traffic

def zero : Traffic := ⟨.zero, []⟩

/-- A request starts, a running request ends, or a running request generates a document. -/
inductive Step : Traffic → Traffic → Prop
  | start (m : Meters) (rs : List Admitted) (line : Line) :
    Step ⟨m, rs⟩ ⟨m.step (.started line), rs ++ [⟨line, none⟩]⟩
  | finish (m : Meters) (before after : List Admitted) (line : Line) (e : Ending) :
    Step ⟨m, before ++ ⟨line, none⟩ :: after⟩
      ⟨m.step (e.event line), before ++ ⟨line, some e⟩ :: after⟩
  | generate (m : Meters) (rs : List Admitted) (source : Source) (rows : Option Nat) :
    Step ⟨m, rs⟩ ⟨m.step (.generated source rows), rs⟩

abbrev Reaches : Traffic → Traffic → Prop :=
  Relation.ReflTransGen Step

def number (line : Line) (p : Option Ending → Bool) (t : Traffic) : Nat :=
  t.requests.countP fun r => r.line = line && p r.ending

def running (line : Line) (t : Traffic) : Nat :=
  t.number line (·.isNone)

def ended (line : Line) (t : Traffic) : Nat :=
  t.number line (·.isSome)

def answered (line : Line) (t : Traffic) : Nat :=
  t.number line (·.any (·.isAnswered))

def raised (line : Line) (t : Traffic) : Nat :=
  t.number line (·.any (!·.isAnswered))

end Traffic

namespace Meters

def inProgress (line : Line) (m : Meters) : Int :=
  Tally.get line 0 m.running

def requestsOf (line : Line) (m : Meters) : Nat :=
  Tally.total (·.1 = line) m.requests

def errorsOf (line : Line) (m : Meters) : Nat :=
  Tally.total (·.1 = line) m.errors

def timedOf (line : Line) (m : Meters) : Nat :=
  Tally.get line 0 m.timed

section Step

variable (line l : Line) (m : Meters) (e : Ending)

theorem get_add (d : Int) (t : Tally Line Int) :
    Tally.get line 0 (Tally.change l 0 (· + d) t) =
      Tally.get line 0 t + if l = line then d else 0 := by
  rw [Tally.get_change]
  by_cases h : l = line
  · rw [if_pos h.symm, if_pos h, h]
  · rw [if_neg (Ne.symm h), if_neg h, Int.add_zero]

theorem inProgress_started : (m.step (.started l)).inProgress line =
    m.inProgress line + if l = line then 1 else 0 :=
  get_add line l 1 m.running

theorem inProgress_event : (m.step (e.event l)).inProgress line =
    m.inProgress line + if l = line then -1 else 0 := by
  cases e <;> exact get_add line l (-1) m.running

theorem requestsOf_event : (m.step (e.event l)).requestsOf line =
    m.requestsOf line + if l = line then 1 else 0 := by
  have h (status : Nat) := Tally.total_count (·.1 = line) (l, status) m.requests
  simp only [decide_eq_true_eq] at h
  cases e with
  | answered status => exact h status
  | raised kind => exact h 500

theorem errorsOf_event : (m.step (e.event l)).errorsOf line =
    m.errorsOf line + if l = line ∧ !e.isAnswered then 1 else 0 := by
  cases e with
  | answered status => simp [errorsOf, step, Ending.event, Ending.isAnswered]
  | raised kind =>
    have h := Tally.total_count (·.1 = line) (l, kind) m.errors
    simp only [decide_eq_true_eq] at h
    simp only [Ending.isAnswered, Bool.not_false, and_true]
    exact h

theorem timedOf_event : (m.step (e.event l)).timedOf line =
    m.timedOf line + if l = line ∧ e.isAnswered then 1 else 0 := by
  cases e with
  | answered status =>
    simp only [Ending.isAnswered, and_true, eq_comm (a := l)]
    exact Tally.get_count line l m.timed
  | raised kind => simp [timedOf, step, Ending.event, Ending.isAnswered]

end Step

end Meters

namespace Traffic

section Numbers

variable (line l : Line) (p : Option Ending → Bool) (m n : Meters) (rs before after : List Admitted)
  (e : Ending)

theorem number_start : number line p ⟨n, rs ++ [⟨l, none⟩]⟩ =
    number line p ⟨m, rs⟩ + if l = line ∧ p none then 1 else 0 := by
  simp [number, List.countP_append, List.countP_cons]

theorem number_finish : number line p ⟨n, before ++ ⟨l, some e⟩ :: after⟩ +
      (if l = line ∧ p none then 1 else 0) =
    number line p ⟨m, before ++ ⟨l, none⟩ :: after⟩ + if l = line ∧ p (some e) then 1 else 0 := by
  simp only [number, List.countP_append, List.countP_cons, Bool.and_eq_true, decide_eq_true_eq]
  omega

end Numbers

/-- What the meters say of the requests of a line. -/
structure Balanced (line : Line) (t : Traffic) : Prop where
  running : t.meters.inProgress line = t.running line
  ended : t.meters.requestsOf line = t.ended line
  raised : t.meters.errorsOf line = t.raised line
  answered : t.meters.timedOf line = t.answered line

theorem balanced_zero (line : Line) : zero.Balanced line :=
  ⟨rfl, rfl, rfl, rfl⟩

theorem Step.balanced {line : Line} {t u : Traffic} (h : Step t u) (hb : t.Balanced line) :
    u.Balanced line := by
  cases h with
  | start m rs l =>
    have hn (p : Option Ending → Bool) := number_start line l p m (m.step (.started l)) rs
    constructor
    · rw [Meters.inProgress_started, hb.running, Traffic.running, Traffic.running, hn]
      by_cases hl : l = line <;> simp [hl]
    · exact hb.ended.trans (by simp [Traffic.ended, hn])
    · exact hb.raised.trans (by simp [Traffic.raised, hn])
    · exact hb.answered.trans (by simp [Traffic.answered, hn])
  | finish m before after l e =>
    have hn (p : Option Ending → Bool) :=
      number_finish line l p m (m.step (e.event l)) before after e
    constructor
    -- The gauge is the one meter that goes down, so it is compared as an integer.
    · have h := hn (·.isNone)
      rw [Meters.inProgress_event, hb.running, Traffic.running, Traffic.running]
      by_cases hl : l = line
      · simp only [hl, Option.isNone_none, and_self, if_true] at h ⊢
        simp at h
        omega
      · simp [hl] at h ⊢
        omega
    · rw [Meters.requestsOf_event, hb.ended, Traffic.ended, Traffic.ended]
      simpa using (hn (·.isSome)).symm
    · rw [Meters.errorsOf_event, hb.raised, Traffic.raised, Traffic.raised]
      simpa using (hn (·.any (!·.isAnswered))).symm
    · rw [Meters.timedOf_event, hb.answered, Traffic.answered, Traffic.answered]
      simpa using (hn (·.any (·.isAnswered))).symm
  | generate m rs source rows => exact ⟨hb.running, hb.ended, hb.raised, hb.answered⟩

/-- However requests interleave, the meters of every line are in balance at every point: those in
progress are the ones that run, which is never less than none and none when all have ended. -/
theorem meters_balance {t : Traffic} (h : Reaches zero t) (line : Line) :
    t.Balanced line ∧ 0 ≤ t.meters.inProgress line ∧
      ((∀ r ∈ t.requests, r.line = line → r.ending.isSome) → t.meters.inProgress line = 0) := by
  have hb : t.Balanced line := by
    induction h with
    | refl => exact balanced_zero line
    | tail _ hs ih => exact hs.balanced ih
  refine ⟨hb, ?_, fun he => ?_⟩
  · rw [hb.running]
    exact Int.natCast_nonneg _
  · have hn : t.running line = 0 := by
      refine List.countP_eq_zero.mpr fun r hr hp => ?_
      obtain ⟨hl, hi⟩ := (Bool.and_eq_true _ _).mp hp
      have := he r hr (of_decide_eq_true hl)
      simp_all
    rw [hb.running, hn, Int.natCast_zero]

end Traffic

def Response.ending (r : Response) : Ending :=
  match r.raised with
  | none => .answered r.answer.status
  | some kind => .raised kind.name

theorem exchange_meters {s : Settings} (ho : s.observed) (m : Meters) (fresh : String) (c : Call) :
    ∃ es : List Generation, (exchange s m fresh c).meters =
      (((m.step (.started (Context.of s fresh c).line)).run (es.map eventOf)).step
        ((exchange s m fresh c).ending.event (Context.of s fresh c).line)) := by
  refine ⟨(Work.ofCall s (m.run [.started (Context.of s fresh c).line]) c).generation.toList, ?_⟩
  rw [Response.ending, exchange]
  simp only [observedEvents, ho, if_true]
  split
  · next a log h =>
    have hs : (((a.identify s (Context.of s fresh c)).forMethod c.method)).status = a.status := by
      simp [Answer.forMethod, Answer.identify, ho]
      split <;> rfl
    simp [hs, Ending.event, Meters.run]
  · rfl

namespace Traffic

theorem reaches_generations (m : Meters) (rs : List Admitted) (es : List Generation) :
    Reaches ⟨m, rs⟩ ⟨m.run (es.map eventOf), rs⟩ := by
  induction es generalizing m with
  | nil => exact .refl
  | cons g es ih => exact .head (.generate m rs _ _) (ih _)

/-- A request that the service can ask for its name goes through such steps, whatever comes of it;
another one raises something before it is started, and leaves the meters as they are. -/
theorem reaches_respond {s : Settings} (ho : s.observed) (m : Meters) (rs : List Admitted)
    (fresh : String) (c : Call) :
    (asksForNames s → Reaches ⟨m, rs⟩ ⟨(respond s m fresh c).meters,
      rs ++ [⟨⟨c.method, c.path⟩, some (respond s m fresh c).ending⟩]⟩) ∧
    (¬ asksForNames s → (respond s m fresh c).meters = m) := by
  constructor
  · intro hs
    have hr : respond s m fresh c = exchange s m fresh c := by
      rw [respond, nameReport?_eq_none_iff.mpr hs]
    obtain ⟨es, he⟩ := exchange_meters ho m fresh c
    rw [hr, he]
    refine .head (.start m rs ⟨c.method, c.path⟩) (.tail (reaches_generations _ _ es) ?_)
    exact .finish _ rs [] _ _
  · intro hs
    obtain ⟨r, hr⟩ := Option.ne_none_iff_exists'.mp (mt nameReport?_eq_none_iff.mp hs)
    rw [respond, hr]

def rulesLine : Line := ⟨"POST", "/api/v1/dmn/rules"⟩

def healthCall : Call := ⟨"GET", "/api/v1/health", [], [], ""⟩

def overlapping : Traffic :=
  let served := respond .usual (Meters.zero.run [.started rulesLine, .started rulesLine,
    .raised rulesLine "RuntimeError", .generated .rules (some 2)]) "" healthCall
  ⟨served.meters, [⟨rulesLine, none⟩, ⟨rulesLine, some (.raised "RuntimeError")⟩,
    ⟨⟨"GET", "/api/v1/health"⟩, some served.ending⟩]⟩

theorem reaches_overlapping : Reaches zero overlapping := by
  let two : List Admitted := [⟨rulesLine, none⟩, ⟨rulesLine, none⟩]
  let one : List Admitted := [⟨rulesLine, none⟩, ⟨rulesLine, some (.raised "RuntimeError")⟩]
  have start : Reaches zero ⟨_, two⟩ :=
    .tail (.single (.start .zero [] rulesLine)) (.start _ [⟨rulesLine, none⟩] rulesLine)
  have finish (m : Meters) : Step ⟨m, two⟩ ⟨m.step (.raised rulesLine "RuntimeError"), one⟩ :=
    .finish m [⟨rulesLine, none⟩] [] rulesLine (.raised "RuntimeError")
  exact ((start.tail (finish _)).tail (.generate _ one .rules (some 2))).trans
    ((reaches_respond rfl _ one "" healthCall).1 asksForNames_usual)

theorem meters_balance_overlapping :
    Reaches zero overlapping ∧ overlapping.Balanced rulesLine ∧
      overlapping.meters.inProgress rulesLine = 1 ∧ overlapping.meters.requestsOf rulesLine = 1 ∧
      overlapping.meters.errorsOf rulesLine = 1 ∧ overlapping.meters.timedOf rulesLine = 0 := by
  obtain ⟨hb, -, -⟩ := meters_balance reaches_overlapping rulesLine
  exact ⟨reaches_overlapping, hb, hb.running, hb.ended, hb.raised, hb.answered⟩

end Traffic

end RuleTables.Service
