import RuleTables.Proofs.Alternatives
import RuleTables.Proofs.Refusal
import RuleTables.Proofs.RuleCount
import RuleTables.Proofs.Tally
import RuleTables.Service.Exposition

namespace RuleTables

namespace Document

theorem ruleCount_compiledText {t : Table} {l : TableLayout} {text : String}
    (h : compiledText t l = .ok text) : ruleCount text = t.rows.length := by
  rw [compiledText] at h
  split at h
  · rw [← Except.ok.inj h, ruleCount_render, ofTable, List.length_map, length_countFrom]
  · cases h

theorem ruleCount_drawn {t : DrawnTable} {pretty : Bool} {text : String}
    (h : t.text pretty = .ok text) : ruleCount text = t.rules.length := by
  rw [← (DrawnTable.text_eq_ok_iff.mp h).2, ruleCount_render, DrawnTable.document,
    List.length_map, length_countFrom]

end Document

/-- A call for a document, with all that it is given. -/
inductive Job where
  | expression (e : Expr) (l : TableLayout)
  | rules (rs : List Rule) (l : TableLayout)
  | table (t : DrawnTable) (pretty : Bool)

namespace Job

def source : Job → Source
  | expression _ _ => .expression
  | rules _ _ => .rules
  | table _ _ => .table

def run : Job → Generation
  | expression e l => .ofExpr e l
  | rules rs l => .ofRules rs l
  | table t pretty => .ofDrawn t pretty

/-- The document that a call returned, if it did. -/
def document? (j : Job) : Option String :=
  j.run.answer.toOption

def fault? (j : Job) : Option Fault :=
  match j.run.answer with
  | .error f => some f
  | .ok _ => none

theorem isSome_fault? (j : Job) : j.fault?.isSome = !j.document?.isSome := by
  rw [fault?, document?]
  cases j.run.answer <;> rfl

theorem source_ofCompiled (source : Source) (subject : String) (l : TableLayout)
    (x : Except Fault Table) : (Generation.ofCompiled source subject l x).source = source := by
  cases x with
  | error f => rfl
  | ok t =>
    rw [Generation.ofCompiled]
    cases Document.compiledText t l <;> rfl

theorem source_run (j : Job) : j.run.source = j.source := by
  cases j with
  | expression e l => exact source_ofCompiled ..
  | rules rs l => exact source_ofCompiled ..
  | table t pretty =>
    rw [run, Generation.ofDrawn]
    cases t.text pretty <;> rfl

theorem rows_ofCompiled {source : Source} {subject : String} {l : TableLayout}
    {x : Except Fault Table} {text : String}
    (h : (Generation.ofCompiled source subject l x).answer = .ok text) :
    (Generation.ofCompiled source subject l x).rows = Document.ruleCount text := by
  cases x with
  | error f => cases h
  | ok t =>
    rw [Generation.answer_ofCompiled] at h
    rw [Generation.ofCompiled, Document.ruleCount_compiledText h]
    simp only [h]

theorem rows_run {j : Job} {text : String} (h : j.run.answer = .ok text) :
    j.run.rows = Document.ruleCount text := by
  cases j with
  | expression e l => exact rows_ofCompiled h
  | rules rs l => exact rows_ofCompiled h
  | table t pretty =>
    rw [run, Generation.answer_ofDrawn] at h
    rw [run, Generation.ofDrawn, Document.ruleCount_drawn h]
    simp only [h]

end Job

namespace Service

theorem eventOf_run (j : Job) :
    eventOf j.run = .generated j.source (j.document?.map Document.ruleCount) := by
  rw [eventOf, j.source_run, Job.document?, Generation.isSuccess]
  cases h : j.run.answer with
  | error f => rfl
  | ok text => rw [Job.rows_run h]; rfl

namespace Meters

def outcomesOf (source : Source) (success : Bool) (m : Meters) : Nat :=
  Tally.get (source, success) 0 m.outcomes

def runsOf (source : Source) (m : Meters) : Nat :=
  Tally.get source 0 m.runs

def rowsOf (source : Source) (m : Meters) : List Nat :=
  Tally.get source [] m.rows

section Calls

variable (source : Source) (m : Meters) (j : Job) (js : List Job)

theorem outcomesOf_step (success : Bool) : (m.step (eventOf j.run)).outcomesOf source success =
    m.outcomesOf source success +
      if j.source = source ∧ j.document?.isSome = success then 1 else 0 := by
  rw [eventOf_run, outcomesOf, outcomesOf]
  dsimp only [step]
  rw [Tally.get_count, Option.isSome_map]
  simp only [Prod.mk.injEq, eq_comm]

theorem runsOf_step : (m.step (eventOf j.run)).runsOf source =
    m.runsOf source + if j.source = source then 1 else 0 := by
  rw [eventOf_run, runsOf, runsOf]
  dsimp only [step]
  rw [Tally.get_count]
  simp only [eq_comm]

theorem rowsOf_step : (m.step (eventOf j.run)).rowsOf source =
    (if j.source = source then (j.document?.map Document.ruleCount).toList else []) ++
      m.rowsOf source := by
  rw [eventOf_run, rowsOf, rowsOf]
  cases j.document? with
  | none => simp [step]
  | some text =>
    dsimp only [Option.map_some, step]
    rw [Tally.get_change]
    by_cases h : j.source = source
    · rw [if_pos h, if_pos h.symm, h]
      rfl
    · rw [if_neg h, if_neg (Ne.symm h)]
      rfl

def callsOf (source : Source) (js : List Job) : List Job :=
  js.filter (·.source = source)

def after (js : List Job) (m : Meters) : Meters :=
  m.run (js.map fun j => eventOf j.run)

theorem countP_after {count : Meters → Nat} {p : Job → Bool}
    (h : ∀ m j, count (m.step (eventOf j.run)) = count m + if p j then 1 else 0)
    (js : List Job) (m : Meters) : count (m.after js) = count m + js.countP p := by
  induction js generalizing m with
  | nil => rfl
  | cons j js ih =>
    have hm : m.after (j :: js) = (m.step (eventOf j.run)).after js := rfl
    rw [hm, ih, h, List.countP_cons]
    omega

theorem outcomesOf_after (success : Bool) : (m.after js).outcomesOf source success =
    m.outcomesOf source success + (callsOf source js).countP (·.document?.isSome = success) := by
  have h := countP_after (p := fun j => decide (j.source = source ∧ j.document?.isSome = success))
    (fun m j => by simpa using outcomesOf_step source m j success) js m
  rw [h, callsOf, List.countP_filter]
  simp [and_comm]

theorem runsOf_after :
    (m.after js).runsOf source = m.runsOf source + (callsOf source js).length := by
  have h := countP_after (p := fun j => decide (j.source = source))
    (fun m j => by simpa using runsOf_step source m j) js m
  rw [h, callsOf, List.countP_eq_length_filter]

theorem rowsOf_after : (m.after js).rowsOf source =
    (((callsOf source js).filterMap (·.document?)).map Document.ruleCount).reverse ++
      m.rowsOf source := by
  induction js generalizing m with
  | nil => rfl
  | cons j js ih =>
    have hm : m.after (j :: js) = (m.step (eventOf j.run)).after js := rfl
    rw [hm, ih, rowsOf_step]
    by_cases h : j.source = source
    · have hc : callsOf source (j :: js) = j :: callsOf source js :=
        List.filter_cons_of_pos (by simpa)
      rw [hc, if_pos h, List.filterMap_cons]
      cases j.document? <;> simp
    · have hc : callsOf source (j :: js) = callsOf source js := List.filter_cons_of_neg (by simpa)
      rw [hc, if_neg h, List.nil_append]

end Calls

theorem rowTotal_eq_sum (rows : List Nat) : rowTotal rows = rows.sum := rfl

def rowSum (source : Source) (m : Meters) : Nat :=
  rowTotal (m.rowsOf source)

theorem countP_document (calls : List Job) (success : Bool) :
    calls.countP (·.document?.isSome = success) =
      if success then (calls.filterMap (·.document?)).length
      else (calls.filterMap (·.fault?)).length := by
  rw [List.length_filterMap_eq_countP, List.length_filterMap_eq_countP]
  cases success with
  | true => simp
  | false =>
    have h (j : Job) : decide (j.document?.isSome = false) = j.fault?.isSome := by
      simp [Job.isSome_fault?, -Option.isSome_eq_false_iff]
    simp only [h, Bool.false_eq_true, if_false]

/-- What the meters of a source say more after these calls of it. -/
structure Accounted (source : Source) (calls : List Job) (before later : Meters) : Prop where
  successes : later.outcomesOf source true =
    before.outcomesOf source true + (calls.filterMap (·.document?)).length
  errors : later.outcomesOf source false =
    before.outcomesOf source false + (calls.filterMap (·.fault?)).length
  runs : later.runsOf source = before.runsOf source + calls.length
  rowCount : (later.rowsOf source).length =
    (before.rowsOf source).length + (calls.filterMap (·.document?)).length
  rowSum : later.rowSum source =
    before.rowSum source + ((calls.filterMap (·.document?)).map Document.ruleCount).sum

/-- Whatever calls are made and however they fail, the meters of each source account for all its
calls. -/
theorem generations_accounted (m : Meters) (js : List Job) (source : Source) :
    Accounted source (callsOf source js) m (m.after js) where
  successes := by rw [outcomesOf_after, countP_document, if_pos rfl]
  errors := by rw [outcomesOf_after, countP_document, if_neg Bool.false_ne_true]
  runs := runsOf_after source m js
  rowCount := by
    rw [rowsOf_after, List.length_append, List.length_reverse, List.length_map, Nat.add_comm]
  rowSum := by
    rw [Meters.rowSum, Meters.rowSum, rowTotal_eq_sum, rowTotal_eq_sum, rowsOf_after,
      List.sum_append, List.sum_reverse, Nat.add_comm]

end Meters

end Service

end RuleTables
