import RuleTables.Document.Generation
import RuleTables.Expr.Findings
import RuleTables.Request.Fields

namespace RuleTables.Request

inductive Mode where
  | expression
  | rules
  | table
  deriving DecidableEq

/-- Why there is no document: the body of the named model has issues, or something failed. -/
inductive Refusal where
  | issues (model : String) (issues : List Issue)
  | fault (f : Fault)

/-- What became of a request, with the run that it led to, if any, and all that was logged. -/
structure Outcome where
  answer : Except Refusal String
  generation : Option Generation
  log : List Log.Entry

namespace Outcome

def refused (log : List Log.Entry) (f : Fault) : Outcome :=
  ⟨.error (.fault f), none, log⟩

def ofGeneration (g : Generation) : Outcome :=
  ⟨g.answer.mapError .fault, some g, g.log⟩

end Outcome

def drawnDocument (s : Settings) (t : DrawnTable) : Outcome :=
  .ofGeneration (.ofDrawn t s.pretty)

/-- The expression is checked unless the body says not to. -/
def expressionDocument (s : Settings) (b : ExpressionTableBody) : Outcome :=
  match Expr.read false b.expression with
  | .error f => .refused [] f
  | .ok e =>
    match b.validate, e.validate.fault? with
    | true, some f => .refused e.validate.log f
    | _, _ => .ofGeneration (.ofExpr e (b.layout.layout s))

def RuleBody.rule (b : RuleBody) : Except Fault Rule :=
  (Expr.read false b.expression).map (⟨·, b.outputs⟩)

def rulesOf : List RuleBody → Except Fault (List Rule)
  | [] => .ok []
  | b :: bs => do
    let r ← b.rule
    let rs ← rulesOf bs
    return r :: rs

def findingsFault (numbered : Bool) (rule : Nat) (f : Findings) : Fault :=
  if numbered then .ruleFindings rule f.errors f.warnings else .findings f.errors f.warnings

def failing? (start : Nat) : List Rule → Option (Nat × Findings)
  | [] => none
  | r :: rs =>
    if r.condition.validate.isValid then failing? (start + 1) rs
    else some (start, r.condition.validate)

def rulesDocument (s : Settings) (numbered : Bool) (b : RulesTableBody) : Outcome :=
  match rulesOf b.rules with
  | .error f => .refused [] f
  | .ok rs =>
    match b.validate, failing? 0 rs with
    | true, some (i, f) => .refused f.log (findingsFault numbered i f)
    | _, _ => .ofGeneration (.ofRules rs (b.layout.layout s))

/-- Whether a name is in a body: among the names of an object, the items of a list, or anywhere in
text. -/
def hasName (name : String) : Json → Except Fault Bool
  | .object ms => .ok (Assoc.has ms name)
  | .list vs => .ok (vs.any fun v => match v with
    | .text s => s = name
    | _ => false)
  | .text s => .ok (Text.holds s name)
  | v => .error (.notSearchable v.typeName)

/-- An expression comes first; rules with the name of a decision are a table, as is all else. -/
def detectMode (body : Json) : Except Fault Mode := do
  if ← hasName "expression" body then return .expression
  if ← hasName "rules" body then
    if ← hasName "decisionName" body then return .table
    if ← hasName "decision_name" body then return .table
    return .rules
  return .table

def readBody {α : Type} (model : String) (read : Json → Checked α) (go : α → Outcome)
    (body : Json) : Outcome :=
  match read body with
  | .good a => go a
  | .bad is => ⟨.error (.issues model is), none, []⟩

def document (s : Settings) (mode : Mode) (body : Json) : Outcome :=
  match mode with
  | .table => readBody "DecisionTableRequestSchema" (readDrawnTable false) (drawnDocument s) body
  | .rules => readBody "RulesDmnRequest" (RulesTableBody.read false) (rulesDocument s false) body
  | .expression =>
    readBody "ExpressionDmnRequest" (ExpressionTableBody.read false) (expressionDocument s) body

def buildDocument (s : Settings) (mode : Option Mode) (body : Json) : Outcome :=
  match mode with
  | some m => document s m body
  | none =>
    match detectMode body with
    | .ok m => document s m body
    | .error f => .refused [] f

def Mode.name : Mode → String
  | .expression => "expression"
  | .rules => "rules"
  | .table => "table"

/-- The mode that a word names: `none` for the one to be detected. Other words mean expressions. -/
def Mode.ofWord (s : String) : Option Mode :=
  if s = "auto" then none
  else if s = "table" then some .table
  else if s = "rules" then some .rules
  else some .expression

end RuleTables.Request
