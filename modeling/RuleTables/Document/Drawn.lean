import RuleTables.Document.Compiled
import RuleTables.Text.Blank

namespace RuleTables

structure DrawnInput where
  label : String
  expression : String
  typeRef : String
  deriving DecidableEq

structure DrawnOutput where
  label : String
  name : String
  typeRef : String
  deriving DecidableEq

structure DrawnRule where
  inputs : List String
  outputs : List String
  deriving DecidableEq

/-- A decision table that is given cell by cell. -/
structure DrawnTable where
  decisionName : String
  inputs : List DrawnInput
  outputs : List DrawnOutput
  rules : List DrawnRule
  hitPolicy : HitPolicy
  deriving DecidableEq

namespace DrawnTable

/-- The first rule whose cells do not match the columns; inputs are counted before outputs. -/
def countFault? (t : DrawnTable) : Option Fault :=
  (Document.countFrom 0 t.rules).findSome? fun r =>
    if r.2.inputs.length ≠ t.inputs.length then
      some (.inputCount r.1 r.2.inputs.length t.inputs.length)
    else if r.2.outputs.length ≠ t.outputs.length then
      some (.outputCount r.1 r.2.outputs.length t.outputs.length)
    else none

def inputDocument (index : Nat) (i : DrawnInput) : Document.Input :=
  ⟨Document.numbered "input" [index], i.label, Document.numbered "inputExpression" [index],
    i.typeRef, i.expression⟩

def outputDocument (index : Nat) (o : DrawnOutput) : Document.Output :=
  ⟨Document.numbered "output" [index], o.label, o.name, o.typeRef⟩

def ruleDocument (index : Nat) (r : DrawnRule) : Document.Rule :=
  ⟨Document.numbered "rule" [index], Document.entries "inputEntry" index 0 r.inputs,
    Document.entries "outputEntry" index 0 r.outputs⟩

/-- Columns, rules and cells are numbered from zero, and the decision is identified by its name. -/
def document (t : DrawnTable) : Document where
  definitionsId := "definitions"
  definitionsName := t.decisionName
  decisionId := t.decisionName
  decisionName := t.decisionName
  tableId := t.decisionName ++ "Table"
  hitPolicy := t.hitPolicy
  inputs := (Document.countFrom 0 t.inputs).map fun i => inputDocument i.1 i.2
  outputs := (Document.countFrom 0 t.outputs).map fun o => outputDocument o.1 o.2
  rules := (Document.countFrom 0 t.rules).map fun r => ruleDocument r.1 r.2

def text (t : DrawnTable) (pretty : Bool) : Except Fault String :=
  if Text.allBlank t.decisionName then .error .blankDecisionName
  else
    match t.countFault? with
    | some f => .error f
    | none =>
      let d := t.document
      if !d.headingWritable then .error .unwritableName
      else if !d.isWritable then .error .unwritableCell
      else .ok (d.render pretty)

end DrawnTable

end RuleTables
