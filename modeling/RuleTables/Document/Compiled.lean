import RuleTables.Document.Basic
import RuleTables.Fault
import RuleTables.Table.Basic

namespace RuleTables.Document

def numbered (name : String) (ns : List Nat) : String :=
  String.intercalate "_" (name :: ns.map fun n => toString n)

def compiledInput (l : TableLayout) (index : Nat) (column : String) : Input :=
  let id := numbered "input" [index]
  let expressionId := numbered "inputExpr" [index]
  match l.computed? column with
  | some c => ⟨id, c.label, expressionId, c.kind.typeRef, c.expression⟩
  | none => ⟨id, l.labelOf column, expressionId, (l.kindOf column).typeRef, column⟩

def compiledOutput (index : Nat) (c : OutputColumn) : Output :=
  ⟨numbered "output" [index], c.label, c.name, c.kind.typeRef⟩

def padded (count : Nat) (outputs : List String) : List String :=
  outputs.take count ++ List.replicate (count - outputs.length) ""

def countFrom {α : Type} (start : Nat) : List α → List (Nat × α)
  | [] => []
  | x :: xs => (start, x) :: countFrom (start + 1) xs

def entries (name : String) (rule start : Nat) (texts : List String) : List Entry :=
  (countFrom start texts).map fun t => ⟨numbered name [rule, t.1], t.2⟩

def compiledRule (t : Table) (l : TableLayout) (index : Nat) (r : Row) : Rule where
  id := numbered "rule" [index]
  inputs := entries "inputEntry" index 1
    (t.columns.map fun column => (Assoc.find? column r.entries).getD "")
  outputs := entries "outputEntry" index 1 (padded l.columns.length r.outputs)

/-- Columns, rules and cells are numbered from one. Outputs that a row lacks are empty, and those
beyond the output columns are left out. -/
def ofTable (t : Table) (l : TableLayout) : Document where
  definitionsId := l.definitionsId
  definitionsName := l.definitionsName
  decisionId := l.decisionId
  decisionName := l.decisionName
  tableId := l.tableId
  hitPolicy := l.hitPolicy
  inputs := (countFrom 1 t.columns).map fun c => compiledInput l c.1 c.2
  outputs := (countFrom 1 l.columns).map fun c => compiledOutput c.1 c.2
  rules := (countFrom 1 t.rows).map fun r => compiledRule t l r.1 r.2

def shortRowLog (l : TableLayout) (rows : List Row) : List Log.Entry :=
  ((countFrom 1 rows).filter (·.2.outputs.length < l.columns.length)).map fun r =>
    ⟨.warning, "dmn_rules.compiler.dmn",
      "Rule " ++ toString r.1 ++ " has " ++ toString r.2.outputs.length ++
        " output values for " ++ toString l.columns.length ++ " output columns", []⟩

/-- What is logged while the document is written: rows are told of as they are begun. -/
def writingLog (t : Table) (l : TableLayout) : List Log.Entry :=
  shortRowLog l (t.rows.take (ofTable t l).begun.length)

def compiledText (t : Table) (l : TableLayout) : Except Fault String :=
  let d := ofTable t l
  if d.isWritable then .ok (d.render l.pretty) else .error .unwritableCell

end RuleTables.Document
