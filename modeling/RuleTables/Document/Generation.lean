import RuleTables.Document.Drawn

namespace RuleTables

inductive Source where
  | expression
  | rules
  | table
  deriving DecidableEq

def Source.name : Source → String
  | .expression => "expression"
  | .rules => "rules"
  | .table => "table"

/-- A run that generates a document: where it came from, how it ended, how many rows it wrote, and
what it logged. -/
structure Generation where
  source : Source
  answer : Except Fault String
  rows : Nat
  log : List Log.Entry

namespace Generation

def isSuccess (g : Generation) : Bool :=
  g.answer.isOk

def generatedLog (source : Source) (t : Table) (l : TableLayout) : Log.Entry :=
  ⟨.info, "dmn_rules.compiler.dmn",
    "Generated decision " ++ l.decisionId ++ " with " ++ toString t.rows.length ++ " rows and " ++
      toString t.columns.length ++ " inputs", [("source", .text source.name)]⟩

def ofCompiled (source : Source) (subject : String) (l : TableLayout) :
    Except Fault Table → Generation
  | .error f => ⟨source, .error f, 0, []⟩
  | .ok t =>
    let log := Table.compiledLog subject t ++ Document.writingLog t l
    match Document.compiledText t l with
    | .error f => ⟨source, .error f, 0, log⟩
    | .ok text => ⟨source, .ok text, t.rows.length, log ++ [generatedLog source t l]⟩

def ofExpr (e : Expr) (l : TableLayout) : Generation :=
  ofCompiled .expression "expression" l (Table.ofExpr e l)

def ofRules (rs : List Rule) (l : TableLayout) : Generation :=
  ofCompiled .rules (toString rs.length ++ " rules") l (Table.ofRules rs l)

def ofDrawn (t : DrawnTable) (pretty : Bool) : Generation :=
  match t.text pretty with
  | .error f => ⟨.table, .error f, 0, []⟩
  | .ok text =>
    ⟨.table, .ok text, t.rules.length,
      [⟨.info, "dmn_rules.compiler.dmn",
        "Generated decision " ++ t.decisionName ++ " with " ++ toString t.rules.length ++ " rows",
        []⟩]⟩

end Generation

end RuleTables
