import RuleTables.Log.Basic
import RuleTables.Table.Layout
import RuleTables.Table.Rows

namespace RuleTables

/-- An expression with the outputs that its rows have. -/
structure Rule where
  condition : Expr
  outputs : List String

/-- The rows of all rules over one set of columns: the parameters in the order in which they first
come, then the computed inputs. -/
structure Table where
  columns : List String
  rows : List Row
  deriving DecidableEq

namespace Table

def columnsOf (es : List Expr) (l : TableLayout) : List String :=
  (l.computed.map (·.name)).foldl Expr.addName (Expr.parameterNames es)

def compileColumns (es : List Expr) (l : TableLayout) : Except Fault (List String) :=
  Expr.guarded (es.findSome? Expr.foreign?) (columnsOf es l)

/-- The table of one expression, all of whose rows have the default outputs. -/
def ofExpr (e : Expr) (l : TableLayout) : Except Fault Table := do
  let columns ← compileColumns [e] l
  return ⟨columns, ← e.compileRows columns (l.columns.map (·.cell))⟩

def ruleRows (columns : List String) : List Rule → Except Fault (List Row)
  | [] => .ok []
  | r :: rs => do
    let rows ← r.condition.compileRows columns r.outputs
    return rows ++ (← ruleRows columns rs)

def ofRules (rs : List Rule) (l : TableLayout) : Except Fault Table := do
  let columns ← compileColumns (rs.map (·.condition)) l
  return ⟨columns, ← ruleRows columns rs⟩

def compiledLog (subject : String) (t : Table) : List Log.Entry :=
  [⟨.debug, "dmn_rules.compiler.rules",
    "Compiled " ++ subject ++ " into " ++ toString t.rows.length ++ " rows over " ++
      toString t.columns.length ++ " columns", []⟩]

end Table

end RuleTables
