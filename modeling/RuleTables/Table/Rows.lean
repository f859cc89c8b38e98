import RuleTables.Expr.Basic
import RuleTables.Operator.Fragment

namespace RuleTables

/-- Cells by column; an empty cell leaves its column free. -/
structure Row where
  entries : List (String × String)
  outputs : List String
  deriving DecidableEq

def Row.constrained (r : Row) : List (String × String) :=
  r.entries.filter (·.2 ≠ "")

def Condition.cell (c : Condition) : String :=
  match c.operator with
  | some op => op.unaryTest c.value c.kind
  | none => ""

namespace Expr

def consGroup (e : Expr) : List (List Expr) → List (List Expr)
  | [] => [[e]]
  | g :: gs => (e :: g) :: gs

def nodeGroups : List (Node Expr) → List (List Expr)
  | [] => []
  | [n] => [[n.child]]
  | n :: m :: ns =>
    if m.connective = some .or then [n.child] :: nodeGroups (m :: ns)
    else consGroup n.child (nodeGroups (m :: ns))

/-- The parts that become rows: the top composite is cut before every node that is joined by `or`.
-/
def rowGroups : Expr → List (List Expr)
  | composite ns => nodeGroups ns
  | e => [[e]]

mutual

/-- Whether no false constant can be reached. -/
def holdable : Expr → Bool
  | condition _ => true
  | composite ns => nodesHoldable ns
  | group e => holdable e
  | constant v _ => v
  | foreign _ => true

def nodesHoldable : List (Node Expr) → Bool
  | [] => true
  | ⟨_, e⟩ :: ns => holdable e && nodesHoldable ns

end

def cell (cs : List Condition) (column : String) : String :=
  Text.join ", " ((cs.filter (·.parameter = column)).map (·.cell))

/-- Columns that are named twice have one cell. -/
def row (columns outputs : List String) (g : List Expr) : Row :=
  ⟨(columns.foldl addName []).map fun column => (column, cell (g.flatMap leaves) column), outputs⟩

def rowsOf (columns outputs : List String) (e : Expr) : List Row :=
  (e.rowGroups.filter (·.all holdable)).map (row columns outputs)

/-- What keeps a group from becoming a row: a child that is no expression, or a condition of a
column that has no operator. -/
def groupFault? (columns : List String) (g : List Expr) : Option Fault :=
  (g.findSome? foreign?).or
    (if g.all holdable && (g.flatMap leaves).any fun c =>
        columns.contains c.parameter && c.operator.isNone then some .noOperator
      else none)

def compileRows (columns outputs : List String) (e : Expr) : Except Fault (List Row) :=
  guarded (e.rowGroups.findSome? (groupFault? columns)) (e.rowsOf columns outputs)

def compileOwnRows (outputs : List String) (e : Expr) : Except Fault (List Row) := do
  compileRows (← parameters [e]) outputs e

end Expr

end RuleTables
