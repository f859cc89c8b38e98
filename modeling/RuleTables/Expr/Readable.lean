import RuleTables.Expr.Basic

namespace RuleTables

def Condition.readable (c : Condition) : String :=
  match c.operator with
  | none => ""
  | some op =>
    if op.needsValue then "(" ++ c.parameter ++ " " ++ op.symbol ++ " " ++ c.value ++ ")"
    else "(" ++ c.parameter ++ " " ++ op.symbol ++ ")"

namespace Expr

def readableJoiner : Option Connective → String
  | some c => " " ++ c.name ++ " "
  | none => " "

mutual

def readableText : Expr → String
  | condition c => c.readable
  | composite ns => readableFirst ns
  | group e => "(" ++ readableText e ++ ")"
  | constant _ label => label
  | foreign _ => ""

def readableFirst : List (Node Expr) → String
  | [] => ""
  | ⟨_, e⟩ :: ns => readableText e ++ readableRest ns

def readableRest : List (Node Expr) → String
  | [] => ""
  | ⟨c, e⟩ :: ns => readableJoiner c ++ readableText e ++ readableRest ns

end

/-- The text in infix form with symbols: `(amount > 100) AND (status == active)`. -/
def readable (e : Expr) : Except Fault String :=
  guarded (e.obstacle? .noOperator) e.readableText

def shown : Expr → Except Fault String
  | foreign v => .ok v.display
  | e => e.readable

end Expr

end RuleTables
