import RuleTables.Expr.Basic
import RuleTables.Operator.Fragment

namespace RuleTables

/-- How a dialect writes comparisons and connectives. -/
structure Inline where
  test : Operator → String → String → Kind → String
  token : Connective → String

namespace Inline

def java : Inline := ⟨Operator.javaTest, fun c => " " ++ c.sign ++ " "⟩

def feel : Inline := ⟨Operator.feelTest, fun c => " " ++ c.symbol ++ " "⟩

/-- The line of an expression is its tokens, one after another; a condition is one token. -/
inductive Token where
  | test (c : Condition)
  | open
  | close
  | connective (c : Option Connective)
  | truth (b : Bool)
  | none

def conditionText (d : Inline) (lead : String) (c : Condition) : String :=
  match c.operator with
  | .none => ""
  | some op =>
    let text := d.test op (lead ++ c.parameter) c.value c.kind
    if c.grouped then "(" ++ text ++ ")" else text

def tokenText (d : Inline) (lead : String) : Token → String
  | .test c => d.conditionText lead c
  | .open => "("
  | .close => ")"
  | .connective (some c) => d.token c
  | .connective .none => " "
  | .truth true => "true"
  | .truth false => "false"
  | .none => ""

mutual

def tokens : Expr → List Token
  | .condition c => [.test c]
  | .composite ns => firstTokens ns
  | .group e => .open :: tokens e ++ [.close]
  | .constant v _ => [.truth v]
  | .foreign _ => [.none]

/-- The connective of the first node is left out. -/
def firstTokens : List (Node Expr) → List Token
  | [] => []
  | ⟨_, e⟩ :: ns => tokens e ++ laterTokens ns

def laterTokens : List (Node Expr) → List Token
  | [] => []
  | ⟨c, e⟩ :: ns => .connective c :: tokens e ++ laterTokens ns

end

def text (d : Inline) (lead : String) (e : Expr) : String :=
  String.join ((tokens e).map (d.tokenText lead))

def render (d : Inline) (lead : String) (e : Expr) : Except Fault String :=
  Expr.guarded (e.obstacle? .noOperator) (d.text lead e)

end Inline

end RuleTables
