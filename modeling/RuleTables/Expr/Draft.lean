import RuleTables.Expr.Findings
import RuleTables.Text.Pieces

namespace RuleTables

def Json.valueText : Json → String
  | .null => ""
  | .bool true => "true"
  | .bool false => "false"
  | v => v.display

namespace Condition

def ofValue (operator : Option Operator) (parameter : String) (value : Json) (kind : Option Kind) :
    Condition :=
  of parameter operator value.valueText kind true

/-- A test for one of several values, of the kind of the first. -/
def inList (parameter : String) (values : List Json) : Condition :=
  let items := values.map Json.valueText
  let kind := match items with
    | [] => Kind.string
    | item :: _ => Kind.infer item
  of parameter (some .oneOf) (Text.join "," items) (some kind) true

/-- A test for a range, of the kind of its lower end. -/
def inRange (parameter : String) (low high : Json) : Condition :=
  of parameter (some .between) (low.valueText ++ "," ++ high.valueText)
    (some (Kind.infer low.valueText)) true

end Condition

inductive Step where
  | join (connective : Connective)
  | add (e : Expr)
  | group (steps : List Step)

namespace Step

def condition (parameter : String) (operator : Option Operator) (value : Json)
    (kind : Option Kind) : Step :=
  .add (.condition (.ofValue operator parameter value kind))

def test (operator : Operator) (parameter : String) (value : Json) : Step :=
  condition parameter (some operator) value none

def textTest (operator : Operator) (parameter : String) (value : Json) : Step :=
  condition parameter (some operator) value (some .string)

def equals : String → Json → Step := test .equals

def notEquals : String → Json → Step := test .notEquals

def greaterThan : String → Json → Step := test .greaterThan

def greaterThanOrEqual : String → Json → Step := test .greaterThanOrEqual

def lessThan : String → Json → Step := test .lessThan

def lessThanOrEqual : String → Json → Step := test .lessThanOrEqual

def contains : String → Json → Step := textTest .contains

def startsWith : String → Json → Step := textTest .startsWith

def endsWith : String → Json → Step := textTest .endsWith

def isNull (parameter : String) : Step := test .isNull parameter (.text "")

def isNotNull (parameter : String) : Step := test .isNotNull parameter (.text "")

def isEmpty (parameter : String) : Step := textTest .isEmpty parameter (.text "")

def isIn (parameter : String) (values : List Json) : Step :=
  .add (.condition (.inList parameter values))

def between (parameter : String) (low high : Json) : Step :=
  .add (.condition (.inRange parameter low high))

end Step

/-- The nodes so far and the connective that the next one will be joined by; without one it is
joined by `and`. -/
structure Draft where
  nodes : List (Node Expr)
  pending : Option Connective

namespace Draft

def empty : Draft := ⟨[], none⟩

def join (d : Draft) (c : Connective) : Draft :=
  ⟨d.nodes, some c⟩

def add (d : Draft) (e : Expr) : Draft :=
  let connective := if d.nodes.isEmpty then none else some (d.pending.getD .and)
  ⟨d.nodes ++ [⟨connective, e⟩], none⟩

/-- A single node stands for itself, and nothing at all for the true constant. -/
def build (d : Draft) : Expr :=
  match d.nodes with
  | [] => .alwaysTrue
  | [n] => n.child
  | ns => .composite ns

mutual

def step (d : Draft) : Step → Draft
  | .join c => d.join c
  | .add e => d.add e
  | .group steps => d.add (.group (run empty steps).build)

def run (d : Draft) : List Step → Draft
  | [] => d
  | s :: ss => run (step d s) ss

end

end Draft

namespace Expr

def ofSteps (steps : List Step) : Expr :=
  (Draft.empty.run steps).build

def single (parameter : String) (operator : Option Operator) (value : Json) : Expr :=
  ofSteps [.condition parameter operator value none]

/-- Expressions each of which is announced by the connective. -/
def chained (c : Connective) (es : List Expr) : Expr :=
  ofSteps (es.flatMap fun e => [.join c, .add e])

end Expr

end RuleTables
