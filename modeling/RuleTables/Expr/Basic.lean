import RuleTables.Fault
import RuleTables.Operator.Basic

namespace RuleTables

/-- A test of one parameter. Without its operator a condition can be reported but not rendered. -/
structure Condition where
  parameter : String
  operator : Option Operator
  value : String
  kind : Kind
  grouped : Bool
  deriving DecidableEq

namespace Condition

/-- A condition whose kind is guessed from its value unless it is given. -/
def of (parameter : String) (operator : Option Operator) (value : String) (kind : Option Kind)
    (grouped : Bool) : Condition :=
  ⟨parameter, operator, value, kind.getD (Kind.infer value), grouped⟩

def test (operator : Operator) (parameter value : String) : Condition :=
  of parameter (some operator) value none true

def textTest (operator : Operator) (parameter value : String) : Condition :=
  of parameter (some operator) value (some .string) true

def equals : String → String → Condition := test .equals

def notEquals : String → String → Condition := test .notEquals

def greaterThan : String → String → Condition := test .greaterThan

def greaterThanOrEqual : String → String → Condition := test .greaterThanOrEqual

def lessThan : String → String → Condition := test .lessThan

def lessThanOrEqual : String → String → Condition := test .lessThanOrEqual

def contains : String → String → Condition := textTest .contains

def startsWith : String → String → Condition := textTest .startsWith

def isEmpty (parameter : String) : Condition := textTest .isEmpty parameter ""

def isNull (parameter : String) : Condition := test .isNull parameter ""

def same (a b : Condition) : Bool :=
  a.parameter = b.parameter && a.operator = b.operator && a.value = b.value

end Condition

/-- A child with the connective to the node before it. -/
structure Node (α : Type) where
  connective : Option Connective
  child : α

/-- Conditions, composites whose nodes are joined to the node before them, groups, and constants. A
child that is no expression at all is kept as the value it is. -/
inductive Expr where
  | condition (c : Condition)
  | composite (nodes : List (Node Expr))
  | group (child : Expr)
  | constant (value : Bool) (label : String)
  | foreign (value : Json)

namespace Expr

def alwaysTrue : Expr := constant true "Always"

def alwaysFalse : Expr := constant false "Never"

def always (value : Bool) : Expr :=
  if value then alwaysTrue else alwaysFalse

def constantOf (value : Bool) (label : Option String) : Expr :=
  match label with
  | some l => constant value l
  | none => always value

def missingConnective? (position : Nat) : List (Node Expr) → Option Nat
  | [] => none
  | n :: ns => if n.connective.isNone then some position else missingConnective? (position + 1) ns

/-- The first thing out of place among the nodes of a composite. -/
def layoutFault? : List (Node Expr) → Option LayoutFault
  | [] => some .empty
  | n :: ns =>
    match n.connective with
    | some c => some (.leading c)
    | none => (missingConnective? 1 ns).map .missing

/-- Only composites that are laid out properly are built. -/
def composite? (nodes : List (Node Expr)) : Except LayoutFault Expr :=
  match layoutFault? nodes with
  | some f => .error f
  | none => .ok (composite nodes)

def joinedBy (connective : Connective) : List Expr → List (Node Expr)
  | [] => []
  | e :: es => ⟨none, e⟩ :: es.map (⟨some connective, ·⟩)

def allOf (es : List Expr) : Except LayoutFault Expr := composite? (joinedBy .and es)

def anyOf (es : List Expr) : Except LayoutFault Expr := composite? (joinedBy .or es)

mutual

/-- Equality that leaves out the kind and the grouping of conditions. -/
def same : Expr → Expr → Bool
  | condition a, condition b => a.same b
  | composite ns, composite ms => sameNodes ns ms
  | group a, group b => same a b
  | constant v l, constant w m => v == w && l == m
  | foreign a, foreign b => a.inner == b.inner
  | _, _ => false

def sameNodes : List (Node Expr) → List (Node Expr) → Bool
  | [], [] => true
  | ⟨c, a⟩ :: ns, ⟨d, b⟩ :: ms => c == d && same a b && sameNodes ns ms
  | _, _ => false

end

mutual

/-- The conditions from left to right, at any depth. -/
def leaves : Expr → List Condition
  | condition c => [c]
  | composite ns => nodeLeaves ns
  | group e => leaves e
  | constant _ _ => []
  | foreign _ => []

def nodeLeaves : List (Node Expr) → List Condition
  | [] => []
  | ⟨_, e⟩ :: ns => leaves e ++ nodeLeaves ns

end

mutual

def foreign? : Expr → Option Fault
  | condition _ => none
  | composite ns => nodesForeign? ns
  | group e => foreign? e
  | constant _ _ => none
  | foreign v => some (.unsupported v.typeName)

def nodesForeign? : List (Node Expr) → Option Fault
  | [] => none
  | ⟨_, e⟩ :: ns => (foreign? e).or (nodesForeign? ns)

end

mutual

/-- The first condition without an operator, reported as `missing`, or child that is no
expression. -/
def obstacle? (missing : Fault) : Expr → Option Fault
  | condition c => if c.operator.isNone then some missing else none
  | composite ns => nodesObstacle? missing ns
  | group e => obstacle? missing e
  | constant _ _ => none
  | foreign v => some (.unsupported v.typeName)

def nodesObstacle? (missing : Fault) : List (Node Expr) → Option Fault
  | [] => none
  | ⟨_, e⟩ :: ns => (obstacle? missing e).or (nodesObstacle? missing ns)

end

def guarded {α : Type} (obstacle : Option Fault) (result : α) : Except Fault α :=
  match obstacle with
  | some f => .error f
  | none => .ok result

def copy (e : Expr) : Except Fault Expr :=
  guarded e.foreign? e

def addName (names : List String) (name : String) : List String :=
  if names.contains name then names else names ++ [name]

/-- The parameters of the conditions, each where it first comes. -/
def parameterNames (es : List Expr) : List String :=
  ((es.flatMap leaves).map (·.parameter)).foldl addName []

def parameters (es : List Expr) : Except Fault (List String) :=
  guarded (es.findSome? foreign?) (parameterNames es)

end Expr

end RuleTables
