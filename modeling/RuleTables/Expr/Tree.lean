import RuleTables.Expr.Basic
import RuleTables.Json.Printer

namespace RuleTables

def Condition.tree (c : Condition) : Json :=
  .object [("type", .text "condition"), ("parameter", .text c.parameter),
    ("operator", match c.operator with
      | some op => .text op.name
      | none => .null),
    ("value", .text c.value), ("dataType", .text c.kind.typeRef), ("grouped", .bool c.grouped)]

/-- The field `field` of an object as text; `null` counts as left out. -/
def textField? (field : String) (ms : Json.Members) : Except TreeFault (Option String) :=
  match Assoc.find? field ms with
  | none | some .null => .ok none
  | some (.text s) => .ok (some s)
  | some _ => .error (.notText field (.object ms))

namespace Condition

def operatorOf : Json → Except TreeFault Operator
  | .text s =>
    match (Operator.ofName? s).or (Operator.ofSymbol? s) with
    | some op => .ok op
    | none => .error (.unknownOperator s)
  | v => .error (.operatorNotText v)

/-- Numbers and truth values are taken by their text. -/
def valueOf : Json → Except TreeFault String
  | .null => .ok ""
  | .bool b => .ok (if b then "true" else "false")
  | .int n => .ok (toString n)
  | .real x => .ok x.display
  | .text s => .ok s
  | v => .error (.valueNotScalar v)

def kindOf : Option String → Option Kind
  | none => none
  | some s => if s.isEmpty then none else some (.ofTypeRef s)

def ofTree (ms : Json.Members) : Except TreeFault Condition := do
  let typeRef ← textField? "dataType" ms
  let parameter ← match Assoc.find? "parameter" ms with
    | none => throw (.absent "condition" "parameter" (.object ms))
    | some (.text s) => pure s
    | some _ => throw (.notText "parameter" (.object ms))
  let operator ← match Assoc.find? "operator" ms with
    | none => throw (.absent "condition" "operator" (.object ms))
    | some v => operatorOf v
  let value ← valueOf ((Assoc.find? "value" ms).getD .null)
  let grouped ← match Assoc.find? "grouped" ms with
    | none => pure true
    | some (.bool b) => pure b
    | some _ => throw (.notTruth "grouped" (.object ms))
  return .of parameter (some operator) value (kindOf typeRef) grouped

end Condition

namespace Expr

def connectiveTree : Option Connective → Json
  | none => .null
  | some c => .text c.name

mutual

def tree : Expr → Json
  | condition c => c.tree
  | composite ns => .object [("type", .text "composite"), ("nodes", .list (nodeTrees ns))]
  | group e => .object [("type", .text "group"), ("expression", tree e)]
  | constant v label =>
    .object [("type", .text "constant"), ("value", .bool v), ("label", .text label)]
  | foreign v => v

def nodeTrees : List (Node Expr) → List Json
  | [] => []
  | ⟨c, e⟩ :: ns =>
    .object [("connective", connectiveTree c), ("expression", tree e)] :: nodeTrees ns

end

def toTree (e : Expr) : Except Fault Json :=
  guarded (e.obstacle? .unnamedOperator) e.tree

def constantOfTree (ms : Json.Members) : Except TreeFault Expr := do
  let value ← match Assoc.find? "value" ms with
    | none => throw (.absent "constant" "value" (.object ms))
    | some (.bool b) => pure b
    | some _ => throw (.constantNotTruth (.object ms))
  return constantOf value (← textField? "label" ms)

def connectiveOfTree (whole : Json) (ms : Json.Members) :
    Except TreeFault (Option Connective) := do
  match ← textField? "connective" ms with
  | none => return none
  | some s =>
    match Connective.ofSymbol? s with
    | some c => return c
    | none => throw (.unknownConnective s whole)

def compositeOfTree (strict : Bool) (whole : Json) (ns : List (Node Expr)) :
    Except TreeFault Expr :=
  match strict, layoutFault? ns with
  | true, some f => .error (.layout f whole)
  | _, _ => .ok (composite ns)

mutual

/-- Reading accepts operators by name or symbol and values of any simple type; strict reading also
demands that every composite is laid out properly. -/
def ofTree (strict : Bool) : Json → Except TreeFault Expr
  | .object ms =>
    match Assoc.find? "type" ms with
    | some (.text "condition") => (Condition.ofTree ms).map condition
    | some (.text "composite") => nodesIn strict (.object ms) ms >>= compositeOfTree strict (.object ms)
    | some (.text "group") => (childIn strict (.absent "group" "expression" (.object ms)) ms).map group
    | some (.text "constant") => constantOfTree ms
    | type => .error (.unknownType (type.getD .null) (.object ms))
  | v => .error (.notObject v)

def childIn (strict : Bool) (absent : TreeFault) : Json.Members → Except TreeFault Expr
  | [] => .error absent
  | (n, v) :: ms => if n = "expression" then ofTree strict v else childIn strict absent ms

def nodesIn (strict : Bool) (whole : Json) : Json.Members → Except TreeFault (List (Node Expr))
  | [] => .error (.absent "composite" "nodes" whole)
  | (n, v) :: ms => if n = "nodes" then nodesOfTree strict whole v else nodesIn strict whole ms

def nodesOfTree (strict : Bool) (whole : Json) : Json → Except TreeFault (List (Node Expr))
  | .list entries => nodesOfEntries strict whole entries
  | _ => .error (.nodesNotList whole)

def nodesOfEntries (strict : Bool) (whole : Json) : List Json → Except TreeFault (List (Node Expr))
  | [] => .ok []
  | entry :: entries => do
    let n ← nodeOfTree strict whole entry
    let ns ← nodesOfEntries strict whole entries
    return n :: ns

def nodeOfTree (strict : Bool) (whole : Json) : Json → Except TreeFault (Node Expr)
  | .object ms => do
    let c ← connectiveOfTree whole ms
    let e ← childIn strict (.absent "composite" "expression" whole) ms
    return ⟨c, e⟩
  | v => .error (.entryNotObject v)

end

def read (strict : Bool) (v : Json) : Except Fault Expr :=
  (ofTree strict v).mapError .tree

def jsonText (broken : Bool) (e : Expr) : String :=
  e.tree.sorted.render (if broken then Json.pretty else Json.compact)

def toJsonText (broken : Bool) (e : Expr) : Except Fault String :=
  guarded (e.obstacle? .unnamedOperator) (e.jsonText broken)

def ofJsonText (s : String) : Except Fault Expr := do
  let v ← (Json.parse s).mapError .json
  read true v

end Expr

end RuleTables
