import RuleTables.Fault

namespace RuleTables

/-- The nesting of an expression tree, read from its JSON form without checking anything else. -/
inductive Outline where
  | node (children : List Outline)

namespace Outline

mutual

def height : Outline → Nat
  | node [] => 0
  | node (o :: os) => max o.height (heights os) + 1

def heights : List Outline → Nat
  | [] => 0
  | o :: os => max o.height (heights os)

end

mutual

def size : Outline → Nat
  | node os => sizes os + 1

def sizes : List Outline → Nat
  | [] => 0
  | o :: os => o.size + sizes os

end

mutual

def ofJson : Json → List Outline
  | .object ms =>
    [node (match Assoc.find? "type" ms with
      | some (.text "composite") => nodesIn ms
      | some (.text "group") => childIn ms
      | _ => [])]
  | _ => []

def childIn : Json.Members → List Outline
  | [] => []
  | (n, v) :: ms => if n = "expression" then ofJson v else childIn ms

def nodesIn : Json.Members → List Outline
  | [] => []
  | (n, v) :: ms => if n = "nodes" then ofNodes v else nodesIn ms

def ofNodes : Json → List Outline
  | .list entries => ofEntries entries
  | _ => []

def ofEntries : List Json → List Outline
  | [] => []
  | entry :: entries => ofEntry entry ++ ofEntries entries

def ofEntry : Json → List Outline
  | .object ms => childIn ms
  | _ => []

end

def memberFault? : Json → Option Fault
  | .object _ => none
  | v => some (.notMembers v.typeName)

def depthFault? (v : Json) (limit : Int) : Option Fault :=
  if limit < heights (ofJson v) then some (.tooDeep limit) else memberFault? v

def sizeFault? (v : Json) (limit : Int) : Option Fault :=
  let count := sizes (ofJson v)
  (memberFault? v).or (if limit < count then some (.tooManyNodes limit count) else none)

def maxDepth : Int := 20

def maxNodes : Int := 1000

def treeFault? (v : Json) : Option Fault :=
  match v with
  | .object [] => some .treeEmpty
  | .object ms =>
    if Assoc.has ms "type" then (depthFault? v maxDepth).or (sizeFault? v maxNodes)
    else some .treeUntyped
  | _ => some .treeNotObject

end Outline

end RuleTables
