import RuleTables.Assoc
import RuleTables.Binary64.Shortest
import RuleTables.Text.Quoted

namespace RuleTables

/-- Integers and reals are kept apart, and the members of an object stand in the order in which
their names first came. -/
inductive Json where
  | null
  | bool (b : Bool)
  | int (n : Int)
  | real (x : Binary64)
  | text (s : String)
  | list (items : List Json)
  | object (members : List (String × Json))

namespace Json

abbrev Members := List (String × Json)

def typeName : Json → String
  | null => "NoneType"
  | bool _ => "bool"
  | int _ => "int"
  | real _ => "float"
  | text _ => "str"
  | list _ => "list"
  | object _ => "dict"

def displayBool (b : Bool) : String :=
  if b then "True" else "False"

mutual

def inner : Json → String
  | null => "None"
  | bool b => displayBool b
  | int n => toString n
  | real x => x.display
  | text s => Text.quoted s
  | list items => "[" ++ String.intercalate ", " (innerItems items) ++ "]"
  | object ms => "\x7b" ++ String.intercalate ", " (innerMembers ms) ++ "\x7d"

def innerItems : List Json → List String
  | [] => []
  | v :: vs => inner v :: innerItems vs

def innerMembers : Members → List String
  | [] => []
  | (n, v) :: ms => (Text.quoted n ++ ": " ++ inner v) :: innerMembers ms

end

/-- A value as messages show it: text stands as it is. -/
def display : Json → String
  | text s => s
  | v => inner v

/-- Whether a value says nothing: it is empty, zero, false or `null`. -/
def isVoid : Json → Bool
  | null | bool false | int 0 | text "" | list [] | object [] => true
  | real x => x.isFinite && x.mantissa == 0
  | _ => false

mutual

/-- Whether every real in the value is finite, so that strict JSON can write it. -/
def isStrict : Json → Bool
  | real x => x.isFinite
  | list items => areStrict items
  | object ms => membersAreStrict ms
  | _ => true

def areStrict : List Json → Bool
  | [] => true
  | v :: vs => isStrict v && areStrict vs

def membersAreStrict : Members → Bool
  | [] => true
  | (_, v) :: ms => isStrict v && membersAreStrict ms

end

end Json

end RuleTables
