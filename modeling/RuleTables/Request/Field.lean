import RuleTables.Binary64.Fixed
import RuleTables.HitPolicy
import RuleTables.Kind
import RuleTables.Request.Issue
import RuleTables.Text.Integer

namespace RuleTables.Request

variable {α : Type}

def optional (read : Json → Checked α) : Json → Checked (Option α)
  | .null => .good none
  | v => (read v).map some

def text : Json → Checked String
  | .text s => .good s
  | v => .fail .notText v

def nonEmptyText (v : Json) : Checked String :=
  (text v).andThen fun s => if s.isEmpty then .fail .emptyText v else .good s

def truthWords : List (String × Bool) :=
  [("0", false), ("f", false), ("n", false), ("no", false), ("off", false), ("false", false),
    ("1", true), ("t", true), ("y", true), ("yes", true), ("on", true), ("true", true)]

def lowerAscii (s : String) : String :=
  String.ofList (s.toList.map Char.toLower)

/-- A number says yes or no only if it is one or zero. -/
def truthOfInteger (v : Json) (n : Int) : Checked Bool :=
  if n = 0 then .good false else if n = 1 then .good true else .fail .unclearTruth v

def isWord (n : Int) : Bool :=
  -0x8000000000000000 ≤ n && n < 0x8000000000000000

def realInteger (x : Binary64) : Int :=
  if x.isNegative then -(x.truncated : Int) else x.truncated

def truth (v : Json) : Checked Bool :=
  match v with
  | .bool b => .good b
  | .text s =>
    match Assoc.find? (lowerAscii s) truthWords with
    | some b => .good b
    | none => .fail .unclearTruth v
  | .int n => if isWord n then truthOfInteger v n else .fail .notTruth v
  | .real x =>
    if x.isIntegral && isWord (realInteger x) then truthOfInteger v (realInteger x)
    else .fail .notTruth v
  | _ => .fail .notTruth v

def integer (v : Json) : Checked Int :=
  match v with
  | .int n => .good n
  | .bool b => .good (if b then 1 else 0)
  | .text s =>
    match Text.Integer.read s with
    | .ok n => .good n
    | .error .malformed => .fail .unclearInteger v
    | .error .tooLong => .fail .longInteger v
  | .real x =>
    if !x.isFinite then .fail .notFinite v
    else if !x.isIntegral then .fail .fractional v
    else if isWord (realInteger x) then .good (realInteger x)
    else .fail .longInteger v
  | _ => .fail .notInteger v

def choice (spelling : α → String) (choices : List α) (v : Json) : Checked α :=
  let found := match v with
    | .text s => choices.find? (spelling · = s)
    | _ => none
  match found with
  | some a => .good a
  | none => .fail (.notOneOf (choices.map spelling)) v

def kind : Json → Checked Kind := choice Kind.typeRef Kind.all

def hitPolicy : Json → Checked HitPolicy := choice HitPolicy.text HitPolicy.all

def itemsFrom (read : Json → Checked α) (index : Nat) : List Json → Checked (List α)
  | [] => .good []
  | v :: vs => List.cons <$> (read v).within (.index index) <*> itemsFrom read (index + 1) vs

def list (read : Json → Checked α) : Json → Checked (List α)
  | .list vs => itemsFrom read 0 vs
  | v => .fail .notList v

def nonEmptyList (read : Json → Checked α) (v : Json) : Checked (List α) :=
  match v with
  | .list [] => .fail .noItems v
  | v => list read v

def membersOf (read : Json → Checked α) : Json.Members → Checked (List (String × α))
  | [] => .good []
  | (n, v) :: ms =>
    (fun a rest => (n, a) :: rest) <$> (read v).within (.name n) <*> membersOf read ms

def members (read : Json → Checked α) : Json → Checked (List (String × α))
  | .object ms => membersOf read ms
  | v => .fail .notMembers v

def findFirst (names : List String) (ms : Json.Members) : Option (String × Json) :=
  names.findSome? fun n => (Assoc.find? n ms).map (n, ·)

/-- A field under any of its names; without it the usual value is taken, if there is one. -/
def field (names : List String) (read : Json → Checked α) (usual : Option α)
    (ms : Json.Members) : Checked α :=
  match findFirst names ms, usual with
  | some (n, v), _ => (read v).within (.name n)
  | none, some a => .good a
  | none, none => (Checked.fail .missing (.object ms)).within (.name (names.headD ""))

/-- A record; in a posted body it is not named when it is missing. -/
def record (posted : Bool) (model : String) (read : Json.Members → Checked α) :
    Json → Checked α
  | .object ms => read ms
  | v => .fail (if posted then .notFields else .notRecord model) v

end RuleTables.Request
