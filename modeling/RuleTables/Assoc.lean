namespace RuleTables.Assoc

variable {α : Type}

def find? (name : String) : List (String × α) → Option α
  | [] => none
  | (n, v) :: ms => if n = name then some v else find? name ms

def has (ms : List (String × α)) (name : String) : Bool :=
  (find? name ms).isSome

/-- A name that is set again keeps its place, and a new one goes to the end. -/
def put (name : String) (value : α) : List (String × α) → List (String × α)
  | [] => [(name, value)]
  | (n, v) :: ms => if n = name then (n, value) :: ms else (n, v) :: put name value ms

def ofPairs (pairs : List (String × α)) : List (String × α) :=
  pairs.foldl (fun ms m => put m.1 m.2 ms) []

end RuleTables.Assoc
