import RuleTables.Text.Blank

namespace RuleTables.Text.Integer

inductive Fault where
  | malformed
  | tooLong
  deriving DecidableEq

/-- The separators of control text do not count as blanks here. -/
def isWhite (c : Char) : Bool :=
  isBlank c && !(0x1c ≤ c.toNat && c.toNat ≤ 0x1f)

def trimWhite (cs : List Char) : List Char :=
  ((cs.dropWhile isWhite).reverse.dropWhile isWhite).reverse

def dropPlus? : List Char → Option (List Char)
  | '+' :: '-' :: _ => none
  | '+' :: cs => some cs
  | cs => some cs

def afterZeros (last : Char) : List Char → Option (List Char)
  | [] => some [last]
  | c :: cs =>
    if c = '0' || c = '_' then afterZeros c cs
    else if c.isDigit then some (c :: cs)
    else if c = '.' then some (last :: c :: cs)
    else none

def dropZeros? : List Char → Option (List Char)
  | [] => none
  | c :: cs =>
    if c = '0' then afterZeros c cs
    else if c.isDigit || c = '-' then some (c :: cs)
    else none

def dropFraction (cs : List Char) : List Char :=
  if ((cs.dropWhile (· ≠ '.')).drop 1).all (· = '0') then cs.takeWhile (· ≠ '.') else cs

def hasPair (cs : List Char) : Bool :=
  (cs.zip (cs.drop 1)).any fun p => p.1 = '_' && p.2 = '_'

/-- Takes out underscores, unless one stands at an end or beside another. -/
def dropUnderscores (cs : List Char) : List Char :=
  if cs.head? = some '_' || cs.getLast? = some '_' || hasPair cs then cs else cs.filter (· ≠ '_')

def digitsValue? (ds : List Char) : Option Nat :=
  if ds.isEmpty || !ds.all Char.isDigit then none
  else some (ds.foldl (fun n d => n * 10 + (d.toNat - 48)) 0)

def valueOf : List Char → Option Int
  | '-' :: ds => (digitsValue? ds).map fun n => -(n : Int)
  | ds => (digitsValue? ds).map fun n => (n : Int)

/-- Integers as they are spelled in settings: blanks around them, a sign, zeros in front, single
underscores between digits, and a point with nothing but zeros behind it. -/
def read (s : String) : Except Fault Int :=
  match ((dropPlus? (trimWhite s.toList)).bind dropZeros?).map (dropUnderscores ∘ dropFraction) with
  | none => .error .malformed
  | some cs =>
    if 4300 < cs.length then .error .tooLong
    else
      match valueOf cs with
      | some n => .ok n
      | none => .error .malformed

end RuleTables.Text.Integer
