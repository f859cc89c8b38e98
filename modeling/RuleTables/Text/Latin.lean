import RuleTables.Text.Hex

namespace RuleTables.Text.Latin

def hasOctet (c : Char) : Bool := c.toNat < 256

/-- The characters `start` to `stop`, the first of which is `first`, have no octet. -/
structure Fault where
  first : Char
  start : Nat
  stop : Nat

def fault? (cs : List Char) : Option Fault :=
  let start := (cs.takeWhile hasOctet).length
  match cs.dropWhile hasOctet with
  | [] => none
  | c :: cs => some ⟨c, start, start + (cs.takeWhile (!hasOctet ·)).length⟩

def escape (c : Char) : String :=
  if c.toNat < 0x10000 then "\\u" ++ String.ofList (hexDigits 4 c.toNat)
  else "\\U" ++ String.ofList (hexDigits 8 c.toNat)

def Fault.message (f : Fault) : String :=
  let place :=
    if f.start = f.stop then
      "character '" ++ escape f.first ++ "' in position " ++ toString f.start
    else "characters in position " ++ toString f.start ++ "-" ++ toString f.stop
  "'latin-1' codec can't encode " ++ place ++ ": ordinal not in range(256)"

end RuleTables.Text.Latin
