namespace RuleTables.Text.Base64

def letter (n : Nat) : Char :=
  if n < 26 then .ofNat (65 + n)
  else if n < 52 then .ofNat (97 + (n - 26))
  else if n < 62 then .ofNat (48 + (n - 52))
  else if n = 62 then '+'
  else '/'

def value? (c : Char) : Option Nat :=
  let n := c.toNat
  if 65 ≤ n ∧ n ≤ 90 then some (n - 65)
  else if 97 ≤ n ∧ n ≤ 122 then some (n - 97 + 26)
  else if 48 ≤ n ∧ n ≤ 57 then some (n - 48 + 52)
  else if c = '+' then some 62
  else if c = '/' then some 63
  else none

def encode : List UInt8 → List Char
  | [] => []
  | [a] => [letter (a.toNat / 4), letter (a.toNat % 4 * 16), '=', '=']
  | [a, b] =>
    [letter (a.toNat / 4), letter (a.toNat % 4 * 16 + b.toNat / 16), letter (b.toNat % 16 * 4), '=']
  | a :: b :: c :: os =>
    letter (a.toNat / 4) :: letter (a.toNat % 4 * 16 + b.toNat / 16) ::
      letter (b.toNat % 16 * 4 + c.toNat / 64) :: letter (c.toNat % 64) :: encode os

inductive Fault where
  | leadingPad
  | foreignCharacter
  | interruptedPad
  | dataAfterPad
  | loneCharacter (count : Nat)
  | missingPad
  deriving DecidableEq

def Fault.message : Fault → String
  | .leadingPad => "Leading padding not allowed"
  | .foreignCharacter => "Only base64 data is allowed"
  | .interruptedPad => "Discontinuous padding not allowed"
  | .dataAfterPad => "Excess data after padding"
  | .loneCharacter count =>
    "Invalid base64-encoded string: number of data characters (" ++ toString count ++
      ") cannot be 1 more than a multiple of 4"
  | .missingPad => "Incorrect padding"

/-- Where the reader stands: the characters of the open group of four, the bits of the last of
them that no octet has taken yet, the pads met in this group, whether any pad was met at all, and
how many octets were given out. -/
structure Position where
  filled : Nat
  bits : Nat
  pads : Nat
  padded : Bool
  given : Nat

def Position.first : Position := ⟨0, 0, 0, false, 0⟩

/-- Reads on from a position. Pads that complete a group of four end the text; pads that cannot
are passed over. -/
def decodeFrom (p : Position) : List Char → Except Fault (List UInt8)
  | [] =>
    if p.filled = 0 then .ok []
    else if p.filled = 1 then .error (.loneCharacter (p.given / 3 * 4 + 1))
    else .error .missingPad
  | c :: cs =>
    if c = '=' then
      if 2 ≤ p.filled then
        if 4 ≤ p.filled + (p.pads + 1) then
          if cs.isEmpty then .ok [] else .error .dataAfterPad
        else decodeFrom { p with pads := p.pads + 1, padded := true } cs
      else decodeFrom { p with padded := true } cs
    else
      match value? c with
      | none => .error .foreignCharacter
      | some n =>
        if p.padded then .error .interruptedPad
        else
          match p.filled with
          | 0 => decodeFrom ⟨1, n, 0, false, p.given⟩ cs
          | 1 => (decodeFrom ⟨2, n % 16, 0, false, p.given + 1⟩ cs).map
              (.ofNat (p.bits * 4 + n / 16) :: ·)
          | 2 => (decodeFrom ⟨3, n % 4, 0, false, p.given + 1⟩ cs).map
              (.ofNat (p.bits * 16 + n / 4) :: ·)
          | _ => (decodeFrom ⟨0, 0, 0, false, p.given + 1⟩ cs).map (.ofNat (p.bits * 64 + n) :: ·)

def decode (cs : List Char) : Except Fault (List UInt8) :=
  match cs with
  | '=' :: _ => .error .leadingPad
  | cs => decodeFrom .first cs

end RuleTables.Text.Base64
