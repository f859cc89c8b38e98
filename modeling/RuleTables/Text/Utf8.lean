import RuleTables.Text.Hex

namespace RuleTables.Text.Utf8

def encodeChar (c : Char) : List UInt8 :=
  let n := c.toNat
  if n < 0x80 then [.ofNat n]
  else if n < 0x800 then [.ofNat (0xc0 + n / 0x40), .ofNat (0x80 + n % 0x40)]
  else if n < 0x10000 then
    [.ofNat (0xe0 + n / 0x1000), .ofNat (0x80 + n / 0x40 % 0x40), .ofNat (0x80 + n % 0x40)]
  else
    [.ofNat (0xf0 + n / 0x40000), .ofNat (0x80 + n / 0x1000 % 0x40),
      .ofNat (0x80 + n / 0x40 % 0x40), .ofNat (0x80 + n % 0x40)]

def encode (cs : List Char) : List UInt8 :=
  cs.flatMap encodeChar

inductive Reason where
  | badStart
  | badContinuation
  | truncated
  deriving DecidableEq

/-- The octets `start` to `stop`, the first of which is `octet`, are no character. -/
structure Fault where
  octet : UInt8
  start : Nat
  stop : Nat
  reason : Reason
  deriving DecidableEq

def Reason.message : Reason → String
  | .badStart => "invalid start byte"
  | .badContinuation => "invalid continuation byte"
  | .truncated => "unexpected end of data"

def Fault.message (f : Fault) : String :=
  let place :=
    if f.start = f.stop then
      "byte 0x" ++ String.ofList (hexDigits 2 f.octet.toNat) ++ " in position " ++ toString f.start
    else "bytes in position " ++ toString f.start ++ "-" ++ toString f.stop
  "'utf-8' codec can't decode " ++ place ++ ": " ++ f.reason.message

/-- A character begun: its first octet, the octets taken, the octets to come, the bits so far and
the bounds of the next octet. -/
structure Begun where
  octet : UInt8
  taken : Nat
  missing : Nat
  value : Nat
  low : Nat
  high : Nat

inductive Start where
  | whole (c : Char)
  | begun (b : Begun)
  | bad

def start (octet : UInt8) : Start :=
  let n := octet.toNat
  if n < 0x80 then .whole (.ofNat n)
  else if n < 0xc2 then .bad
  else if n < 0xe0 then .begun ⟨octet, 1, 1, n - 0xc0, 0x80, 0xbf⟩
  else if n < 0xf0 then
    .begun ⟨octet, 1, 2, n - 0xe0, if n = 0xe0 then 0xa0 else 0x80, if n = 0xed then 0x9f else 0xbf⟩
  else if n < 0xf5 then
    .begun ⟨octet, 1, 3, n - 0xf0, if n = 0xf0 then 0x90 else 0x80, if n = 0xf4 then 0x8f else 0xbf⟩
  else .bad

/-- Reads on at octet number `index`, inside a character or between two. -/
def decodeFrom (index : Nat) : Option Begun → List UInt8 → Except Fault (List Char)
  | none, [] => .ok []
  | some b, [] => .error ⟨b.octet, index - b.taken, index - 1, .truncated⟩
  | none, o :: os =>
    match start o with
    | .whole c => (decodeFrom (index + 1) none os).map (c :: ·)
    | .begun b => decodeFrom (index + 1) (some b) os
    | .bad => .error ⟨o, index, index, .badStart⟩
  | some b, o :: os =>
    if b.low ≤ o.toNat ∧ o.toNat ≤ b.high then
      let value := b.value * 0x40 + (o.toNat - 0x80)
      if b.missing ≤ 1 then (decodeFrom (index + 1) none os).map (.ofNat value :: ·)
      else decodeFrom (index + 1) (some ⟨b.octet, b.taken + 1, b.missing - 1, value, 0x80, 0xbf⟩) os
    else .error ⟨b.octet, index - b.taken, index - 1, .badContinuation⟩

def decode (octets : List UInt8) : Except Fault (List Char) :=
  decodeFrom 0 none octets

end RuleTables.Text.Utf8
