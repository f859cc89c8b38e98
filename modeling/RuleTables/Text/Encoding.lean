import RuleTables.Text.Utf8

namespace RuleTables.Text

inductive Encoding where
  | utf8
  | utf16 (bigEndian : Bool)
  | utf32 (bigEndian : Bool)
  deriving DecidableEq

/-- The encoding, told by a byte order mark or by the places of the zero octets among the first
four, and the octets after the mark. -/
def Encoding.detect : List UInt8 → Encoding × List UInt8
  | 0x00 :: 0x00 :: 0xfe :: 0xff :: os => (.utf32 true, os)
  | 0xff :: 0xfe :: 0x00 :: 0x00 :: os => (.utf32 false, os)
  | 0xfe :: 0xff :: os => (.utf16 true, os)
  | 0xff :: 0xfe :: os => (.utf16 false, os)
  | 0xef :: 0xbb :: 0xbf :: os => (.utf8, os)
  | a :: b :: c :: d :: os =>
    let octets := a :: b :: c :: d :: os
    if a = 0 then (if b = 0 then .utf32 true else .utf16 true, octets)
    else if b = 0 then (if c = 0 && d = 0 then .utf32 false else .utf16 false, octets)
    else (.utf8, octets)
  | [a, b] =>
    if a = 0 then (.utf16 true, [a, b]) else if b = 0 then (.utf16 false, [a, b]) else (.utf8, [a, b])
  | os => (.utf8, os)

def units16 (bigEndian : Bool) : List UInt8 → Option (List Nat)
  | [] => some []
  | [_] => none
  | a :: b :: os =>
    let n := if bigEndian then a.toNat * 256 + b.toNat else b.toNat * 256 + a.toNat
    (units16 bigEndian os).map (n :: ·)

/-- Joins surrogates to code points; one without its partner has no character. -/
def ofUnits16 : List Nat → Option (List Char)
  | [] => some []
  | [n] => if 0xd800 ≤ n ∧ n < 0xe000 then none else some [.ofNat n]
  | n :: m :: ns =>
    if 0xd800 ≤ n ∧ n < 0xdc00 then
      if 0xdc00 ≤ m ∧ m < 0xe000 then
        (ofUnits16 ns).map (.ofNat (0x10000 + (n - 0xd800) * 0x400 + (m - 0xdc00)) :: ·)
      else none
    else if 0xdc00 ≤ n ∧ n < 0xe000 then none
    else (ofUnits16 (m :: ns)).map (.ofNat n :: ·)

def ofUnits32 (bigEndian : Bool) : List UInt8 → Option (List Char)
  | [] => some []
  | a :: b :: c :: d :: os =>
    let n := if bigEndian then
        ((a.toNat * 256 + b.toNat) * 256 + c.toNat) * 256 + d.toNat
      else ((d.toNat * 256 + c.toNat) * 256 + b.toNat) * 256 + a.toNat
    if n < 0x110000 ∧ ¬(0xd800 ≤ n ∧ n < 0xe000) then (ofUnits32 bigEndian os).map (.ofNat n :: ·)
    else none
  | _ => none

def decodeDetected (octets : List UInt8) : Option (List Char) :=
  match Encoding.detect octets with
  | (.utf8, os) => (Utf8.decode os).toOption
  | (.utf16 bigEndian, os) => (units16 bigEndian os).bind ofUnits16
  | (.utf32 bigEndian, os) => ofUnits32 bigEndian os

end RuleTables.Text
