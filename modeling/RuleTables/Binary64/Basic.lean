namespace RuleTables

/-- A double-precision number as its sixty-four bits. A finite one is `mantissa * 2 ^ power` with a
sign. -/
structure Binary64 where
  word : UInt64
  deriving DecidableEq

namespace Binary64

def signValue : Nat := 0x8000000000000000

def fractions : Nat := 0x10000000000000

def isNegative (x : Binary64) : Bool :=
  signValue ≤ x.word.toNat

def exponentField (x : Binary64) : Nat :=
  x.word.toNat / fractions % 2048

def fractionField (x : Binary64) : Nat :=
  x.word.toNat % fractions

def isFinite (x : Binary64) : Bool :=
  x.exponentField != 2047

def isNaN (x : Binary64) : Bool :=
  x.exponentField == 2047 && x.fractionField != 0

def mantissa (x : Binary64) : Nat :=
  if x.exponentField = 0 then x.fractionField else x.fractionField + fractions

def power (x : Binary64) : Int :=
  (max 1 x.exponentField : Nat) - 1075

def ratio (x : Binary64) : Nat × Nat :=
  if 0 ≤ x.power then (x.mantissa * Nat.pow 2 x.power.toNat, 1)
  else (x.mantissa, Nat.pow 2 (-x.power).toNat)

def ofMagnitude (negative : Bool) (magnitude : Nat) : Binary64 :=
  ⟨.ofNat ((if negative then signValue else 0) + magnitude)⟩

def zero (negative : Bool) : Binary64 := ofMagnitude negative 0

def infinity (negative : Bool) : Binary64 := ofMagnitude negative (2047 * fractions)

def nan : Binary64 := ofMagnitude false (2047 * fractions + fractions / 2)

/-- The quotient rounded to the nearest integer, a half to the even one. -/
def divRound (n d : Nat) : Nat :=
  let q := n / d
  let r := n % d
  if d < 2 * r || (2 * r == d && q % 2 == 1) then q + 1 else q

/-- The exponent of the last bit kept of `n / d`: fifty-three bits, fewer near zero. -/
def lastPower (n d : Nat) : Int :=
  let guess : Int := max ((n.log2 : Int) - d.log2 - 53) (-1074)
  let q := if 0 ≤ guess then n / (d * Nat.pow 2 guess.toNat) else n * Nat.pow 2 (-guess).toNat / d
  if q < 2 * fractions then guess else guess + 1

/-- The number nearest to a fraction, the even one of two equally near. -/
def ofRatio (negative : Bool) (n d : Nat) : Binary64 :=
  if n = 0 then zero negative
  else
    let e := lastPower n d
    let q := if 0 ≤ e then divRound n (d * Nat.pow 2 e.toNat)
      else divRound (n * Nat.pow 2 (-e).toNat) d
    let magnitude := (e + 1074).toNat * fractions + q
    if 2047 * fractions ≤ magnitude then infinity negative else ofMagnitude negative magnitude

def ofDecimal (negative : Bool) (digits : Nat) (exponent : Int) : Binary64 :=
  if digits = 0 then zero negative
  else
    let places : Int := (Nat.toDigits 10 digits).length + exponent
    if 310 < places then infinity negative
    else if places < -330 then zero negative
    else if 0 ≤ exponent then ofRatio negative (digits * Nat.pow 10 exponent.toNat) 1
    else ofRatio negative digits (Nat.pow 10 (-exponent).toNat)

end Binary64

end RuleTables
