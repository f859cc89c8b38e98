import RuleTables.Binary64.Shortest

namespace RuleTables.Binary64

def fixedDigits (x : Binary64) (places : Nat) (point : Bool) : List Char :=
  let (n, d) := x.ratio
  let ds := Nat.toDigits 10 (divRound (n * Nat.pow 10 places) d)
  let padded := zeros (places + 1 - ds.length) ++ ds
  let whole := padded.take (padded.length - places)
  let fraction := padded.drop (padded.length - places)
  whole ++ (if places = 0 then (if point then ['.'] else []) else '.' :: fraction)

def leadingDigits (x : Binary64) (count : Nat) : List Char × Int :=
  if x.mantissa = 0 then (zeros count, 0)
  else
    let (n, d) := x.ratio
    let t := decimalPoint n d - count
    let c := if 0 ≤ t then divRound n (d * Nat.pow 10 t.toNat)
      else divRound (n * Nat.pow 10 (-t).toNat) d
    let ds := Nat.toDigits 10 c
    (ds.take count, ds.length + t - 1)

def scientificDigits (x : Binary64) (places : Nat) (point : Bool) : List Char :=
  let (ds, e) := x.leadingDigits (places + 1)
  let fraction := ds.drop 1
  ds.take 1 ++ (if fraction.isEmpty then (if point then ['.'] else []) else '.' :: fraction) ++
    exponentText 2 e

/-- `digits` significant digits, with an exponent only for very large and very small sizes. Unless
`full` is set, zeros at the end of the fraction go. -/
def generalDigits (x : Binary64) (digits : Nat) (full : Bool) : List Char :=
  let count := max 1 digits
  let (ds, e) := x.leadingDigits count
  let keep := fun (fraction : List Char) => if full then fraction else dropZeros fraction
  let withFraction := fun (whole fraction : List Char) =>
    whole ++ (if (keep fraction).isEmpty then (if full then ['.'] else []) else '.' :: keep fraction)
  if e < -4 || count ≤ e then withFraction (ds.take 1) (ds.drop 1) ++ exponentText 2 e
  else if e < 0 then withFraction ['0'] (zeros (-e - 1).toNat ++ ds)
  else withFraction (ds.take (e.toNat + 1)) (ds.drop (e.toNat + 1))

def truncated (x : Binary64) : Nat :=
  x.ratio.1 / x.ratio.2

def isIntegral (x : Binary64) : Bool :=
  x.isFinite && x.ratio.1 % x.ratio.2 == 0

end RuleTables.Binary64
