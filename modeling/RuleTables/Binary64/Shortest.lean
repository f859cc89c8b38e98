import RuleTables.Binary64.Basic

namespace RuleTables.Binary64

/-- A finite number other than zero, four times its size over a common denominator, with the
bounds of the decimals that read back as it. -/
structure Span where
  size : Nat
  low : Nat
  high : Nat
  unit : Nat
  closed : Bool

def span (x : Binary64) : Span :=
  let m := x.mantissa
  let narrow := x.fractionField = 0 && 1 < x.exponentField
  let shift := x.power - 2
  let scale := if 0 ≤ shift then Nat.pow 2 shift.toNat else 1
  let unit := if 0 ≤ shift then 1 else Nat.pow 2 (-shift).toNat
  ⟨4 * m * scale, (4 * m - (if narrow then 1 else 2)) * scale, (4 * m + 2) * scale, unit,
    m % 2 = 0⟩

def decimalPoint (n d : Nat) : Int :=
  if d ≤ n then (Nat.toDigits 10 (n / d)).length else 1 - (Nat.toDigits 10 (d / n)).length

def Span.holds (s : Span) (c : Nat) (t : Int) : Bool :=
  let up := if 0 ≤ t then Nat.pow 10 t.toNat else 1
  let down := if 0 ≤ t then 1 else Nat.pow 10 (-t).toNat
  let v := c * up * s.unit
  if s.closed then s.low * down ≤ v && v ≤ s.high * down else s.low * down < v && v < s.high * down

/-- The decimal with last digit at `10 ^ t` that reads back, the nearer of two. -/
def Span.onGrid (s : Span) (t : Int) : Option Nat :=
  let up := if 0 ≤ t then Nat.pow 10 t.toNat else 1
  let down := if 0 ≤ t then 1 else Nat.pow 10 (-t).toNat
  let cell := up * s.unit
  let c := s.size * down / cell
  let rest := s.size * down % cell
  match s.holds c t, s.holds (c + 1) t with
  | true, true =>
    some (if 2 * rest < cell || (2 * rest == cell && c % 2 == 0) then c else c + 1)
  | true, false => some c
  | false, true => some (c + 1)
  | false, false => none

/-- Tries ever finer grids, up to seventeen digits. -/
def Span.search (s : Span) (point : Int) : Nat → Nat → Nat × Int
  | 0, n => ((s.onGrid (point - n)).getD 0, point - n)
  | fuel + 1, n =>
    match s.onGrid (point - n) with
    | some c => (c, point - n)
    | none => s.search point fuel (n + 1)

def dropZeros (ds : List Char) : List Char :=
  (ds.reverse.dropWhile (· = '0')).reverse

/-- The digits of a finite number other than zero, and the place of the point before them: of all
decimals that read back as the number, the nearest of those with the fewest digits. -/
def shortest (x : Binary64) : List Char × Int :=
  let s := x.span
  let (c, t) := s.search (decimalPoint s.size s.unit) 16 1
  let ds := Nat.toDigits 10 c
  (dropZeros ds, ds.length + t)

structure Layout where
  lowest : Int
  highest : Int
  exponentDigits : Nat

def plain : Layout := ⟨-3, 16, 2⟩

def zeros (n : Nat) : List Char :=
  List.replicate n '0'

def exponentText (width : Nat) (e : Int) : List Char :=
  let ds := Nat.toDigits 10 e.natAbs
  'e' :: (if e < 0 then '-' else '+') :: (zeros (width - ds.length) ++ ds)

def Layout.write (l : Layout) (ds : List Char) (point : Int) : List Char :=
  if l.lowest ≤ point && point ≤ l.highest then
    if point ≤ 0 then '0' :: '.' :: (zeros (-point).toNat ++ ds)
    else
      let n := point.toNat
      if ds.length ≤ n then ds ++ zeros (n - ds.length) ++ ['.', '0']
      else ds.take n ++ '.' :: ds.drop n
  else
    match ds with
    | [] => []
    | [d] => d :: exponentText l.exponentDigits (point - 1)
    | d :: rest => d :: '.' :: rest ++ exponentText l.exponentDigits (point - 1)

def display (x : Binary64) : String :=
  if x.isNaN then "nan"
  else
    let sign := if x.isNegative then "-" else ""
    if !x.isFinite then sign ++ "inf"
    else if x.mantissa = 0 then sign ++ "0.0"
    else sign ++ String.ofList (plain.write x.shortest.1 x.shortest.2)

end RuleTables.Binary64
