import RuleTables.Fault

namespace RuleTables.Log.Clock

inductive Fault where
  | notNumber (typeName : String)
  | notANumber
  | beyondSeconds
  | beyondYears
  | beyondCalendar (year : Int)

namespace Fault

def kind : Fault → FaultClass
  | notNumber _ => .type
  | notANumber | beyondCalendar _ => .value
  | beyondSeconds => .other "OverflowError"
  | beyondYears => .other "OSError"

def message : Fault → String
  | notNumber typeName => "'" ++ typeName ++ "' object cannot be interpreted as an integer"
  | notANumber => "Invalid value NaN (not a number)"
  | beyondSeconds => "timestamp out of range for platform time_t"
  | beyondYears => "[Errno 75] Value too large for defined data type"
  | beyondCalendar year => "year " ++ toString year ++ " is out of range"

def report (f : Fault) : Report :=
  .make f.kind f.message .null

end Fault

structure Date where
  year : Int
  month : Nat
  day : Nat
  deriving DecidableEq

/-- The date a number of days after the start of 1970. Years are counted from March, so that a
leap day is the last of its year, in spans of four hundred. -/
def Date.ofDays (days : Int) : Date :=
  let shifted := days + 719468
  let span := shifted / 146097
  let inSpan := (shifted % 146097).toNat
  let yearInSpan := (inSpan - inSpan / 1460 + inSpan / 36524 - inSpan / 146096) / 365
  let inYear := inSpan - (365 * yearInSpan + yearInSpan / 4 - yearInSpan / 100)
  let fromMarch := (5 * inYear + 2) / 153
  let month := if fromMarch < 10 then fromMarch + 3 else fromMarch - 9
  ⟨span * 400 + yearInSpan + (if month ≤ 2 then 1 else 0), month,
    inYear - (153 * fromMarch + 2) / 5 + 1⟩

/-- Millionths of a second; the part behind the point is taken as a number of its own. -/
def micros (x : Binary64) : Int :=
  let (n, d) := x.ratio
  let part := (Binary64.ofRatio false (n % d * 1000000) d).ratio
  let size : Int := n / d * 1000000 + Binary64.divRound part.1 part.2
  if x.isNegative then -size else size

def microsOf : Json → Except Fault Int
  | .int n => .ok (n * 1000000)
  | .bool b => .ok (if b then 1000000 else 0)
  | .real x =>
    if x.isNaN then .error .notANumber
    else if !x.isFinite then .error .beyondSeconds
    else .ok (micros x)
  | v => .error (.notNumber v.typeName)

def padded (width : Nat) (n : Nat) : String :=
  let ds := Nat.toDigits 10 n
  String.ofList (List.replicate (width - ds.length) '0' ++ ds)

def dateText (d : Date) : String :=
  padded 4 d.year.toNat ++ "-" ++ padded 2 d.month ++ "-" ++ padded 2 d.day

/-- The fraction of a second is left out when it is zero. -/
def timeText (second micro : Nat) : String :=
  padded 2 (second / 3600) ++ ":" ++ padded 2 (second / 60 % 60) ++ ":" ++ padded 2 (second % 60) ++
    (if micro = 0 then "" else "." ++ padded 6 micro)

/-- The years that are counted at all: those that fit into a word, counted from 1900. -/
def isCounted (year : Int) : Bool :=
  -0x80000000 ≤ year - 1900 && year - 1900 < 0x80000000

def text (created : Json) : Except Fault String := do
  let total ← microsOf created
  let seconds := total / 1000000
  if seconds < -0x8000000000000000 ∨ 0x8000000000000000 ≤ seconds then throw .beyondSeconds
  let date := Date.ofDays (seconds / 86400)
  if !isCounted date.year then throw .beyondYears
  if date.year < 1 ∨ 9999 < date.year then throw (.beyondCalendar (date.year.bmod 0x100000000))
  return dateText date ++ "T" ++ timeText (seconds % 86400).toNat (total % 1000000).toNat ++ "+00:00"

end RuleTables.Log.Clock
