import RuleTables.Json.Basic

namespace RuleTables.Json

inductive Cause where
  | expectedValue
  | extraData
  | openText
  | badEscape
  | badCode
  | controlCharacter
  | expectedName
  | expectedColon
  | expectedComma
  | byteOrderMark
  | longInteger (digits : Nat)
  deriving DecidableEq

def Cause.message : Cause → String
  | .expectedValue => "Expecting value"
  | .extraData => "Extra data"
  | .openText => "Unterminated string starting at"
  | .badEscape => "Invalid \\escape"
  | .badCode => "Invalid \\uXXXX escape"
  | .controlCharacter => "Invalid control character at"
  | .expectedName => "Expecting property name enclosed in double quotes"
  | .expectedColon => "Expecting ':' delimiter"
  | .expectedComma => "Expecting ',' delimiter"
  | .byteOrderMark => "Unexpected UTF-8 BOM (decode using utf-8-sig)"
  | .longInteger digits =>
    "Exceeds the limit (4300 digits) for integer string conversion: value has " ++
      toString digits ++ " digits; use sys.set_int_max_str_digits() to increase the limit"

/-- What was wrong, and the text from there on. -/
structure Stop where
  cause : Cause
  rest : List Char

abbrev Read (α : Type) := Except Stop (α × List Char)

def isSpace (c : Char) : Bool :=
  c = ' ' || c = '\t' || c = '\n' || c = '\r'

def skip (cs : List Char) : List Char :=
  cs.dropWhile isSpace

def isNumeral (c : Char) : Bool :=
  48 ≤ c.toNat && c.toNat ≤ 57

def hexQuad? (a b c d : Char) : Option Nat :=
  match Text.hexValue? a, Text.hexValue? b, Text.hexValue? c, Text.hexValue? d with
  | some a, some b, some c, some d => some (((a * 16 + b) * 16 + c) * 16 + d)
  | _, _, _, _ => none

def simpleEscape? : Char → Option Nat
  | '\x22' => some 0x22
  | '\\' => some 0x5c
  | '/' => some 0x2f
  | 'b' => some 0x08
  | 'f' => some 0x0c
  | 'n' => some 0x0a
  | 'r' => some 0x0d
  | 't' => some 0x09
  | _ => none

/-- Reads to the closing quote. The first argument is the text from the opening quote on. -/
def readCodes (opening : List Char) : List Char → Read (List Nat)
  | [] => .error ⟨.openText, opening⟩
  | '\x22' :: cs => .ok ([], cs)
  | ['\\'] => .error ⟨.openText, opening⟩
  | '\\' :: 'u' :: a :: b :: c :: d :: e :: cs =>
    match hexQuad? a b c d with
    | some n => (readCodes opening (e :: cs)).map fun r => (n :: r.1, r.2)
    | none => .error ⟨.badCode, 'u' :: a :: b :: c :: d :: e :: cs⟩
  | '\\' :: 'u' :: cs => .error ⟨.badCode, 'u' :: cs⟩
  | '\\' :: c :: cs =>
    match simpleEscape? c with
    | some n => (readCodes opening cs).map fun r => (n :: r.1, r.2)
    | none => .error ⟨.badEscape, '\\' :: c :: cs⟩
  | c :: cs =>
    if c.toNat < 0x20 then .error ⟨.controlCharacter, c :: cs⟩
    else (readCodes opening cs).map fun r => (c.toNat :: r.1, r.2)

/-- Joins two halves of a code point; a half alone gives the replacement character. -/
def joinHalves : List Nat → List Char
  | [] => []
  | [n] => [if 0xd800 ≤ n ∧ n < 0xe000 then .ofNat 0xfffd else .ofNat n]
  | n :: m :: ns =>
    if 0xd800 ≤ n ∧ n < 0xdc00 ∧ 0xdc00 ≤ m ∧ m < 0xe000 then
      .ofNat (0x10000 + (n - 0xd800) * 0x400 + (m - 0xdc00)) :: joinHalves ns
    else
      (if 0xd800 ≤ n ∧ n < 0xe000 then .ofNat 0xfffd else .ofNat n) :: joinHalves (m :: ns)

def readText (cs : List Char) : Read String :=
  (readCodes (Text.doubleQuote :: cs) cs).map fun r => (String.ofList (joinHalves r.1), r.2)

def numeralValue (ds : List Char) : Nat :=
  ds.foldl (fun n d => n * 10 + (d.toNat - 48)) 0

def readWhole : List Char → Option (List Char × List Char)
  | '0' :: cs => some (['0'], cs)
  | cs =>
    let ds := cs.takeWhile isNumeral
    if ds.isEmpty then none else some (ds, cs.dropWhile isNumeral)

def readFraction : List Char → Option (List Char × List Char)
  | '.' :: cs =>
    let ds := cs.takeWhile isNumeral
    if ds.isEmpty then none else some (ds, cs.dropWhile isNumeral)
  | _ => none

def readSign : List Char → Bool × List Char
  | '-' :: cs => (true, cs)
  | '+' :: cs => (false, cs)
  | cs => (false, cs)

def readExponent : List Char → Option (Int × List Char)
  | c :: cs =>
    if c = 'e' || c = 'E' then
      let (negative, body) := readSign cs
      let ds := body.takeWhile isNumeral
      if ds.isEmpty then none
      else
        let n : Int := numeralValue ds
        some (if negative then -n else n, body.dropWhile isNumeral)
    else none
  | [] => none

/-- A number is an integer unless it has a fraction or an exponent. -/
def readNumber (cs : List Char) : Read Json :=
  let (negative, body) := match cs with
    | '-' :: r => (true, r)
    | r => (false, r)
  match readWhole body with
  | none => .error ⟨.expectedValue, cs⟩
  | some (whole, afterWhole) =>
    let (fraction, afterFraction) := (readFraction afterWhole).getD ([], afterWhole)
    match fraction.isEmpty, readExponent afterFraction with
    | true, none =>
      if 4300 < whole.length then .error ⟨.longInteger whole.length, cs⟩
      else
        let n : Int := numeralValue whole
        .ok (int (if negative then -n else n), afterFraction)
    | _, exponent =>
      let (e, rest) := exponent.getD (0, afterFraction)
      .ok (real (.ofDecimal negative (numeralValue (whole ++ fraction)) (e - fraction.length)), rest)

mutual

/-- Every call uses one unit of the first argument; twice the length of the text is enough. -/
def readValue : Nat → List Char → Read Json
  | 0, cs => .error ⟨.expectedValue, cs⟩
  | fuel + 1, cs =>
    match cs with
    | '\x22' :: r => (readText r).map fun v => (text v.1, v.2)
    | '\x7b' :: r =>
      match skip r with
      | '\x7d' :: rest => .ok (object [], rest)
      | rest => (readMembers fuel rest).map fun v => (object (Assoc.ofPairs v.1), v.2)
    | '[' :: r =>
      match skip r with
      | ']' :: rest => .ok (list [], rest)
      | rest => (readItems fuel rest).map fun v => (list v.1, v.2)
    | 'n' :: 'u' :: 'l' :: 'l' :: r => .ok (null, r)
    | 't' :: 'r' :: 'u' :: 'e' :: r => .ok (bool true, r)
    | 'f' :: 'a' :: 'l' :: 's' :: 'e' :: r => .ok (bool false, r)
    | 'N' :: 'a' :: 'N' :: r => .ok (real .nan, r)
    | 'I' :: 'n' :: 'f' :: 'i' :: 'n' :: 'i' :: 't' :: 'y' :: r => .ok (real (.infinity false), r)
    | '-' :: 'I' :: 'n' :: 'f' :: 'i' :: 'n' :: 'i' :: 't' :: 'y' :: r =>
      .ok (real (.infinity true), r)
    | cs => readNumber cs

def readItems : Nat → List Char → Except Stop (List Json × List Char)
  | 0, cs => .error ⟨.expectedValue, cs⟩
  | fuel + 1, cs => do
    let (v, r) ← readValue fuel cs
    match skip r with
    | ']' :: rest => return ([v], rest)
    | ',' :: rest =>
      let (vs, rest) ← readItems fuel (skip rest)
      return (v :: vs, rest)
    | rest => throw ⟨.expectedComma, rest⟩

def readMembers : Nat → List Char → Except Stop (Members × List Char)
  | 0, cs => .error ⟨.expectedName, cs⟩
  | fuel + 1, cs =>
    match cs with
    | '\x22' :: r => do
      let (name, r) ← readText r
      match skip r with
      | ':' :: r =>
        let (v, r) ← readValue fuel (skip r)
        match skip r with
        | '\x7d' :: rest => return ([(name, v)], rest)
        | ',' :: rest =>
          let (ms, rest) ← readMembers fuel (skip rest)
          return ((name, v) :: ms, rest)
        | rest => throw ⟨.expectedComma, rest⟩
      | rest => throw ⟨.expectedColon, rest⟩
    | cs => .error ⟨.expectedName, cs⟩

end

def readAll (cs : List Char) : Except Stop Json := do
  let (v, rest) ← readValue (2 * cs.length + 2) (skip cs)
  match skip rest with
  | [] => return v
  | rest => throw ⟨.extraData, rest⟩

structure Fault where
  cause : Cause
  offset : Nat
  line : Nat
  column : Nat
  deriving DecidableEq

def Stop.locate (s : Stop) (whole : List Char) : Fault :=
  let before := whole.take (whole.length - s.rest.length)
  ⟨s.cause, before.length, before.count '\n' + 1,
    (before.reverse.takeWhile (· ≠ '\n')).length + 1⟩

/-- An overlong integer is reported without its place. -/
def Fault.message (f : Fault) : String :=
  match f.cause with
  | .longInteger _ => f.cause.message
  | cause =>
    cause.message ++ ": line " ++ toString f.line ++ " column " ++ toString f.column ++ " (char " ++
      toString f.offset ++ ")"

def parseChars (cs : List Char) : Except Fault Json :=
  (readAll cs).mapError (·.locate cs)

/-- Reads text that must not begin with a byte order mark. Beside JSON proper it reads `NaN`,
`Infinity` and `-Infinity`. -/
def parse (s : String) : Except Fault Json :=
  match s.toList with
  | '\ufeff' :: _ => .error ⟨.byteOrderMark, 0, 1, 1⟩
  | cs => parseChars cs

end RuleTables.Json
