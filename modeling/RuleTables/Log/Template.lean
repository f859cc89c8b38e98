import RuleTables.Binary64.Fixed
import RuleTables.Fault

namespace RuleTables.Log.Template

inductive Fault where
  | tooFew
  | tooMany
  | openPlace
  | openName
  | noNames
  | noName (name : String)
  | listName
  | starNotInteger
  | starTooLarge (places : Bool)
  | widthTooLarge
  | placesTooLarge
  | notNumber (letter : Char) (typeName : String)
  | notInteger (letter : Char) (typeName : String)
  | notReal (typeName : String)
  | notCharacter
  | noSuchCharacter
  | unknownLetter (letter : Char) (position : Nat)
  | integerOfNaN
  | integerOfInfinity
  | realTooLarge

namespace Fault

def kind : Fault → FaultClass
  | openPlace | openName | widthTooLarge | placesTooLarge | unknownLetter _ _ | integerOfNaN => .value
  | noName _ => .key
  | starTooLarge _ | noSuchCharacter | integerOfInfinity | realTooLarge => .other "OverflowError"
  | _ => .type

def shownLetter (c : Char) : String :=
  String.ofList [if 31 ≤ c.toNat && c.toNat ≤ 126 then c else '?']

def hexText (n : Nat) : String :=
  String.ofList (Nat.toDigits 16 n)

def message : Fault → String
  | tooFew => "not enough arguments for format string"
  | tooMany => "not all arguments converted during string formatting"
  | openPlace => "incomplete format"
  | openName => "incomplete format key"
  | noNames => "format requires a mapping"
  | noName name => name
  | listName => "list indices must be integers or slices, not str"
  | starNotInteger => "* wants int"
  | starTooLarge false => "Python int too large to convert to C ssize_t"
  | starTooLarge true => "Python int too large to convert to C int"
  | widthTooLarge => "width too big"
  | placesTooLarge => "precision too big"
  | notNumber letter typeName =>
    "%" ++ String.ofList [letter] ++ " format: a real number is required, not " ++ typeName
  | notInteger letter typeName =>
    "%" ++ String.ofList [letter] ++ " format: an integer is required, not " ++ typeName
  | notReal typeName => "must be real number, not " ++ typeName
  | notCharacter => "%c requires int or char"
  | noSuchCharacter => "%c arg not in range(0x110000)"
  | unknownLetter letter position =>
    "unsupported format character '" ++ shownLetter letter ++ "' (0x" ++ hexText letter.toNat ++
      ") at index " ++ toString position
  | integerOfNaN => "cannot convert float NaN to integer"
  | integerOfInfinity => "cannot convert float infinity to integer"
  | realTooLarge => "int too large to convert to float"

def report (f : Fault) : Report :=
  .make f.kind f.message .null

end Fault

/-- Arguments in a row, or one value that is the only argument and may have names in it. -/
inductive Arguments where
  | row (values : List Json)
  | single (value : Json)

structure Supply where
  left : List Json
  names : Option Json

namespace Supply

def of : Arguments → Supply
  | .row values => ⟨values, none⟩
  | .single (.object ms) => ⟨[.object ms], some (.object ms)⟩
  | .single (.list vs) => ⟨[.list vs], some (.list vs)⟩
  | .single v => ⟨[v], none⟩

def next (s : Supply) : Except Fault (Json × Supply) :=
  match s.left with
  | [] => .error .tooFew
  | v :: vs => .ok (v, { s with left := vs })

def named (s : Supply) (name : String) : Except Fault Supply :=
  match s.names with
  | some (.object ms) =>
    match Assoc.find? name ms with
    | some v => .ok { s with left := [v] }
    | none => .error (.noName name)
  | some _ => .error .listName
  | none => .error .noNames

end Supply

structure Setting where
  left : Bool
  plus : Bool
  blank : Bool
  alternate : Bool
  zero : Bool
  width : Nat
  places : Option Nat

def Setting.bare : Setting := ⟨false, false, false, false, false, 0, none⟩

def isFlag (c : Char) : Bool :=
  c = '-' || c = '+' || c = ' ' || c = '#' || c = '0'

def withFlags (flags : List Char) (s : Setting) : Setting :=
  { s with
    left := flags.contains '-'
    plus := flags.contains '+'
    blank := flags.contains ' '
    alternate := flags.contains '#'
    zero := flags.contains '0' }

def Setting.pad (s : Setting) (cs : List Char) : List Char :=
  let blanks := List.replicate (s.width - cs.length) ' '
  if s.left then cs ++ blanks else blanks ++ cs

def Setting.text (s : Setting) (cs : List Char) : List Char :=
  s.pad (match s.places with
    | some n => cs.take n
    | none => cs)

/-- A number of a sign, a mark of its base and digits. Zeros that fill stand behind the mark. -/
def Setting.number (s : Setting) (negative : Bool) (mark digits : List Char) : List Char :=
  let sign := if negative then ['-'] else if s.plus then ['+'] else if s.blank then [' '] else []
  let lead := sign ++ mark
  if s.zero && !s.left then
    lead ++ Binary64.zeros (s.width - lead.length - digits.length) ++ digits
  else s.pad (lead ++ digits)

def upperAscii (cs : List Char) : List Char := cs.map Char.toUpper

def Setting.integer (s : Setting) (letter : Char) (n : Int) : List Char :=
  let base := if letter = 'o' then 8 else if letter = 'x' || letter = 'X' then 16 else 10
  let ds := Nat.toDigits base n.natAbs
  let ds := Binary64.zeros (s.places.getD 0 - ds.length) ++ ds
  let mark := if !s.alternate then []
    else if letter = 'o' then ['0', 'o']
    else if letter = 'x' || letter = 'X' then ['0', 'x']
    else []
  if letter = 'X' then s.number (n < 0) (upperAscii mark) (upperAscii ds)
  else s.number (n < 0) mark ds

def Setting.real (s : Setting) (letter : Char) (x : Binary64) : List Char :=
  let places := s.places.getD 6
  let small := letter.toLower
  let ds :=
    if x.isNaN then ['n', 'a', 'n']
    else if !x.isFinite then ['i', 'n', 'f']
    else if small = 'f' then x.fixedDigits places s.alternate
    else if small = 'e' then x.scientificDigits places s.alternate
    else x.generalDigits places s.alternate
  s.number (x.isNegative && !x.isNaN) [] (if letter.isUpper then upperAscii ds else ds)

def integerOf (letter : Char) : Json → Except Fault Int
  | .int n => .ok n
  | .bool b => .ok (if b then 1 else 0)
  | .real x =>
    if letter = 'o' || letter = 'x' || letter = 'X' then .error (.notInteger letter "float")
    else if x.isNaN then .error .integerOfNaN
    else if !x.isFinite then .error .integerOfInfinity
    else .ok (if x.isNegative then -(x.truncated : Int) else x.truncated)
  | v =>
    .error (if letter = 'o' || letter = 'x' || letter = 'X' then .notInteger letter v.typeName
      else .notNumber letter v.typeName)

def realOf : Json → Except Fault Binary64
  | .real x => .ok x
  | .int n =>
    let x := Binary64.ofRatio (n < 0) n.natAbs 1
    if x.isFinite then .ok x else .error .realTooLarge
  | .bool b => .ok (.ofRatio false (if b then 1 else 0) 1)
  | v => .error (.notReal v.typeName)

def characterOf : Json → Except Fault Char
  | .text s =>
    match s.toList with
    | [c] => .ok c
    | _ => .error .notCharacter
  | .int n => if 0 ≤ n ∧ n < 0x110000 then .ok (.ofNat n.toNat) else .error .noSuchCharacter
  | .bool b => .ok (.ofNat (if b then 1 else 0))
  | _ => .error .notCharacter

def asciiOnly (s : String) : List Char :=
  s.toList.flatMap fun c => if c.toNat < 0x80 then [c] else Text.codeEscape c.toNat

def isLetter (letters : List Char) (c : Char) : Bool := letters.contains c

def convert (s : Setting) (letter : Char) (position : Nat) (v : Json) : Except Fault (List Char) :=
  if letter = 's' then .ok (s.text v.display.toList)
  else if letter = 'r' then .ok (s.text v.inner.toList)
  else if letter = 'a' then .ok (s.text (asciiOnly v.inner))
  else if isLetter ['d', 'i', 'u', 'o', 'x', 'X'] letter then
    (integerOf letter v).map (s.integer letter)
  else if isLetter ['e', 'E', 'f', 'F', 'g', 'G'] letter then (realOf v).map (s.real letter)
  else if letter = 'c' then (characterOf v).map fun c => s.pad [c]
  else .error (.unknownLetter letter position)

def readName : Nat → List Char → Option (List Char × List Char)
  | _, [] => none
  | depth, c :: cs =>
    if c = ')' && depth = 0 then some ([], cs)
    else
      let depth := if c = '(' then depth + 1 else if c = ')' then depth - 1 else depth
      (readName depth cs).map fun r => (c :: r.1, r.2)

def digitsValue (ds : List Char) : Nat :=
  ds.foldl (fun n d => n * 10 + (d.toNat - 48)) 0

def maxWidth : Nat := 0x7fffffffffffffff

def maxPlaces : Nat := 0x7fffffff

def starValue (limit : Nat) (places : Bool) (v : Json) : Except Fault Int :=
  match v with
  | .int n =>
    if n < -(limit : Int) - 1 ∨ (limit : Int) < n then .error (.starTooLarge places) else .ok n
  | .bool b => .ok (if b then 1 else 0)
  | _ => .error .starNotInteger

/-- A width, taken from the arguments where a star stands for it; a negative one sets to the
left. -/
def readWidth (s : Setting) (supply : Supply) (cs : List Char) :
    Except Fault (Setting × Supply × List Char) :=
  match cs with
  | '*' :: rest => do
    let (v, supply) ← supply.next
    let n ← starValue maxWidth false v
    return ({ s with width := n.natAbs, left := s.left || n < 0 }, supply, rest)
  | cs =>
    let n := digitsValue (cs.takeWhile Char.isDigit)
    if maxWidth < n then .error .widthTooLarge
    else .ok ({ s with width := n }, supply, cs.dropWhile Char.isDigit)

/-- The digits behind a point; a negative count taken from the arguments is none. -/
def readPlaces (s : Setting) (supply : Supply) (cs : List Char) :
    Except Fault (Setting × Supply × List Char) :=
  match cs with
  | '.' :: '*' :: rest => do
    let (v, supply) ← supply.next
    let n ← starValue maxPlaces true v
    return ({ s with places := some n.toNat }, supply, rest)
  | '.' :: cs =>
    let n := digitsValue (cs.takeWhile Char.isDigit)
    if maxPlaces < n then .error .placesTooLarge
    else .ok ({ s with places := some n }, supply, cs.dropWhile Char.isDigit)
  | cs => .ok (s, supply, cs)

def skipSize : List Char → List Char
  | c :: cs => if c = 'h' || c = 'l' || c = 'L' then cs else c :: cs
  | [] => []

/-- What stands behind a percent sign, as text; the whole is `length` characters long. -/
def place (length : Nat) (supply : Supply) (cs : List Char) :
    Except Fault (List Char × Supply × List Char) := do
  let (supply, cs) ← match cs with
    | '(' :: rest =>
      if supply.names.isNone then throw .noNames
      else
        match readName 0 rest with
        | none => throw .openName
        | some (name, rest) => do
          let supply ← supply.named (String.ofList name)
          pure (supply, rest)
    | cs => pure (supply, cs)
  let s := withFlags (cs.takeWhile isFlag) .bare
  let (s, supply, cs) ← readWidth s supply (cs.dropWhile isFlag)
  let (s, supply, cs) ← readPlaces s supply cs
  match skipSize cs with
  | [] => throw .openPlace
  | letter :: rest =>
    let (v, supply) ← supply.next
    let text ← convert s letter (length - rest.length - 1) v
    if supply.names.isSome && !supply.left.isEmpty then throw .tooMany
    return (text, supply, rest)

/-- Every step takes a character at least; the first argument bounds their number. -/
def fillFrom (length : Nat) : Nat → Supply → List Char → Except Fault (List Char)
  | _, supply, [] =>
    if supply.names.isNone && !supply.left.isEmpty then .error .tooMany else .ok []
  | 0, _, _ => .ok []
  | steps + 1, supply, '%' :: '%' :: cs => (fillFrom length steps supply cs).map ('%' :: ·)
  | steps + 1, supply, '%' :: cs => do
    let (text, supply, rest) ← place length supply cs
    return text ++ (← fillFrom length steps supply rest)
  | steps + 1, supply, c :: cs => (fillFrom length steps supply cs).map (c :: ·)

/-- The template with its arguments filled in. A place is a percent sign, perhaps a name in
parentheses, flags, a width, a count of digits, and a letter that says how the argument is written.
-/
def fill (template : String) (arguments : Arguments) : Except Fault String :=
  let cs := template.toList
  (fillFrom cs.length cs.length (.of arguments) cs).map String.ofList

end RuleTables.Log.Template
