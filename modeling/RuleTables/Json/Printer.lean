import RuleTables.Json.Basic

namespace RuleTables.Json

/-- What stands between items and after names, whether characters beyond ASCII are escaped, and how
far each level is indented, if lines are broken at all. -/
structure Layout where
  comma : List Char
  colon : List Char
  asciiOnly : Bool
  indent : Option Nat

def compact : Layout := ⟨[','], [':'], false, none⟩

def spaced : Layout := ⟨[',', ' '], [':', ' '], true, none⟩

def pretty : Layout := ⟨[','], [':', ' '], false, some 2⟩

def codeUnit (n : Nat) : List Char :=
  '\\' :: 'u' :: Text.hexDigits 4 n

def escapeCode (n : Nat) : List Char :=
  if n < 0x10000 then codeUnit n
  else codeUnit (0xd800 + (n - 0x10000) / 0x400) ++ codeUnit (0xdc00 + (n - 0x10000) % 0x400)

def escapeChar (asciiOnly : Bool) (c : Char) : List Char :=
  let n := c.toNat
  if n = 0x22 then ['\\', c]
  else if n = 0x5c then ['\\', c]
  else if n = 0x0a then ['\\', 'n']
  else if n = 0x0d then ['\\', 'r']
  else if n = 0x09 then ['\\', 't']
  else if n = 0x08 then ['\\', 'b']
  else if n = 0x0c then ['\\', 'f']
  else if n < 0x20 then codeUnit n
  else if asciiOnly && 0x7e < n then escapeCode n
  else [c]

def renderText (asciiOnly : Bool) (cs : List Char) : List Char :=
  Text.doubleQuote :: cs.flatMap (escapeChar asciiOnly) ++ [Text.doubleQuote]

def renderReal (x : Binary64) : String :=
  if x.isNaN then "NaN"
  else if x.isFinite then x.display
  else if x.isNegative then "-Infinity"
  else "Infinity"

def Layout.line (l : Layout) (depth : Nat) : List Char :=
  match l.indent with
  | none => []
  | some width => '\n' :: List.replicate (width * depth) ' '

mutual

def write (l : Layout) (depth : Nat) : Json → List Char
  | null => ['n', 'u', 'l', 'l']
  | bool true => ['t', 'r', 'u', 'e']
  | bool false => ['f', 'a', 'l', 's', 'e']
  | int n => (toString n).toList
  | real x => (renderReal x).toList
  | text s => renderText l.asciiOnly s.toList
  | list [] => ['[', ']']
  | list (v :: vs) =>
    '[' :: l.line (depth + 1) ++ write l (depth + 1) v ++ writeItems l (depth + 1) vs ++
      l.line depth ++ [']']
  | object [] => ['\x7b', '\x7d']
  | object ((n, v) :: ms) =>
    '\x7b' :: l.line (depth + 1) ++ renderText l.asciiOnly n.toList ++ l.colon ++
      write l (depth + 1) v ++ writeMembers l (depth + 1) ms ++ l.line depth ++ ['\x7d']

def writeItems (l : Layout) (depth : Nat) : List Json → List Char
  | [] => []
  | v :: vs => l.comma ++ l.line depth ++ write l depth v ++ writeItems l depth vs

def writeMembers (l : Layout) (depth : Nat) : Members → List Char
  | [] => []
  | (n, v) :: ms =>
    l.comma ++ l.line depth ++ renderText l.asciiOnly n.toList ++ l.colon ++ write l depth v ++
      writeMembers l depth ms

end

def render (l : Layout) (v : Json) : String :=
  String.ofList (write l 0 v)

/-- The order by code points, in which a text stands before its continuations. -/
def comesBefore : List Char → List Char → Bool
  | [], cs => !cs.isEmpty
  | _ :: _, [] => false
  | c :: cs, d :: ds => c.toNat < d.toNat || (c.toNat == d.toNat && comesBefore cs ds)

def insertByName (m : String × Json) : Members → Members
  | [] => [m]
  | n :: ms =>
    if comesBefore m.1.toList n.1.toList then m :: n :: ms else n :: insertByName m ms

mutual

def sorted : Json → Json
  | list items => list (sortedItems items)
  | object ms => object (sortedMembers ms)
  | v => v

def sortedItems : List Json → List Json
  | [] => []
  | v :: vs => sorted v :: sortedItems vs

def sortedMembers : Members → Members
  | [] => []
  | (n, v) :: ms => insertByName (n, sorted v) (sortedMembers ms)

end

end RuleTables.Json
