import RuleTables.Text.Letter

namespace RuleTables.Text

def lowerChar (c : Char) : List Char :=
  if c.toNat < 0x80 then [c.toLower]
  else if c = 'İ' then ['i', Char.ofNat 0x307]
  else
    match capitals.findSome? (·.small? c.toNat) with
    | some n => [Char.ofNat n]
    | none => [c]

def casedNext (cs : List Char) : Bool :=
  match cs.dropWhile isPassed with
  | [] => false
  | c :: _ => isCased c

/-- The first argument tells whether the last character not passed over had case. -/
def lowerFrom : Bool → List Char → List Char
  | _, [] => []
  | casedBefore, c :: cs =>
    let small :=
      if c = 'Σ' then [if casedBefore && !casedNext cs then 'ς' else 'σ'] else lowerChar c
    small ++ lowerFrom (if isPassed c then casedBefore else isCased c) cs

/-- One capital gives two characters (`İ`), and a capital sigma gives the final small sigma at the
end of a word. -/
def lower (s : String) : String :=
  String.ofList (lowerFrom false s.toList)

/-- Capitals of the characters whose capital form lies in ASCII; all others stay. -/
def upperChar (c : Char) : List Char :=
  match c with
  | 'ß' => ['S', 'S']
  | 'ı' => ['I']
  | 'ſ' => ['S']
  | 'ﬀ' => ['F', 'F']
  | 'ﬁ' => ['F', 'I']
  | 'ﬂ' => ['F', 'L']
  | 'ﬃ' => ['F', 'F', 'I']
  | 'ﬄ' => ['F', 'F', 'L']
  | 'ﬅ' => ['S', 'T']
  | 'ﬆ' => ['S', 'T']
  | c => [c.toUpper]

def upper (s : String) : String :=
  String.ofList (s.toList.flatMap upperChar)

end RuleTables.Text
