import RuleTables.Text.Digit

namespace RuleTables.Text

def digitLimit : Nat := 4300

def dropSign : List Char → List Char
  | '+' :: cs => cs
  | '-' :: cs => cs
  | cs => cs

def isDigitTail : List Char → Bool
  | [] => true
  | '_' :: c :: cs => isDigit c && isDigitTail cs
  | c :: cs => isDigit c && isDigitTail cs

def isDigitRun : List Char → Bool
  | [] => false
  | c :: cs => isDigit c && isDigitTail cs

/-- An optional sign and a run of digits, in which a single underscore may stand between two. -/
def isInteger (s : String) : Bool :=
  let digits := dropSign s.toList
  isDigitRun digits && (digits.filter isDigit).length ≤ digitLimit

def isPointed (cs : List Char) : Bool :=
  let whole := cs.takeWhile (· != '.')
  match cs.dropWhile (· != '.') with
  | [] => false
  | _ :: fraction =>
    (isDigitRun whole || isDigitRun fraction) &&
      (whole.isEmpty || isDigitRun whole) && (fraction.isEmpty || isDigitRun fraction)

def isExponentMark (c : Char) : Bool :=
  c = 'e' || c = 'E'

/-- A decimal has a point in its mantissa and may have an exponent. -/
def isDecimal (s : String) : Bool :=
  let unsigned := dropSign s.toList
  let mantissa := unsigned.takeWhile (!isExponentMark ·)
  match unsigned.dropWhile (!isExponentMark ·) with
  | [] => isPointed mantissa
  | _ :: exponent => isPointed mantissa && isDigitRun (dropSign exponent)

end RuleTables.Text
