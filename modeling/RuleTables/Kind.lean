import RuleTables.Text.Blank
import RuleTables.Text.LowerCase
import RuleTables.Text.Numeral

namespace RuleTables

inductive Kind where
  | string
  | integer
  | long
  | double
  | boolean
  | date
  | dateTime
  deriving DecidableEq

namespace Kind

def all : List Kind :=
  [string, integer, long, double, boolean, date, dateTime]

def typeRef : Kind → String
  | string => "string"
  | integer => "integer"
  | long => "long"
  | double => "double"
  | boolean => "boolean"
  | date => "date"
  | dateTime => "dateTime"

def name : Kind → String
  | string => "STRING"
  | integer => "INTEGER"
  | long => "LONG"
  | double => "DOUBLE"
  | boolean => "BOOLEAN"
  | date => "DATE"
  | dateTime => "DATETIME"

def isNumeric : Kind → Bool
  | integer => true
  | long => true
  | double => true
  | _ => false

def ofExact? (s : String) : Option Kind :=
  all.find? (·.typeRef = s)

/-- The kind a type reference names, in any case and with blanks around it; text for any other. -/
def ofTypeRef (s : String) : Kind :=
  (all.find? fun k => Text.lower k.typeRef = Text.lower (Text.trim s)).getD string

def isTruth (s : String) : Bool :=
  s = "true" || s = "false"

/-- The kind that a text looks like: numbers come before truth values, and those before plain text.
A text with a point in it is read as a decimal, any other one as an integer. -/
def infer (value : String) : Kind :=
  let s := Text.trim value
  let hasPoint := s.toList.contains '.'
  if hasPoint && Text.isDecimal s then double
  else if !hasPoint && Text.isInteger s then integer
  else if isTruth (Text.lower s) then boolean
  else string

end Kind

end RuleTables
