import RuleTables.Text.Blank
import RuleTables.Text.LowerCase

namespace RuleTables

/-- What joins a node of a composite to the one before it. -/
inductive Connective where
  | and
  | or
  deriving DecidableEq

namespace Connective

def name : Connective → String
  | and => "AND"
  | or => "OR"

def symbol : Connective → String
  | and => "and"
  | or => "or"

def sign : Connective → String
  | and => "&&"
  | or => "||"

def all : List Connective := [and, or]

/-- The connective a text spells by its symbol in any case or by its sign: `some none` for blank
text, `none` for text that spells no connective. -/
def ofSymbol? (s : String) : Option (Option Connective) :=
  if Text.allBlank s then some none
  else (all.find? fun c => Text.lower (Text.trim s) = c.symbol || Text.trim s = c.sign).map some

end Connective

end RuleTables
