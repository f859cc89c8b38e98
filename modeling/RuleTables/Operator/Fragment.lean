import RuleTables.Operator.Basic
import RuleTables.Text.Pieces

namespace RuleTables

inductive Dialect where
  | unary
  | java
  | feel
  deriving DecidableEq

def Dialect.name : Dialect → String
  | .unary => "unary_test"
  | .java => "java"
  | .feel => "feel"

def Dialect.all : List Dialect := [.unary, .java, .feel]

namespace Operator

def inQuotes (value : String) : String :=
  "\"" ++ value ++ "\""

/-- Values of kind `string` are put in quotes as they are. -/
def literal (kind : Kind) (value : String) : String :=
  if kind = .string then inQuotes value else value

def items (kind : Kind) (value : String) : String :=
  Text.join ", " ((Text.pieces ',' value).map fun item => literal kind (Text.trim item))

/-- The two ends of a range; a value with any other number of commas than one is no range. -/
def bounds? (value : String) : Option (String × String) :=
  match Text.pieces ',' value with
  | [low, high] => some (Text.trim low, Text.trim high)
  | _ => none

/-- The cell of a decision table, which leaves out the parameter. -/
def unaryTest (op : Operator) (value : String) (kind : Kind) : String :=
  match op with
  | equals => literal kind value
  | notEquals => "not(" ++ literal kind value ++ ")"
  | greaterThan | greaterThanOrEqual | lessThan | lessThanOrEqual => op.symbol ++ " " ++ value
  | between =>
    match bounds? value with
    | some (low, high) => "[" ++ low ++ ".." ++ high ++ "]"
    | none => value
  | contains => "contains(?, " ++ inQuotes value ++ ")"
  | notContains => "not(contains(?, " ++ inQuotes value ++ "))"
  | startsWith => "starts with " ++ inQuotes value
  | endsWith => "ends with " ++ inQuotes value
  | matchesPattern => "matches(?, " ++ inQuotes value ++ ")"
  | equalsIgnoreCase => "lower case(?) = " ++ inQuotes (Text.lower value)
  | isNull | isEmpty => "null"
  | isNotNull | isNotEmpty => "not(null)"
  | oneOf => items kind value
  | noneOf => "not(" ++ items kind value ++ ")"

def call (p method argument : String) : String :=
  p ++ "." ++ method ++ "(" ++ argument ++ ")"

def javaList (p value : String) (kind : Kind) : String :=
  "java.util.Arrays.asList(" ++ items kind value ++ ").contains(" ++ p ++ ")"

def javaTest (op : Operator) (p value : String) (kind : Kind) : String :=
  match op with
  | equals => if kind = .string then call p "equals" (inQuotes value) else p ++ " == " ++ value
  | notEquals =>
    if kind = .string then "!" ++ call p "equals" (inQuotes value) else p ++ " != " ++ value
  | greaterThan | greaterThanOrEqual | lessThan | lessThanOrEqual =>
    p ++ " " ++ op.symbol ++ " " ++ value
  | between =>
    match bounds? value with
    | some (low, high) => "(" ++ p ++ " >= " ++ low ++ " && " ++ p ++ " <= " ++ high ++ ")"
    | none => p ++ " between " ++ value
  | contains => call p "contains" (inQuotes value)
  | notContains => "!" ++ call p "contains" (inQuotes value)
  | startsWith => call p "startsWith" (inQuotes value)
  | endsWith => call p "endsWith" (inQuotes value)
  | matchesPattern => call p "matches" (inQuotes value)
  | equalsIgnoreCase => call p "equalsIgnoreCase" (inQuotes value)
  | isNull => p ++ " == null"
  | isNotNull => p ++ " != null"
  | isEmpty => call p "isEmpty" ""
  | isNotEmpty => "!" ++ call p "isEmpty" ""
  | oneOf => javaList p value kind
  | noneOf => "!" ++ javaList p value kind

def apply (function p value : String) : String :=
  function ++ "(" ++ p ++ ", " ++ inQuotes value ++ ")"

def feelTest (op : Operator) (p value : String) (kind : Kind) : String :=
  match op with
  | equals => p ++ " = " ++ literal kind value
  | notEquals => p ++ " != " ++ literal kind value
  | greaterThan | greaterThanOrEqual | lessThan | lessThanOrEqual =>
    p ++ " " ++ op.symbol ++ " " ++ value
  | between =>
    match bounds? value with
    | some (low, high) => p ++ " in [" ++ low ++ ".." ++ high ++ "]"
    | none => p ++ " between " ++ value
  | contains => apply "contains" p value
  | notContains => "not(" ++ apply "contains" p value ++ ")"
  | startsWith => apply "starts with" p value
  | endsWith => apply "ends with" p value
  | matchesPattern => apply "matches" p value
  | equalsIgnoreCase => "lower case(" ++ p ++ ") = " ++ inQuotes (Text.lower value)
  | isNull => p ++ " = null"
  | isNotNull => p ++ " != null"
  | isEmpty => p ++ " = null or " ++ p ++ " = \"\""
  | isNotEmpty => p ++ " != null and " ++ p ++ " != \"\""
  | oneOf => p ++ " in (" ++ items kind value ++ ")"
  | noneOf => p ++ " not in (" ++ items kind value ++ ")"

def fragment (op : Operator) (dialect : Dialect) (p value : String) (kind : Kind) : String :=
  match dialect with
  | .unary => op.unaryTest value kind
  | .java => op.javaTest p value kind
  | .feel => op.feelTest p value kind

end Operator

end RuleTables
