import RuleTables.Kind

namespace RuleTables

inductive Category where
  | comparison
  | numeric
  | string
  | nullCheck
  | collection
  deriving DecidableEq

namespace Category

def all : List Category := [comparison, numeric, string, nullCheck, collection]

def name : Category → String
  | comparison => "COMPARISON"
  | numeric => "NUMERIC"
  | string => "STRING"
  | nullCheck => "NULL_CHECK"
  | collection => "COLLECTION"

def title : Category → String
  | comparison => "Comparison"
  | numeric => "Numeric"
  | string => "String"
  | nullCheck => "Null/Empty"
  | collection => "Collection"

end Category

inductive Operator where
  | equals
  | notEquals
  | greaterThan
  | greaterThanOrEqual
  | lessThan
  | lessThanOrEqual
  | between
  | contains
  | notContains
  | startsWith
  | endsWith
  | matchesPattern
  | equalsIgnoreCase
  | isNull
  | isNotNull
  | isEmpty
  | isNotEmpty
  | oneOf
  | noneOf
  deriving DecidableEq

namespace Operator

def all : List Operator :=
  [equals, notEquals, greaterThan, greaterThanOrEqual, lessThan, lessThanOrEqual, between, contains,
    notContains, startsWith, endsWith, matchesPattern, equalsIgnoreCase, isNull, isNotNull, isEmpty,
    isNotEmpty, oneOf, noneOf]

def name : Operator → String
  | equals => "EQUALS"
  | notEquals => "NOT_EQUALS"
  | greaterThan => "GREATER_THAN"
  | greaterThanOrEqual => "GREATER_THAN_OR_EQUAL"
  | lessThan => "LESS_THAN"
  | lessThanOrEqual => "LESS_THAN_OR_EQUAL"
  | between => "BETWEEN"
  | contains => "CONTAINS"
  | notContains => "NOT_CONTAINS"
  | startsWith => "STARTS_WITH"
  | endsWith => "ENDS_WITH"
  | matchesPattern => "MATCHES"
  | equalsIgnoreCase => "EQUALS_IGNORE_CASE"
  | isNull => "IS_NULL"
  | isNotNull => "IS_NOT_NULL"
  | isEmpty => "IS_EMPTY"
  | isNotEmpty => "IS_NOT_EMPTY"
  | oneOf => "IN"
  | noneOf => "NOT_IN"

def symbol : Operator → String
  | equals => "=="
  | notEquals => "!="
  | greaterThan => ">"
  | greaterThanOrEqual => ">="
  | lessThan => "<"
  | lessThanOrEqual => "<="
  | between => "between"
  | contains => "contains"
  | notContains => "not contains"
  | startsWith => "startsWith"
  | endsWith => "endsWith"
  | matchesPattern => "matches"
  | equalsIgnoreCase => "equalsIgnoreCase"
  | isNull => "isNull"
  | isNotNull => "isNotNull"
  | isEmpty => "isEmpty"
  | isNotEmpty => "isNotEmpty"
  | oneOf => "in"
  | noneOf => "notIn"

def label : Operator → String
  | equals => "equals"
  | notEquals => "not equals"
  | greaterThan => "greater than"
  | greaterThanOrEqual => "greater than or equal"
  | lessThan => "less than"
  | lessThanOrEqual => "less than or equal"
  | between => "between"
  | contains => "contains"
  | notContains => "not contains"
  | startsWith => "starts with"
  | endsWith => "ends with"
  | matchesPattern => "matches regex"
  | equalsIgnoreCase => "equals (ignore case)"
  | isNull => "is null"
  | isNotNull => "is not null"
  | isEmpty => "is empty"
  | isNotEmpty => "is not empty"
  | oneOf => "in list"
  | noneOf => "not in list"

def category : Operator → Category
  | equals | notEquals => .comparison
  | greaterThan | greaterThanOrEqual | lessThan | lessThanOrEqual | between => .numeric
  | contains | notContains | startsWith | endsWith | matchesPattern | equalsIgnoreCase => .string
  | isNull | isNotNull | isEmpty | isNotEmpty => .nullCheck
  | oneOf | noneOf => .collection

def comparesNumbers : Operator → Bool
  | equals | notEquals | isNull | isNotNull | oneOf | noneOf => true
  | op => op.category = .numeric

def comparesText : Operator → Bool
  | op => op.category ≠ .numeric

def comparesTruth : Operator → Bool
  | equals | notEquals | isNull | isNotNull => true
  | _ => false

def needsValue : Operator → Bool
  | op => op.category ≠ .nullCheck

/-- Dates order like numbers. -/
def supports (op : Operator) : Kind → Bool
  | .string => op.comparesText
  | .boolean => op.comparesTruth
  | _ => op.comparesNumbers

/-- A missing kind is supported by every operator. -/
def supports? (op : Operator) (kind : Option Kind) : Bool :=
  match kind with
  | none => true
  | some k => op.supports k

def ofSymbol? (s : String) : Option Operator :=
  all.find? (·.symbol = s)

def ofName? (s : String) : Option Operator :=
  all.find? (·.name = s)

def forKind (kind : Option Kind) : List Operator :=
  all.filter (·.supports? kind)

def inCategory (c : Category) : List Operator :=
  all.filter (·.category = c)

end Operator

end RuleTables
