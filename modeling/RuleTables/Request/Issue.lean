import RuleTables.Json.Basic

namespace RuleTables.Request

inductive Place where
  | name (s : String)
  | index (n : Nat)
  deriving DecidableEq

def Place.json : Place → Json
  | .name s => .text s
  | .index n => .int n

inductive Cause where
  | missing
  | notText
  | emptyText
  | notList
  | noItems
  | notMembers
  | notRecord (model : String)
  | notFields
  | notTruth
  | unclearTruth
  | notInteger
  | unclearInteger
  | longInteger
  | fractional
  | notFinite
  | notOneOf (choices : List String)
  | refused (reason : String)
  | notJson (reason : String)

namespace Cause

def type : Cause → String
  | missing => "missing"
  | notText => "string_type"
  | emptyText => "string_too_short"
  | notList => "list_type"
  | noItems => "too_short"
  | notMembers => "dict_type"
  | notRecord _ => "model_type"
  | notFields => "model_attributes_type"
  | notTruth => "bool_type"
  | unclearTruth => "bool_parsing"
  | notInteger => "int_type"
  | unclearInteger => "int_parsing"
  | longInteger => "int_parsing_size"
  | fractional => "int_from_float"
  | notFinite => "finite_number"
  | notOneOf _ => "enum"
  | refused _ => "value_error"
  | notJson _ => "json_invalid"

def choiceText : List String → String
  | [] => ""
  | [s] => "'" ++ s ++ "'"
  | [s, t] => "'" ++ s ++ "' or '" ++ t ++ "'"
  | s :: ss => "'" ++ s ++ "', " ++ choiceText ss

def message : Cause → String
  | missing => "Field required"
  | notText => "Input should be a valid string"
  | emptyText => "String should have at least 1 character"
  | notList => "Input should be a valid list"
  | noItems => "List should have at least 1 item after validation, not 0"
  | notMembers => "Input should be a valid dictionary"
  | notRecord model => "Input should be a valid dictionary or instance of " ++ model
  | notFields => "Input should be a valid dictionary or object to extract fields from"
  | notTruth => "Input should be a valid boolean"
  | unclearTruth => "Input should be a valid boolean, unable to interpret input"
  | notInteger => "Input should be a valid integer"
  | unclearInteger => "Input should be a valid integer, unable to parse string as an integer"
  | longInteger => "Unable to parse input string as an integer, exceeded maximum size"
  | fractional => "Input should be a valid integer, got a number with a fractional part"
  | notFinite => "Input should be a finite number"
  | notOneOf choices => "Input should be " ++ choiceText choices
  | refused reason => "Value error, " ++ reason
  | notJson _ => "JSON decode error"

def context : Cause → Json.Members
  | emptyText => [("min_length", .int 1)]
  | noItems => [("field_type", .text "List"), ("min_length", .int 1), ("actual_length", .int 0)]
  | notRecord model => [("class_name", .text model)]
  | notOneOf choices => [("expected", .text (choiceText choices))]
  | refused _ => [("error", .object [])]
  | notJson reason => [("error", .text reason)]
  | _ => []

end Cause

/-- What is wrong with a request: its place, its cause and the value it was found in. -/
structure Issue where
  place : List Place
  cause : Cause
  input : Json

def Issue.within (p : Place) (i : Issue) : Issue :=
  { i with place := p :: i.place }

def Issue.json (i : Issue) : Json :=
  .object ([("type", .text i.cause.type), ("loc", .list (i.place.map (·.json))),
    ("msg", .text i.cause.message), ("input", i.input)] ++
      match i.cause.context with
      | [] => []
      | ms => [("ctx", .object ms)])

inductive Checked (α : Type) where
  | good (a : α)
  | bad (issues : List Issue)

namespace Checked

variable {α β : Type}

def map (f : α → β) : Checked α → Checked β
  | good a => good (f a)
  | bad is => bad is

/-- The issues of both sides, those of the function first. -/
def apply : Checked (α → β) → Checked α → Checked β
  | good f, good a => good (f a)
  | good _, bad is => bad is
  | bad is, good _ => bad is
  | bad is, bad js => bad (is ++ js)

instance : Applicative Checked where
  map := map
  pure := good
  seq f a := apply f (a ())

def within (p : Place) : Checked α → Checked α
  | good a => good a
  | bad is => bad (is.map (·.within p))

def fail (cause : Cause) (input : Json) : Checked α :=
  bad [⟨[], cause, input⟩]

def andThen (c : Checked α) (f : α → Checked β) : Checked β :=
  match c with
  | good a => f a
  | bad is => bad is

end Checked

end RuleTables.Request
