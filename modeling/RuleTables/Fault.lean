import RuleTables.Connective
import RuleTables.Json.Reader
import RuleTables.Text.Base64
import RuleTables.Text.Utf8

namespace RuleTables

/-- The ways in which the connectives of a composite can be out of place. -/
inductive LayoutFault where
  | empty
  | leading (connective : Connective)
  | missing (position : Nat)
  deriving DecidableEq

namespace LayoutFault

def message : LayoutFault → String
  | empty => "Composite expression is empty"
  | leading _ => "First expression should not have a logical operator"
  | missing position =>
    "Expression at position " ++ toString position ++ " is missing a logical operator"

def details : LayoutFault → Json.Members
  | empty => []
  | leading connective => [("position", .int 0), ("connective", .text connective.name)]
  | missing position => [("position", .int position)]

end LayoutFault

/-- What keeps a JSON value from being an expression. Most causes carry the node they were found
in. -/
inductive TreeFault where
  | notObject (node : Json)
  | notText (field : String) (node : Json)
  | notTruth (field : String) (node : Json)
  | operatorNotText (operator : Json)
  | unknownOperator (operator : String)
  | valueNotScalar (value : Json)
  | nodesNotList (node : Json)
  | entryNotObject (entry : Json)
  | constantNotTruth (node : Json)
  | absent (type field : String) (node : Json)
  | unknownType (type : Json) (node : Json)
  | unknownConnective (symbol : String) (node : Json)
  | layout (fault : LayoutFault) (node : Json)

namespace TreeFault

def message : TreeFault → String
  | notObject _ => "Expression node must be an object"
  | notText field _ => "'" ++ field ++ "' must be a string"
  | notTruth field _ => "'" ++ field ++ "' must be a boolean"
  | operatorNotText _ => "Operator must be a string"
  | unknownOperator operator => "Unknown operator: " ++ operator
  | valueNotScalar _ => "Condition value must be a string, number or boolean"
  | nodesNotList _ => "'nodes' must be a list"
  | entryNotObject _ => "Composite node must be an object"
  | constantNotTruth _ => "Constant value must be a boolean"
  | absent type field _ => "Expression node of type '" ++ type ++ "' is missing '" ++ field ++ "'"
  | unknownType type _ => "Unknown expression type: " ++ type.display
  | unknownConnective symbol _ => "Unknown logical operator: " ++ symbol
  | layout fault _ => fault.message

def details : TreeFault → Json.Members
  | notObject node | notText _ node | notTruth _ node | nodesNotList node | entryNotObject node
  | constantNotTruth node | absent _ _ node | unknownType _ node | unknownConnective _ node
  | layout _ node => [("node", node)]
  | operatorNotText operator => [("operator", operator)]
  | unknownOperator operator => [("operator", .text operator)]
  | valueNotScalar value => [("value", value)]

end TreeFault

/-- Everything that can go wrong, by its cause. A fault has a message, details that echo the input,
and a class. -/
inductive Fault where
  | tree (fault : TreeFault)
  | base64 (fault : Text.Base64.Fault)
  | utf8 (fault : Text.Utf8.Fault)
  | json (fault : Json.Fault)
  | findings (errors warnings : List String)
  | ruleFindings (rule : Nat) (errors warnings : List String)
  | tooManyRules (count : Nat) (limit : Int)
  | layout (fault : LayoutFault)
  | blankDecisionName
  | inputCount (rule got expected : Nat)
  | outputCount (rule got expected : Nat)
  | unwritableCell
  | unwritableName
  | notAscii
  | unknownSymbol (symbol : String)
  | unknownConnective (symbol : String)
  | tooDeep (limit : Int)
  | tooManyNodes (limit : Int) (count : Nat)
  | treeNotObject
  | treeEmpty
  | treeUntyped
  | unsupported (typeName : String)
  | notSearchable (typeName : String)
  | notLetters (typeName : String)
  | notMembers (typeName : String)
  | noOperator
  | unnamedOperator
  | notStrict

inductive FaultClass where
  | domain
  | validation
  | expression
  | generation
  | value
  | type
  | key
  | member
  | decoding
  | encoding
  | other (name : String)
  deriving DecidableEq

namespace FaultClass

def name : FaultClass → String
  | domain => "DmnRulesError"
  | validation => "ValidationError"
  | expression => "ExpressionError"
  | generation => "GenerationError"
  | value => "ValueError"
  | type => "TypeError"
  | key => "KeyError"
  | member => "AttributeError"
  | decoding => "UnicodeDecodeError"
  | encoding => "UnicodeEncodeError"
  | other name => name

def named : List FaultClass :=
  [domain, validation, expression, generation, value, type, key, member, decoding,
    encoding]

def ofName (s : String) : FaultClass :=
  (named.find? (·.name = s)).getD (other s)

/-- The faults that carry details and that the service answers itself. -/
def isDomain : FaultClass → Bool
  | domain | validation | expression | generation => true
  | _ => false

def status : FaultClass → Nat
  | validation | expression => 400
  | generation => 422
  | _ => 500

def isValue : FaultClass → Bool
  | expression | value | decoding | encoding => true
  | _ => false

def shown (c : FaultClass) (message : String) : String :=
  match c with
  | key => Text.quoted message
  | _ => message

end FaultClass

structure Report where
  kind : FaultClass
  message : String
  details : Json

namespace Report

def filled (details : Json) : Json :=
  if details.isVoid then .object [] else details

def make (kind : FaultClass) (message : String) (details : Json) : Report :=
  ⟨kind, kind.shown message, if kind.isDomain then filled details else .object []⟩

end Report

namespace Fault

def textList (texts : List String) : Json :=
  .list (texts.map .text)

def kind : Fault → FaultClass
  | tree _ | base64 _ | utf8 _ | findings _ _ | ruleFindings _ _ _ | tooManyRules _ _ => .validation
  | json f =>
    match f.cause with
    | .longInteger _ => .value
    | _ => .validation
  | layout _ => .expression
  | blankDecisionName | inputCount _ _ _ | outputCount _ _ _ | unwritableCell => .generation
  | unwritableName | notAscii | unknownSymbol _ | unknownConnective _ | tooDeep _ | tooManyNodes _ _
  | treeNotObject | treeEmpty | treeUntyped | notStrict => .value
  | unsupported _ | notSearchable _ => .type
  | noOperator => .key
  | unnamedOperator | notLetters _ | notMembers _ => .member

def unwritableReason : String :=
  "All strings must be XML compatible: Unicode or ASCII, no NULL bytes or control characters"

def countMessage (rule got expected : Nat) (side : String) : String :=
  "Rule " ++ toString rule ++ " has " ++ toString got ++ " " ++ side ++ " entries, expected " ++
    toString expected

def message : Fault → String
  | tree f => f.message
  | base64 _ | utf8 _ => "Invalid Base64 expression payload"
  | json f =>
    match f.cause with
    | .longInteger _ => f.message
    | _ => "Invalid expression JSON"
  | findings _ _ => "Expression validation failed"
  | ruleFindings rule _ _ => "Rule " ++ toString rule ++ " failed validation"
  | tooManyRules count limit =>
    "Too many rules: " ++ toString count ++ " (maximum " ++ toString limit ++ ")"
  | layout f => f.message
  | blankDecisionName => "Decision name is required"
  | inputCount rule got expected => countMessage rule got expected "input"
  | outputCount rule got expected => countMessage rule got expected "output"
  | unwritableCell => "Cell text is not valid XML"
  | unwritableName => unwritableReason
  | notAscii => "string argument should contain only ASCII characters"
  | unknownSymbol symbol => "Unknown operator symbol: " ++ symbol
  | unknownConnective symbol => "Unknown logical operator: " ++ symbol
  | tooDeep limit => "Expression tree exceeds maximum depth of " ++ toString limit
  | tooManyNodes limit count =>
    "Expression tree exceeds maximum node count of " ++ toString limit ++ " (got " ++
      toString count ++ " nodes)"
  | treeNotObject => "expression must be an object"
  | treeEmpty => "expression cannot be empty"
  | treeUntyped => "expression must declare a 'type'"
  | unsupported typeName => "Unsupported expression type: " ++ typeName
  | notSearchable typeName => "argument of type '" ++ typeName ++ "' is not iterable"
  | notLetters typeName => "'" ++ typeName ++ "' object has no attribute 'lower'"
  | notMembers typeName => "'" ++ typeName ++ "' object has no attribute 'get'"
  | noOperator => "None"
  | unnamedOperator => "'NoneType' object has no attribute 'value'"
  | notStrict => "Out of range float values are not JSON compliant"

def details : Fault → Json.Members
  | tree f => f.details
  | base64 f => [("reason", .text f.message)]
  | utf8 f => [("reason", .text f.message)]
  | json f => [("reason", .text f.message)]
  | findings errors warnings => [("errors", textList errors), ("warnings", textList warnings)]
  | ruleFindings rule errors warnings =>
    [("rule", .int rule), ("errors", textList errors), ("warnings", textList warnings)]
  | tooManyRules count limit => [("rule_count", .int count), ("max_rules", .int limit)]
  | layout f => f.details
  | inputCount rule _ _ | outputCount rule _ _ => [("rule", .int rule)]
  | unwritableCell => [("reason", .text unwritableReason)]
  | _ => []

def report (f : Fault) : Report :=
  ⟨f.kind, f.message, .object (if f.kind.isDomain then f.details else [])⟩

end Fault

end RuleTables
