import RuleTables.Expr.Basic
import RuleTables.Log.Basic

namespace RuleTables

inductive Finding where
  | noParameter
  | noOperator
  | wrongKind (operator : Operator) (kind : Kind)
  | noValue (operator : Operator)
  | layout (fault : LayoutFault)
  | unsupported (typeName : String)
  deriving DecidableEq

namespace Finding

def message : Finding → String
  | noParameter => "Parameter name is required"
  | noOperator => "Operator is required"
  | wrongKind operator kind =>
    "Operator '" ++ operator.label ++ "' does not support data type " ++ kind.name
  | noValue operator => "Value is required for operator '" ++ operator.label ++ "'"
  | layout fault => fault.message
  | unsupported typeName => "Unsupported expression type: " ++ typeName

/-- An empty composite and a connective that joins to nothing can be borne. -/
def isWarning : Finding → Bool
  | layout .empty => true
  | layout (.leading _) => true
  | _ => false

end Finding

/-- The messages of errors and warnings, each in the order found. Errors keep an expression from
being used, warnings do not. -/
structure Findings where
  errors : List String
  warnings : List String
  deriving DecidableEq

namespace Findings

def none : Findings := ⟨[], []⟩

def ofList (fs : List Finding) : Findings :=
  ⟨(fs.filter (!·.isWarning)).map (·.message), (fs.filter (·.isWarning)).map (·.message)⟩

def isValid (f : Findings) : Bool := f.errors.isEmpty

def hasWarnings (f : Findings) : Bool := !f.warnings.isEmpty

def append (f g : Findings) : Findings :=
  ⟨f.errors ++ g.errors, f.warnings ++ g.warnings⟩

def text (f : Findings) : String :=
  if f.isValid && !f.hasWarnings then "Valid"
  else
    String.intercalate "; "
      ((if f.errors.isEmpty then [] else ["Errors: " ++ Text.quotedList f.errors]) ++
        (if f.warnings.isEmpty then [] else ["Warnings: " ++ Text.quotedList f.warnings]))

def fault? (f : Findings) : Option Fault :=
  if f.isValid then .none else some (.findings f.errors f.warnings)

def log (f : Findings) : List Log.Entry :=
  if f.isValid then []
  else
    [⟨.debug, "dmn_rules.expression.validator", "Expression failed validation: " ++ f.text, []⟩]

end Findings

/-- Nothing more is found about a condition that has no operator. -/
def Condition.findings (c : Condition) : List Finding :=
  (if Text.allBlank c.parameter then [.noParameter] else []) ++
    match c.operator with
    | none => [.noOperator]
    | some op =>
      (if op.supports c.kind then [] else [.wrongKind op c.kind]) ++
        (if op.needsValue && Text.allBlank c.value then [.noValue op] else [])

namespace Expr

mutual

def findings : Expr → List Finding
  | condition c => c.findings
  | composite ns => firstFindings ns
  | group e => findings e
  | constant _ _ => []
  | foreign v => [.unsupported v.typeName]

def firstFindings : List (Node Expr) → List Finding
  | [] => [.layout .empty]
  | ⟨c, e⟩ :: ns =>
    (match c with
      | some c => [.layout (.leading c)]
      | none => []) ++ findings e ++ laterFindings 1 ns

def laterFindings (position : Nat) : List (Node Expr) → List Finding
  | [] => []
  | ⟨c, e⟩ :: ns =>
    (match c with
      | some _ => []
      | none => [.layout (.missing position)]) ++ findings e ++ laterFindings (position + 1) ns

end

def validate (e : Expr) : Findings :=
  .ofList e.findings

end Expr

end RuleTables
