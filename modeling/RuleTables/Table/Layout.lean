import RuleTables.Assoc
import RuleTables.HitPolicy
import RuleTables.Kind

namespace RuleTables

/-- A named input. Two parameters of one name are the same one. -/
structure Parameter where
  name : String
  kind : Kind
  label : String
  description : Option String

namespace Parameter

def of (name : String) (kind : Kind) (label description : Option String) : Parameter :=
  ⟨name, kind, label.getD name, description⟩

def same (p q : Parameter) : Bool :=
  p.name = q.name

def text (p : Parameter) : String :=
  p.name ++ " (" ++ p.kind.name ++ ")"

def names (ps : List Parameter) : List String :=
  (ps.map (·.name)).eraseDups

end Parameter

/-- An output column, and the value that its cells have by default. -/
structure OutputColumn where
  name : String
  label : String
  kind : Kind
  value : String
  deriving DecidableEq

namespace OutputColumn

def of (name : String) (label : Option String) (kind : Kind) (value : String) : OutputColumn :=
  ⟨name, label.getD name, kind, value⟩

/-- The default value as a cell: text is put in quotes. -/
def cell (c : OutputColumn) : String :=
  if c.kind = .string then "\"" ++ c.value ++ "\"" else c.value

def result : OutputColumn := ⟨"result", "Result", .string, "approved"⟩

end OutputColumn

/-- A column that stands for an expression. Conditions refer to it by its name. -/
structure ComputedInput where
  name : String
  label : String
  expression : String
  kind : Kind
  deriving DecidableEq

structure TableLayout where
  definitionsId : String
  definitionsName : String
  decisionId : String
  decisionName : String
  tableId : String
  hitPolicy : HitPolicy
  kinds : List (String × Kind)
  labels : List (String × String)
  outputs : List OutputColumn
  computed : List ComputedInput
  pretty : Bool

namespace TableLayout

def default : TableLayout where
  definitionsId := "definitions_1"
  definitionsName := "DRD"
  decisionId := "decision_1"
  decisionName := "Business Rule Decision"
  tableId := "decisionTable_1"
  hitPolicy := .first
  kinds := []
  labels := []
  outputs := []
  computed := []
  pretty := true

def kindOf (l : TableLayout) (name : String) : Kind :=
  (Assoc.find? name l.kinds).getD .string

def labelOf (l : TableLayout) (name : String) : String :=
  (Assoc.find? name l.labels).getD name

def computed? (l : TableLayout) (name : String) : Option ComputedInput :=
  l.computed.find? (·.name = name)

/-- The output columns, of which there is always one at least. -/
def columns (l : TableLayout) : List OutputColumn :=
  if l.outputs.isEmpty then [.result] else l.outputs

def withDefinitions (l : TableLayout) (id : String) (name : Option String) : TableLayout :=
  { l with definitionsId := id, definitionsName := name.getD l.definitionsName }

def withDecision (l : TableLayout) (id : String) (name : Option String) : TableLayout :=
  { l with decisionId := id, decisionName := name.getD l.decisionName }

def withKind (l : TableLayout) (name : String) (kind : Kind) : TableLayout :=
  { l with kinds := Assoc.put name kind l.kinds }

def withLabel (l : TableLayout) (name label : String) : TableLayout :=
  { l with labels := Assoc.put name label l.labels }

/-- An empty label gives way to the name. -/
def withParameter (l : TableLayout) (p : Parameter) : TableLayout :=
  (l.withKind p.name p.kind).withLabel p.name (if p.label.isEmpty then p.name else p.label)

def withOutput (l : TableLayout) (c : OutputColumn) : TableLayout :=
  { l with outputs := l.outputs ++ [c] }

def withComputed (l : TableLayout) (c : ComputedInput) : TableLayout :=
  { l with computed := l.computed ++ [c] }

end TableLayout

end RuleTables
