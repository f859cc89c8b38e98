import RuleTables.Request.Body
import RuleTables.Settings

namespace RuleTables.Request

def filled? (s : Option String) : Option String :=
  s.bind fun s => if s.isEmpty then none else some s

def OutputBody.column (b : OutputBody) : OutputColumn :=
  .of b.name b.label b.kind b.value

namespace LayoutBody

/-- A name for the definitions that is empty counts only beside an identifier. -/
def withDefinitions (b : LayoutBody) (l : TableLayout) : TableLayout :=
  match filled? b.definitionsId with
  | some id => l.withDefinitions id b.definitionsName
  | none =>
    match filled? b.definitionsName with
    | some name => { l with definitionsName := name }
    | none => l

/-- The settings fill in what is left out. -/
def layout (b : LayoutBody) (s : Settings) : TableLayout :=
  { b.withDefinitions .default with
    hitPolicy := b.hitPolicy.getD s.hitPolicy
    decisionName := (filled? b.decisionName).getD s.decisionName
    pretty := s.pretty
    decisionId := (filled? b.decisionId).getD TableLayout.default.decisionId
    tableId := (filled? b.tableId).getD TableLayout.default.tableId
    kinds := Assoc.ofPairs b.kinds
    labels := Assoc.ofPairs b.labels
    outputs := b.outputs.map (·.column)
    computed := b.computed }

end LayoutBody

mutual

def finite : Json → Json
  | .real x => if x.isFinite then .real x else .null
  | .list vs => .list (finiteItems vs)
  | .object ms => .object (finiteMembers ms)
  | v => v

def finiteItems : List Json → List Json
  | [] => []
  | v :: vs => finite v :: finiteItems vs

def finiteMembers : Json.Members → Json.Members
  | [] => []
  | (n, v) :: ms => (n, finite v) :: finiteMembers ms

end

def textJson : Option String → Json
  | some s => .text s
  | none => .null

def textsJson (ss : List String) : Json := .list (ss.map .text)

def OutputBody.json (b : OutputBody) : Json :=
  .object [("name", .text b.name), ("label", textJson b.label), ("type_ref", .text b.kind.typeRef),
    ("default_value", .text b.value)]

def computedJson (c : ComputedInput) : Json :=
  .object [("name", .text c.name), ("label", .text c.label), ("expression", .text c.expression),
    ("type_ref", .text c.kind.typeRef)]

def LayoutBody.json (b : LayoutBody) : Json :=
  .object [("definitions_id", textJson b.definitionsId),
    ("definitions_name", textJson b.definitionsName), ("decision_id", textJson b.decisionId),
    ("decision_name", textJson b.decisionName), ("table_id", textJson b.tableId),
    ("hit_policy", textJson (b.hitPolicy.map (·.text))),
    ("parameter_types", .object (b.kinds.map fun k => (k.1, .text k.2.typeRef))),
    ("parameter_labels", .object (b.labels.map fun l => (l.1, .text l.2))),
    ("outputs", .list (b.outputs.map (·.json))),
    ("computed_inputs", .list (b.computed.map computedJson))]

def ExpressionBody.json (b : ExpressionBody) : Json :=
  .object [("expression", finite b.expression), ("variable_prefix", .text b.lead)]

def ExpressionTableBody.json (b : ExpressionTableBody) : Json :=
  .object [("expression", finite b.expression), ("config", b.layout.json),
    ("validate_expression", .bool b.validate)]

def RuleBody.json (b : RuleBody) : Json :=
  .object [("expression", finite b.expression), ("outputs", textsJson b.outputs)]

def RulesTableBody.json (b : RulesTableBody) : Json :=
  .object [("rules", .list (b.rules.map (·.json))), ("config", b.layout.json),
    ("validate_expression", .bool b.validate)]

def DecodeBody.json (b : DecodeBody) : Json :=
  .object [("csv", textJson b.csv), ("base64", textJson b.base64)]

def drawnInputJson (i : DrawnInput) : Json :=
  .object [("label", .text i.label), ("expression", .text i.expression), ("type", .text i.typeRef)]

def drawnOutputJson (o : DrawnOutput) : Json :=
  .object [("label", .text o.label), ("name", .text o.name), ("type", .text o.typeRef)]

def drawnRuleJson (r : DrawnRule) : Json :=
  .object [("input_entries", textsJson r.inputs), ("output_entries", textsJson r.outputs)]

def drawnTableJson (t : DrawnTable) : Json :=
  .object [("decision_name", .text t.decisionName), ("hit_policy", .text t.hitPolicy.text),
    ("inputs", .list (t.inputs.map drawnInputJson)),
    ("outputs", .list (t.outputs.map drawnOutputJson)),
    ("rules", .list (t.rules.map drawnRuleJson))]

end RuleTables.Request
