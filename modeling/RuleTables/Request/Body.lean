import RuleTables.Document.Drawn
import RuleTables.Expr.Outline
import RuleTables.Expr.Tree
import RuleTables.Request.Field
import RuleTables.Table.Basic

namespace RuleTables.Request

/-- The JSON tree of an expression, of which only shape and size are checked here. -/
def tree (v : Json) : Checked Json :=
  match v with
  | .object ms =>
    match Outline.treeFault? (.object ms) with
    | some f => .fail (.refused f.message) v
    | none => .good (.object ms)
  | v => .fail .notMembers v

structure OutputBody where
  name : String
  label : Option String
  kind : Kind
  value : String

def OutputBody.read (posted : Bool) : Json → Checked OutputBody :=
  record posted "OutputColumnSchema" fun ms =>
    OutputBody.mk <$> field ["name"] nonEmptyText none ms
      <*> field ["label"] (optional text) (some none) ms
      <*> field ["typeRef", "type_ref"] Request.kind (some .string) ms
      <*> field ["defaultValue", "default_value"] text (some "") ms

def readComputedInput (posted : Bool) : Json → Checked ComputedInput :=
  record posted "ComputedInputSchema" fun ms =>
    ComputedInput.mk <$> field ["name"] nonEmptyText none ms
      <*> field ["label"] text none ms
      <*> field ["expression"] nonEmptyText none ms
      <*> field ["typeRef", "type_ref"] Request.kind (some .boolean) ms

/-- What a request says about the layout of its table; all of it may be left out. -/
structure LayoutBody where
  definitionsId : Option String
  definitionsName : Option String
  decisionId : Option String
  decisionName : Option String
  tableId : Option String
  hitPolicy : Option HitPolicy
  kinds : List (String × Kind)
  labels : List (String × String)
  outputs : List OutputBody
  computed : List ComputedInput

def LayoutBody.empty : LayoutBody :=
  ⟨none, none, none, none, none, none, [], [], [], []⟩

def LayoutBody.read (posted : Bool) : Json → Checked LayoutBody :=
  record posted "RenderConfigSchema" fun ms =>
    LayoutBody.mk <$> field ["definitionsId", "definitions_id"] (optional text) (some none) ms
      <*> field ["definitionsName", "definitions_name"] (optional text) (some none) ms
      <*> field ["decisionId", "decision_id"] (optional text) (some none) ms
      <*> field ["decisionName", "decision_name"] (optional text) (some none) ms
      <*> field ["tableId", "table_id"] (optional text) (some none) ms
      <*> field ["hitPolicy", "hit_policy"] (optional Request.hitPolicy) (some none) ms
      <*> field ["parameterTypes", "parameter_types"] (members Request.kind) (some []) ms
      <*> field ["parameterLabels", "parameter_labels"] (members text) (some []) ms
      <*> field ["outputs"] (list (OutputBody.read posted)) (some []) ms
      <*> field ["computedInputs", "computed_inputs"] (list (readComputedInput posted)) (some []) ms

structure ExpressionBody where
  expression : Json
  lead : String

def ExpressionBody.read (posted : Bool) : Json → Checked ExpressionBody :=
  record posted "ExpressionRequest" fun ms =>
    ExpressionBody.mk <$> field ["expression"] tree none ms
      <*> field ["variablePrefix", "variable_prefix"] text (some "") ms

structure ExpressionTableBody where
  expression : Json
  layout : LayoutBody
  validate : Bool

def ExpressionTableBody.read (posted : Bool) : Json → Checked ExpressionTableBody :=
  record posted "ExpressionDmnRequest" fun ms =>
    ExpressionTableBody.mk <$> field ["expression"] tree none ms
      <*> field ["config"] (LayoutBody.read posted) (some .empty) ms
      <*> field ["validate", "validate_expression"] truth (some true) ms

structure RuleBody where
  expression : Json
  outputs : List String

def RuleBody.read (posted : Bool) : Json → Checked RuleBody :=
  record posted "RuleSchema" fun ms =>
    RuleBody.mk <$> field ["expression"] tree none ms
      <*> field ["outputs"] (list text) (some []) ms

structure RulesTableBody where
  rules : List RuleBody
  layout : LayoutBody
  validate : Bool

def RulesTableBody.read (posted : Bool) : Json → Checked RulesTableBody :=
  record posted "RulesDmnRequest" fun ms =>
    RulesTableBody.mk <$> field ["rules"] (nonEmptyList (RuleBody.read posted)) none ms
      <*> field ["config"] (LayoutBody.read posted) (some .empty) ms
      <*> field ["validate", "validate_expression"] truth (some true) ms

def readDrawnInput (posted : Bool) : Json → Checked DrawnInput :=
  record posted "TableInputSchema" fun ms =>
    DrawnInput.mk <$> field ["label"] text none ms
      <*> field ["expression"] text none ms
      <*> field ["type"] text (some "string") ms

def readDrawnOutput (posted : Bool) : Json → Checked DrawnOutput :=
  record posted "TableOutputSchema" fun ms =>
    DrawnOutput.mk <$> field ["label"] text none ms
      <*> field ["name"] text none ms
      <*> field ["type"] text (some "string") ms

def readDrawnRule (posted : Bool) : Json → Checked DrawnRule :=
  record posted "TableRuleSchema" fun ms =>
    DrawnRule.mk <$> field ["inputEntries", "input_entries"] (list text) (some []) ms
      <*> field ["outputEntries", "output_entries"] (list text) (some []) ms

def readDrawnTable (posted : Bool) : Json → Checked DrawnTable :=
  record posted "DecisionTableRequestSchema" fun ms =>
    (fun name policy inputs outputs rules => DrawnTable.mk name inputs outputs rules policy) <$>
      field ["decisionName", "decision_name"] nonEmptyText none ms
      <*> field ["hitPolicy", "hit_policy"] Request.hitPolicy (some .first) ms
      <*> field ["inputs"] (list (readDrawnInput posted)) (some []) ms
      <*> field ["outputs"] (list (readDrawnOutput posted)) (some []) ms
      <*> field ["rules"] (list (readDrawnRule posted)) (some []) ms

/-- Text to decode, in exactly one of two forms. -/
structure DecodeBody where
  csv : Option String
  base64 : Option String

def DecodeBody.read (posted : Bool) (v : Json) : Checked DecodeBody :=
  (record posted "DecodeRequest" (fun ms =>
    DecodeBody.mk <$> field ["csv"] (optional text) (some none) ms
      <*> field ["base64"] (optional text) (some none) ms) v).andThen fun b =>
    if b.csv.isNone = b.base64.isNone then
      .fail (.refused "Provide exactly one of 'csv' or 'base64'") v
    else .good b

end RuleTables.Request
