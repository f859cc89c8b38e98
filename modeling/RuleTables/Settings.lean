import RuleTables.Fault
import RuleTables.Request.Field
import RuleTables.Text.Pieces

namespace RuleTables

inductive Environment where
  | local
  | test
  | prod
  deriving DecidableEq

def Environment.name : Environment → String
  | .local => "local"
  | .test => "test"
  | .prod => "prod"

def Environment.all : List Environment := [.local, .test, .prod]

/-- Each setting comes from a value that is given, else from a variable of the environment, else it
has its usual value. -/
structure Settings where
  environment : Environment
  name : String
  logLevel : String
  observed : Bool
  structuredLogs : Bool
  requestIdHeader : String
  metricsToken : Option String
  origins : String
  hitPolicy : HitPolicy
  decisionName : String
  pretty : Bool
  maxRules : Int

namespace Settings

open Request

def usual : Settings where
  environment := .local
  name := "dmn-rules"
  logLevel := "INFO"
  observed := true
  structuredLogs := true
  requestIdHeader := "X-Request-ID"
  metricsToken := none
  origins := "http://localhost:3000,http://localhost:5173"
  hitPolicy := .first
  decisionName := "Business Rule Decision"
  pretty := true
  maxRules := 500

def originList (s : Settings) : List String :=
  ((Text.pieces ',' s.origins).map Text.trim).filter (!·.isEmpty)

def fieldNames : List String :=
  ["app_env", "app_name", "app_log_level", "observability_enabled",
    "observability_structured_logs", "observability_request_id_header", "metrics_token",
    "cors_origins", "dmn_hit_policy", "dmn_decision_name", "dmn_pretty_print", "dmn_max_rules"]

/-- The last variable of the environment that has the name in any case. -/
def environmentValue? (environment : List (String × String)) (name : String) : Option Json :=
  (environment.reverse.find? (Text.lower ·.1 = name)).map (.text ·.2)

def valuesOf (given : Json.Members) (environment : List (String × String)) : Json.Members :=
  fieldNames.filterMap fun n =>
    ((Assoc.find? n given).or (environmentValue? environment n)).map (n, ·)

def oneOf (name : String) (choices : List String) (v : Json) : String :=
  name ++ " must be one of " ++ Text.quotedList choices ++ ", got '" ++ v.display ++ "'"

def environmentField (v : Json) : Checked Environment :=
  match Environment.all.find? (·.name = Text.lower v.display) with
  | some e => .good e
  | none => .fail (.refused (oneOf "app_env" (Environment.all.map (·.name)) v)) v

def hitPolicyField (v : Json) : Checked HitPolicy :=
  match HitPolicy.ofSpelling? (Text.upper (Text.trim v.display)) with
  | some p => .good p
  | none => .fail (.refused (oneOf "dmn_hit_policy" (HitPolicy.all.map (·.text)) v)) v

def maxRulesField (v : Json) : Checked Int :=
  (integer v).andThen fun n =>
    if n < 1 then .fail (.refused "dmn_max_rules must be at least 1") v else .good n

def fieldsOf (ms : Json.Members) : Checked Settings :=
  Settings.mk <$> field ["app_env"] environmentField (some usual.environment) ms
    <*> field ["app_name"] text (some usual.name) ms
    <*> field ["app_log_level"] text (some usual.logLevel) ms
    <*> field ["observability_enabled"] truth (some usual.observed) ms
    <*> field ["observability_structured_logs"] truth (some usual.structuredLogs) ms
    <*> field ["observability_request_id_header"] text (some usual.requestIdHeader) ms
    <*> field ["metrics_token"] (optional text) (some usual.metricsToken) ms
    <*> field ["cors_origins"] text (some usual.origins) ms
    <*> field ["dmn_hit_policy"] hitPolicyField (some usual.hitPolicy) ms
    <*> field ["dmn_decision_name"] text (some usual.decisionName) ms
    <*> field ["dmn_pretty_print"] truth (some usual.pretty) ms
    <*> field ["dmn_max_rules"] maxRulesField (some usual.maxRules) ms

def isLocalOrigin (origin : String) : Bool :=
  Text.holds origin "localhost" || Text.holds origin "127.0.0.1"

/-- What must not be so in production. -/
def productionFault? (s : Settings) : Option String :=
  if s.observed && (s.metricsToken.getD "").length < 16 then
    some "METRICS_TOKEN must be set and at least 16 characters in production"
  else
    (s.originList.find? isLocalOrigin).map fun origin =>
      "CORS origins must not contain localhost in production: " ++ origin

def check (ms : Json.Members) (s : Settings) : Checked Settings :=
  match s.environment, s.productionFault? with
  | .prod, some reason => .fail (.refused reason) (.object ms)
  | _, _ => .good s

/-- The name of the environment must be text, or nothing else is read. -/
def read (given : Json.Members) (environment : List (String × String)) :
    Except Fault (Checked Settings) :=
  let ms := valuesOf given environment
  match Assoc.find? "app_env" ms with
  | none | some (.text _) => .ok ((fieldsOf ms).andThen (check ms))
  | some v => .error (.notLetters v.typeName)

def json (s : Settings) : Json :=
  .object [("app_env", .text s.environment.name), ("app_name", .text s.name),
    ("app_log_level", .text s.logLevel), ("observability_enabled", .bool s.observed),
    ("observability_structured_logs", .bool s.structuredLogs),
    ("observability_request_id_header", .text s.requestIdHeader),
    ("metrics_token", (s.metricsToken.map Json.text).getD .null),
    ("cors_origins", .text s.origins), ("dmn_hit_policy", .text s.hitPolicy.text),
    ("dmn_decision_name", .text s.decisionName), ("dmn_pretty_print", .bool s.pretty),
    ("dmn_max_rules", .int s.maxRules)]

end Settings

end RuleTables
