import RuleTables.Json.Printer
import RuleTables.Log.Basic
import RuleTables.Log.Clock
import RuleTables.Log.Template

namespace RuleTables.Log

inductive Raised where
  | nothing
  | exception (kind : FaultClass) (message : String)
  | unknown
  | value (v : Json)

structure Record where
  channel : Json
  level : Json
  created : Json
  template : Json
  arguments : Option Template.Arguments
  raised : Raised
  path : Json
  line : Json
  function : Json
  /-- What stands in the place of the message, if anything does. -/
  messageless : Option Json
  extra : Json.Members

def levels : List Level := [.debug, .info, .warning, .error, .critical]

def levelName (n : Int) : String :=
  if n = 0 then "NOTSET"
  else ((levels.find? (·.number = n)).map (·.name)).getD ("Level " ++ toString n)

/-- One object with members is an argument that has names. -/
def argumentsOf : List Json → Option Template.Arguments
  | [] => none
  | [.object (m :: ms)] => some (.single (.object (m :: ms)))
  | vs => some (.row vs)

def reserved : List String :=
  ["name", "msg", "args", "levelname", "levelno", "pathname", "filename", "module", "lineno",
    "funcName", "created", "msecs", "relativeCreated", "thread", "threadName", "processName",
    "process", "taskName", "getMessage", "exc_info", "exc_text", "stack_info"]

namespace Record

def set (r : Record) (name : String) (v : Json) : Record :=
  match name with
  | "name" => { r with channel := v }
  | "levelname" => { r with level := v }
  | "created" => { r with created := v }
  | "msg" => { r with template := v }
  | "args" => { r with arguments := if v.isVoid then none else some (.single v) }
  | "exc_info" => { r with raised := if v.isVoid then .nothing else .value v }
  | "pathname" => { r with path := v }
  | "lineno" => { r with line := v }
  | "funcName" => { r with function := v }
  | "getMessage" => { r with messageless := some v }
  | name =>
    if reserved.contains name then r else { r with extra := Assoc.put name v r.extra }

def message (r : Record) : Except Report String :=
  match r.messageless with
  | some v => .error (.make .type ("'" ++ v.typeName ++ "' object is not callable") .null)
  | none =>
    match r.arguments with
    | none => .ok r.template.display
    | some arguments => (Template.fill r.template.display arguments).mapError (·.report)

def exceptionMember (kind message : Json) : Json.Members :=
  [("exception", .object [("type", kind), ("message", message)])]

def exceptionOfValue : Json → Except Report Json.Members
  | .list (kind :: more) =>
    if !kind.isVoid then
      .error (.make .member ("'" ++ kind.typeName ++ "' object has no attribute '__name__'") .null)
    else
      match more with
      | [] => .error (.make (.other "IndexError") "list index out of range" .null)
      | m :: _ => .ok (exceptionMember .null (if m.isVoid then .null else .text m.display))
  | .text _ => .error (.make .member "'str' object has no attribute '__name__'" .null)
  | .object _ => .error ⟨.key, "0", .null⟩
  | v => .error (.make .type ("'" ++ v.typeName ++ "' object is not subscriptable") .null)

def exception (r : Record) : Except Report Json.Members :=
  match r.raised with
  | .nothing => .ok []
  | .exception kind message =>
    .ok (exceptionMember (.text kind.name) (.text (kind.shown message)))
  | .unknown => .ok (exceptionMember .null .null)
  | .value v => exceptionOfValue v

def object (r : Record) (requestId : String) : Except Report Json := do
  let created ← (Clock.text r.created).mapError (·.report)
  let message ← r.message
  let exception ← r.exception
  return .object ([("timestamp", .text created), ("level", r.level), ("logger", r.channel),
      ("message", .text message)] ++
    (if requestId.isEmpty then [] else [("request_id", .text requestId)]) ++ exception ++
    [("file", r.path), ("line", r.line), ("function", r.function)] ++
    (if r.extra.isEmpty then [] else [("extra", .object r.extra)]))

/-- The record as one line; the identifier of the request is left out when it is empty. -/
def write (r : Record) (requestId : String) : Except Report String :=
  (r.object requestId).map (·.render Json.spaced)

end Record

/-- The lowest level that a name lets through; an unknown name stands for `INFO`. -/
def threshold (name : String) : Except Report Int :=
  match Text.upper name with
  | "NOTSET" => .ok 0
  | "WARN" => .ok 30
  | "FATAL" => .ok 50
  | "BASIC_FORMAT" =>
    .error (.make .value "Unknown level: '%(levelname)s:%(name)s:%(message)s'" .null)
  | s => .ok (((levels.find? (·.name = s)).map (·.number)).getD 20)

end RuleTables.Log
