import RuleTables.Service.Work
import RuleTables.Text.Latin

namespace RuleTables.Service

structure Response where
  answer : Answer
  /-- The kind of what was raised after the answer. -/
  raised : Option FaultClass
  log : List Log.Entry
  meters : Meters

structure Context where
  method : String
  path : String
  requestId : String

namespace Context

def line (x : Context) : Line := ⟨x.method, x.path⟩

def fields (x : Context) : Json.Members :=
  [("path", .text x.path), ("request_id", .text x.requestId), ("method", .text x.method)]

/-- Its own name, or a new one; where nothing is observed only a name that was given counts. -/
def identifier (s : Settings) (fresh : String) (c : Call) : String :=
  if s.observed then
    match c.header? s.requestIdHeader with
    | none | some "" => fresh
    | some given => given
  else (c.header? "X-Request-ID").getD ""

def of (s : Settings) (fresh : String) (c : Call) : Context :=
  ⟨c.method, c.path, identifier s fresh c⟩

def bare (c : Call) : Context :=
  ⟨c.method, c.path, (c.header? "X-Request-ID").getD ""⟩

def requestChannel : String := "dmn_rules.request"

def isQuiet (x : Context) : Bool :=
  [Target.health, Target.meters].any fun t => t.path.toList.isPrefixOf x.path.toList

def title (x : Context) : String := x.method ++ " " ++ x.path

def answeredLog (x : Context) (status : Nat) : List Log.Entry :=
  if x.isQuiet then []
  else [⟨.info, requestChannel, x.title,
    [("method", .text x.method), ("route", .text x.path), ("status_code", .int status)]⟩]

def raisedLog (x : Context) (r : Report) : Log.Entry :=
  ⟨.error, requestChannel, x.title ++ " - " ++ r.kind.name ++ ": " ++ r.message,
    [("method", .text x.method), ("route", .text x.path), ("status_code", .int 500),
      ("error_type", .text r.kind.name)]⟩

def unhandledLog (x : Context) (r : Report) : Log.Entry :=
  ⟨.error, Work.channel, "Unhandled exception: " ++ r.message, x.fields⟩

def faultLog (x : Context) (r : Report) : Log.Entry :=
  ⟨if 500 ≤ r.kind.status then .error else .warning, Work.channel,
    r.kind.name ++ ": " ++ r.message, ("details", r.details) :: x.fields⟩

def deniedLog (x : Context) (status : Nat) (message : String) : List Log.Entry :=
  if 500 ≤ status then
    [⟨.error, Work.channel, "HTTP " ++ toString status ++ ": " ++ message, x.fields⟩]
  else []

end Context

/-- An answer that tells a value; it cannot be written if a real in it is not finite. -/
def tell (v : Json) (a : Answer) : Except Report Answer :=
  if v.isStrict then .ok a else .error Fault.notStrict.report

def settle (x : Context) : Trouble → Except Report Answer × List Log.Entry
  | .issues is =>
    let v := Json.object [("detail", .list (is.map (·.json)))]
    (tell v (.ofJson 422 v), [])
  | .unreadable => (.ok (.detail 400 "There was an error parsing the body"), [])
  | .fault f =>
    let r := f.report
    if r.kind.isDomain then
      (tell r.details (.problem r.kind.status r.kind.name r.message r.details), [x.faultLog r])
    else (.error r, [])
  | .denied status message =>
    (.ok (.problem status "HTTPException" message (.object [])), x.deniedLog status message)
  | .raised r => (.error r, [])

def finish (x : Context) (w : Work) : Except Report Answer × List Log.Entry :=
  match w.outcome with
  | .ok a => (.ok a, w.log)
  | .error t => ((settle x t).1, w.log ++ (settle x t).2)

def observedEvents (s : Settings) (es : List Event) : List Event :=
  if s.observed then es else []

/-- The answer to a request for the heads alone has no body. -/
def Answer.forMethod (method : String) (a : Answer) : Answer :=
  if method = "HEAD" then { a with body := "" } else a

/-- Where the service is observed, answers carry the identifier of their request. -/
def Answer.identify (s : Settings) (x : Context) (a : Answer) : Answer :=
  if s.observed then { a with headers := a.headers ++ [(s.requestIdHeader, x.requestId)] } else a

/-- Observed, a request is asked first for the header of its identifier, whose name must have an
octet for each of its small letters. -/
def nameReport? (s : Settings) : Option Report :=
  if s.observed then
    (Text.Latin.fault? (Text.lower s.requestIdHeader).toList).map (.make .encoding ·.message .null)
  else none

/-- Answers a request that can be asked for its identifier. -/
def exchange (s : Settings) (m : Meters) (fresh : String) (c : Call) : Response :=
  let x := Context.of s fresh c
  let started := m.run (observedEvents s [.started x.line])
  let w := Work.ofCall s started c
  let worked := started.run (w.generation.toList.map eventOf)
  match finish x w with
  | (.ok a, log) =>
    ⟨(a.identify s x).forMethod c.method, none,
      log ++ (if s.observed then x.answeredLog a.status else []),
      worked.run (observedEvents s [.answered x.line a.status])⟩
  | (.error r, log) =>
    ⟨Answer.failure.forMethod c.method, some r.kind,
      log ++ (if s.observed then [x.raisedLog r] else []) ++ [x.unhandledLog r],
      worked.run (observedEvents s [.raised x.line r.kind.name])⟩

/-- Answers a request that began with the given meters; `fresh` is a name for it. -/
def respond (s : Settings) (m : Meters) (fresh : String) (c : Call) : Response :=
  match nameReport? s with
  | some r =>
    ⟨Answer.failure.forMethod c.method, some r.kind, [(Context.bare c).unhandledLog r], m⟩
  | none => exchange s m fresh c

end RuleTables.Service
