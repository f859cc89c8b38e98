import RuleTables.Expr.Inline
import RuleTables.Expr.Readable
import RuleTables.Expr.Record
import RuleTables.Request.Document
import RuleTables.Service.Exposition
import RuleTables.Service.Posted
import RuleTables.Service.Route

namespace RuleTables.Service

open Request

/-- What a target does with a request: it comes to an answer or to a trouble, logs, and may run the
generation of a document. -/
structure Work where
  outcome : Except Trouble Answer
  generation : Option Generation
  log : List Log.Entry

namespace Work

def done (a : Answer) : Work := ⟨.ok a, none, []⟩

def failed (t : Trouble) : Work := ⟨.error t, none, []⟩

def withBody {α : Type} (read : Json → Checked α) (c : Call) (go : α → Work) : Work :=
  match c.read read with
  | .ok a => go a
  | .error t => failed t

def troubleOf : Refusal → Trouble
  | .issues _ is => .issues is
  | .fault f => .fault f

def ofOutcome (o : Outcome) : Work :=
  ⟨(o.answer.mapError troubleOf).map .document, o.generation, o.log⟩

def ofView (log : List Log.Entry) : Except Fault Json → Work
  | .ok v => ⟨.ok (.ofJson 200 v), none, log⟩
  | .error f => ⟨.error (.fault f), none, log⟩

/-- Rules are counted before they are read. -/
def rulesTable (s : Settings) (b : RulesTableBody) : Work :=
  if s.maxRules < b.rules.length then failed (.fault (.tooManyRules b.rules.length s.maxRules))
  else ofOutcome (rulesDocument s true b)

def findingsJson (f : Findings) : Json :=
  .object [("valid", .bool f.isValid), ("errors", textsJson f.errors),
    ("warnings", textsJson f.warnings)]

def validate (b : ExpressionBody) : Work :=
  match Expr.read false b.expression with
  | .error f => failed (.fault f)
  | .ok e => ofView e.validate.log (.ok (findingsJson e.validate))

def rowJson (r : Row) : Json :=
  .object (r.entries.map fun entry => (entry.1, .text entry.2))

def renderedJson (b : ExpressionBody) : Except Fault Json := do
  let e ← Expr.read false b.expression
  let parameters ← Expr.parameters [e]
  let rows ← e.compileRows parameters []
  return .object [("readable", .text (← e.readable)),
    ("java", .text (← Inline.java.render b.lead e)),
    ("feel", .text (← Inline.feel.render b.lead e)), ("csv", .text (← e.encodeText)),
    ("base64", .text (← e.encodeBase64)), ("parameters", textsJson parameters),
    ("rows", .list (rows.map rowJson))]

def decodedJson (e : Expr) : Except Fault Json := do
  return .object [("expression", ← e.toTree), ("readable", .text (← e.readable))]

/-- Decodes records, or their Base64 form if there are none. -/
def decode (b : DecodeBody) : Work :=
  match b.csv, b.base64 with
  | some s, _ => ofView (Expr.decodeTextLog s) (decodedJson (Expr.decodeText s))
  | none, some s => ofView (Expr.decodeBase64Log s) (Expr.decodeBase64 s >>= decodedJson)
  | none, none => ofView [] (decodedJson .alwaysTrue)

def isAscii (s : String) : Bool :=
  s.toList.all (·.toNat < 128)

def channel : String := "dmn_rules.main"

def untold : String :=
  "Metrics token not configured. Set METRICS_TOKEN environment variable."

/-- The meters are shown to those who have the token; tokens are compared in ASCII only. -/
def meters (s : Settings) (m : Meters) (c : Call) : Work :=
  let token := s.metricsToken.getD ""
  let given := (c.header? "X-Metrics-Token").getD ""
  if token.isEmpty then
    ⟨.error (.denied 500 untold), none,
      [⟨.error, channel, "Metrics endpoint accessed but METRICS_TOKEN not configured", []⟩]⟩
  else if !isAscii token || !isAscii given then
    failed (.raised
      (.make .type "comparing strings with non-ASCII characters is not supported" .null))
  else if given = token then
    done ⟨200, [("content-type", "text/plain; version=0.0.4; charset=utf-8")], m.text⟩
  else
    ⟨.error (.denied 403 "Invalid metrics token"), none,
      [⟨.warning, channel, "Unauthorized metrics access attempt",
        [("client_ip", .text c.client)]⟩]⟩

def ofTarget (s : Settings) (m : Meters) (c : Call) : Target → Work
  | .health => done (.ofJson 200 (.object [("ok", .bool true)]))
  | .table => withBody (readDrawnTable true) c fun t => ofOutcome (drawnDocument s t)
  | .expressionTable =>
    withBody (ExpressionTableBody.read true) c fun b => ofOutcome (expressionDocument s b)
  | .rulesTable => withBody (RulesTableBody.read true) c (rulesTable s)
  | .validate => withBody (ExpressionBody.read true) c validate
  | .render => withBody (ExpressionBody.read true) c fun b => ofView [] (renderedJson b)
  | .decode => withBody (DecodeBody.read true) c decode
  | .meters => meters s m c

/-- What becomes of a request; one that goes nowhere is answered at once. -/
def ofCall (s : Settings) (m : Meters) (c : Call) : Work :=
  match Route.find s.observed c.method c.path with
  | .target t => ofTarget s m c t
  | .wrongMethod allowed =>
    let a := Answer.detail 405 "Method Not Allowed"
    done { a with headers := ("allow", Text.join ", " allowed) :: a.headers }
  | .moved path => done ⟨307, [("location", path)], ""⟩
  | .unknown => done (.detail 404 "Not Found")

end Work

end RuleTables.Service
