import RuleTables.Cli.Arguments
import RuleTables.Cli.Path
import RuleTables.Request.Document
import RuleTables.Text.Utf8

namespace RuleTables.Cli

/-- What the command does: print to either stream and end with a code. Before it prints, a document
may be written to a file. -/
structure Effect where
  code : Nat
  out : String
  err : String
  file : Option (String × String)

def plainLines : List Char → List Char
  | [] => []
  | '\r' :: '\n' :: cs => '\n' :: plainLines cs
  | '\r' :: cs => '\n' :: plainLines cs
  | c :: cs => c :: plainLines cs

def unreadable (path reason : String) : Effect :=
  ⟨2, "", "[ERROR] Cannot read " ++ path ++ ": " ++ reason ++ "\n", none⟩

def faultLines (f : Fault) : String :=
  let findings := match f with
    | .findings errors _ | .ruleFindings _ errors _ => errors
    | _ => []
  String.join (("[ERROR] " ++ f.message ++ "\n") :: findings.map ("   - " ++ · ++ "\n"))

def issuesLine (model : String) (count : Nat) : String :=
  "[ERROR] Invalid request: " ++ toString count ++
    (if count = 1 then " validation error for " else " validation errors for ") ++ model ++ "\n"

def finish (output : Option String) (answer : Except Request.Refusal String) :
    Except Report Effect :=
  match answer with
  | .error (.issues model is) => .ok ⟨1, "", issuesLine model is.length, none⟩
  | .error (.fault f) =>
    if f.kind.isDomain then .ok ⟨1, "", faultLines f, none⟩ else .error f.report
  | .ok text =>
    match output with
    | none => .ok ⟨0, text, "", none⟩
    | some path => .ok ⟨0, "[OK] DMN written: " ++ path ++ "\n", "", some (path, text)⟩

def readValue (path : String) (octets : List UInt8) : Except Report (Except Effect Json) :=
  match Text.Utf8.decode octets with
  | .error f => .error (.make .decoding f.message .null)
  | .ok cs =>
    match Json.parse (String.ofList (plainLines cs)) with
    | .ok v => .ok (.ok v)
    | .error f =>
      let fault := Fault.json f
      if fault.kind.isDomain then .ok (.error (unreadable path f.message))
      else .error fault.report

structure Run where
  effect : Except Report Effect
  log : List Log.Entry

/-- The command on the content of its file. It ends with 0 when there is a document, with 1 when the
request was refused, and with 2 when the file could not be read. -/
def run (s : Settings) (o : Options) (content : Except FileFault (List UInt8)) : Run :=
  let path := plainPath (o.input.getD "")
  match content with
  | .error f => ⟨.ok (unreadable path (f.message path)), []⟩
  | .ok octets =>
    match readValue path octets with
    | .error r => ⟨.error r, []⟩
    | .ok (.error e) => ⟨.ok e, []⟩
    | .ok (.ok v) =>
      let outcome := Request.buildDocument s (Request.Mode.ofWord o.mode) v
      ⟨finish (o.output.map plainPath) outcome.answer, outcome.log⟩

end RuleTables.Cli
