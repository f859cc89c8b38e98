import RuleTables.Fault
import RuleTables.Request.Issue
import RuleTables.Service.Call
import RuleTables.Text.Encoding

namespace RuleTables.Service

/-- Why a request is not answered as it asked. -/
inductive Trouble where
  | issues (issues : List Request.Issue)
  | unreadable
  | fault (f : Fault)
  | denied (status : Nat) (message : String)
  | raised (r : Report)

/-- A body whose type does not say that it is JSON is not read, and is no record. -/
inductive Posted where
  | nothing
  | value (v : Json)
  | plain (s : String)

namespace Posted

/-- JSON that cannot be decoded, or has an integer that is too long, is unreadable; other JSON that
is wrong is an issue at its offset. -/
def ofJson (octets : List UInt8) : Except Trouble Posted :=
  match Text.decodeDetected octets with
  | none => .error .unreadable
  | some cs =>
    match Json.parseChars cs with
    | .ok .null => .ok .nothing
    | .ok v => .ok (.value v)
    | .error f =>
      match f.cause with
      | .longInteger _ => .error .unreadable
      | cause =>
        .error (.issues [⟨[.name "body", .index f.offset], .notJson cause.message, .object []⟩])

def ofPlain (octets : List UInt8) : Except Trouble Posted :=
  match Text.Utf8.decode octets with
  | .ok cs => .ok (.plain (String.ofList cs))
  | .error f => .error (.raised (.make .decoding f.message .null))

def read (c : Call) : Except Trouble Posted :=
  if c.body.isEmpty then .ok .nothing
  else if isJsonType ((c.header? "content-type").getD "") then ofJson c.body
  else ofPlain c.body

variable {α : Type}

/-- Reads what was posted; the places of its issues begin at the body. -/
def check (read : Json → Request.Checked α) (p : Posted) : Request.Checked α :=
  let checked : Request.Checked α := match p with
    | nothing => .fail .missing .null
    | value v => read v
    | plain s => .fail .notFields (.text s)
  checked.within (.name "body")

end Posted

variable {α : Type}

def Call.read (read : Json → Request.Checked α) (c : Call) : Except Trouble α := do
  match (← Posted.read c).check read with
  | .good a => return a
  | .bad is => throw (.issues is)

end RuleTables.Service
