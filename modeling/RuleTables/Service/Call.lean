import RuleTables.Json.Printer
import RuleTables.Text.Blank
import RuleTables.Text.LowerCase
import RuleTables.Text.Pieces
import RuleTables.Text.Utf8

namespace RuleTables.Service

structure Call where
  method : String
  /-- The path without the query. -/
  path : String
  headers : List (String × String)
  body : List UInt8
  /-- The address that the request comes from. -/
  client : String

def pathOctets : List Char → List UInt8
  | [] => []
  | '%' :: a :: b :: cs =>
    match Text.hexValue? a, Text.hexValue? b with
    | some h, some l => .ofNat (16 * h + l) :: pathOctets cs
    | _, _ => 0x25 :: pathOctets (a :: b :: cs)
  | c :: cs => Text.Utf8.encodeChar c ++ pathOctets cs

/-- The path of a reference, without its query and with every character plain. -/
def pathOf (reference : String) : String :=
  let path := reference.toList.takeWhile fun c => c ≠ '?' && c ≠ '#'
  String.ofList ((Text.Utf8.decode (pathOctets path)).toOption.getD path)

def Call.header? (c : Call) (name : String) : Option String :=
  (c.headers.find? (Text.lower ·.1 = Text.lower name)).map (·.2)

structure Answer where
  status : Nat
  headers : List (String × String)
  body : String

namespace Answer

def ofJson (status : Nat) (v : Json) : Answer :=
  ⟨status, [("content-type", "application/json")], v.render Json.compact⟩

def detail (status : Nat) (message : String) : Answer :=
  ofJson status (.object [("detail", .text message)])

def problem (status : Nat) (name message : String) (details : Json) : Answer :=
  ofJson status
    (.object [("error", .text name), ("message", .text message), ("details", details)])

def document (text : String) : Answer :=
  ⟨200, [("content-disposition", "attachment; filename=decision.dmn"),
    ("content-type", "application/xml")], text⟩

/-- What an answer to an exception says; the exception itself is not told. -/
def failure : Answer :=
  problem 500 "InternalServerError" "An unexpected error occurred" (.object [])

end Answer

def isJsonType (contentType : String) : Bool :=
  let plain := Text.lower (Text.trim ((Text.pieces ';' contentType).headD ""))
  match Text.pieces '/' plain with
  | ["application", kind] => kind = "json" || "+json".toList.isSuffixOf kind.toList
  | _ => false

end RuleTables.Service
