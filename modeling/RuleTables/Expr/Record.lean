import RuleTables.Expr.Basic
import RuleTables.Log.Basic
import RuleTables.Text.Base64
import RuleTables.Text.Pieces
import RuleTables.Text.Utf8

namespace RuleTables

/-- One condition as a record of six fields. Nesting is lost but for further marks on the records,
and reading gives one flat composite of conditions. -/
structure FlatRecord where
  connective : String
  openMark : String
  parameter : String
  symbol : String
  value : String
  closeMark : String
  deriving DecidableEq

namespace FlatRecord

def toText (r : FlatRecord) : String :=
  Text.join "," [r.connective, r.openMark, r.parameter, r.symbol, r.value, r.closeMark]

/-- All that stands between the first four fields and the last one is the value, with its
commas. -/
def parse (s : String) : Option FlatRecord :=
  match Text.pieces ',' s with
  | connective :: openMark :: parameter :: symbol :: value :: next :: more =>
    let tail := value :: next :: more
    some ⟨Text.trim connective, openMark, Text.trim parameter, Text.trim symbol,
      Text.join "," tail.dropLast, tail.getLastD ""⟩
  | _ => none

/-- The record that stands for a value and no condition. -/
def sentinel (value : String) : FlatRecord :=
  ⟨"", "(", "", "", value, ")"⟩

def ofCondition (c : Condition) (connective : Option Connective) : FlatRecord :=
  ⟨(connective.map (·.symbol)).getD "", if c.grouped then "(" else " ", c.parameter,
    (c.operator.map (·.symbol)).getD "", c.value, if c.grouped then ")" else " "⟩

def closeLast : List FlatRecord → List FlatRecord
  | [] => []
  | [r] => [{ r with closeMark := r.closeMark ++ ")" }]
  | r :: s :: rs => r :: closeLast (s :: rs)

def enclose : List FlatRecord → List FlatRecord
  | [] => []
  | r :: rs => closeLast ({ r with openMark := "(" ++ r.openMark } :: rs)

mutual

/-- The records of an expression that is joined to what comes before by a connective. Constants
have none. -/
def ofExpr (connective : Option Connective) : Expr → List FlatRecord
  | .condition c => [ofCondition c connective]
  | .composite ns => ofFirst connective ns
  | .group e => enclose (ofExpr connective e)
  | .constant _ _ => []
  | .foreign _ => []

def ofFirst (connective : Option Connective) : List (Node Expr) → List FlatRecord
  | [] => []
  | ⟨_, e⟩ :: ns => ofExpr connective e ++ ofLater ns

def ofLater : List (Node Expr) → List FlatRecord
  | [] => []
  | ⟨c, e⟩ :: ns => ofExpr c e ++ ofLater ns

end

/-- The operator of a record: `EQUALS` for an unknown symbol. -/
def operator (r : FlatRecord) : Operator :=
  (Operator.ofSymbol? r.symbol).getD .equals

/-- The connective of a record: `and` for a blank or unknown one. -/
def joiner (r : FlatRecord) : Connective :=
  ((Connective.ofSymbol? r.connective).getD none).getD .and

def condition (r : FlatRecord) : Condition :=
  .of r.parameter (some r.operator) r.value none (r.openMark.toList.contains '(')

def isSentinel (r : FlatRecord) : Bool :=
  r.parameter.isEmpty

def isFalse (r : FlatRecord) : Bool :=
  r.isSentinel && Text.lower (Text.trim r.value) = "false"

def nodes : List FlatRecord → List (Node Expr)
  | [] => []
  | r :: rs =>
    ⟨none, .condition r.condition⟩ :: rs.map fun s => ⟨some s.joiner, .condition s.condition⟩

/-- Sentinels count only where there is no condition: then one that says `false` decides. -/
def decode (rs : List FlatRecord) : Expr :=
  match rs.filter (!·.isSentinel) with
  | [] => .always (!rs.any isFalse)
  | [r] => .condition r.condition
  | rs => .composite (nodes rs)

def log (rs : List FlatRecord) : List Log.Entry :=
  (rs.filter fun r => !r.isSentinel && (Operator.ofSymbol? r.symbol).isNone).map fun r =>
    ⟨.debug, "dmn_rules.expression.serializer",
      "Unknown operator symbol " ++ Text.quoted r.symbol ++ " decoded as EQUALS", []⟩

def ofText (s : String) : List FlatRecord :=
  (Text.pairPieces '<' '>' s).filterMap parse

def droppedLog (s : String) : List Log.Entry :=
  ((Text.pairPieces '<' '>' s).filter fun row => (parse row).isNone).map fun row =>
    ⟨.debug, "dmn_rules.expression.serializer", "Dropping malformed flat record " ++ Text.quoted row,
      []⟩

end FlatRecord

namespace Expr

/-- The records of an expression, or the sentinel of an expression without conditions. -/
def records : Expr → List FlatRecord
  | constant v _ => [.sentinel (if v then "true" else "false")]
  | e =>
    match FlatRecord.ofExpr none e with
    | [] => [.sentinel ""]
    | rs => rs

def encodeRecords (e : Expr) : Except Fault (List FlatRecord) :=
  guarded (e.obstacle? .noOperator) e.records

def recordText (e : Expr) : String :=
  Text.join "<>" (e.records.map (·.toText))

def encodeText (e : Expr) : Except Fault String :=
  guarded (e.obstacle? .noOperator) e.recordText

def base64Text (e : Expr) : String :=
  String.ofList (Text.Base64.encode (Text.Utf8.encode e.recordText.toList))

def encodeBase64 (e : Expr) : Except Fault String :=
  guarded (e.obstacle? .noOperator) e.base64Text

/-- The expression of a text of records, whatever the text; blank text is the true constant. -/
def decodeText (s : String) : Expr :=
  if Text.allBlank s then alwaysTrue else FlatRecord.decode (FlatRecord.ofText s)

/-- A text that is missing counts as blank. -/
def decodeOptional : Option String → Expr
  | none => alwaysTrue
  | some s => decodeText s

def decodeTextLog (s : String) : List Log.Entry :=
  if Text.allBlank s then [] else FlatRecord.droppedLog s ++ FlatRecord.log (FlatRecord.ofText s)

def base64Records (s : String) : Except Fault String := do
  let cs := Text.trimChars s.toList
  if cs.any fun c => 0x80 ≤ c.toNat then throw .notAscii
  let octets ← (Text.Base64.decode cs).mapError .base64
  let chars ← (Text.Utf8.decode octets).mapError .utf8
  return String.ofList chars

def decodeBase64 (s : String) : Except Fault Expr :=
  if Text.allBlank s then .ok alwaysTrue else (base64Records s).map decodeText

def decodeOptionalBase64 : Option String → Except Fault Expr
  | none => .ok alwaysTrue
  | some s => decodeBase64 s

def decodeBase64Log (s : String) : List Log.Entry :=
  if Text.allBlank s then []
  else
    match base64Records s with
    | .ok t => decodeTextLog t
    | .error _ => []

end Expr

end RuleTables
