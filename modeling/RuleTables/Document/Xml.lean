namespace RuleTables.Xml

/-- An element of XML, which holds either text or elements. -/
inductive Element where
  | text (tag : String) (attributes : List (String × String)) (content : String)
  | parent (tag : String) (attributes : List (String × String)) (children : List Element)

def isWritable (c : Char) : Bool :=
  (0x20 ≤ c.toNat || c = '\t' || c = '\n' || c = '\r') && c.toNat ≠ 0xfffe && c.toNat ≠ 0xffff

def allWritable (s : String) : Bool :=
  s.toList.all isWritable

def escapeText (c : Char) : List Char :=
  match c with
  | '&' => ['&', 'a', 'm', 'p', ';']
  | '<' => ['&', 'l', 't', ';']
  | '>' => ['&', 'g', 't', ';']
  | '\r' => ['&', '#', '1', '3', ';']
  | c => [c]

def escapeAttribute (c : Char) : List Char :=
  match c with
  | '\x22' => ['&', 'q', 'u', 'o', 't', ';']
  | '\t' => ['&', '#', '9', ';']
  | '\n' => ['&', '#', '1', '0', ';']
  | c => escapeText c

def attributeText (a : String × String) : List Char :=
  ' ' :: a.1.toList ++ '=' :: '\x22' :: a.2.toList.flatMap escapeAttribute ++ ['\x22']

def openTag (tag : String) (attributes : List (String × String)) : List Char :=
  '<' :: tag.toList ++ attributes.flatMap attributeText

def closeTag (tag : String) : List Char :=
  '<' :: '/' :: tag.toList ++ ['>']

def newLine (pretty : Bool) (depth : Nat) : List Char :=
  if pretty then '\n' :: List.replicate (2 * depth) ' ' else []

mutual

/-- Where lines are broken only elements are put on lines of their own, so that text stays as it is.
-/
def write (pretty : Bool) (depth : Nat) : Element → List Char
  | .text tag attributes content =>
    openTag tag attributes ++ '>' :: content.toList.flatMap escapeText ++ closeTag tag
  | .parent tag attributes [] => openTag tag attributes ++ ['/', '>']
  | .parent tag attributes (e :: es) =>
    openTag tag attributes ++ '>' :: newLine pretty (depth + 1) ++ write pretty (depth + 1) e ++
      writeLater pretty (depth + 1) es ++ newLine pretty depth ++ closeTag tag

def writeLater (pretty : Bool) (depth : Nat) : List Element → List Char
  | [] => []
  | e :: es => newLine pretty depth ++ write pretty depth e ++ writeLater pretty depth es

end

def declaration : List Char :=
  "<?xml version='1.0' encoding='UTF-8'?>\n".toList

def render (pretty : Bool) (e : Element) : String :=
  String.ofList (declaration ++ write pretty 0 e ++ newLine pretty 0)

end RuleTables.Xml
