import RuleTables.Document.Xml
import RuleTables.HitPolicy

namespace RuleTables

namespace Document

structure Input where
  id : String
  label : String
  expressionId : String
  typeRef : String
  expression : String

structure Output where
  id : String
  label : String
  name : String
  typeRef : String

structure Entry where
  id : String
  text : String

structure Rule where
  id : String
  inputs : List Entry
  outputs : List Entry

end Document

/-- One decision with one table. Every part carries an identifier, and every cell is a text of its
own. -/
structure Document where
  definitionsId : String
  definitionsName : String
  decisionId : String
  decisionName : String
  tableId : String
  hitPolicy : HitPolicy
  inputs : List Document.Input
  outputs : List Document.Output
  rules : List Document.Rule

namespace Document

def textElement (text : String) : Xml.Element :=
  .text "text" [] text

def Input.element (i : Input) : Xml.Element :=
  .parent "input" [("id", i.id), ("label", i.label)]
    [.parent "inputExpression" [("id", i.expressionId), ("typeRef", i.typeRef)]
      [textElement i.expression]]

def Output.element (o : Output) : Xml.Element :=
  .parent "output" [("id", o.id), ("label", o.label), ("name", o.name), ("typeRef", o.typeRef)] []

def Entry.element (tag : String) (e : Entry) : Xml.Element :=
  .parent tag [("id", e.id)] [textElement e.text]

def Rule.element (r : Rule) : Xml.Element :=
  .parent "rule" [("id", r.id)]
    (r.inputs.map (Entry.element "inputEntry") ++ r.outputs.map (Entry.element "outputEntry"))

def element (d : Document) : Xml.Element :=
  .parent "definitions"
    [("xmlns", "https://www.omg.org/spec/DMN/20191111/MODEL/"), ("id", d.definitionsId),
      ("name", d.definitionsName), ("namespace", "http://camunda.org/schema/1.0/dmn")]
    [.parent "decision" [("id", d.decisionId), ("name", d.decisionName)]
      [.parent "decisionTable" [("id", d.tableId), ("hitPolicy", d.hitPolicy.text)]
        (d.inputs.map (·.element) ++ d.outputs.map (·.element) ++ d.rules.map (·.element))]]

def render (d : Document) (pretty : Bool) : String :=
  Xml.render pretty d.element

def heading (d : Document) : List String :=
  [d.definitionsId, d.definitionsName, d.decisionId, d.decisionName, d.tableId]

def Rule.texts (r : Rule) : List String :=
  r.inputs.map (·.text) ++ r.outputs.map (·.text)

def Rule.isWritable (r : Rule) : Bool := r.texts.all Xml.allWritable

def columnTexts (d : Document) : List String :=
  d.inputs.flatMap (fun i => [i.label, i.typeRef, i.expression]) ++
    d.outputs.flatMap (fun o => [o.label, o.name, o.typeRef])

def headingWritable (d : Document) : Bool := d.heading.all Xml.allWritable

def columnsWritable (d : Document) : Bool := d.columnTexts.all Xml.allWritable

def rulesWritable (d : Document) : Bool := d.rules.all (·.isWritable)

def isWritable (d : Document) : Bool :=
  d.headingWritable && d.columnsWritable && d.rulesWritable

/-- The rules up to the first one that cannot be written, that one included. -/
def begunRules : List Rule → List Rule
  | [] => []
  | r :: rs => r :: if r.isWritable then begunRules rs else []

/-- The rules that are begun when the document is written in order. -/
def begun (d : Document) : List Rule :=
  if d.headingWritable && d.columnsWritable then begunRules d.rules else []

end Document

end RuleTables
