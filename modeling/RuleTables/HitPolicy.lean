namespace RuleTables

/-- What a decision table does when several of its rules match. -/
inductive HitPolicy where
  | unique
  | first
  | priority
  | any
  | collect
  | ruleOrder
  | outputOrder
  deriving DecidableEq

namespace HitPolicy

def all : List HitPolicy :=
  [unique, first, priority, any, collect, ruleOrder, outputOrder]

def text : HitPolicy → String
  | unique => "UNIQUE"
  | first => "FIRST"
  | priority => "PRIORITY"
  | any => "ANY"
  | collect => "COLLECT"
  | ruleOrder => "RULE ORDER"
  | outputOrder => "OUTPUT ORDER"

def word : HitPolicy → String
  | ruleOrder => "RULE_ORDER"
  | outputOrder => "OUTPUT_ORDER"
  | p => p.text

def ofText? (s : String) : Option HitPolicy :=
  all.find? (·.text = s)

def ofSpelling? (s : String) : Option HitPolicy :=
  all.find? fun p => s = p.text || s = p.word

end HitPolicy

end RuleTables
