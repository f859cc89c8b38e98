namespace RuleTables.Service

inductive Target where
  | health
  | table
  | expressionTable
  | rulesTable
  | validate
  | render
  | decode
  | meters
  deriving DecidableEq

namespace Target

def path : Target → String
  | health => "/api/v1/health"
  | table => "/api/v1/dmn"
  | expressionTable => "/api/v1/dmn/expression"
  | rulesTable => "/api/v1/dmn/rules"
  | validate => "/api/v1/expressions/validate"
  | render => "/api/v1/expressions/render"
  | decode => "/api/v1/expressions/decode"
  | meters => "/metrics"

def methods : Target → List String
  | health => ["GET"]
  | meters => ["GET", "HEAD"]
  | _ => ["POST"]

/-- The targets; there are meters only where the service is observed. -/
def all (observed : Bool) : List Target :=
  [health, table, expressionTable, rulesTable, validate, render, decode] ++
    (if observed then [meters] else [])

def ofPath? (observed : Bool) (path : String) : Option Target :=
  (all observed).find? (·.path = path)

end Target

/-- One of the targets of the service, or none, because the method is not one of the target's or the
path ends with slashes that it should not have. -/
inductive Route where
  | target (t : Target)
  | wrongMethod (allowed : List String)
  | moved (path : String)
  | unknown
  deriving DecidableEq

def withoutSlashes (path : String) : String :=
  String.ofList (path.toList.reverse.dropWhile (· = '/')).reverse

def Route.find (observed : Bool) (method path : String) : Route :=
  match Target.ofPath? observed path with
  | some t => if t.methods.contains method then .target t else .wrongMethod t.methods
  | none =>
    match Target.ofPath? observed (withoutSlashes path) with
    | some t => .moved t.path
    | none => .unknown

end RuleTables.Service
