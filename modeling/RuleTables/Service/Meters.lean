import RuleTables.Document.Generation

namespace RuleTables.Service

structure Line where
  method : String
  route : String
  deriving DecidableEq

inductive Event where
  | started (line : Line)
  | answered (line : Line) (status : Nat)
  | raised (line : Line) (kind : String)
  /-- A run that wrote so many rows, or failed. -/
  | generated (source : Source) (rows : Option Nat)
  deriving DecidableEq

/-- Numbers by key, in the order in which the keys first came. -/
abbrev Tally (κ ν : Type) := List (κ × ν)

namespace Tally

variable {κ ν : Type} [DecidableEq κ]

/-- Changes the number at a key. A new key starts from `zero` and goes to the end. -/
def change (k : κ) (zero : ν) (f : ν → ν) : Tally κ ν → Tally κ ν
  | [] => [(k, f zero)]
  | (j, v) :: rest => if j = k then (j, f v) :: rest else (j, v) :: change k zero f rest

def get (k : κ) (zero : ν) : Tally κ ν → ν
  | [] => zero
  | (j, v) :: rest => if j = k then v else get k zero rest

def count (k : κ) : Tally κ Nat → Tally κ Nat :=
  change k 0 (· + 1)

end Tally

/-- The meters are a fold over events and read no clock, so durations are counted and not summed. -/
structure Meters where
  requests : Tally (Line × Nat) Nat
  timed : Tally Line Nat
  running : Tally Line Int
  errors : Tally (Line × String) Nat
  runs : Tally Source Nat
  /-- The numbers of rows that were written, the last first. -/
  rows : Tally Source (List Nat)
  outcomes : Tally (Source × Bool) Nat

namespace Meters

def zero : Meters := ⟨[], [], [], [], [], [], []⟩

/-- A request that raised is counted with the status 500, but not among those that took time. -/
def step (m : Meters) : Event → Meters
  | .started line => { m with running := Tally.change line 0 (· + 1) m.running }
  | .answered line status =>
    { m with
      requests := Tally.count (line, status) m.requests
      timed := Tally.count line m.timed
      running := Tally.change line 0 (· - 1) m.running }
  | .raised line kind =>
    { m with
      requests := Tally.count (line, 500) m.requests
      errors := Tally.count (line, kind) m.errors
      running := Tally.change line 0 (· - 1) m.running }
  | .generated source rows =>
    { m with
      outcomes := Tally.count (source, rows.isSome) m.outcomes
      runs := Tally.count source m.runs
      rows := match rows with
        | none => m.rows
        | some n => Tally.change source [] (n :: ·) m.rows }

def run (m : Meters) (es : List Event) : Meters :=
  es.foldl step m

end Meters

def eventOf (g : Generation) : Event :=
  .generated g.source (if g.isSuccess then some g.rows else none)

end RuleTables.Service
