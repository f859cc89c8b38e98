import RuleTables.Service.Meters
import RuleTables.Text.Pieces

namespace RuleTables.Service

structure Sample where
  name : String
  labels : List (String × String)
  value : Int

inductive MeterKind where
  | counter
  | gauge
  | histogram
  deriving DecidableEq

def MeterKind.name : MeterKind → String
  | .counter => "counter"
  | .gauge => "gauge"
  | .histogram => "histogram"

structure Family where
  /-- The name without what the kind puts behind it. -/
  stem : String
  kind : MeterKind
  help : String
  samples : List Sample

namespace Family

def name (f : Family) : String :=
  match f.kind with
  | .counter => f.stem ++ "_total"
  | _ => f.stem

end Family

def lineLabels (l : Line) : List (String × String) :=
  [("method", l.method), ("route", l.route)]

def rowBounds : List Nat := [0, 1, 5, 10, 25, 50, 100, 250, 500]

def realText (n : Int) : String :=
  match toString n.natAbs with
  | digits =>
    let sign := if n < 0 then "-" else ""
    if digits.length ≤ 6 ∨ n < 0 then sign ++ digits ++ ".0"
    else
      let tail := ((digits.toList.drop 1).reverse.dropWhile (· = '0')).reverse
      let mantissa := digits.toList.take 1 ++ (if tail.isEmpty then [] else '.' :: tail)
      String.ofList mantissa ++ "e+0" ++ toString (digits.length - 1)

def rowTotal (rows : List Nat) : Nat :=
  rows.foldr (· + ·) 0

/-- How many of the numbers each bound holds, then how many there are, and their sum. -/
def rowSamples (stem : String) (source : Source) (rows : List Nat) : List Sample :=
  let label := ("source", source.name)
  let bucket := fun (bound : String) (n : Nat) =>
    Sample.mk (stem ++ "_bucket") [("le", bound), label] n
  rowBounds.map (fun (b : Nat) => bucket (realText b) (rows.countP fun n => decide (n ≤ b))) ++
    [bucket "+Inf" rows.length, ⟨stem ++ "_count", [label], rows.length⟩,
      ⟨stem ++ "_sum", [label], rowTotal rows⟩]

namespace Meters

def families (m : Meters) : List Family :=
  [⟨"http_requests", .counter, "Total HTTP requests", m.requests.map fun r =>
      ⟨"http_requests_total", lineLabels r.1.1 ++ [("status_code", toString r.1.2)], r.2⟩⟩,
    ⟨"http_request_duration_seconds", .histogram, "HTTP request latency in seconds",
      m.timed.map fun r => ⟨"http_request_duration_seconds_count", lineLabels r.1, r.2⟩⟩,
    ⟨"http_requests_in_progress", .gauge, "HTTP requests currently in progress",
      m.running.map fun r => ⟨"http_requests_in_progress", lineLabels r.1, r.2⟩⟩,
    ⟨"http_errors", .counter, "Total HTTP errors", m.errors.map fun r =>
      ⟨"http_errors_total", ("error_type", r.1.2) :: lineLabels r.1.1, r.2⟩⟩,
    ⟨"dmn_generation_duration_seconds", .histogram,
      "Decision table document generation duration in seconds", m.runs.map fun r =>
        ⟨"dmn_generation_duration_seconds_count", [("source", r.1.name)], r.2⟩⟩,
    ⟨"dmn_generation_rows", .histogram, "Number of rows in generated decision tables",
      m.rows.flatMap fun r => rowSamples "dmn_generation_rows" r.1 r.2⟩,
    ⟨"dmn_generations", .counter, "Total decision table document generations",
      m.outcomes.map fun r =>
        ⟨"dmn_generations_total", [("source", r.1.1.name),
          ("status", if r.1.2 then "success" else "error")], r.2⟩⟩]

def samples (m : Meters) : List Sample :=
  m.families.flatMap (·.samples)

end Meters

def escapeLabel (c : Char) : List Char :=
  if c = '\\' then ['\\', '\\']
  else if c = '\n' then ['\\', 'n']
  else if c = Text.doubleQuote then ['\\', c]
  else [c]

def labelText (l : String × String) : String :=
  let quote := String.singleton Text.doubleQuote
  l.1 ++ "=" ++ quote ++ String.ofList (l.2.toList.flatMap escapeLabel) ++ quote

def Sample.text (s : Sample) : String :=
  s.name ++ "\x7b" ++ Text.join "," (s.labels.map labelText) ++ "\x7d " ++ realText s.value

def headLines (name help kind : String) : List String :=
  ["# HELP " ++ name ++ " " ++ help, "# TYPE " ++ name ++ " " ++ kind]

/-- Counters and histograms that have samples announce a gauge of the times when they began, of
which no samples are written. -/
def Family.lines (f : Family) : List String :=
  headLines f.name f.help f.kind.name ++ f.samples.map (·.text) ++
    (if f.kind = .gauge || f.samples.isEmpty then []
    else headLines (f.stem ++ "_created") f.help MeterKind.gauge.name)

/-- Every line ends with a line feed. -/
def Meters.text (m : Meters) : String :=
  String.join ((m.families.flatMap (·.lines)).map (· ++ "\n"))

end RuleTables.Service
