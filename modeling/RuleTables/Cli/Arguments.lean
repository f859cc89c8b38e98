import RuleTables.Text.Digit

namespace RuleTables.Cli

inductive Flag where
  | help
  | output
  | mode
  deriving DecidableEq

def flags : List (String × Flag) :=
  [("-h", .help), ("--help", .help), ("--output", .output), ("-o", .output), ("--mode", .mode)]

def modes : List String := ["auto", "expression", "rules", "table"]

def usage : String :=
  "usage: dmn-generate [-h] [--output OUTPUT] [--mode \x7b" ++ String.intercalate "," modes ++
    "\x7d] input"

/-- A word of the command line. An option may be unknown and may carry a value, which may be
marked by an equals sign. -/
inductive Word where
  | argument (s : String)
  | separator
  | option (flag : Option Flag) (marked : Bool) (value : Option (List Char))

def flag? (cs : List Char) : Option Flag :=
  (flags.find? (·.1.toList = cs)).map (·.2)

def cutValue (cs : List Char) : List Char × Option (List Char) :=
  match cs.dropWhile (· ≠ '=') with
  | [] => (cs, none)
  | _ :: value => (cs.takeWhile (· ≠ '='), some value)

/-- The flags a word may be short for, each with its value. -/
def candidates (cs : List Char) : List (Flag × Bool × Option (List Char)) :=
  match cs with
  | '-' :: '-' :: _ =>
    let (name, value) := cutValue cs
    (flags.filter fun f => name.isPrefixOf f.1.toList).map fun f => (f.2, true, value)
  | _ =>
    flags.filterMap fun f =>
      if f.1.toList = cs.take 2 then some (f.2, false, some (cs.drop 2)) else none

def isNumber (cs : List Char) : Bool :=
  let whole := cs.takeWhile Text.isDigit
  match cs.dropWhile Text.isDigit with
  | [] => !whole.isEmpty
  | c :: fraction => c = '.' && !fraction.isEmpty && fraction.all Text.isDigit

def dashedWord (s : String) (cs : List Char) : Option Word :=
  let (name, value) := cutValue cs
  match flag? name with
  | some f => some (.option (some f) true value)
  | none =>
    match candidates cs with
    | [(f, marked, value)] => some (.option (some f) marked value)
    | [] =>
      some (if isNumber (cs.drop 1) || cs.contains ' ' then .argument s else .option none false none)
    | _ => none

def wordsOf : List String → Option (List Word)
  | [] => some []
  | s :: ss =>
    match s.toList with
    | ['-', '-'] => some (.separator :: ss.map .argument)
    | ['-'] => (wordsOf ss).map (.argument s :: ·)
    | '-' :: cs =>
      match dashedWord s ('-' :: cs) with
      | some w => (wordsOf ss).map (w :: ·)
      | none => none
    | _ => (wordsOf ss).map (.argument s :: ·)

structure Options where
  input : Option String
  output : Option String
  mode : String
  /-- Whether there is a word that nobody takes. -/
  surplus : Bool

def Options.none : Options := ⟨.none, .none, "auto", false⟩

inductive Exit where
  | help
  | usage
  deriving DecidableEq

def Exit.code : Exit → Nat
  | .help => 0
  | .usage => 2

def Options.set (o : Options) (f : Flag) (value : String) : Except Exit Options :=
  match f with
  | .output => .ok { o with output := some value }
  | .mode => if modes.contains value then .ok { o with mode := value } else .error .usage
  | .help => .error .help

/-- What follows a request for help in the same word may still be wrong. -/
def helpExit : List Char → List Word → Exit
  | 'h' :: '=' :: _, _ => .usage
  | ['h'], _ => .help
  | 'h' :: cs, rest => helpExit cs rest
  | ['o'], .argument _ :: _ => .help
  | ['o'], _ => .usage
  | '-' :: _, _ => .usage
  | _, _ => .help

def take (o : Options) : List Word → Except Exit Options
  | [] => .ok o
  | .argument s :: .separator :: rest =>
    if o.input.isNone then take { o with input := some s } rest
    else take { o with surplus := true } rest
  | .argument s :: rest =>
    if o.input.isNone then take { o with input := some s } rest
    else take { o with surplus := true } rest
  | .separator :: .argument s :: rest =>
    if o.input.isNone then take { o with input := some s } rest
    else take { o with surplus := true } rest
  | .separator :: rest => take { o with surplus := true } rest
  | .option none _ _ :: rest => take { o with surplus := true } rest
  | .option (some .help) _ none :: _ => .error .help
  | .option (some .help) marked (some value) :: rest =>
    .error (if marked then .usage else helpExit value rest)
  | .option (some f) _ (some value) :: rest => do take (← o.set f (String.ofList value)) rest
  | .option (some f) _ none :: .argument s :: rest => do take (← o.set f s) rest
  | .option (some _) _ none :: _ => .error .usage

/-- The options, of which the input must be one and beside which there may be nothing. Options may
be shortened and may carry their value in the same word. -/
def parse (arguments : List String) : Except Exit Options :=
  match wordsOf arguments with
  | none => .error .usage
  | some ws => do
    let o ← take .none ws
    if o.input.isNone || o.surplus then throw .usage
    return o

end RuleTables.Cli
