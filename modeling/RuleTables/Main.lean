import RuleTables.Cli.Run

namespace RuleTables

def readEnvironment : IO (List (String × String)) :=
  Settings.fieldNames.filterMapM fun name => do
    let value ← IO.getEnv (Text.upper name)
    return value.map (name, ·)

def fileFaultOf : IO.Error → Cli.FileFault
  | .noFileOrDirectory .. => .missing
  | .permissionDenied .. => .denied
  | e => .other (toString e)

def readContent (path : String) : IO (Except Cli.FileFault (List UInt8)) := do
  try
    return .ok (← IO.FS.readBinFile path).toList
  catch e => return .error (fileFaultOf e)

def complain (r : Report) : IO UInt32 := do
  IO.eprintln (r.kind.name ++ ": " ++ r.message)
  return 1

def perform (e : Cli.Effect) : IO UInt32 := do
  match e.file with
  | some (path, text) => IO.FS.writeFile path text
  | none => pure ()
  IO.print e.out
  IO.eprint e.err
  return .ofNat e.code

def generate (s : Settings) (o : Cli.Options) : IO UInt32 := do
  let content ← readContent (Cli.plainPath (o.input.getD ""))
  match (Cli.run s o content).effect with
  | .ok e => perform e
  | .error r => complain r

end RuleTables

open RuleTables

def main (arguments : List String) : IO UInt32 := do
  match Cli.parse arguments with
  | .error e =>
    IO.eprintln Cli.usage
    return .ofNat e.code
  | .ok o =>
    match Settings.read [] (← readEnvironment) with
    | .error f => complain f.report
    | .ok (.bad is) =>
      for i in is do IO.eprintln ("[ERROR] " ++ i.cause.message)
      return 1
    | .ok (.good s) => generate s o
