import RuleTables.Fault
import RuleTables.Text.Pieces

namespace RuleTables.Cli

/-- A name without empty parts and dots; the name of nothing is a dot. -/
def plainPath (s : String) : String :=
  let parts := (Text.pieces '/' s).filter fun p => p ≠ "" && p ≠ "."
  let root := match s.toList with
    | '/' :: '/' :: '/' :: _ => "/"
    | '/' :: '/' :: _ => "//"
    | '/' :: _ => "/"
    | _ => ""
  let path := root ++ Text.join "/" parts
  if path.isEmpty then "." else path

inductive FileFault where
  | missing
  | notDirectory
  | directory
  | denied
  | other (message : String)

namespace FileFault

def kind : FileFault → FaultClass
  | missing => .other "FileNotFoundError"
  | notDirectory => .other "NotADirectoryError"
  | directory => .other "IsADirectoryError"
  | denied => .other "PermissionError"
  | other _ => .other "OSError"

def message (path : String) : FileFault → String
  | missing => "[Errno 2] No such file or directory: " ++ Text.quoted path
  | notDirectory => "[Errno 20] Not a directory: " ++ Text.quoted path
  | directory => "[Errno 21] Is a directory: " ++ Text.quoted path
  | denied => "[Errno 13] Permission denied: " ++ Text.quoted path
  | other message => message

end FileFault

abbrev Folder := List (String × List UInt8)

namespace Folder

def fault? (folder : Folder) (path : String) : Option FileFault :=
  match Text.pieces '/' path with
  | ["."] | [".."] => some .directory
  | [_] => none
  | name :: _ => some (if Assoc.has folder name then .notDirectory else .missing)
  | [] => none

def read (folder : Folder) (path : String) : Except FileFault (List UInt8) :=
  match folder.fault? path with
  | some f => .error f
  | none =>
    match Assoc.find? path folder with
    | some octets => .ok octets
    | none => .error .missing

def write (folder : Folder) (path : String) (octets : List UInt8) : Except FileFault Folder :=
  match folder.fault? path with
  | some f => .error f
  | none => .ok (Assoc.put path octets folder)

end Folder

end RuleTables.Cli
