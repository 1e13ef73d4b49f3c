import Spreadsheet.Settings
import Spreadsheet.Toml.Parser

namespace Spreadsheet

inductive FileEntry
  | missing
  | directory
  | unreadable (problem : String)
  | file (content : ByteArray)

structure Config where
  solver : Settings := {}
  deriving DecidableEq

inductive ConfigError
  | io (problem : String)
  | parse (path problem : String)
  | notFound (path : String)
  | tooLarge (path : String) (size : Nat)
  deriving DecidableEq

namespace Config

def maxBytes : Nat := 64 * 1024

end Config

def ConfigError.message : ConfigError → String
  | .io problem => "IO error: " ++ problem
  | .parse path problem => "Failed to parse " ++ path ++ ": " ++ problem
  | .notFound path => "Config file not found: " ++ path
  | .tooLarge path size => "Refusing to read " ++ path ++ ": file too large (" ++ size.repr
      ++ " bytes, max " ++ Config.maxBytes.repr ++ ")"

namespace Config

def solverOfDocument? : Document → Option Settings
-- The values in order, those after the third being ignored.
  | .list items => Settings.ofDocument? (.list (items.take 3))
-- A date is taken for a table without settings.
  | .time _ => some {}
  | d => Settings.ofDocument? d

def ofDocument? (d : Document) : Option Config := do
  match (← d.fields?).lookup "solver" with
  | none => return {}
  | some solver => return { solver := ← solverOfDocument? solver }

def parse? (s : String) : Option Config :=
  (Toml.parse? s).bind ofDocument?

def read (path : String) : FileEntry → Except ConfigError Config
  | .missing => .error (.io "No such file or directory (os error 2)")
  | .directory => .error (.io "Is a directory (os error 21)")
  | .unreadable problem => .error (.io problem)
  | .file content =>
    if maxBytes < content.size then .error (.tooLarge path content.size)
    else match String.fromUTF8? content with
      | none => .error (.io "stream did not contain valid UTF-8")
      | some s => match parse? s with
        | some c => .ok c
        | none => .error (.parse path "TOML parse error")

def load (path : String) : FileEntry → Except ConfigError Config
  | .missing => .error (.notFound path)
  | entry => read path entry

def loadUser (path : String) : FileEntry → Except ConfigError Config
  | .missing => .ok {}
  | entry => read path entry

end Config

end Spreadsheet
