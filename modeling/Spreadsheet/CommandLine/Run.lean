import Spreadsheet.CommandLine.Options
import Spreadsheet.Config
import Spreadsheet.Sheet.Edit

/-! What the program does. Files are looked up by a function, so all of it is pure. -/

namespace Spreadsheet.CommandLine

structure Outcome where
  code : Nat
  output : String
  errors : String
  deriving DecidableEq

def padRight (width : Nat) (s : String) : String :=
  s ++ String.ofList (List.replicate (width - s.length) ' ')

def optionLines : List String :=
  ["Usage: nexus [OPTIONS]",
   "",
   "Options:",
   "  --columns <A,B,...>               Column names (default: A..Z)",
   "  --set <REF=VALUE>                 Store a value or =formula (can be repeated)",
   "  -c, --command <FORMULA>           Evaluate a formula and print the result",
   "  --goal-seek <TARGET> <VALUE> <CHANGING>",
   "                                    Solve CHANGING so TARGET evaluates to VALUE",
   "  --config <FILE>                   Load settings from TOML file",
   "  --no-config                       Ignore the user config file",
   "  -h, --help                        Print help"]

def functionLines : List String :=
  Function.entries.map fun e => "  " ++ padRight 34 e.name ++ e.description

def usage : String :=
  String.join ((optionLines ++ "" :: "Functions:" :: functionLines).map (· ++ "\n"))

inductive BuildError
  | tooManyRows (rows : Nat)
  | assignment (reference : String) (e : SheetError)
  deriving DecidableEq

def maxRows : Nat := 100000

def BuildError.message : BuildError → String
  | .tooManyRows rows => "--set row " ++ rows.repr ++ " exceeds the " ++ maxRows.repr ++ " row limit"
  | .assignment reference e => "--set " ++ reference ++ ": " ++ e.message

def rowsNeeded (assignments : List (String × String)) : Nat :=
  (assignments.filterMap fun (reference, _) => Address.parse? reference).foldl
    (fun rows a => max rows (a.row + 1)) 1

def blankSheet (columns : Option (List String)) (rows : Nat) : Sheet :=
  let s := Sheet.ofColumns "Sheet1" (columns.getD (Sheet.letterColumns 26))
  { s with rows := Array.replicate rows s.blankRow }

def assign (s : Sheet) : List (String × String) → Except BuildError Sheet
  | [] => .ok s
  | (reference, value) :: assignments =>
    match s.setInput reference value with
    | .error e => .error (.assignment reference e)
    | .ok (s, _) => assign s assignments

def buildSheet (columns : Option (List String)) (assignments : List (String × String)) :
    Except BuildError Sheet :=
  let rows := rowsNeeded assignments
  if maxRows < rows then .error (.tooManyRows rows)
  else assign (blankSheet columns rows) assignments

def commandInput (command : String) : String :=
  match Text.trimList command.toList with
  | '=' :: cs => String.ofList ('=' :: cs)
  | cs => String.ofList ('=' :: cs)

def loadConfig (o : Options) (userPath : Option String) (files : String → FileEntry) :
    Config × String :=
  let loaded := if o.noConfig then .ok {}
    else match o.config, userPath with
      | some path, _ => Config.load path (files path)
      | none, some path => Config.loadUser path (files path)
      | none, none => .ok {}
  match loaded with
  | .ok c => (c, "")
  | .error e => ({}, "Warning: " ++ e.message ++ "; using default settings\n")

def runSeek (s : Sheet) (settings : Settings) : Option SeekRequest → Sheet × String × Bool
  | none => (s, "", true)
  | some r => match s.seekGoal settings r.target r.goal r.changing with
    | .ok (s, x) => (s, x.cellText ++ "\n", true)
    | .error e => (s, e.message ++ "\n", false)

def runCommand (s : Sheet) : Option String → String × Bool
  | none => ("", true)
  | some command =>
    let value := s.evaluateInput (commandInput command)
    (value.display ++ "\n", !value.isError)

def errorLine (message : String) : String :=
  "Error: " ++ message ++ "\n"

def runOptions (o : Options) (userPath : Option String) (files : String → FileEntry) : Outcome :=
  if o.command.isNone && o.seek.isNone then
    ⟨1, "", usage ++ errorLine "nothing to do: pass --command or --goal-seek"⟩
  else
    let (config, warning) := loadConfig o userPath files
    match buildSheet o.columns o.assignments with
    | .error e => ⟨1, "", warning ++ errorLine e.message⟩
    | .ok s =>
      let (s, solution, solved) := runSeek s config.solver o.seek
      let (line, valid) := runCommand s o.command
      ⟨if solved && valid then 0 else 1, solution ++ line, warning⟩

def run (args : List String) (userPath : Option String) (files : String → FileEntry) : Outcome :=
  match Options.parse args with
  | .error e => ⟨1, "", errorLine e.message ++ usage⟩
  | .ok o => if o.help then ⟨0, "", usage⟩ else runOptions o userPath files

def configPath? (args : List String) (userPath : Option String) : Option String :=
  match Options.parse args with
  | .error _ => none
  | .ok o => if o.help || o.noConfig then none else o.config.or userPath

def userConfigPath (configHome home : Option String) : Option String :=
  match configHome.filter (·.toList.head? == some '/'), home with
  | some dir, _ => some (dir ++ "/nexus/config.toml")
  | none, some dir => some (dir ++ "/.config/nexus/config.toml")
  | none, none => none

end Spreadsheet.CommandLine
