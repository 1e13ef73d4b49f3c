import Spreadsheet.Number.Numeral
import Spreadsheet.Text.Split

namespace Spreadsheet.CommandLine

structure SeekRequest where
  target : String
  goal : Binary64
  changing : String
  deriving DecidableEq

inductive Group
  | help
  | noConfig
  | columns (names : List String)
  | assign (reference value : String)
  | command (formula : String)
  | seek (request : SeekRequest)
  | config (path : String)
  deriving DecidableEq

inductive UsageError
  | missingValue (flag : String)
  | blankColumn
  | noAssignment (argument : String)
  | notANumber (argument : String)
  | unknownOption (argument : String)
  deriving DecidableEq

def UsageError.message : UsageError → String
  | .missingValue flag => flag ++ " requires a value"
  | .blankColumn => "--columns must not contain blank names"
  | .noAssignment argument => "--set expects REF=VALUE, got " ++ argument
  | .notANumber argument => "--goal-seek target value is not a number: " ++ argument
  | .unknownOption argument => "Unknown option: " ++ argument

namespace Group

def columns? (list : String) : Except UsageError Group :=
  let names := (Text.splitList ',' list.toList).map Text.trimList
  if [] ∈ names then .error .blankColumn else .ok (.columns (names.map String.ofList))

def assign? (argument : String) : Except UsageError Group :=
  match Text.splitFirst? '=' argument.toList with
  | some (reference, value) =>
    .ok (.assign (String.ofList (Text.trimList reference)) (String.ofList value))
  | none => .error (.noAssignment argument)

/-- The values of an option are whatever follows it, be it an option or not. -/
def next (argument : String) (rest : List String) : Except UsageError (Group × List String) :=
  match argument, rest with
  | "-h", rest | "--help", rest => .ok (.help, rest)
  | "--no-config", rest => .ok (.noConfig, rest)
  | "--columns", list :: rest => match columns? list with
    | .ok g => .ok (g, rest)
    | .error e => .error e
  | "--set", assignment :: rest => match assign? assignment with
    | .ok g => .ok (g, rest)
    | .error e => .error e
  | "-c", formula :: rest | "--command", formula :: rest => .ok (.command formula, rest)
  | "--config", path :: rest => .ok (.config path, rest)
  | "--goal-seek", target :: value :: rest =>
    match Binary64.ofText? value, rest with
    | none, _ => .error (.notANumber value)
    | some goal, changing :: rest => .ok (.seek ⟨target, goal, changing⟩, rest)
    | some _, [] => .error (.missingValue "--goal-seek")
  | "-c", [] => .error (.missingValue "--command")
  | flag, _ =>
    if flag ∈ ["--columns", "--set", "--command", "--config", "--goal-seek"] then
      .error (.missingValue flag)
    else .error (.unknownOption flag)

theorem length_of_next {argument : String} {rest left : List String} {g : Group}
    (h : next argument rest = .ok (g, left)) : left.length ≤ rest.length := by
  unfold next at h
  split at h <;> grind

def ofArguments : List String → Except UsageError (List Group)
  | [] => .ok []
  | argument :: rest => match h : next argument rest with
    | .error e => .error e
    | .ok (g, left) =>
      have := length_of_next h
      (ofArguments left).map (g :: ·)
  termination_by args => args.length

end Group

structure Options where
  columns : Option (List String) := none
  assignments : List (String × String) := []
  command : Option String := none
  seek : Option SeekRequest := none
  config : Option String := none
  noConfig : Bool := false
  help : Bool := false
  deriving DecidableEq

namespace Options

def add (o : Options) : Group → Options
  | .help => { o with help := true }
  | .noConfig => { o with noConfig := true }
  | .columns names => { o with columns := some names }
  | .assign reference value => { o with assignments := o.assignments ++ [(reference, value)] }
  | .command formula => { o with command := some formula }
  | .seek request => { o with seek := some request }
  | .config path => { o with config := some path }

def ofGroups (groups : List Group) : Options :=
  groups.foldl add {}

def parse (args : List String) : Except UsageError Options :=
  (Group.ofArguments args).map ofGroups

end Options

end Spreadsheet.CommandLine
