import Spreadsheet.CommandLine.Options

namespace Spreadsheet.CommandLine.Cursor

def takeValue (args : List String) (i : Nat) (flag : String) : Except UsageError (String × Nat) :=
  match args[i + 1]? with
  | some value => .ok (value, i + 1)
  | none => .error (.missingValue flag)

/-- Reads an option at the cursor and leaves the cursor at the last of its values. -/
def readOption (args : List String) (i : Nat) (option : String) (o : Options) :
    Except UsageError (Options × Nat) :=
  match option with
  | "-h" | "--help" => .ok ({ o with help := true }, i)
  | "--columns" => do
    let (list, i) ← takeValue args i "--columns"
    let names := (Text.splitList ',' list.toList).map fun name => String.ofList (Text.trimList name)
    if "" ∈ names then .error .blankColumn
    else .ok ({ o with columns := some names }, i)
  | "--set" => do
    let (assignment, i) ← takeValue args i "--set"
    match Text.splitFirst? '=' assignment.toList with
    | none => .error (.noAssignment assignment)
    | some (reference, value) =>
      let pair := (String.ofList (Text.trimList reference), String.ofList value)
      .ok ({ o with assignments := o.assignments ++ [pair] }, i)
  | "-c" | "--command" => do
    let (formula, i) ← takeValue args i "--command"
    .ok ({ o with command := some formula }, i)
  | "--goal-seek" => do
    let (target, i) ← takeValue args i "--goal-seek"
    let (value, i) ← takeValue args i "--goal-seek"
    match Binary64.ofText? value with
    | none => .error (.notANumber value)
    | some goal =>
      let (changing, i) ← takeValue args i "--goal-seek"
      .ok ({ o with seek := some ⟨target, goal, changing⟩ }, i)
  | "--config" => do
    let (path, i) ← takeValue args i "--config"
    .ok ({ o with config := some path }, i)
  | "--no-config" => .ok ({ o with noConfig := true }, i)
  | _ => .error (.unknownOption option)

theorem takeValue_eq_ok {args : List String} {i j : Nat} {flag value : String}
    (h : takeValue args i flag = .ok (value, j)) : j = i + 1 := by
  rw [takeValue] at h
  split at h <;> cases h
  rfl

theorem le_of_readOption {args : List String} {i j : Nat} {option : String} {o o' : Options}
    (h : readOption args i option o = .ok (o', j)) : i ≤ j := by
  unfold readOption at h
  simp only [bind, Except.bind] at h
  split at h <;> grind [takeValue_eq_ok]

def readFrom (args : List String) (i : Nat) (o : Options) : Except UsageError Options :=
  if hi : i < args.length then
    match h : readOption args i args[i] o with
    | .error e => .error e
    | .ok (o, j) =>
      have := le_of_readOption h
      readFrom args (j + 1) o
  else .ok o
  termination_by args.length - i

def read (args : List String) : Except UsageError Options :=
  readFrom args 1 {}

end Spreadsheet.CommandLine.Cursor
