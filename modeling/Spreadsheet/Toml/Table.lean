import Spreadsheet.Document

/-! Tables under construction. A table is opened once: by its own header, by the header of a table in
it, or by keys with dots; what is open to which further statement depends on how it was opened. -/

namespace Spreadsheet.Toml

inductive Opening
  | header
  /-- By the header of a table in it, so that its own header may still come. -/
  | inner
  | dotted
  deriving DecidableEq

inductive Node
  | value (d : Document)
  | table (opening : Opening) (entries : List (String × Node))
  | tables (items : List (List (String × Node)))

namespace Node

abbrev Entries := List (String × Node)

mutual

def toDocument : Node → Document
  | .value d => d
  | .table _ entries => .fields (fieldsOf entries)
  | .tables items => .list (tablesOf items)

def fieldsOf : List (String × Node) → List (String × Document)
  | [] => []
  | (name, node) :: entries => (name, toDocument node) :: fieldsOf entries

def tablesOf : List (List (String × Node)) → List Document
  | [] => []
  | entries :: items => .fields (fieldsOf entries) :: tablesOf items

end

def replace (entries : Entries) (name : String) (node : Node) : Entries :=
  entries.map fun (n, old) => if n = name then (n, node) else (n, old)

/-- Changes the table at the end of a path, opening those that are not there. Of a list of tables the
last is meant. Keys with dots may not enter a table that has a header. -/
def within (dotted : Bool) (change : Opening → Entries → Option Entries) :
    List String → Opening → Entries → Option Entries
  | [], opening, entries => change opening entries
  | name :: path, _, entries =>
    match entries.lookup name with
    | none => do
      let opening := if dotted then Opening.dotted else .inner
      return entries ++ [(name, .table opening (← within dotted change path opening []))]
    | some (.table opening inside) =>
      if dotted && opening = .header then none
      else do return replace entries name (.table opening (← within dotted change path opening inside))
    | some (.tables items) => do
      let inside ← within dotted change path .header (← items.getLast?)
      return replace entries name (.tables (items.dropLast ++ [inside]))
    | some (.value _) => none

def add (name : String) (node : Node) (entries : Entries) : Option Entries :=
  if (entries.lookup name).isSome then none else some (entries ++ [(name, node)])

def addValue (path : List String) (d : Document) (opening : Opening) (entries : Entries) :
    Option Entries :=
  match path.getLast? with
  | none => none
  | some name => within true (fun opening inside =>
      if path.length ≠ 1 ∧ opening ≠ .dotted then none else add name (.value d) inside)
      path.dropLast opening entries

def addHeader (path : List String) (root : Entries) : Option Entries := do
  let name ← path.getLast?
  within false (fun _ entries => match entries.lookup name with
    | none => some (entries ++ [(name, .table .header [])])
    | some (.table .inner inside) => some (replace entries name (.table .header inside))
    | some _ => none) path.dropLast .header root

def addItem (path : List String) (root : Entries) : Option Entries := do
  let name ← path.getLast?
  within false (fun _ entries => match entries.lookup name with
    | none => some (entries ++ [(name, .tables [[]])])
    | some (.tables items) => some (replace entries name (.tables (items ++ [[]])))
    | some _ => none) path.dropLast .header root

end Node

end Spreadsheet.Toml
