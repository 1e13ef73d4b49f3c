import Spreadsheet.Evaluate
import Spreadsheet.Formula.Reads
import Spreadsheet.Proofs.Grammar

namespace Spreadsheet

namespace Expr

def parts : Expr → List Expr
  | .neg e => [e]
  | .binary _ l r => [l, r]
  | .call _ args => args
  | .number _ | .text _ | .cell _ | .range _ => []

mutual

def nodes : Expr → List Expr
  | .neg e => .neg e :: nodes e
  | .binary op l r => .binary op l r :: (nodes l ++ nodes r)
  | .call f args => .call f args :: argNodes args
  | e => [e]

def argNodes : List Expr → List Expr
  | [] => []
  | e :: es => nodes e ++ argNodes es

end

mutual

def height : Expr → Nat
  | .neg e => height e + 1
  | .binary _ l r => max (height l) (height r) + 1
  | .call _ args => argHeight args + 1
  | .number _ | .text _ | .cell _ | .range _ => 1

def argHeight : List Expr → Nat
  | [] => 0
  | e :: es => max (height e) (argHeight es)

end

inductive Path : Expr → List Expr → Prop
  | leaf {e : Expr} (h : e.parts = []) : Path e [e]
  | step {e part : Expr} {path : List Expr} (h : part ∈ e.parts) (hpath : Path part path) :
      Path e (e :: path)

theorem nodes_eq (e : Expr) : e.nodes = e :: argNodes e.parts := by
  cases e <;> simp [nodes, argNodes, parts]

theorem height_eq (e : Expr) : e.height = argHeight e.parts + 1 := by
  cases e <;> simp [height, argHeight, parts]

theorem argNodes_eq_flatMap (es : List Expr) : argNodes es = es.flatMap nodes := by
  induction es with
  | nil => rfl
  | cons e es ih => rw [argNodes, ih, List.flatMap_cons]

theorem argHeight_le_iff {es : List Expr} {n : Nat} : argHeight es ≤ n ↔ ∀ e ∈ es, e.height ≤ n := by
  induction es with
  | nil => simp [argHeight]
  | cons e es ih => rw [argHeight, Nat.max_le, ih, List.forall_mem_cons]

theorem exists_height_eq_argHeight {es : List Expr} (h : es ≠ []) :
    ∃ e ∈ es, e.height = argHeight es := by
  induction es with
  | nil => exact absurd rfl h
  | cons e es ih =>
    rw [argHeight]
    by_cases hle : argHeight es ≤ e.height
    · exact ⟨e, List.mem_cons_self, (Nat.max_eq_left hle).symm⟩
    · have hne : es ≠ [] := by
        rintro rfl
        exact hle (Nat.zero_le _)
      obtain ⟨e', hmem, he'⟩ := ih hne
      exact ⟨e', List.mem_cons_of_mem e hmem,
        he'.trans (Nat.max_eq_right (Nat.le_of_not_le hle)).symm⟩

theorem height_lt_of_mem_parts {e part : Expr} (h : part ∈ e.parts) : part.height < e.height := by
  rw [height_eq e]
  exact Nat.lt_succ_of_le (argHeight_le_iff.1 (Nat.le_refl _) part h)

/-- What holds of an expression whenever it holds of its parts holds of every expression. -/
@[elab_as_elim]
theorem induction_parts {motive : Expr → Prop}
    (h : ∀ e, (∀ part ∈ e.parts, motive part) → motive e) (e : Expr) : motive e :=
  h e fun part _ => induction_parts h part
  termination_by e.height
  decreasing_by exact height_lt_of_mem_parts ‹_›

namespace Path

variable {e : Expr} {path : List Expr}

theorem length_le_height (h : e.Path path) : path.length ≤ e.height := by
  induction h with
  | leaf =>
    rw [height_eq]
    exact Nat.succ_le_succ (Nat.zero_le _)
  | step hpart _ ih => exact Nat.succ_le_of_lt (Nat.lt_of_le_of_lt ih (height_lt_of_mem_parts hpart))

theorem sublist_nodes (h : e.Path path) : path.Sublist e.nodes := by
  induction h with
  | leaf =>
    rw [nodes_eq]
    exact (List.nil_sublist _).cons_cons _
  | step hpart _ ih =>
    rw [nodes_eq, argNodes_eq_flatMap, List.flatMap_def]
    exact (ih.trans (List.sublist_flatten_of_mem (List.mem_map_of_mem hpart))).cons_cons _

end Path

theorem exists_path (e : Expr) : ∃ path, e.Path path ∧ path.length = e.height := by
  induction e using induction_parts with
  | h e ih =>
  by_cases hparts : e.parts = []
  · refine ⟨[e], .leaf hparts, ?_⟩
    rw [height_eq, hparts]
    rfl
  · obtain ⟨part, hpart, hheight⟩ := exists_height_eq_argHeight hparts
    obtain ⟨path, hpath, hlength⟩ := ih part hpart
    refine ⟨e :: path, .step hpart hpath, ?_⟩
    rw [List.length_cons, hlength, hheight, ← height_eq]

theorem evalArgs_eq_map (g : Grid) (resolve : Address → Binary64) (es : List Expr) :
    evalArgs g resolve es = es.map fun e => ⟨e, eval g resolve e⟩ := by
  induction es with
  | nil => rfl
  | cons e es ih => rw [evalArgs, ih, List.map_cons]

theorem argReferences_eq_flatMap (g : Grid) (es : List Expr) :
    argReferences g es = es.flatMap (references g) := by
  induction es with
  | nil => rfl
  | cons e es ih => rw [argReferences, ih, List.flatMap_cons]

theorem argReads_eq_any (a : Address) (es : List Expr) : argReads a es = es.any (reads a) := by
  induction es with
  | nil => rfl
  | cons e es ih => rw [argReads, ih, List.any_cons]

end Expr

def Grammar.Symbol.trees : (s : Symbol) → s.Tree → List Expr
  | .arguments => id
  | .chain _ | .signed | .primary => fun e => [e]

end Spreadsheet
