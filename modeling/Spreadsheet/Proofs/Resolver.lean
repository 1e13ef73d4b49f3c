import Mathlib.Data.List.Basic
import Spreadsheet.Proofs.Tree
import Spreadsheet.Sheet.Script

namespace Spreadsheet

namespace Function

/-- In this place, counted from zero, the function takes a cell for itself and not for a number. -/
def takesCell : Function → Nat → Bool
  | .aggregate _, _ => true
  | .sumIf, i => i == 0 || i == 2
  | .vlookup, i | .match, i => i == 0 || i == 1
  | .index, i => i == 0

end Function

namespace Expr

def takesCellAt (f : String) (i : Nat) : Bool :=
  match Function.ofName? f with
  | some f => f.takesCell i
  | none => false

/-- The cell occurs in the expression in a place where it stands for a number. -/
inductive ScalarCell (a : Address) : Expr → Prop
  | cell : ScalarCell a (.cell a)
  | neg {e : Expr} (h : ScalarCell a e) : ScalarCell a (.neg e)
  | left {op : Operator} {l r : Expr} (h : ScalarCell a l) : ScalarCell a (.binary op l r)
  | right {op : Operator} {l r : Expr} (h : ScalarCell a r) : ScalarCell a (.binary op l r)
  | argument {f : String} {args : List Expr} {i : Nat} {e : Expr} (he : args[i]? = some e)
      (hplace : e = .cell a → takesCellAt f i = false) (h : ScalarCell a e) :
      ScalarCell a (.call f args)

end Expr

namespace Argument

inductive SameFor : Bool → Argument → Argument → Prop
  | refl {takesCell : Bool} (a : Argument) : SameFor takesCell a a
  | cell (c : Address) (value value' : Except Failure Scalar) :
      SameFor true ⟨.cell c, value⟩ ⟨.cell c, value'⟩

inductive SameAll : (Nat → Bool) → List Argument → List Argument → Prop
  | nil {takesCell : Nat → Bool} : SameAll takesCell [] []
  | cons {takesCell : Nat → Bool} {a a' : Argument} {args args' : List Argument}
      (h : SameFor (takesCell 0) a a') (hargs : SameAll (fun i => takesCell (i + 1)) args args') :
      SameAll takesCell (a :: args) (a' :: args')

variable {g : Grid} {a a' : Argument}

theorem SameFor.eq (h : SameFor false a a') : a = a' := by
  cases h
  rfl

theorem SameFor.range_eq {b : Bool} (h : SameFor b a a') (function : String) :
    a.range function = a'.range function := by
  cases h <;> rfl

theorem SameFor.key_eq {b : Bool} (h : SameFor b a a') : a.key g = a'.key g := by
  cases h <;> rfl

theorem SameFor.numbers_eq {b : Bool} (h : SameFor b a a') : a.numbers g = a'.numbers g := by
  cases h <;> rfl

theorem SameAll.mapM_numbers_eq {takesCell : Nat → Bool} {args args' : List Argument}
    (h : SameAll takesCell args args') : args.mapM (·.numbers g) = args'.mapM (·.numbers g) := by
  induction h with
  | nil => rfl
  | cons h _ ih => rw [List.mapM_cons, List.mapM_cons, h.numbers_eq, ih]

theorem sameAll_map {takesCell : Nat → Bool} {es : List Expr} {value value' : Expr → Except Failure Scalar}
    (h : ∀ i e, es[i]? = some e → SameFor (takesCell i) ⟨e, value e⟩ ⟨e, value' e⟩) :
    SameAll takesCell (es.map fun e => ⟨e, value e⟩) (es.map fun e => ⟨e, value' e⟩) := by
  induction es generalizing takesCell with
  | nil => exact .nil
  | cons e es ih =>
    rw [List.map_cons, List.map_cons]
    exact .cons (h 0 e rfl) (ih fun i e he => h (i + 1) e he)

end Argument

namespace Function

open Argument

variable {g : Grid} {args args' : List Argument}

theorem callAggregate_eq_of_sameAll {takesCell : Nat → Bool} (kind : Aggregate)
    (h : SameAll takesCell args args') : callAggregate g kind args = callAggregate g kind args' := by
  have hempty : args.isEmpty = args'.isEmpty := by cases h <;> rfl
  rw [callAggregate, callAggregate, h.mapM_numbers_eq, hempty]

theorem call_eq_of_sameAll {f : Function} (h : SameAll f.takesCell args args') :
    f.call g args = f.call g args' := by
  cases f with
  | aggregate kind => exact callAggregate_eq_of_sameAll kind h
  | sumIf =>
    rcases h with _ | ⟨hcondition, _ | ⟨hcriterion, _ | ⟨hsummed, _ | _⟩⟩⟩
    · rfl
    · rfl
    · cases SameFor.eq hcriterion
      simp only [call, callSumIf, hcondition.range_eq]
    · cases SameFor.eq hcriterion
      simp only [call, callSumIf, hcondition.range_eq, hsummed.range_eq]
    · rfl
  | vlookup =>
    rcases h with _ | ⟨hkey, _ | ⟨htable, _ | ⟨hcolumn, _ | ⟨happroximate, _ | _⟩⟩⟩⟩
    · rfl
    · rfl
    · rfl
    · cases SameFor.eq hcolumn
      simp only [call, callVlookup, hkey.key_eq, htable.range_eq]
    · cases SameFor.eq hcolumn
      cases SameFor.eq happroximate
      simp only [call, callVlookup, hkey.key_eq, htable.range_eq]
    · rfl
  | index =>
    rcases h with _ | ⟨hrange, _ | ⟨hrow, _ | ⟨hcolumn, _ | _⟩⟩⟩
    · rfl
    · rfl
    · cases SameFor.eq hrow
      simp only [call, callIndex, hrange.range_eq]
    · cases SameFor.eq hrow
      cases SameFor.eq hcolumn
      simp only [call, callIndex, hrange.range_eq]
    · rfl
  | «match» =>
    rcases h with _ | ⟨hkey, _ | ⟨hrange, _ | ⟨hkind, _ | _⟩⟩⟩
    · rfl
    · rfl
    · simp only [call, callMatch, hkey.key_eq, hrange.range_eq]
    · cases SameFor.eq hkind
      simp only [call, callMatch, hkey.key_eq, hrange.range_eq]
    · rfl

end Function

namespace Expr

section

variable {a c : Address} {op : Operator} {l r : Expr} {f : String} {args : List Expr}

@[simp] theorem scalarCell_cell : ScalarCell a (.cell c) ↔ c = a :=
  ⟨fun h => by cases h; rfl, fun h => h ▸ .cell⟩

@[simp] theorem not_scalarCell_number {n : Binary64} : ¬ScalarCell a (.number n) := nofun

@[simp] theorem not_scalarCell_range {range : Range} : ¬ScalarCell a (.range range) := nofun

@[simp] theorem scalarCell_binary :
    ScalarCell a (.binary op l r) ↔ ScalarCell a l ∨ ScalarCell a r :=
  ⟨fun | .left h => .inl h | .right h => .inr h, fun h => h.elim .left .right⟩

theorem scalarCell_call : ScalarCell a (.call f args) ↔
    ∃ p ∈ args.zipIdx, (p.1 = .cell a → takesCellAt f p.2 = false) ∧ ScalarCell a p.1 := by
  constructor
  · rintro (_ | _ | _ | _ | ⟨he, hplace, h⟩)
    exact ⟨(_, _), List.mem_zipIdx_iff_getElem?.2 he, hplace, h⟩
  · rintro ⟨p, hp, hplace, h⟩
    exact .argument (List.mem_zipIdx_iff_getElem?.1 hp) hplace h

end

section

variable {g : Grid} {resolve resolve' : Address → Binary64} {e : Expr}

theorem eval_congr_scalarCell (h : ∀ a, ScalarCell a e → resolve a = resolve' a) :
    e.eval g resolve = e.eval g resolve' := by
  induction e using induction_parts with
  | h e ih =>
  cases e with
  | number n => rfl
  | text s => rfl
  | range r => rfl
  | cell a => rw [eval, eval, h a .cell]
  | neg e =>
    have he := ih e (by simp [parts]) fun a ha => h a (.neg ha)
    rw [eval, eval, he]
  | binary op l r =>
    have hl := ih l (by simp [parts]) fun a ha => h a (.left ha)
    have hr := ih r (by simp [parts]) fun a ha => h a (.right ha)
    simp only [eval, hl, hr]
  | call f args =>
    cases hf : Function.ofName? f with
    | none => simp only [eval, hf]
    | some function =>
      simp only [eval, hf, evalArgs_eq_map]
      apply Function.call_eq_of_sameAll
      apply Argument.sameAll_map
      intro i e he
      by_cases hcell : function.takesCell i = true ∧ ∃ c, e = .cell c
      · obtain ⟨htakes, c, rfl⟩ := hcell
        rw [htakes]
        exact .cell c _ _
      · have hplace : ∀ a, e = .cell a → takesCellAt f i = false := by
          rintro a rfl
          rw [takesCellAt, hf, ← Bool.not_eq_true]
          exact fun htakes => hcell ⟨htakes, a, rfl⟩
        rw [ih e (List.mem_of_getElem? he) fun a ha => h a (.argument he (hplace a) ha)]
        exact .refl _

def SameWith (e : Expr) (g : Grid) (resolve resolve' : Address → Binary64) : Prop :=
  e.eval g resolve = e.eval g resolve' ∧
  ∀ c body, c.formulaBody? = some body → parseBody body = .ok e →
    g.evaluateWith resolve c = g.evaluateWith resolve' c

/-- Resolvers that agree on the cells that stand for numbers in an expression cannot be told apart by it.
Without such cells every resolver will do. -/
theorem resolver_asked_for_scalars (e : Expr) (g : Grid) :
    (∀ resolve resolve' : Address → Binary64, (∀ a, ScalarCell a e → resolve a = resolve' a) →
      e.SameWith g resolve resolve') ∧
    ((∀ a, ¬ScalarCell a e) → ∀ resolve resolve' : Address → Binary64,
      e.SameWith g resolve resolve') := by
  have hagree : ∀ resolve resolve' : Address → Binary64,
      (∀ a, ScalarCell a e → resolve a = resolve' a) → e.SameWith g resolve resolve' := by
    intro resolve resolve' h
    have heval := eval_congr_scalarCell (g := g) h
    refine ⟨heval, fun c body hbody hparse => ?_⟩
    simp only [Grid.evaluateWith, hbody, hparse, heval]
  exact ⟨hagree, fun hnone resolve resolve' => hagree resolve resolve' fun a ha => absurd ha (hnone a)⟩

end

end Expr

namespace Sheet

def choice : Sheet :=
  (ofColumns "Choice" ["Price", "Row"]).run
    [.addRow, .addRow, .setInput "A1" "3", .setInput "A2" "4", .setInput "B1" "2"]

def firstPrice : Expr :=
  .call "SUM" [.cell ⟨0, 0⟩]

def chosen : Expr :=
  .binary .add firstPrice
    (.binary .mul (.call "INDEX" [.cell ⟨0, 0⟩, .number 1])
      (.call "INDEX" [.range ⟨⟨0, 0⟩, ⟨0, 1⟩⟩, .cell ⟨1, 0⟩]))

theorem not_scalarCell_firstPrice (a : Address) : ¬Expr.ScalarCell a firstPrice := by
  have hsum : Expr.takesCellAt "SUM" 0 = true := by decide
  simp [firstPrice, Expr.scalarCell_call, hsum]

theorem scalarCell_chosen_iff {a : Address} : Expr.ScalarCell a chosen ↔ ⟨1, 0⟩ = a := by
  have hrange : Expr.takesCellAt "INDEX" 0 = true := by decide
  have hrow : Expr.takesCellAt "INDEX" 1 = false := by decide
  simp [chosen, not_scalarCell_firstPrice, Expr.scalarCell_call, hrange, hrow]

theorem resolver_asked_for_scalars_chosen :
    (∀ a, Expr.ScalarCell a chosen → (if a = ⟨0, 0⟩ then 100 else choice.grid.referenceValue a) =
      choice.grid.referenceValue a) ∧
    chosen.eval choice.grid (fun a => if a = ⟨0, 0⟩ then 100 else choice.grid.referenceValue a) =
      .ok (.number 15) ∧
    (∀ a, ¬Expr.ScalarCell a firstPrice) ∧
    firstPrice.eval choice.grid (fun _ => 100) = .ok (.number 3) := by
  have hagree : ∀ a, Expr.ScalarCell a chosen →
      (if a = ⟨0, 0⟩ then 100 else choice.grid.referenceValue a) = choice.grid.referenceValue a := by
    intro a ha
    rw [← scalarCell_chosen_iff.1 ha]
    rfl
  refine ⟨hagree, ?_, not_scalarCell_firstPrice, ?_⟩
  · rw [((Expr.resolver_asked_for_scalars chosen choice.grid).1 _ _ hagree).1]
    decide +kernel
  · rw [((Expr.resolver_asked_for_scalars firstPrice choice.grid).2 not_scalarCell_firstPrice _
      choice.grid.referenceValue).1]
    decide +kernel

end Sheet

end Spreadsheet
