import Spreadsheet.Formula.Reads
import Spreadsheet.Proofs.Agreement
import Spreadsheet.Proofs.Success

/-! What the value of an expression depends on: the cells that it names and, where VLOOKUP is asked for
a column beside its table, the cell that it comes to there. -/

namespace Spreadsheet

variable {p : Address → Prop} {g g' : Grid}

namespace Argument

variable {a : Argument}

theorem reads_of_range? {r : Range} {b : Address} (h : a.range? = some r) (hb : r.contains b = true) :
    a.expr.reads b = true := by
  obtain ⟨e, value⟩ := a
  cases e with
  | range r' =>
    cases h
    rwa [Expr.reads]
  | cell c =>
    cases h
    rw [Range.contains_iff] at hb
    obtain ⟨col, row⟩ := b
    obtain ⟨col', row'⟩ := c
    simp only [Range.single, Range.minRow, Range.maxRow, Range.minCol, Range.maxCol, Nat.min_self,
      Nat.max_self] at hb
    simp only [Expr.reads, beq_iff_eq, Address.mk.injEq]
    omega
  | _ => cases h

theorem range?_of_range {function : String} {r : Range} (h : a.range function = .ok r) :
    a.range? = some r := by
  simp only [range] at h
  split at h
  next r' hr' =>
    cases h
    exact hr'
  · cases h

theorem reads_of_range {function : String} {r : Range} {b : Address}
    (h : a.range function = .ok r) (hb : r.contains b = true) : a.expr.reads b = true :=
  reads_of_range? (range?_of_range h) hb

theorem key_eq (h : Grid.Agree p g g') (ha : ∀ b, a.expr.reads b = true → p b) :
    a.key g = a.key g' := by
  obtain ⟨e, value⟩ := a
  cases e with
  | cell c =>
    have hc : g.found c = g'.found c := h.found c (ha c (by simp [Expr.reads]))
    simp only [key, hc]
  | _ => rcases value with (_ | _) | _ <;> rfl

theorem numbers_eq (h : Grid.Agree p g g') (ha : ∀ b, a.expr.reads b = true → p b) :
    a.numbers g = a.numbers g' := by
  simp only [numbers]
  split
  next r hr => rw [h.numbersIn_eq fun b hb => ha b (reads_of_range? hr hb)]
  · rfl

end Argument

namespace Function

structure Lookup where
  table : Range
  column : Nat
  cell : Address

def Lookup.beside? (l : Lookup) : Option Address :=
  if l.table.width < l.column then some l.cell else none

def lookup (g : Grid) (key table column : Argument) (approximate : Option Argument) :
    Except Failure Lookup := do
  let key ← key.key g
  let table ← table.range "VLOOKUP"
  let column ← column.position "VLOOKUP"
  let _ ← approximate.mapM Argument.text
  return ⟨table, column, ← Failure.ofShown (g.vlookup key table column)⟩

def beside? (g : Grid) : Function → List Argument → Option Address
  | .vlookup, [key, table, column] =>
    (lookup g key table column none).toOption.bind Lookup.beside?
  | .vlookup, [key, table, column, approximate] =>
    (lookup g key table column (some approximate)).toOption.bind Lookup.beside?
  | _, _ => none

theorem callVlookup_eq_map (g : Grid) (key table column : Argument)
    (approximate : Option Argument) : callVlookup g key table column approximate =
      (fun l => g.found l.cell) <$> lookup g key table column approximate := by
  simp only [callVlookup, lookup, map_bind, bind_pure_comp, Functor.map_map]

theorem lookup_eq_ok {key table column : Argument} {approximate : Option Argument} {l : Lookup}
    (h : lookup g key table column approximate = .ok l) :
    table.range "VLOOKUP" = .ok l.table ∧ ∃ k, g.vlookup k l.table l.column = .ok l.cell := by
  obtain ⟨k, -, h⟩ := exists_of_bind_eq_ok h
  obtain ⟨r, hr, h⟩ := exists_of_bind_eq_ok h
  obtain ⟨n, -, h⟩ := exists_of_bind_eq_ok h
  obtain ⟨-, -, h⟩ := exists_of_bind_eq_ok h
  obtain ⟨a, ha, h⟩ := exists_of_bind_eq_ok h
  cases h
  exact ⟨hr, k, eq_ok_of_mapError ha⟩

theorem call_of_beside? {f : Function} {args : List Argument} {a : Address}
    (h : f.beside? g args = some a) : f.call g args = .ok (g.found a) := by
  have hlookup {key table column : Argument} {approximate : Option Argument}
      (h : (lookup g key table column approximate).toOption.bind Lookup.beside? = some a) :
      callVlookup g key table column approximate = .ok (g.found a) := by
    rw [callVlookup_eq_map]
    cases hl : lookup g key table column approximate with
    | error e =>
      rw [hl] at h
      cases h
    | ok l =>
      rw [hl] at h
      simp only [Except.toOption, Option.bind_some, Lookup.beside?] at h
      split at h
      · cases h
        rfl
      · cases h
  simp only [beside?] at h
  split at h
  · exact hlookup h
  · exact hlookup h
  · cases h

section

variable (h : Grid.Agree p g g')

include h

theorem callAggregate_eq (kind : Aggregate) {args : List Argument}
    (hargs : ∀ a ∈ args, ∀ b, a.expr.reads b = true → p b) :
    callAggregate g kind args = callAggregate g' kind args := by
  have hnumbers : args.mapM (·.numbers g) = args.mapM (·.numbers g') := by
    induction args with
    | nil => rfl
    | cons a args ih =>
      have ha := Argument.numbers_eq h (hargs a List.mem_cons_self)
      have htail := ih fun b hb => hargs b (List.mem_cons_of_mem a hb)
      rw [List.mapM_cons, List.mapM_cons, ha, htail]
  simp only [callAggregate, hnumbers]

theorem callSumIf_eq {condition criterion : Argument} {summed : Option Argument}
    (hcondition : ∀ b, condition.expr.reads b = true → p b)
    (hsummed : ∀ a ∈ summed, ∀ b, a.expr.reads b = true → p b) :
    callSumIf g condition criterion summed = callSumIf g' condition criterion summed := by
  apply bind_congr_ok
  intro r hr
  have hr : ∀ b, r.contains b = true → p b :=
    fun b hb => hcondition b (Argument.reads_of_range hr hb)
  apply bind_congr_ok
  intro t _
  cases summed with
  | none =>
    apply bind_congr_ok
    intro r' hr'
    cases hr'
    simp only [h.sumIf_eq _ hr hr]
  | some a =>
    apply bind_congr_ok
    intro r' hr'
    have hr' : ∀ b, r'.contains b = true → p b :=
      fun b hb => hsummed a rfl b (Argument.reads_of_range hr' hb)
    simp only [h.sumIf_eq _ hr hr']

theorem search_eq {α : Type} {key range : Argument} {function : String}
    {f f' : String → Range → Except Failure α}
    (hkey : ∀ b, key.expr.reads b = true → p b) (hrange : ∀ b, range.expr.reads b = true → p b)
    (hf : ∀ k r, (∀ b, r.contains b = true → p b) → f k r = f' k r) :
    (do f (← key.key g) (← range.range function)) =
      (do f' (← key.key g') (← range.range function)) := by
  rw [Argument.key_eq h hkey]
  apply bind_congr_ok
  intro k _
  apply bind_congr_ok
  intro r hr
  exact hf k r fun b hb => hrange b (Argument.reads_of_range hr hb)

theorem lookup_eq {key table column : Argument} (approximate : Option Argument)
    (hkey : ∀ b, key.expr.reads b = true → p b) (htable : ∀ b, table.expr.reads b = true → p b) :
    lookup g key table column approximate = lookup g' key table column approximate :=
  search_eq h hkey htable fun k r hr => by simp only [h.vlookup_eq k _ hr]

theorem callVlookup_eq {key table column : Argument} {approximate : Option Argument}
    (hkey : ∀ b, key.expr.reads b = true → p b) (htable : ∀ b, table.expr.reads b = true → p b)
    (hbeside : ∀ b ∈ (lookup g key table column approximate).toOption.bind Lookup.beside?,
      g.found b = g'.found b) :
    callVlookup g key table column approximate = callVlookup g' key table column approximate := by
  rw [callVlookup_eq_map, callVlookup_eq_map, ← lookup_eq h approximate hkey htable]
  cases hl : lookup g key table column approximate with
  | error e => rfl
  | ok l =>
    apply congrArg Except.ok
    by_cases hcolumn : l.table.width < l.column
    · exact hbeside l.cell (by simp [hl, Except.toOption, Lookup.beside?, hcolumn])
    · obtain ⟨hr, k, hk⟩ := lookup_eq_ok hl
      have hin := Grid.contains_of_vlookup hk (Nat.le_of_not_lt hcolumn)
      exact h.found l.cell (htable l.cell (Argument.reads_of_range hr hin))

theorem callIndex_eq {range row : Argument} {column : Option Argument}
    (hrange : ∀ b, range.expr.reads b = true → p b) :
    callIndex g range row column = callIndex g' range row column := by
  apply bind_congr_ok
  intro r hr
  have hr : ∀ b, r.contains b = true → p b := fun b hb => hrange b (Argument.reads_of_range hr hb)
  have hfound (i j : Nat) :
      (do return g.found (← Failure.ofShown (g.index r i j)) : Except Failure Scalar) =
        (do return g'.found (← Failure.ofShown (g'.index r i j))) := by
    rw [h.index_eq]
    apply bind_congr_ok
    intro a ha
    rw [h.found a (hr a (Grid.contains_of_index (eq_ok_of_mapError ha)))]
  apply bind_congr_ok
  intro i _
  cases column with
  | none => exact hfound i 1
  | some a =>
    apply bind_congr_ok
    intro j _
    exact hfound i j

theorem callMatch_eq {key range : Argument} {kind : Option Argument}
    (hkey : ∀ b, key.expr.reads b = true → p b) (hrange : ∀ b, range.expr.reads b = true → p b) :
    callMatch g key range kind = callMatch g' key range kind :=
  search_eq h hkey hrange fun k r hr => by simp only [h.matchPosition_eq k _ hr]

theorem beside?_eq {f : Function} {args : List Argument}
    (hargs : ∀ a ∈ args, ∀ b, a.expr.reads b = true → p b) :
    f.beside? g args = f.beside? g' args := by
  simp only [beside?]
  split
  next key table column =>
    rw [lookup_eq h none (hargs key (by simp)) (hargs table (by simp))]
  next key table column approximate =>
    rw [lookup_eq h (some approximate) (hargs key (by simp)) (hargs table (by simp))]
  · rfl

theorem call_eq {f : Function} {args : List Argument}
    (hargs : ∀ a ∈ args, ∀ b, a.expr.reads b = true → p b)
    (hbeside : ∀ b ∈ f.beside? g args, g.found b = g'.found b) :
    f.call g args = f.call g' args := by
  simp only [call]
  split
  · exact callAggregate_eq h _ hargs
  next condition criterion =>
    exact callSumIf_eq h (hargs condition (by simp)) (by simp)
  next condition criterion summed =>
    refine callSumIf_eq h (hargs condition (by simp)) ?_
    rintro a ⟨⟩
    exact hargs summed (by simp)
  · rfl
  next key table column =>
    exact callVlookup_eq h (hargs key (by simp)) (hargs table (by simp)) hbeside
  next key table column approximate =>
    exact callVlookup_eq h (hargs key (by simp)) (hargs table (by simp)) hbeside
  · rfl
  next range row => exact callIndex_eq h (hargs range (by simp))
  next range row column => exact callIndex_eq h (hargs range (by simp))
  · rfl
  next key range => exact callMatch_eq h (hargs key (by simp)) (hargs range (by simp))
  next key range kind => exact callMatch_eq h (hargs key (by simp)) (hargs range (by simp))
  · rfl

end

end Function

namespace Expr

mutual

def beside (g : Grid) (resolve : Address → Binary64) : Expr → List Address
  | .number _ | .text _ | .cell _ | .range _ => []
  | .neg e => beside g resolve e
  | .binary _ l r => beside g resolve l ++ beside g resolve r
  | .call f args => argBeside g resolve args ++
    ((Function.ofName? f).bind fun f => f.beside? g (evalArgs g resolve args)).toList

def argBeside (g : Grid) (resolve : Address → Binary64) : List Expr → List Address
  | [] => []
  | e :: es => beside g resolve e ++ argBeside g resolve es

end

theorem reads_of_mem_evalArgs {resolve : Address → Binary64} {es : List Expr} {a : Argument}
    {b : Address} (ha : a ∈ evalArgs g resolve es) (hb : a.expr.reads b = true) :
    argReads b es = true := by
  induction es with
  | nil => cases ha
  | cons e es ih =>
    simp only [argReads, Bool.or_eq_true]
    simp only [evalArgs, List.mem_cons] at ha
    cases ha with
    | inl h =>
      cases h
      exact .inl hb
    | inr h => exact .inr (ih h)

variable {resolve resolve' : Address → Binary64}

mutual

theorem eval_eq (h : Grid.Agree p g g') (hresolve : ∀ a, p a → resolve a = resolve' a) {e : Expr}
    (hreads : ∀ a, e.reads a = true → p a)
    (hbeside : ∀ a ∈ e.beside g resolve, g.found a = g'.found a) :
    e.eval g resolve = e.eval g' resolve' := by
  match e with
  | .number n => rfl
  | .text s => rfl
  | .range r => rfl
  | .cell a =>
    simp only [eval, hresolve a (hreads a (by simp [reads]))]
  | .neg e =>
    simp only [reads] at hreads
    simp only [beside] at hbeside
    simp only [eval, eval_eq h hresolve hreads hbeside]
  | .binary op l r =>
    simp only [reads, Bool.or_eq_true] at hreads
    simp only [beside, List.mem_append] at hbeside
    have hl := eval_eq h hresolve (fun a ha => hreads a (.inl ha)) fun a ha => hbeside a (.inl ha)
    have hr := eval_eq h hresolve (fun a ha => hreads a (.inr ha)) fun a ha => hbeside a (.inr ha)
    simp only [eval, hl, hr]
  | .call f args =>
    simp only [reads] at hreads
    simp only [beside, List.mem_append, Option.mem_toList] at hbeside
    have hargs := evalArgs_eq h hresolve hreads fun a ha => hbeside a (.inl ha)
    cases hf : Function.ofName? f with
    | none => simp only [eval, hf]
    | some f =>
      simp only [eval, hf, ← hargs]
      apply Function.call_eq h
      · intro a ha b hb
        exact hreads b (reads_of_mem_evalArgs ha hb)
      · intro b hb
        exact hbeside b (.inr (by simpa [hf] using hb))

theorem evalArgs_eq (h : Grid.Agree p g g') (hresolve : ∀ a, p a → resolve a = resolve' a)
    {es : List Expr} (hreads : ∀ a, argReads a es = true → p a)
    (hbeside : ∀ a ∈ argBeside g resolve es, g.found a = g'.found a) :
    evalArgs g resolve es = evalArgs g' resolve' es := by
  match es with
  | [] => rfl
  | e :: es =>
    simp only [argReads, Bool.or_eq_true] at hreads
    simp only [argBeside, List.mem_append] at hbeside
    have he := eval_eq h hresolve (fun a ha => hreads a (.inl ha)) fun a ha => hbeside a (.inl ha)
    have hes := evalArgs_eq h hresolve (fun a ha => hreads a (.inr ha)) fun a ha => hbeside a (.inr ha)
    simp only [evalArgs, he, hes]

end

end Expr

theorem Grid.evaluate_congr {c : Content}
    (h : ∀ body e, c.formulaBody? = some body → Expr.parseBody body = .ok e →
      e.eval g g.referenceValue = e.eval g' g'.referenceValue) :
    g.evaluate c = g'.evaluate c := by
  simp only [evaluate, evaluateWith]
  split
  · rfl
  · next body hbody =>
    split
    · next e hparse => rw [h body e hbody hparse]
    · rfl

end Spreadsheet
