import Spreadsheet.Proofs.Extremes
import Spreadsheet.Proofs.Precedents
import Spreadsheet.Sheet.Script

namespace Spreadsheet

namespace Expr

def isSelection : Expr → Bool
  | .cell _ | .range _ => true
  | _ => false

end Expr

namespace Grid

def selected (g : Grid) (es : List Expr) : List Address :=
  es.flatMap fun e => (e.listed g).filter g.inBounds

def selectedNumbers (g : Grid) (es : List Expr) : List Binary64 :=
  (g.selected es).filterMap g.leadingNumber?

variable {g : Grid} {es es' : List Expr} {e : Expr} {a : Address} {n : Binary64}

theorem count_listed (e : Expr) (ha : g.inBounds a = true) :
    (e.listed g).count a = if e.names a then 1 else 0 := by
  cases e with
  | cell b => rw [Expr.listed, Expr.names, List.count_singleton]
  | range r =>
    have hnodup : (r.cells.filter g.inBounds).Nodup := r.nodup_cells.filter _
    have hmem : a ∈ r.cells.filter g.inBounds ↔ r.contains a = true := by
      rw [List.mem_filter, Range.mem_cells, and_iff_left ha]
    rw [Expr.listed, Expr.names, hnodup.count]
    exact if_congr hmem rfl rfl
  | _ => rfl

theorem count_selected (g : Grid) (es : List Expr) (a : Address) :
    (g.selected es).count a = if g.inBounds a then es.countP (Expr.names a) else 0 := by
  induction es with
  | nil => simp [selected]
  | cons e es ih =>
    have hcons : g.selected (e :: es) = (e.listed g).filter g.inBounds ++ g.selected es :=
      List.flatMap_cons
    rw [hcons, List.count_append, ih]
    by_cases ha : g.inBounds a = true
    · rw [List.count_filter ha, count_listed e ha, if_pos ha, if_pos ha, List.countP_cons, Nat.add_comm]
    · have hnone : a ∉ (e.listed g).filter g.inBounds := fun hmem => ha (List.mem_filter.1 hmem).2
      rw [List.count_eq_zero_of_not_mem hnone, if_neg ha, if_neg ha]

theorem selected_perm (h : ∀ a, g.inBounds a = true →
    es'.countP (Expr.names a) = es.countP (Expr.names a)) : (g.selected es').Perm (g.selected es) := by
  rw [List.perm_iff_count]
  intro a
  rw [count_selected, count_selected]
  split
  · next ha => exact h a ha
  · rfl

theorem mem_selectedNumbers :
    n ∈ g.selectedNumbers es ↔ ∃ a ∈ g.selected es, g.leadingNumber? a = some n :=
  List.mem_filterMap

theorem isFinite_of_mem_selectedNumbers (h : n ∈ g.selectedNumbers es) : n.isFinite = true := by
  obtain ⟨a, -, ha⟩ := mem_selectedNumbers.1 h
  obtain ⟨c, -, hn⟩ := Option.bind_eq_some_iff.1 ha
  exact Content.isFinite_of_leadingNumber? hn

end Grid

variable {g : Grid} {es es' : List Expr} {e : Expr}

theorem Argument.numbers_of_isSelection (h : e.isSelection = true) (value : Except Failure Scalar) :
    (⟨e, value⟩ : Argument).numbers g =
      .ok (((e.listed g).filter g.inBounds).filterMap g.leadingNumber?) := by
  cases e with
  | cell b =>
    have hcells : (Range.single b).cells = [b] := by
      simp [Range.single, Range.cells, Range.product, Range.height, Range.width, Range.minRow,
        Range.maxRow, Range.minCol, Range.maxCol]
    change Except.ok (g.numbersIn (.single b)) = _
    rw [Grid.numbersIn, g.cellsIn_eq_filter, hcells, Expr.listed]
  | range r =>
    change Except.ok (g.numbersIn r) = _
    rw [Grid.numbersIn, g.cellsIn_eq_filter, Expr.listed, List.filter_filter]
    simp only [Bool.and_self]
  | _ => cases h

theorem Value.ofResult_eq_of_same {x y : Binary64} (h : x.same y = true) :
    ofResult (.ok (.number x)) = ofResult (.ok (.number y)) := by
  simp only [ofResult, Binary64.isFinite_eq_of_same h, Binary64.round4_eq_of_same h]

namespace Expr

variable {resolve : Address → Binary64} {f : String} {kind : Aggregate}

theorem eval_aggregate_of_isSelection (hf : Function.ofName? f = some (.aggregate kind)) (hne : es ≠ [])
    (hes : ∀ e ∈ es, e.isSelection = true) :
    (call f es).eval g resolve = .ok (.number (kind.apply (g.selectedNumbers es))) := by
  let numbers (e : Expr) : List Binary64 :=
    ((e.listed g).filter g.inBounds).filterMap g.leadingNumber?
  have hnumbers : (evalArgs g resolve es).mapM (·.numbers g) = .ok (es.map numbers) := by
    rw [evalArgs_eq_map, List.mapM_map]
    apply mapM_eq_pure_map
    intro e he
    exact Argument.numbers_of_isSelection (hes e he) _
  have hflatten : (es.map numbers).flatten = g.selectedNumbers es := by
    rw [Grid.selectedNumbers, Grid.selected, List.filterMap_flatMap, List.flatMap_def]
  have hcons : (evalArgs g resolve es).isEmpty = false := by
    rw [evalArgs_eq_map, List.isEmpty_map, List.isEmpty_eq_false_iff]
    exact hne
  simp only [eval, hf, Function.call, Function.callAggregate, hcons, hnumbers]
  rw [← hflatten]
  rfl

structure Reduces (g : Grid) (resolve : Address → Binary64) (args : List Expr)
    (least greatest count : Binary64) : Prop where
  min : (call "MIN" args).eval g resolve = .ok (.number least)
  max : (call "MAX" args).eval g resolve = .ok (.number greatest)
  count : (call "COUNT" args).eval g resolve = .ok (.number count)

theorem Reduces.unique {least least' greatest greatest' count count' : Binary64}
    (h : Reduces g resolve es least greatest count) (h' : Reduces g resolve es least' greatest' count') :
    least = least' ∧ greatest = greatest' ∧ count = count' := by
  have hmin := h.min.symm.trans h'.min
  have hmax := h.max.symm.trans h'.max
  have hcount := h.count.symm.trans h'.count
  rw [Except.ok.injEq, Scalar.number.injEq] at hmin hmax hcount
  exact ⟨hmin, hmax, hcount⟩

theorem reduces_of_isSelection (g : Grid) (resolve : Address → Binary64) (hne : es ≠ [])
    (hes : ∀ e ∈ es, e.isSelection = true) :
    Reduces g resolve es (Aggregate.min.apply (g.selectedNumbers es))
      (Aggregate.max.apply (g.selectedNumbers es)) (.ofNat (g.selectedNumbers es).length) where
  min := eval_aggregate_of_isSelection (by decide) hne hes
  max := eval_aggregate_of_isSelection (by decide) hne hes
  count := by
    rw [← Aggregate.apply_count]
    exact eval_aggregate_of_isSelection (by decide) hne hes

end Expr

namespace Grid

theorem isLeast_and_isGreatest_selected (h : ∃ a ∈ g.selected es, ∃ n, g.leadingNumber? a = some n) :
    IsLeast {n | ∃ a ∈ g.selected es, g.leadingNumber? a = some n}
        (Aggregate.min.apply (g.selectedNumbers es)) ∧
      IsGreatest {n | ∃ a ∈ g.selected es, g.leadingNumber? a = some n}
        (Aggregate.max.apply (g.selectedNumbers es)) := by
  obtain ⟨a, ha, n, hn⟩ := h
  have hne : g.selectedNumbers es ≠ [] := List.ne_nil_of_mem (mem_selectedNumbers.2 ⟨a, ha, hn⟩)
  have hfinite : ∀ n ∈ g.selectedNumbers es, n.isFinite = true :=
    fun n hn => isFinite_of_mem_selectedNumbers hn
  simp only [← mem_selectedNumbers]
  exact ⟨Aggregate.isLeast_apply_min hne hfinite, Aggregate.isGreatest_apply_max hne hfinite⟩

/-- MIN, MAX and COUNT of ranges and single cells go by how often each cell of the grid is selected. MIN and
MAX give the least and the greatest of the numbers that lead the selected cells, zero if there are none, and
COUNT how many there are. Another selection of the same cells gives the same. -/
theorem reductions_by_selection (g : Grid) (resolve : Address → Binary64) (args : List Expr)
    (hne : args ≠ []) (hargs : ∀ e ∈ args, e.isSelection = true) :
    (∀ a, (g.selected args).count a = if g.inBounds a then args.countP (Expr.names a) else 0) ∧
    ∃ least greatest count, Expr.Reduces g resolve args least greatest count ∧
      ((∃ a ∈ g.selected args, ∃ n, g.leadingNumber? a = some n) →
        IsLeast {n | ∃ a ∈ g.selected args, g.leadingNumber? a = some n} least ∧
        IsGreatest {n | ∃ a ∈ g.selected args, g.leadingNumber? a = some n} greatest) ∧
      count = .ofNat ((g.selected args).countP fun a => (g.leadingNumber? a).isSome) ∧
      ((∀ a ∈ g.selected args, g.leadingNumber? a = none) →
        least = 0 ∧ greatest = 0 ∧ count = 0) ∧
      ∀ args' : List Expr, args' ≠ [] → (∀ e ∈ args', e.isSelection = true) →
        (∀ a, g.inBounds a = true → args'.countP (Expr.names a) = args.countP (Expr.names a)) →
        ∃ least' greatest' count', Expr.Reduces g resolve args' least' greatest' count' ∧
          least'.same least = true ∧ greatest'.same greatest = true ∧ count' = count ∧
          ∀ f ∈ ["MIN", "MAX", "COUNT"], Value.ofResult ((Expr.call f args').eval g resolve) =
            Value.ofResult ((Expr.call f args).eval g resolve) := by
  have hreduces := Expr.reduces_of_isSelection g resolve hne hargs
  refine ⟨g.count_selected args, _, _, _, hreduces, isLeast_and_isGreatest_selected, ?_, fun hnone => ?_,
    fun args' hne' hargs' hcount => ?_⟩
  · rw [selectedNumbers, List.length_filterMap_eq_countP]
  · have hnil : g.selectedNumbers args = [] := List.filterMap_eq_nil_iff.2 hnone
    rw [hnil, Aggregate.apply_nil, Aggregate.apply_nil]
    exact ⟨rfl, rfl, rfl⟩
  · have hreduces' := Expr.reduces_of_isSelection g resolve hne' hargs'
    have hperm : (g.selectedNumbers args').Perm (g.selectedNumbers args) :=
      (selected_perm hcount).filterMap _
    obtain ⟨hleast, hgreatest⟩ :=
      Aggregate.same_apply_of_perm hperm fun n hn => isFinite_of_mem_selectedNumbers hn
    refine ⟨_, _, _, hreduces', hleast, hgreatest, by rw [hperm.length_eq], ?_⟩
    simp only [List.forall_mem_cons, List.not_mem_nil, false_imp_iff, implies_true, and_true,
      hreduces.min, hreduces.max, hreduces.count, hreduces'.min, hreduces'.max, hreduces'.count,
      hperm.length_eq]
    exact ⟨Value.ofResult_eq_of_same hleast, Value.ofResult_eq_of_same hgreatest⟩

end Grid

namespace Sheet

def readings : Sheet :=
  (ofColumns "Readings" ["Morning", "Evening"]).run
    [.addRow, .addRow, .setInput "A1" "3", .setInput "B1" "none", .setInput "A2" "5 kg",
      .setInput "B2" "-1"]

def wholeSheet : List Expr :=
  [.range ⟨⟨1, 1⟩, ⟨0, 0⟩⟩, .cell ⟨0, 0⟩]

def columnwise : List Expr :=
  [.cell ⟨0, 0⟩, .range ⟨⟨1, 0⟩, ⟨1, 8⟩⟩, .range ⟨⟨0, 8⟩, ⟨0, 0⟩⟩]

theorem reduces_wholeSheet :
    Expr.Reduces readings.grid readings.grid.referenceValue wholeSheet (-1) 5 4 where
  min := by decide +kernel
  max := by decide +kernel
  count := by decide +kernel

theorem reductions_by_selection_readings :
    wholeSheet ≠ [] ∧ (∀ e ∈ wholeSheet, e.isSelection = true) ∧
    columnwise ≠ [] ∧ (∀ e ∈ columnwise, e.isSelection = true) ∧
    (∀ a, readings.grid.inBounds a = true →
      columnwise.countP (Expr.names a) = wholeSheet.countP (Expr.names a)) ∧
    (∃ a ∈ readings.grid.selected wholeSheet, ∃ n, readings.grid.leadingNumber? a = some n) ∧
    ∃ least greatest count,
      Expr.Reduces readings.grid readings.grid.referenceValue columnwise least greatest count ∧
      least.same (-1) = true ∧ greatest.same 5 = true ∧ count = 4 := by
  have hargs : ∀ e ∈ wholeSheet, e.isSelection = true := by decide
  have hargs' : ∀ e ∈ columnwise, e.isSelection = true := by decide
  have hcount : ∀ a, readings.grid.inBounds a = true →
      columnwise.countP (Expr.names a) = wholeSheet.countP (Expr.names a) := by
    rintro ⟨col, row⟩ ha
    rw [Grid.inBounds_eq_true_iff] at ha
    have hcells : ∀ row < 2, ∀ col < 2, columnwise.countP (Expr.names ⟨col, row⟩) =
        wholeSheet.countP (Expr.names ⟨col, row⟩) := by decide
    exact hcells row ha.1 col ha.2
  obtain ⟨-, least, greatest, count, hreduces, -, -, -, hsame⟩ :=
    Grid.reductions_by_selection readings.grid readings.grid.referenceValue wholeSheet (by decide) hargs
  obtain ⟨least', greatest', count', hreduces', hleast, hgreatest, hnumber, -⟩ :=
    hsame columnwise (by decide) hargs' hcount
  obtain ⟨hmin, hmax, hfour⟩ := hreduces.unique reduces_wholeSheet
  rw [hmin] at hleast
  rw [hmax] at hgreatest
  exact ⟨by decide, hargs, by decide, hargs', hcount, ⟨⟨0, 0⟩, by decide +kernel, 3, by decide +kernel⟩,
    least', greatest', count', hreduces', hleast, hgreatest, hnumber.trans hfour⟩

end Sheet

end Spreadsheet
