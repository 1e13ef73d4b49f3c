import Mathlib.Data.List.Forall2
import Mathlib.Data.Set.Card
import Spreadsheet.Proofs.Extremes
import Spreadsheet.Proofs.FiniteResult
import Spreadsheet.Proofs.Rectangle
import Spreadsheet.Sheet.Statistics

namespace Spreadsheet

section

variable {α β : Type}

theorem forall₂_filter_filterMap (f : α → Option β) (l : List α) :
    List.Forall₂ (fun a b => f a = some b) (l.filter fun a => (f a).isSome) (l.filterMap f) := by
  induction l with
  | nil => exact .nil
  | cons a l ih =>
    cases h : f a with
    | none => rwa [List.filter_cons_of_neg (by simp [h]), List.filterMap_cons_none h]
    | some b =>
      rw [List.filter_cons_of_pos (by simp [h]), List.filterMap_cons_some h]
      exact .cons h ih

theorem filterMap_eq_filterMap_range (f : α → Option β) (l : List α) :
    l.filterMap f = (List.range l.length).filterMap fun i => l[i]?.bind f := by
  have hplaces : l.map some = (List.range l.length).map (l[·]?) := by
    apply List.ext_getElem
    · simp
    · intro i hi hi'
      simp at hi
      simp [hi]
  have hmap : (l.map some).filterMap (·.bind f) = l.filterMap f := List.filterMap_map
  rw [← hmap, hplaces, List.filterMap_map]
  rfl

end

namespace Binary64

theorem round4_ne_nan {n : Binary64} (h : n.isFinite = true) : n.round4 ≠ .nan := by
  by_cases hround : n.Roundable
  · exact ne_nan_of_isFinite (isFinite_round4.2 hround)
  · cases n with
    | finite s u hu =>
      rw [round4_eq_infinite hround]
      exact nofun
    | _ => cases h

end Binary64

theorem Scalar.isFinite_of_ofText {s : String} {n : Binary64} (h : ofText s = .number n) :
    n.isFinite = true := by
  rw [ofText] at h
  dsimp only at h
  split at h
  · next m hm =>
    rw [← number.inj h]
    exact (Bool.and_eq_true_iff.1 (Option.filter_eq_some_iff.1 hm).2).1
  · split at h
    · rw [← number.inj h]
      decide +kernel
    · split at h
      · rw [← number.inj h]
        decide +kernel
      · cases h

namespace Value

variable {v : Value} {n : Binary64} {c : Content}

theorem number?_of_isBlank (h : v.isBlank = true) : v.number? = none := by
  cases v with
  | null => rfl
  | number n => cases h
  | text s =>
    rw [eq_of_beq h]
    decide
  | error e => cases h

theorem isError_of_number? (h : v.number? = some n) : v.isError = false := by
  cases v with
  | error e => cases h
  | _ => rfl

theorem ne_nan_of_number? (hv : v ≠ .number .nan) (h : v.number? = some n) : n ≠ .nan := by
  cases v with
  | number m =>
    cases h
    rintro rfl
    exact hv rfl
  | text s => exact Binary64.ne_nan_of_isFinite (Option.filter_eq_some_iff.1 h).2
  | _ => cases h

theorem ofLiteral_ne_nan (h : c ≠ .number .nan) : ofLiteral c ≠ .number .nan := by
  cases c with
  | empty => exact nofun
  | number n => exact fun hn => h (congrArg Content.number (Value.number.inj hn))
  | text s =>
    change (Scalar.ofText s).toValue ≠ _
    cases hscalar : Scalar.ofText s with
    | text t => exact nofun
    | number n =>
      exact fun hn => Binary64.ne_nan_of_isFinite (Scalar.isFinite_of_ofText hscalar) (Value.number.inj hn)

end Value

theorem Grid.evaluate_ne_nan {g : Grid} {c : Content} (h : c ≠ .number .nan) :
    g.evaluate c ≠ .number .nan := by
  cases hc : c.isFormula with
  | false =>
    rw [Content.isFormula, Option.isSome_eq_false_iff, Option.isNone_iff_eq_none] at hc
    simp only [evaluate, evaluateWith, hc]
    exact Value.ofLiteral_ne_nan h
  | true =>
    intro hvalue
    obtain ⟨n, hn⟩ := exists_unrounded?_of_evaluateWith hc hvalue
    rw [evaluate, evaluateWith_of_unrounded? hn] at hvalue
    split at hvalue
    · next hfinite => exact Binary64.round4_ne_nan hfinite (Value.number.inj hvalue)
    · cases hvalue

namespace Sheet

variable {s : Sheet} {r : Range} {a : Address} {n : Binary64} {col : Nat}

def shownCells (s : Sheet) (r : Range) : Set Address :=
  {a | r.contains a = true ∧ s.grid.inBounds a = true ∧ (s.evaluate a).isBlank = false}

def shownNumbers (s : Sheet) (r : Range) : Set Binary64 :=
  {n | ∃ a, r.contains a = true ∧ s.grid.inBounds a = true ∧ (s.evaluate a).isError = false ∧
    (s.evaluate a).number? = some n}

def storedNumbers (s : Sheet) (col : Nat) : Set Binary64 :=
  {n | ∃ row, (s.cell? ⟨col, row⟩).bind Content.number? = some n}

theorem number?_evaluate_ne_nan (hnan : ∀ a, s.cell? a ≠ some (.number .nan))
    (h : (s.evaluate a).number? = some n) : n ≠ .nan := by
  refine Value.ne_nan_of_number? ?_ h
  rw [evaluate]
  cases hc : s.cell? a with
  | none => simp
  | some c => exact Grid.evaluate_ne_nan fun hcell => hnan a (hc.trans (congrArg some hcell))

theorem shownValues_eq_map (s : Sheet) (r : Range) : s.shownValues r =
    ((s.grid.cellsIn r).filter fun a => !(s.evaluate a).isBlank).map s.evaluate :=
  List.filter_map

theorem encard_shownCells (s : Sheet) (r : Range) :
    (s.shownCells r).encard = (s.shownValues r).length := by
  let cells := (s.grid.cellsIn r).filter fun a => !(s.evaluate a).isBlank
  have hnodup : cells.Nodup := by
    apply List.Nodup.filter
    rw [Grid.cellsIn_eq_filter]
    exact r.nodup_cells.filter _
  have hcells : s.shownCells r = cells.toFinset := by
    ext a
    simp [cells, shownCells, Grid.mem_cellsIn, and_assoc]
  rw [shownValues_eq_map, List.length_map, hcells, Set.encard_coe_eq_coe_finsetCard,
    List.toFinset_card_of_nodup hnodup]

theorem mem_filterMap_shownValues :
    n ∈ (s.shownValues r).filterMap Value.number? ↔ n ∈ s.shownNumbers r := by
  simp only [shownValues_eq_map, List.filterMap_map, List.mem_filterMap, List.mem_filter,
    Grid.mem_cellsIn, Function.comp_apply, shownNumbers, Set.mem_ofPred_eq]
  constructor
  · rintro ⟨a, ⟨⟨hr, ha⟩, -⟩, hn⟩
    exact ⟨a, hr, ha, Value.isError_of_number? hn, hn⟩
  · rintro ⟨a, hr, ha, -, hn⟩
    refine ⟨a, ⟨⟨hr, ha⟩, ?_⟩, hn⟩
    cases hblank : (s.evaluate a).isBlank with
    | false => rfl
    | true =>
      rw [Value.number?_of_isBlank hblank] at hn
      cases hn

theorem count_selectionStats (s : Sheet) (r : Range) :
    (s.selectionStats r).count = (s.shownValues r).length := by
  simp only [selectionStats]
  split <;> rfl

theorem selectionStats_of_eq_empty (h : s.shownNumbers r = ∅) :
    s.selectionStats r = ⟨(s.shownValues r).length, none, none, none, none⟩ := by
  have hnil : (s.shownValues r).filterMap Value.number? = [] := by
    rw [List.eq_nil_iff_forall_not_mem]
    intro n hn
    rw [mem_filterMap_shownValues, h] at hn
    exact hn
  simp only [selectionStats, hnil]

theorem exists_selectionStats_eq (hnan : ∀ a, s.cell? a ≠ some (.number .nan))
    (h : (s.shownNumbers r).Nonempty) : ∃ sum average least greatest,
      s.selectionStats r =
        ⟨(s.shownValues r).length, some sum, some average, some least, some greatest⟩ ∧
      IsLeast (s.shownNumbers r) least ∧ IsGreatest (s.shownNumbers r) greatest := by
  have hnumbers : s.shownNumbers r = {n | n ∈ (s.shownValues r).filterMap Value.number?} :=
    Set.ext fun n => mem_filterMap_shownValues.symm
  have hne : ∀ n ∈ (s.shownValues r).filterMap Value.number?, n ≠ .nan := by
    intro n hn
    obtain ⟨a, -, -, -, ha⟩ := mem_filterMap_shownValues.1 hn
    exact number?_evaluate_ne_nan hnan ha
  rw [hnumbers] at h ⊢
  simp only [selectionStats]
  cases hlist : (s.shownValues r).filterMap Value.number? with
  | nil =>
    obtain ⟨n, hn⟩ := h
    rw [hlist] at hn
    cases hn
  | cons n ns =>
    rw [hlist] at hne
    exact ⟨_, _, _, _, rfl, Binary64.chooses_least.best_foldl hne, Binary64.chooses_greatest.best_foldl hne⟩

structure ExtentOf (s : Sheet) (col : Nat) (extent : ColumnExtent) : Prop where
  column : s.columns[col]? = some extent.column
  min : IsLeast (s.storedNumbers col) extent.min
  max : IsGreatest (s.storedNumbers col) extent.max
  finite : ∀ n ∈ s.storedNumbers col, n.isFinite = true

theorem isFinite_of_mem_storedNumbers (h : n ∈ s.storedNumbers col) : n.isFinite = true := by
  obtain ⟨row, hrow⟩ := h
  obtain ⟨c, -, hn⟩ := Option.bind_eq_some_iff.1 hrow
  exact Content.isFinite_of_number? hn

theorem storedNumbers_eq {name : String} (hcol : s.columns[col]? = some name) :
    s.storedNumbers col = {n | n ∈ s.columnNumbers name} := by
  have hcell : ∀ row, (s.cell? ⟨col, row⟩).bind Content.number? =
      s.rows[row]?.bind fun values => values[name]?.bind Content.number? := by
    intro row
    simp only [Table.cell?, hcol, Option.bind_eq_bind, Option.bind_some, Option.bind_assoc]
  ext n
  simp only [columnNumbers, List.mem_filterMap, storedNumbers, Set.mem_ofPred_eq, hcell,
    Array.mem_toList_iff, Array.mem_iff_getElem?]
  constructor
  · rintro ⟨row, hn⟩
    obtain ⟨values, hrow, hn⟩ := Option.bind_eq_some_iff.1 hn
    exact ⟨values, ⟨row, hrow⟩, hn⟩
  · rintro ⟨values, ⟨row, hrow⟩, hn⟩
    exact ⟨row, Option.bind_eq_some_iff.2 ⟨values, hrow, hn⟩⟩

theorem storedNumbers_eq_empty (hcol : s.columns[col]? = none) : s.storedNumbers col = ∅ := by
  ext n
  simp [storedNumbers, Table.cell?, hcol]

theorem isSome_columnExtent?_iff :
    (s.columns[col]?.bind s.columnExtent?).isSome = true ↔ (s.storedNumbers col).Nonempty := by
  cases hcol : s.columns[col]? with
  | none =>
    rw [storedNumbers_eq_empty hcol]
    exact iff_of_false Bool.false_ne_true Set.not_nonempty_empty
  | some name =>
    rw [storedNumbers_eq hcol, Option.bind_some, columnExtent?]
    cases s.columnNumbers name with
    | nil => exact iff_of_false Bool.false_ne_true fun ⟨n, hn⟩ => List.not_mem_nil hn
    | cons n ns => exact iff_of_true rfl ⟨n, List.mem_cons_self⟩

theorem extentOf_of_columnExtent? {name : String} {extent : ColumnExtent}
    (hcol : s.columns[col]? = some name) (h : s.columnExtent? name = some extent) :
    s.ExtentOf col extent := by
  have hfinite : ∀ n ∈ s.storedNumbers col, n.isFinite = true := fun n => isFinite_of_mem_storedNumbers
  have hstored := storedNumbers_eq hcol
  rw [columnExtent?] at h
  cases hnumbers : s.columnNumbers name with
  | nil =>
    rw [hnumbers] at h
    cases h
  | cons n ns =>
    rw [hnumbers] at h hstored
    cases h
    have hne : ∀ m ∈ n :: ns, m ≠ .nan := fun m hm =>
      Binary64.ne_nan_of_isFinite (hfinite m (hstored ▸ hm))
    exact ⟨hcol, hstored ▸ Binary64.chooses_least.best_foldl hne,
      hstored ▸ Binary64.chooses_greatest.best_foldl hne, hfinite⟩

theorem exists_columns_forall₂ (s : Sheet) : ∃ cols : List Nat, cols.Pairwise (· < ·) ∧
    (∀ col, col ∈ cols ↔ (s.storedNumbers col).Nonempty) ∧
    List.Forall₂ s.ExtentOf cols s.columnExtents := by
  let extent? (col : Nat) : Option ColumnExtent := s.columns[col]?.bind s.columnExtent?
  have hextents : s.columnExtents = (List.range s.columns.size).filterMap extent? := by
    rw [columnExtents, filterMap_eq_filterMap_range, Array.length_toList]
    simp only [Array.getElem?_toList]
    rfl
  refine ⟨(List.range s.columns.size).filter fun col => (extent? col).isSome,
    List.pairwise_lt_range.filter _, fun col => ?_, ?_⟩
  · rw [List.mem_filter, List.mem_range, isSome_columnExtent?_iff, and_iff_right_iff_imp]
    intro h
    rw [← Nat.not_le, ← Array.getElem?_eq_none_iff]
    intro hcol
    rw [storedNumbers_eq_empty hcol] at h
    exact Set.not_nonempty_empty h
  · rw [hextents]
    refine (forall₂_filter_filterMap extent? _).imp fun col extent h => ?_
    obtain ⟨name, hcol, hextent⟩ := Option.bind_eq_some_iff.1 h
    exact extentOf_of_columnExtent? hcol hextent

theorem selectionStats_eq_of_mem_spellings {r' : Range} (h : r' ∈ r.spellings) :
    s.selectionStats r' = s.selectionStats r := by
  have hvalues : s.shownValues r' = s.shownValues r := by
    rw [shownValues, shownValues, (Range.sameBounds_of_mem_spellings h).cellsIn_eq]
  rw [selectionStats, selectionStats, hvalues]

/-- The cells in a selection that show anything are counted, and if some of them show numbers, the least and
the greatest of these are given. The columns that store numbers have, in their order, the least and the
greatest number stored in each. -/
theorem summaries_exact (s : Sheet) (hnan : ∀ a, s.cell? a ≠ some (.number .nan)) :
    (∀ r : Range,
      (s.shownCells r).encard = (s.selectionStats r).count ∧
      (s.shownNumbers r = ∅ →
        s.selectionStats r = ⟨(s.selectionStats r).count, none, none, none, none⟩) ∧
      ((s.shownNumbers r).Nonempty → ∃ sum average least greatest,
        s.selectionStats r =
          ⟨(s.selectionStats r).count, some sum, some average, some least, some greatest⟩ ∧
        IsLeast (s.shownNumbers r) least ∧ IsGreatest (s.shownNumbers r) greatest) ∧
      ∀ r' ∈ r.spellings, s.selectionStats r' = s.selectionStats r) ∧
    ∃ cols : List Nat, cols.Pairwise (· < ·) ∧ (∀ col, col ∈ cols ↔ (s.storedNumbers col).Nonempty) ∧
      List.Forall₂ s.ExtentOf cols s.columnExtents := by
  refine ⟨fun r => ⟨?_, fun hnone => ?_, fun hsome => ?_, fun r' => selectionStats_eq_of_mem_spellings⟩,
    s.exists_columns_forall₂⟩
  · rw [encard_shownCells, count_selectionStats]
  · rw [count_selectionStats]
    exact selectionStats_of_eq_empty hnone
  · rw [count_selectionStats]
    exact exists_selectionStats_eq hnan hsome

def scores : Sheet :=
  (ofColumns "Scores" ["Name", "Score", "Bonus"]).run
    [.addRow, .addRow, .addRow, .setInput "A1" "ann", .setInput "B1" "10", .setInput "C1" "=B1/3",
      .setInput "A2" "bob", .setInput "B2" "5.5", .setInput "C2" "=1/0", .setInput "B3" "-2"]

def beyondScores : Range := ⟨⟨2, 9⟩, ⟨0, 0⟩⟩

theorem summaries_exact_scores :
    (∀ a, scores.cell? a ≠ some (.number .nan)) ∧
    (scores.shownCells beyondScores).encard = 7 ∧
    IsLeast (scores.shownNumbers beyondScores) (-2) ∧
    IsGreatest (scores.shownNumbers beyondScores) 10 ∧
    ∃ col, scores.columns[col]? = some "Score" ∧
      IsLeast (scores.storedNumbers col) (-2) ∧ IsGreatest (scores.storedNumbers col) 10 := by
  have hnan : ∀ a, scores.cell? a ≠ some (.number .nan) := by
    rintro ⟨col, row⟩ ha
    have hbounds := Grid.confined_table scores.toTable ⟨col, row⟩ _ ha
    rw [Grid.inBounds_eq_true_iff] at hbounds
    have hcells : ∀ row < 3, ∀ col < 3, scores.cell? ⟨col, row⟩ ≠ some (.number .nan) := by
      decide +kernel
    exact hcells row hbounds.1 col hbounds.2 ha
  have hstats : scores.selectionStats beyondScores =
      ⟨7, some 16.83, some 4.21, some (-2), some 10⟩ := by
    decide +kernel
  have hextents : scores.columnExtents = [⟨"Score", -2, 10⟩] := by decide +kernel
  obtain ⟨hselections, cols, -, -, hcolumns⟩ := summaries_exact scores hnan
  obtain ⟨hcount, hnone, hsome, -⟩ := hselections beyondScores
  have hne : (scores.shownNumbers beyondScores).Nonempty := by
    rw [Set.nonempty_iff_ne_empty]
    intro hempty
    have hmin := congrArg SelectionStats.min (hnone hempty)
    rw [hstats] at hmin
    exact Option.some_ne_none _ hmin
  obtain ⟨sum, average, least, greatest, heq, hleast, hgreatest⟩ := hsome hne
  rw [hstats] at heq hcount
  rw [← Option.some.inj (congrArg SelectionStats.min heq)] at hleast
  rw [← Option.some.inj (congrArg SelectionStats.max heq)] at hgreatest
  rw [hextents] at hcolumns
  obtain ⟨col, -, hextent, -, -⟩ := List.forall₂_cons_right_iff.1 hcolumns
  exact ⟨hnan, hcount, hleast, hgreatest, col, hextent.column, hextent.min, hextent.max⟩

end Sheet

end Spreadsheet
