import Mathlib.Data.List.Basic
import Spreadsheet.Evaluate

/-! Grids that look alike where a formula looks. All that a formula sees of a cell is the number that
leads it, its text and the literal in it, so absent and empty cells look alike too. -/

namespace Spreadsheet

namespace Range

theorem contains_iff {r : Range} {a : Address} : r.contains a = true ↔
    (r.minRow ≤ a.row ∧ a.row ≤ r.maxRow) ∧ r.minCol ≤ a.col ∧ a.col ≤ r.maxCol := by
  simp only [contains, Bool.and_eq_true, decide_eq_true_eq, and_assoc]

theorem minRow_le_maxRow (r : Range) : r.minRow ≤ r.maxRow :=
  Nat.le_trans (Nat.min_le_left _ _) (Nat.le_max_left _ _)

theorem minCol_le_maxCol (r : Range) : r.minCol ≤ r.maxCol :=
  Nat.le_trans (Nat.min_le_left _ _) (Nat.le_max_left _ _)

theorem contains_counterpart {origin target : Range} {a : Address}
    (hheight : target.height = origin.height) (hwidth : target.width = origin.width)
    (ha : origin.contains a = true) : target.contains (origin.counterpart target a) = true := by
  rw [contains_iff] at *
  simp only [counterpart, height, width] at *
  have hrow := target.minRow_le_maxRow
  have hcol := target.minCol_le_maxCol
  omega

end Range

namespace Grid

theorem mem_clip {lo hi len n : Nat} : n ∈ clip lo hi len ↔ lo ≤ n ∧ n ≤ hi ∧ n < len := by
  simp only [clip, List.mem_range'_1]
  omega

theorem mem_cellsIn {g : Grid} {r : Range} {a : Address} :
    a ∈ g.cellsIn r ↔ r.contains a = true ∧ g.inBounds a = true := by
  obtain ⟨col, row⟩ := a
  rw [Range.contains_iff]
  simp only [cellsIn, Range.product, List.mem_flatMap, List.mem_map, mem_clip, Address.mk.injEq,
    inBounds, Bool.and_eq_true, decide_eq_true_eq]
  constructor
  · rintro ⟨_, ⟨hlo, hhi, hrow⟩, _, ⟨hleft, hright, hcol⟩, rfl, rfl⟩
    exact ⟨⟨⟨hlo, hhi⟩, hleft, hright⟩, hrow, hcol⟩
  · rintro ⟨⟨⟨hlo, hhi⟩, hleft, hright⟩, hrow, hcol⟩
    exact ⟨row, ⟨hlo, hhi, hrow⟩, col, ⟨hleft, hright, hcol⟩, rfl, rfl⟩

theorem contains_of_mem_firstColumn {g : Grid} {r : Range} {a : Address} (h : a ∈ g.firstColumn r) :
    r.contains a = true := by
  simp only [firstColumn, List.mem_map, mem_clip] at h
  obtain ⟨row, ⟨hlo, hhi, -⟩, rfl⟩ := h
  exact Range.contains_iff.2 ⟨⟨hlo, hhi⟩, Nat.le_refl _, r.minCol_le_maxCol⟩

theorem eq_of_inside {g : Grid} {a b : Address} (h : g.inside a = .ok b) : a = b := by
  simp only [inside] at h
  split at h
  · cases h
    rfl
  · cases h

theorem contains_of_index {g : Grid} {r : Range} {row column : Nat} {a : Address}
    (h : g.index r row column = .ok a) : r.contains a = true := by
  simp only [index] at h
  split at h
  · cases h
  next hsize =>
  rw [← eq_of_inside h, Range.contains_iff]
  simp only [Range.height, Range.width] at hsize
  have hrow := r.minRow_le_maxRow
  have hcol := r.minCol_le_maxCol
  simp only
  omega

theorem contains_of_vlookup {g : Grid} {key : String} {r : Range} {column : Nat} {a : Address}
    (h : g.vlookup key r column = .ok a) (hcolumn : column ≤ r.width) : r.contains a = true := by
  simp only [vlookup] at h
  split at h
  · cases h
  next hzero =>
  split at h
  · cases h
  next hit hhit =>
  have hmem := contains_of_mem_firstColumn (List.mem_filter.1 (List.mem_of_mem_head? hhit)).1
  rw [← eq_of_inside h]
  rw [Range.contains_iff] at *
  simp only [Range.width] at hcolumn
  have hcol := r.minCol_le_maxCol
  simp only
  omega

structure Agree (p : Address → Prop) (g g' : Grid) : Prop where
  rowCount : g.rowCount = g'.rowCount
  colCount : g.colCount = g'.colCount
  leadingNumber? : ∀ a, p a → g.leadingNumber? a = g'.leadingNumber? a
  rawText : ∀ a, p a → g.rawText a = g'.rawText a
  found : ∀ a, p a → g.found a = g'.found a

theorem Agree.of_cell {p : Address → Prop} {g g' : Grid} (hrow : g.rowCount = g'.rowCount)
    (hcol : g.colCount = g'.colCount) (hcell : ∀ a, p a → g.cell a = g'.cell a) : Agree p g g' where
  rowCount := hrow
  colCount := hcol
  leadingNumber? a ha := by simp only [Grid.leadingNumber?, hcell a ha]
  rawText a ha := by simp only [Grid.rawText, hcell a ha]
  found a ha := by simp only [Grid.found, hcell a ha]

section

variable {p : Address → Prop} {g g' : Grid} {r : Range} (h : Agree p g g')

include h

theorem Agree.inBounds_eq (a : Address) : g.inBounds a = g'.inBounds a := by
  simp only [inBounds, h.rowCount, h.colCount]

theorem Agree.cellsIn_eq (r : Range) : g.cellsIn r = g'.cellsIn r := by
  simp only [cellsIn, h.rowCount, h.colCount]

theorem Agree.index_eq (r : Range) (row column : Nat) :
    g.index r row column = g'.index r row column := by
  simp only [index, inside, h.inBounds_eq]

theorem Agree.referenceValue_eq {a : Address} (ha : p a) :
    g.referenceValue a = g'.referenceValue a := by
  simp only [referenceValue, h.leadingNumber? a ha]

theorem Agree.accepts_eq (criterion : Criterion) {a : Address} (ha : p a) :
    criterion.accepts (g.cell a) = criterion.accepts (g'.cell a) := by
  cases criterion with
  | compare comparison t =>
    have hlead : (g.cell a).bind Content.leadingNumber? = (g'.cell a).bind Content.leadingNumber? :=
      h.leadingNumber? a ha
    simp only [Criterion.accepts, hlead]
  | equals text =>
    have hraw : ((g.cell a).map Content.rawText).getD "" = ((g'.cell a).map Content.rawText).getD "" :=
      h.rawText a ha
    simp only [Criterion.accepts, hraw]

theorem Agree.numbersIn_eq (hr : ∀ a, r.contains a = true → p a) :
    g.numbersIn r = g'.numbersIn r := by
  simp only [numbersIn, ← h.cellsIn_eq]
  apply List.filterMap_congr
  intro a ha
  exact h.leadingNumber? a (hr a (mem_cellsIn.1 ha).1)

theorem Agree.hits_eq (key : String) (hr : ∀ a, r.contains a = true → p a) :
    g.hits key r = g'.hits key r := by
  have hcolumn : g.firstColumn r = g'.firstColumn r := by
    simp only [firstColumn, h.rowCount]
  simp only [hits, ← hcolumn]
  apply List.filter_congr
  intro a ha
  rw [h.rawText a (hr a (contains_of_mem_firstColumn ha))]

theorem Agree.vlookup_eq (key : String) (column : Nat) (hr : ∀ a, r.contains a = true → p a) :
    g.vlookup key r column = g'.vlookup key r column := by
  simp only [vlookup, inside, h.hits_eq key hr, h.inBounds_eq]

theorem Agree.matchPosition_eq (key : String) (last : Bool) (hr : ∀ a, r.contains a = true → p a) :
    g.matchPosition key r last = g'.matchPosition key r last := by
  simp only [matchPosition, h.hits_eq key hr]

theorem Agree.sumIf_eq {summed : Range} (criterion : Criterion)
    (hr : ∀ a, r.contains a = true → p a) (hs : ∀ a, summed.contains a = true → p a) :
    g.sumIf r criterion summed = g'.sumIf r criterion summed := by
  simp only [sumIf]
  split
  next hsize =>
    have haccepts : (g.cellsIn r).filter (fun a => criterion.accepts (g.cell a)) =
        (g'.cellsIn r).filter (fun a => criterion.accepts (g'.cell a)) := by
      rw [← h.cellsIn_eq]
      apply List.filter_congr
      intro a ha
      exact h.accepts_eq criterion (hr a (mem_cellsIn.1 ha).1)
    rw [haccepts]
    apply congrArg Except.ok
    apply List.foldl_ext
    intro total a ha
    have hin := (mem_cellsIn.1 (List.mem_of_mem_filter ha)).1
    rw [h.referenceValue_eq (hs _ (Range.contains_counterpart hsize.1 hsize.2 hin))]
  next => rfl

end

end Grid

end Spreadsheet
