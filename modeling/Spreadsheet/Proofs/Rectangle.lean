import Spreadsheet.Proofs.LeadingNumber
import Spreadsheet.Proofs.Word

namespace Spreadsheet

def Address.Before (a b : Address) : Prop :=
  a.row < b.row ∨ (a.row = b.row ∧ a.col < b.col)

namespace Range

variable {r s : Range} {a : Address}

theorem mem_product {rows cols : List Nat} : a ∈ product rows cols ↔ a.row ∈ rows ∧ a.col ∈ cols := by
  obtain ⟨col, row⟩ := a
  simp [product]

theorem length_product (rows cols : List Nat) :
    (product rows cols).length = rows.length * cols.length := by
  simp [product, List.length_flatMap, List.map_const']

theorem pairwise_product {rows cols : List Nat} (hrows : rows.Pairwise (· < ·))
    (hcols : cols.Pairwise (· < ·)) : (product rows cols).Pairwise Address.Before := by
  rw [product, List.pairwise_flatMap]
  constructor
  · intro row _
    rw [List.pairwise_map]
    exact hcols.imp fun hcol => .inr ⟨rfl, hcol⟩
  · refine hrows.imp fun hrow a ha b hb => .inl ?_
    obtain ⟨col, -, rfl⟩ := List.mem_map.1 ha
    obtain ⟨col', -, rfl⟩ := List.mem_map.1 hb
    exact hrow

theorem mem_cells : a ∈ r.cells ↔ r.contains a = true := by
  have hrow := r.minRow_le_maxRow
  have hcol := r.minCol_le_maxCol
  rw [cells, mem_product, contains_iff, List.mem_range'_1, List.mem_range'_1, height, width]
  omega

theorem length_cells (r : Range) : r.cells.length = r.height * r.width := by
  rw [cells, length_product, List.length_range', List.length_range']

theorem pairwise_cells (r : Range) : r.cells.Pairwise Address.Before :=
  pairwise_product (List.pairwise_lt_range' 1) (List.pairwise_lt_range' 1)

theorem nodup_cells (r : Range) : r.cells.Nodup :=
  r.pairwise_cells.imp fun h => by
    rintro rfl
    simp [Address.Before] at h

def spellings (r : Range) : List Range :=
  [r, ⟨r.stop, r.start⟩, ⟨⟨r.start.col, r.stop.row⟩, ⟨r.stop.col, r.start.row⟩⟩,
    ⟨⟨r.stop.col, r.start.row⟩, ⟨r.start.col, r.stop.row⟩⟩]

structure SameBounds (r s : Range) : Prop where
  minRow : r.minRow = s.minRow
  maxRow : r.maxRow = s.maxRow
  minCol : r.minCol = s.minCol
  maxCol : r.maxCol = s.maxCol

theorem sameBounds_of_mem_spellings (h : s ∈ r.spellings) : s.SameBounds r := by
  simp only [spellings, List.mem_cons, List.not_mem_nil, or_false] at h
  rcases h with rfl | rfl | rfl | rfl
  all_goals constructor <;> simp only [minRow, maxRow, minCol, maxCol] <;> omega

theorem contains_corners (r : Range) : r.contains ⟨r.minCol, r.minRow⟩ = true ∧
    r.contains ⟨r.maxCol, r.maxRow⟩ = true := by
  have hrow := r.minRow_le_maxRow
  have hcol := r.minCol_le_maxCol
  simp only [contains_iff]
  omega

theorem sameBounds_of_contains (h : ∀ a, s.contains a = r.contains a) : s.SameBounds r := by
  obtain ⟨hr, hr'⟩ := r.contains_corners
  obtain ⟨hs, hs'⟩ := s.contains_corners
  rw [h] at hs hs'
  rw [← h] at hr hr'
  rw [contains_iff] at hr hr' hs hs'
  simp only at hr hr' hs hs'
  constructor <;> omega

theorem ends_eq_of_bounds {a b c d : Nat} (hmin : min a b = min c d) (hmax : max a b = max c d) :
    (a = c ∧ b = d) ∨ (a = d ∧ b = c) := by
  omega

theorem mem_spellings_of_sameBounds (h : s.SameBounds r) : s ∈ r.spellings := by
  obtain ⟨⟨c, d⟩, ⟨c', d'⟩⟩ := s
  obtain ⟨rfl, rfl⟩ | ⟨rfl, rfl⟩ := ends_eq_of_bounds h.minCol h.maxCol
  all_goals
    obtain ⟨rfl, rfl⟩ | ⟨rfl, rfl⟩ := ends_eq_of_bounds h.minRow h.maxRow
    all_goals simp [spellings]

theorem SameBounds.contains_eq (h : s.SameBounds r) (a : Address) : s.contains a = r.contains a := by
  simp only [contains, h.minRow, h.maxRow, h.minCol, h.maxCol]

theorem mem_spellings_iff : s ∈ r.spellings ↔ ∀ a, s.contains a = r.contains a :=
  ⟨fun h => (sameBounds_of_mem_spellings h).contains_eq,
    fun h => mem_spellings_of_sameBounds (sameBounds_of_contains h)⟩

namespace SameBounds

theorem height_eq (h : s.SameBounds r) : s.height = r.height := by
  rw [height, height, h.minRow, h.maxRow]

theorem width_eq (h : s.SameBounds r) : s.width = r.width := by
  rw [width, width, h.minCol, h.maxCol]

theorem cells_eq (h : s.SameBounds r) : s.cells = r.cells := by
  rw [cells, cells, h.height_eq, h.width_eq, h.minRow, h.minCol]

theorem cellsIn_eq (h : s.SameBounds r) (g : Grid) : g.cellsIn s = g.cellsIn r := by
  rw [Grid.cellsIn, Grid.cellsIn, h.minRow, h.maxRow, h.minCol, h.maxCol]

theorem sumIf_eq {r' s' : Range} (h : s.SameBounds r) (h' : s'.SameBounds r') (g : Grid)
    (criterion : Criterion) : g.sumIf s criterion s' = g.sumIf r criterion r' := by
  have hcounterpart : s.counterpart s' = r.counterpart r' := by
    funext a
    rw [counterpart, counterpart, h.minRow, h.minCol, h'.minRow, h'.minCol]
  rw [Grid.sumIf, Grid.sumIf, h.height_eq, h.width_eq, h'.height_eq, h'.width_eq, h.cellsIn_eq,
    hcounterpart]

end SameBounds

/-- The cells of a range come in reading order, each once, and clipping its rows and columns to a grid comes
to the same as leaving out the cells that are not in the grid. -/
theorem clipping_exact (r : Range) :
    (∀ a, a ∈ r.cells ↔ r.contains a = true) ∧ r.cells.Nodup ∧
    r.cells.length = r.height * r.width ∧ r.cells.Pairwise Address.Before ∧
    (∀ g : Grid, g.cellsIn r = r.cells.filter g.inBounds) ∧
    (r.Numbered → ∀ g : Grid, Word.cellsIn? g r = some (r.cells.filter g.inBounds)) ∧
    ∀ s ∈ r.spellings, s.cells = r.cells ∧ ∀ g : Grid, g.cellsIn s = g.cellsIn r := by
  refine ⟨fun a => mem_cells, r.nodup_cells, r.length_cells, r.pairwise_cells,
    fun g => g.cellsIn_eq_filter r, fun hr g => ?_, fun s hs => ?_⟩
  · rw [Word.cellsIn?_eq hr, g.cellsIn_eq_filter]
  · have hbounds := sameBounds_of_mem_spellings hs
    exact ⟨hbounds.cells_eq, hbounds.cellsIn_eq⟩

def overhang : Range := ⟨⟨2, 1⟩, ⟨0, 3⟩⟩

theorem clipping_exact_overhang :
    overhang.Numbered ∧ ⟨⟨0, 1⟩, ⟨2, 3⟩⟩ ∈ overhang.spellings ∧
    Word.cellsIn? ⟨2, 2, fun _ => none⟩ overhang = some [⟨0, 1⟩, ⟨1, 1⟩] ∧
    Grid.cellsIn ⟨2, 2, fun _ => none⟩ ⟨⟨0, 1⟩, ⟨2, 3⟩⟩ = [⟨0, 1⟩, ⟨1, 1⟩] := by
  have hnumbered : overhang.Numbered := ⟨⟨by decide, by decide⟩, ⟨by decide, by decide⟩⟩
  have hspelling : ⟨⟨0, 1⟩, ⟨2, 3⟩⟩ ∈ overhang.spellings := by decide
  obtain ⟨-, -, -, -, hclip, hwords, hsame⟩ := clipping_exact overhang
  refine ⟨hnumbered, hspelling, ?_, ?_⟩
  · rw [hwords hnumbered]
    rfl
  · rw [(hsame _ hspelling).2, hclip]
    rfl

end Range

end Spreadsheet
