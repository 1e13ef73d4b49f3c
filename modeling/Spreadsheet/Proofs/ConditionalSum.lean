import Spreadsheet.Proofs.Rectangle

namespace Spreadsheet

namespace Range

variable {r s : Range} {d : Address}

def places (r : Range) : List Address :=
  product (List.range r.height) (List.range r.width)

def cellAt (r : Range) (place : Address) : Address :=
  ⟨r.minCol + place.col, r.minRow + place.row⟩

theorem mem_places : d ∈ r.places ↔ d.row < r.height ∧ d.col < r.width := by
  rw [places, mem_product, List.mem_range, List.mem_range]

theorem pairwise_places (r : Range) : r.places.Pairwise Address.Before :=
  pairwise_product List.pairwise_lt_range List.pairwise_lt_range

theorem cells_eq_map_places (r : Range) : r.cells = r.places.map r.cellAt := by
  simp only [cells, places, product, List.range'_eq_map_range, List.map_flatMap, List.flatMap_map,
    List.map_map]
  rfl

theorem counterpart_cellAt (r s : Range) (d : Address) :
    r.counterpart s (r.cellAt d) = s.cellAt d := by
  simp only [counterpart, cellAt, Nat.add_sub_cancel_left]

end Range

namespace Grid

variable {g : Grid} {criterion : Criterion} {r s : Range} {d : Address}

def hitPlaces (g : Grid) (criterion : Criterion) (r : Range) : List Address :=
  r.places.filter fun d => g.inBounds (r.cellAt d) && criterion.accepts (g.cell (r.cellAt d))

theorem mem_hitPlaces : d ∈ g.hitPlaces criterion r ↔
    d.row < r.height ∧ d.col < r.width ∧ g.inBounds (r.cellAt d) = true ∧
      criterion.accepts (g.cell (r.cellAt d)) = true := by
  rw [hitPlaces, List.mem_filter, Range.mem_places, Bool.and_eq_true, and_assoc]

theorem filter_cellsIn_eq (g : Grid) (criterion : Criterion) (r : Range) :
    (g.cellsIn r).filter (fun a => criterion.accepts (g.cell a)) =
      (g.hitPlaces criterion r).map r.cellAt := by
  rw [cellsIn_eq_filter, List.filter_filter, r.cells_eq_map_places, List.filter_map, hitPlaces]
  apply congrArg
  apply List.filter_congr
  intro d _
  exact Bool.and_comm _ _

theorem sumIf_eq_ok (hheight : s.height = r.height) (hwidth : s.width = r.width) :
    g.sumIf r criterion s = .ok ((g.hitPlaces criterion r).foldl
      (fun total d => total + (g.leadingNumber? (s.cellAt d)).getD 0) 0) := by
  rw [sumIf, if_pos ⟨hheight, hwidth⟩]
  simp only [filter_cellsIn_eq, List.foldl_map, Range.counterpart_cellAt]
  rfl

theorem sumIf_eq_error_iff {e : EvalError} : g.sumIf r criterion s = .error e ↔
    e = .rangeMismatch ∧ (s.height ≠ r.height ∨ s.width ≠ r.width) := by
  by_cases hsize : s.height = r.height ∧ s.width = r.width
  · rw [sumIf_eq_ok hsize.1 hsize.2]
    simp [hsize]
  · have hcause : s.height ≠ r.height ∨ s.width ≠ r.width := not_and_or.1 hsize
    rw [sumIf, if_neg hsize, Except.error.injEq, and_iff_left hcause]
    exact eq_comm

end Grid

theorem Function.call_sumIf_omitted (g : Grid) (condition criterion : Argument) :
    call g .sumIf [condition, criterion] = call g .sumIf [condition, criterion, condition] := by
  apply bind_congr_ok
  intro r hr
  apply bind_congr_ok
  intro t _
  simp only [hr]

namespace Grid

/-- A conditional sum is refused just when its ranges differ in size. Otherwise it adds, from zero and in
reading order, the numbers in those places of one range whose cells in the other are in the grid and meet the
condition, whatever corners the two are written by. -/
theorem sumIf_by_places (g : Grid) (criterion : Criterion) (r s : Range) :
    (∀ e, g.sumIf r criterion s = .error e ↔
      e = .rangeMismatch ∧ (s.height ≠ r.height ∨ s.width ≠ r.width)) ∧
    (g.hitPlaces criterion r).Pairwise Address.Before ∧
    (∀ d, d ∈ g.hitPlaces criterion r ↔ d.row < r.height ∧ d.col < r.width ∧
      g.inBounds (r.cellAt d) = true ∧ criterion.accepts (g.cell (r.cellAt d)) = true) ∧
    (s.height = r.height → s.width = r.width → g.sumIf r criterion s =
      .ok ((g.hitPlaces criterion r).foldl
        (fun total d => total + (g.leadingNumber? (s.cellAt d)).getD 0) 0)) ∧
    (g.IsSource → ∀ a, g.inBounds a = false → g.leadingNumber? a = none) ∧
    (∀ r' ∈ r.spellings, ∀ s' ∈ s.spellings, g.sumIf r' criterion s' = g.sumIf r criterion s) ∧
    ∀ (resolve : Address → Binary64) (condition text : Expr),
      (Expr.call "SUMIF" [condition, text]).eval g resolve =
        (Expr.call "SUMIF" [condition, text, condition]).eval g resolve := by
  refine ⟨fun e => sumIf_eq_error_iff, r.pairwise_places.filter _, fun d => mem_hitPlaces, sumIf_eq_ok,
    fun hg a ha => hg.confined.leadingNumber? ha, fun r' hr s' hs => ?_,
    fun resolve condition text => ?_⟩
  · exact (Range.sameBounds_of_mem_spellings hr).sumIf_eq (Range.sameBounds_of_mem_spellings hs) g
      criterion
  · exact Function.call_sumIf_omitted g ⟨condition, _⟩ ⟨text, _⟩

end Grid

namespace Sheet

def parcels : Sheet :=
  (ofColumns "Parcels" ["Number", "Weight"]).run
    [.addRow, .addRow, .addRow, .setInput "A1" "3", .setInput "A2" "7", .setInput "A3" "9",
      .setInput "B1" "100", .setInput "B2" "200", .setInput "B3" "300 kg"]

theorem sumIf_by_places_parcels :
    parcels.grid.IsSource ∧ parcels.grid.leadingNumber? ⟨1, 3⟩ = none ∧
    (⟨⟨0, 2⟩, ⟨0, 0⟩⟩ : Range) ∈ (⟨⟨0, 0⟩, ⟨0, 2⟩⟩ : Range).spellings ∧
    parcels.grid.sumIf ⟨⟨0, 2⟩, ⟨0, 0⟩⟩ (.compare .greater 5) ⟨⟨1, 1⟩, ⟨1, 3⟩⟩ = .ok 300 ∧
    parcels.grid.sumIf ⟨⟨0, 0⟩, ⟨0, 2⟩⟩ (.compare .greater 5) ⟨⟨1, 1⟩, ⟨1, 2⟩⟩ =
      .error .rangeMismatch := by
  have hsource : parcels.grid.IsSource := .table _
  have hspelling : (⟨⟨0, 2⟩, ⟨0, 0⟩⟩ : Range) ∈ (⟨⟨0, 0⟩, ⟨0, 2⟩⟩ : Range).spellings := by decide
  obtain ⟨-, -, -, hsum, hout, hsame, -⟩ :=
    Grid.sumIf_by_places parcels.grid (.compare .greater 5) ⟨⟨0, 0⟩, ⟨0, 2⟩⟩ ⟨⟨1, 1⟩, ⟨1, 3⟩⟩
  obtain ⟨herror, -⟩ :=
    Grid.sumIf_by_places parcels.grid (.compare .greater 5) ⟨⟨0, 0⟩, ⟨0, 2⟩⟩ ⟨⟨1, 1⟩, ⟨1, 2⟩⟩
  refine ⟨hsource, hout hsource _ (by decide +kernel), hspelling, ?_,
    (herror _).2 ⟨rfl, .inl (by decide)⟩⟩
  rw [hsame _ hspelling _ List.mem_cons_self, hsum rfl rfl]
  decide +kernel

end Sheet

end Spreadsheet
