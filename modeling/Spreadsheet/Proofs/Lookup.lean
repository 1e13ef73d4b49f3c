import Mathlib.Order.Bounds.Basic
import Spreadsheet.Proofs.Agreement
import Spreadsheet.Sheet.Script

namespace Spreadsheet

namespace Grid

variable {g : Grid} {key : String} {r : Range} {a : Address} {p k : Nat} {last : Bool} {e : CellError}

theorem head?_eq_some_iff_isLeast {l : List Nat} (h : l.Pairwise (· < ·)) {n : Nat} :
    l.head? = some n ↔ IsLeast {m | m ∈ l} n := by
  cases l with
  | nil => simp [IsLeast]
  | cons a l =>
    have hleast : IsLeast {m | m ∈ a :: l} a := by
      refine ⟨List.mem_cons_self, fun m hm => ?_⟩
      rcases List.mem_cons.1 hm with rfl | hm
      · exact Nat.le_refl _
      · exact Nat.le_of_lt (List.rel_of_pairwise_cons h hm)
    rw [List.head?_cons, Option.some.injEq]
    exact ⟨fun han => han ▸ hleast, hleast.unique⟩

theorem getLast?_eq_some_iff_isGreatest {l : List Nat} (h : l.Pairwise (· < ·)) {n : Nat} :
    l.getLast? = some n ↔ IsGreatest {m | m ∈ l} n := by
  rcases List.eq_nil_or_concat l with rfl | ⟨l, b, rfl⟩
  · simp [IsGreatest]
  · rw [List.concat_eq_append] at *
    have hgreatest : IsGreatest {m | m ∈ l ++ [b]} b := by
      refine ⟨List.mem_append_right _ List.mem_cons_self, fun m hm => ?_⟩
      rcases List.mem_append.1 hm with hm | hm
      · exact Nat.le_of_lt ((List.pairwise_append.1 h).2.2 m hm b List.mem_cons_self)
      · exact Nat.le_of_eq (List.mem_singleton.1 hm)
    rw [List.getLast?_concat, Option.some.injEq]
    exact ⟨fun hbn => hbn ▸ hgreatest, hgreatest.unique⟩

/-- A place of a text in a range: the row so counted lies in the grid and begins with the text. -/
structure KeyAt (g : Grid) (key : String) (r : Range) (p : Nat) : Prop where
  one_le : 1 ≤ p
  le_height : p ≤ r.height
  row_lt : r.minRow + (p - 1) < g.rowCount
  rawText_eq : g.rawText ⟨r.minCol, r.minRow + (p - 1)⟩ = key

def keyPlaces (g : Grid) (key : String) (r : Range) : List Nat :=
  (g.hits key r).map fun a => a.row - r.minRow + 1

theorem mem_hits {col row : Nat} : ⟨col, row⟩ ∈ g.hits key r ↔ col = r.minCol ∧
    (r.minRow ≤ row ∧ row ≤ r.maxRow ∧ row < g.rowCount) ∧ g.rawText ⟨col, row⟩ = key := by
  simp only [hits, firstColumn, List.mem_filter, List.mem_map, mem_clip, Address.mk.injEq, beq_iff_eq]
  constructor
  · rintro ⟨⟨row, hrow, rfl, rfl⟩, htext⟩
    exact ⟨rfl, hrow, htext⟩
  · rintro ⟨rfl, hrow, htext⟩
    exact ⟨⟨row, hrow, rfl, rfl⟩, htext⟩

theorem mem_keyPlaces : p ∈ g.keyPlaces key r ↔ g.KeyAt key r p := by
  have hheight : r.height = r.maxRow - r.minRow + 1 := rfl
  have hle := r.minRow_le_maxRow
  rw [keyPlaces, List.mem_map]
  constructor
  · rintro ⟨⟨col, row⟩, hhit, rfl⟩
    obtain ⟨rfl, ⟨hlow, hhigh, hrow⟩, htext⟩ := mem_hits.1 hhit
    have hplace : r.minRow + (row - r.minRow + 1 - 1) = row := by omega
    exact ⟨Nat.succ_pos _, by simp only; omega, hplace.symm ▸ hrow, hplace.symm ▸ htext⟩
  · rintro ⟨hpos, hlast, hrow, htext⟩
    exact ⟨_, mem_hits.2 ⟨rfl, ⟨by omega, by omega, hrow⟩, htext⟩, by simp only; omega⟩

theorem pairwise_keyPlaces (g : Grid) (key : String) (r : Range) :
    (g.keyPlaces key r).Pairwise (· < ·) := by
  have hcolumn : (g.firstColumn r).Pairwise fun a b => a.row < b.row :=
    List.pairwise_map.2 (List.pairwise_lt_range' 1)
  rw [keyPlaces, List.pairwise_map]
  refine (hcolumn.filter _).imp_of_mem fun {a b} ha _ hab => ?_
  have hlow : r.minRow ≤ a.row := (mem_hits.1 ha).2.1.1
  omega

theorem matchPosition_eq_ok_iff : g.matchPosition key r last = .ok p ↔
    (if last then (g.keyPlaces key r).getLast? else (g.keyPlaces key r).head?) = some p := by
  rw [matchPosition, keyPlaces, List.getLast?_map, List.head?_map, ← apply_ite (Option.map _)]
  cases (if last then (g.hits key r).getLast? else (g.hits key r).head?) <;> simp

theorem matchPosition_first_iff :
    g.matchPosition key r false = .ok p ↔ IsLeast {q | g.KeyAt key r q} p := by
  simp only [← mem_keyPlaces, ← head?_eq_some_iff_isLeast (g.pairwise_keyPlaces key r)]
  exact matchPosition_eq_ok_iff

theorem matchPosition_last_iff :
    g.matchPosition key r true = .ok p ↔ IsGreatest {q | g.KeyAt key r q} p := by
  simp only [← mem_keyPlaces, ← getLast?_eq_some_iff_isGreatest (g.pairwise_keyPlaces key r)]
  exact matchPosition_eq_ok_iff

theorem keyAt_of_matchPosition (h : g.matchPosition key r last = .ok p) : g.KeyAt key r p := by
  cases last with
  | false => exact (matchPosition_first_iff.1 h).1
  | true => exact (matchPosition_last_iff.1 h).1

theorem matchPosition_eq_error_iff :
    g.matchPosition key r last = .error e ↔ e = .notAvailable ∧ ∀ p, ¬g.KeyAt key r p := by
  have hnone : (if last then (g.hits key r).getLast? else (g.hits key r).head?) = none ↔
      ∀ p, ¬g.KeyAt key r p := by
    simp only [← mem_keyPlaces, ← List.eq_nil_iff_forall_not_mem, keyPlaces, List.map_eq_nil_iff]
    cases last <;> simp
  rw [matchPosition, ← hnone]
  cases (if last then (g.hits key r).getLast? else (g.hits key r).head?) <;> simp [eq_comm]

theorem vlookup_eq (hk : k ≠ 0) : g.vlookup key r k = (do
    let p ← g.matchPosition key r false
    g.inside ⟨r.minCol + (k - 1), r.minRow + (p - 1)⟩) := by
  rw [vlookup, if_neg hk, matchPosition, if_neg Bool.false_ne_true]
  cases hhit : (g.hits key r).head? with
  | none => rfl
  | some hit =>
    have hlow : r.minRow ≤ hit.row := (mem_hits.1 (List.mem_of_mem_head? hhit)).2.1.1
    have hplace : r.minRow + (hit.row - r.minRow + 1 - 1) = hit.row := by omega
    change g.inside _ = g.inside _
    rw [hplace]

theorem inside_eq {col row : Nat} (hrow : row < g.rowCount) :
    g.inside ⟨col, row⟩ = if col < g.colCount then .ok ⟨col, row⟩ else .error .reference := by
  simp [inside, inBounds, hrow]

theorem inside_ne_notAvailable : g.inside a ≠ .error .notAvailable := by
  rw [inside]
  split <;> simp

theorem index_of_keyAt (h : g.KeyAt key r p) (hcol : r.minCol < g.colCount) :
    g.index r p 1 = .ok ⟨r.minCol, r.minRow + (p - 1)⟩ := by
  have hrange : ¬(p = 0 ∨ 1 = 0 ∨ r.height < p ∨ r.width < 1) := by
    have hpos := h.one_le
    have hheight := h.le_height
    have hwidth : r.width = r.maxCol - r.minCol + 1 := rfl
    omega
  rw [index, if_neg hrange, inside_eq h.row_lt]
  exact if_pos hcol

/-- MATCH gives the least or the greatest place of a text, and fails just when there is none. VLOOKUP goes
from the least place to its column, and INDEX at the place that MATCH gives leads to a cell with the text. -/
theorem lookups_agree (g : Grid) (key : String) (r : Range) :
    (∀ p, g.matchPosition key r false = .ok p ↔ IsLeast {q | g.KeyAt key r q} p) ∧
    (∀ p, g.matchPosition key r true = .ok p ↔ IsGreatest {q | g.KeyAt key r q} p) ∧
    (∀ last e, g.matchPosition key r last = .error e ↔
      e = .notAvailable ∧ ∀ p, ¬g.KeyAt key r p) ∧
    g.vlookup key r 0 = .error .reference ∧
    (∀ k, 1 ≤ k →
      (g.vlookup key r k = .error .notAvailable ↔
        g.matchPosition key r false = .error .notAvailable) ∧
      ∀ p, g.matchPosition key r false = .ok p → g.vlookup key r k =
        if r.minCol + (k - 1) < g.colCount then .ok ⟨r.minCol + (k - 1), r.minRow + (p - 1)⟩
        else .error .reference) ∧
    (r.minCol < g.colCount → ∀ last p, g.matchPosition key r last = .ok p →
      ∃ a, g.index r p 1 = .ok a ∧ g.rawText a = key) := by
  refine ⟨fun p => matchPosition_first_iff, fun p => matchPosition_last_iff,
    fun last e => matchPosition_eq_error_iff, rfl, fun k hk => ?_, fun hcol last p h => ?_⟩
  · rw [vlookup_eq (Nat.ne_of_gt hk)]
    cases hmatch : g.matchPosition key r false with
    | error e =>
      refine ⟨?_, fun p hp => nomatch hp⟩
      change Except.error e = _ ↔ _
      rw [Except.error.injEq, Except.error.injEq]
    | ok q =>
      refine ⟨iff_of_false inside_ne_notAvailable (fun h => nomatch h), ?_⟩
      rintro p ⟨⟩
      exact inside_eq (keyAt_of_matchPosition hmatch).row_lt
  · have hkey := keyAt_of_matchPosition h
    exact ⟨_, index_of_keyAt hkey hcol, hkey.rawText_eq⟩

end Grid

namespace Sheet

def fruit : Sheet :=
  (ofColumns "Fruit" ["Name", "Price"]).run
    [.addRow, .addRow, .addRow, .setInput "A1" "apple", .setInput "A2" "pear",
      .setInput "A3" "apple", .setInput "B1" "1.5", .setInput "B2" "2", .setInput "B3" "3"]

def fruitTable : Range := ⟨⟨1, 4⟩, ⟨0, 0⟩⟩

theorem lookups_agree_fruit :
    fruit.grid.matchPosition "apple" fruitTable false = .ok 1 ∧
    fruit.grid.matchPosition "apple" fruitTable true = .ok 3 ∧
    fruit.grid.vlookup "apple" fruitTable 2 = .ok ⟨1, 0⟩ ∧
    fruit.grid.vlookup "apple" fruitTable Address.limit = .error .reference ∧
    fruitTable.minCol < fruit.grid.colCount ∧
    ∃ a, fruit.grid.index fruitTable 3 1 = .ok a ∧ fruit.grid.rawText a = "apple" := by
  obtain ⟨-, -, -, -, hlookup, hindex⟩ := Grid.lookups_agree fruit.grid "apple" fruitTable
  have hfirst : fruit.grid.matchPosition "apple" fruitTable false = .ok 1 := by decide +kernel
  have hlast : fruit.grid.matchPosition "apple" fruitTable true = .ok 3 := by decide +kernel
  have hcol : fruitTable.minCol < fruit.grid.colCount := by decide +kernel
  refine ⟨hfirst, hlast, ?_, ?_, hcol, hindex hcol true 3 hlast⟩
  · rw [(hlookup 2 (by decide)).2 1 hfirst]
    decide +kernel
  · rw [(hlookup Address.limit (by decide)).2 1 hfirst]
    decide +kernel

end Sheet

end Spreadsheet
