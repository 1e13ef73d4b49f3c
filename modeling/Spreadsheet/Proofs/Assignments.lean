import Mathlib.Order.Bounds.Basic
import Spreadsheet.CommandLine.Run
import Spreadsheet.Proofs.Arguments
import Spreadsheet.Proofs.CellWrite
import Spreadsheet.Proofs.Reference

namespace Spreadsheet

namespace Address

theorem parseTrimmed?_trim (s : String) : parseTrimmed? (Text.trim s) = parseTrimmed? s := by
  rw [parseTrimmed?, Text.trim, String.toList_ofList, Text.trimList_trimList, parseTrimmed?]

theorem parse?_trim (s : String) : parse? (Text.trim s) = parseTrimmed? s := by
  rw [parse?, Text.trim, String.toList_ofList, parseTrimmed?]

end Address

namespace CommandLine

variable {columns : Option (List String)} {assignments : List (String × String)} {rows : Nat} {a : Address}

def columnNames (columns : Option (List String)) : List String :=
  columns.getD (Sheet.letterColumns 26)

theorem isGreatest_foldl_max (as : List Address) (rows : Nat) :
    IsGreatest {n | n = rows ∨ ∃ a ∈ as, n = a.row + 1}
      (as.foldl (fun rows a => max rows (a.row + 1)) rows) := by
  induction as generalizing rows with
  | nil => simp [IsGreatest, upperBounds]
  | cons a as ih =>
    obtain ⟨hmem, hbound⟩ := ih (max rows (a.row + 1))
    have hstart := hbound (.inl rfl)
    refine ⟨?_, ?_⟩
    · rw [List.foldl_cons]
      rcases hmem with hmax | ⟨b, hb, hrow⟩
      · rw [hmax]
        rcases max_choice rows (a.row + 1) with h | h
        · exact .inl h
        · exact .inr ⟨a, List.mem_cons_self, h⟩
      · exact .inr ⟨b, List.mem_cons_of_mem a hb, hrow⟩
    · rintro n (rfl | ⟨b, hb, rfl⟩)
      · exact (le_max_left n _).trans hstart
      · rcases List.mem_cons.1 hb with rfl | hb
        · exact (le_max_right rows _).trans hstart
        · exact hbound (.inr ⟨b, hb, rfl⟩)

theorem isGreatest_rowsNeeded (assignments : List (String × String)) :
    IsGreatest {n | n = 1 ∨ ∃ p ∈ assignments, ∃ a, Address.parse? p.1 = some a ∧ n = a.row + 1}
      (rowsNeeded assignments) := by
  have hset : {n | n = 1 ∨ ∃ p ∈ assignments, ∃ a, Address.parse? p.1 = some a ∧ n = a.row + 1} =
      {n | n = 1 ∨ ∃ a ∈ assignments.filterMap fun p => Address.parse? p.1, n = a.row + 1} := by
    ext n
    simp only [Set.mem_ofPred_eq, List.mem_filterMap]
    grind
  rw [hset]
  exact isGreatest_foldl_max _ 1

theorem blankSheet_eq_run (columns : Option (List String)) (rows : Nat) :
    blankSheet columns rows =
      (Sheet.ofColumns "Sheet1" (columnNames columns)).run (.replicate rows .addRow) := by
  induction rows with
  | zero => rfl
  | succ rows ih =>
    have hnext : blankSheet columns (rows + 1) = (blankSheet columns rows).addRow := by
      rw [blankSheet, Array.replicate_succ]
      rfl
    rw [List.replicate_succ', Sheet.run, List.foldl_append, hnext, ih]
    rfl

theorem keyed_blankSheet (h : (columnNames columns).Nodup) (rows : Nat) :
    (blankSheet columns rows).Keyed := by
  rw [blankSheet_eq_run]
  exact (Sheet.keyed_ofColumns "Sheet1" h).run _

theorem inBounds_blankSheet : (blankSheet columns rows).grid.inBounds a = true ↔
    a.row < rows ∧ a.col < (columnNames columns).length := by
  rw [Grid.inBounds_eq_true_iff]
  simp [blankSheet, Sheet.ofColumns, columnNames]

theorem cell?_blankSheet (h : (blankSheet columns rows).grid.inBounds a = true) :
    (blankSheet columns rows).cell? a = some .empty := by
  obtain ⟨key, row, hkey, hrow⟩ := Table.inBounds_iff.1 h
  obtain ⟨-, rfl⟩ := Array.mem_replicate.1 (Array.mem_of_getElem? hrow)
  rw [Table.cell?_eq hkey hrow, Sheet.getElem?_blankRow]
  exact if_pos (Array.mem_of_getElem? hkey)

def contents (assignments : List (String × String)) : List (Address × Content) :=
  assignments.filterMap fun p => (Address.parseTrimmed? p.1).map (·, .ofInput p.2)

theorem assign_eq_ok_iff {s t : Sheet} : assign s assignments = .ok t ↔
    (∀ p ∈ assignments, ∃ a, s.resolve p.1 = .ok a) ∧ t = s.run (Sheet.writes (contents assignments)) := by
  induction assignments generalizing s with
  | nil => simp [assign, contents, Sheet.writes, Sheet.run, eq_comm]
  | cons p assignments ih =>
    rw [List.forall_mem_cons]
    cases hresolve : s.resolve p.1 with
    | error e => simp [assign, Sheet.setInput, Sheet.setCellRef, hresolve]
    | ok a =>
      obtain ⟨hparse, hbounds⟩ := Sheet.resolve_eq_ok_iff.1 hresolve
      obtain ⟨u, hu⟩ := Sheet.exists_setCell_eq_ok hbounds (.ofInput p.2)
      have hset : s.setInput p.1 p.2 = .ok (u, a) := by
        simp [Sheet.setInput, Sheet.setCellRef, hresolve, hu, Except.map]
      have hsame : ∀ reference b, u.resolve reference = .ok b ↔ s.resolve reference = .ok b := fun _ b => by
        rw [Sheet.resolve_eq_ok_iff, Sheet.resolve_eq_ok_iff, (Sheet.sameShape_setCell hu).inBounds_eq b]
      have hrun : s.run (Sheet.writes (contents (p :: assignments))) =
          u.run (Sheet.writes (contents assignments)) := by
        simp [contents, hparse, Sheet.writes, Sheet.run, Sheet.edit_setCell hu]
      rw [assign, hset, hrun]
      simp [ih, hsame]

theorem lookup_contents_eq_none (h : ∀ p ∈ assignments, Address.parseTrimmed? p.1 ≠ some a) :
    (contents assignments).reverse.lookup a = none := by
  rw [List.lookup_eq_none_iff]
  intro item hitem
  obtain ⟨p, hp, hcell⟩ := List.mem_filterMap.1 (List.mem_reverse.1 hitem)
  obtain ⟨b, hb, rfl⟩ := Option.map_eq_some_iff.1 hcell
  have hne : a ≠ b := fun hab => h p hp (hab ▸ hb)
  simpa using hne

theorem lookup_contents_eq_some {before after : List (String × String)} {p : String × String}
    (hp : Address.parseTrimmed? p.1 = some a) (hafter : ∀ q ∈ after, Address.parseTrimmed? q.1 ≠ some a) :
    (contents (before ++ p :: after)).reverse.lookup a = some (.ofInput p.2) := by
  have hsplit : (contents (before ++ p :: after)).reverse =
      (contents after).reverse ++ (a, .ofInput p.2) :: (contents before).reverse := by
    simp [contents, hp]
  rw [hsplit, List.lookup_append, lookup_contents_eq_none hafter, Option.none_or, List.lookup_cons_self]

def given (assignments : List (String × String)) : List (String × String) :=
  assignments.map fun p => (Text.trim p.1, p.2)

theorem contents_given (assignments : List (String × String)) :
    contents (given assignments) = contents assignments := by
  simp only [contents, given, List.filterMap_map, Function.comp_def, Address.parseTrimmed?_trim]

theorem forall_mem_given {P : String × String → Prop} :
    (∀ p ∈ given assignments, P p) ↔ ∀ p ∈ assignments, P (Text.trim p.1, p.2) :=
  List.forall_mem_map

theorem isGreatest_rowsNeeded_given (assignments : List (String × String)) :
    IsGreatest {n | n = 1 ∨ ∃ p ∈ assignments, ∃ a, Address.parse? (Text.trim p.1) = some a ∧ n = a.row + 1}
      (rowsNeeded (given assignments)) := by
  have hrows := isGreatest_rowsNeeded (given assignments)
  simp only [given, List.mem_map, exists_exists_and_eq_and] at hrows
  exact hrows

theorem rowsNeeded_le_iff : rowsNeeded assignments ≤ maxRows ↔
    ∀ p ∈ assignments, ∀ a, Address.parse? p.1 = some a → a.row + 1 ≤ maxRows := by
  obtain ⟨hmem, hbound⟩ := isGreatest_rowsNeeded assignments
  constructor
  · intro h p hp a ha
    exact (hbound (.inr ⟨p, hp, a, ha, rfl⟩)).trans h
  · intro h
    rcases hmem with hone | ⟨p, hp, a, ha, hrow⟩
    · rw [hone]
      decide
    · rw [hrow]
      exact h p hp a ha

theorem buildSheet_eq_ok_iff {s : Sheet} : buildSheet columns assignments = .ok s ↔
    rowsNeeded assignments ≤ maxRows ∧
      assign (blankSheet columns (rowsNeeded assignments)) assignments = .ok s := by
  rw [buildSheet]
  split <;> grind

theorem buildSheet_given_eq_ok_iff {s : Sheet} : buildSheet columns (given assignments) = .ok s ↔
    (∀ p ∈ assignments, ∃ a, Address.parseTrimmed? p.1 = some a ∧
      a.col < (columnNames columns).length ∧ a.row + 1 ≤ maxRows) ∧
    s = (blankSheet columns (rowsNeeded (given assignments))).run (Sheet.writes (contents assignments)) := by
  have hbound := (isGreatest_rowsNeeded_given assignments).2
  rw [buildSheet_eq_ok_iff, assign_eq_ok_iff, contents_given, ← and_assoc]
  refine and_congr_left fun _ => ?_
  simp only [rowsNeeded_le_iff, forall_mem_given, Sheet.resolve_eq_ok_iff, inBounds_blankSheet,
    Address.parse?_trim, Address.parseTrimmed?_trim]
-- The height goes by one reading of the references and each assignment by another; they agree.
  constructor
  · rintro ⟨hrows, hcells⟩ p hp
    obtain ⟨a, ha, -, hcol⟩ := hcells p hp
    exact ⟨a, ha, hcol, hrows p hp a ha⟩
  · intro h
    refine ⟨fun p hp a ha => ?_, fun p hp => ?_⟩
    · obtain ⟨b, hb, -, hrow⟩ := h p hp
      cases ha.symm.trans hb
      exact hrow
    · obtain ⟨a, ha, hcol, -⟩ := h p hp
      exact ⟨a, ha, hbound (.inr ⟨p, hp, a, (Address.parse?_trim p.1).trans ha, rfl⟩), hcol⟩

theorem given_assignments_of_parse {args : List String} {o : Options} (h : Options.parse args = .ok o) :
    given o.assignments = o.assignments := by
  obtain ⟨gs, hgs, rfl⟩ := Options.parse_eq_ok_iff.1 h
  have htrimmed : ∀ p ∈ (Options.ofGroups gs).assignments, Text.trim p.1 = p.1 := by
    intro p hp
    rw [(Options.collects_ofGroups gs).assignments] at hp
    obtain ⟨g, hg, hp⟩ := List.mem_filterMap.1 hp
    obtain ⟨part, hpart⟩ := hgs.exists_spells hg
    cases hpart <;> cases hp
    exact Text.trim_trim _
  calc given (Options.ofGroups gs).assignments
    _ = (Options.ofGroups gs).assignments.map id :=
      List.map_congr_left fun p hp => Prod.ext (htrimmed p hp) rfl
    _ = (Options.ofGroups gs).assignments := List.map_id _

/-- The sheet that assignments describe. It is as tall as the lowest cell that is assigned to, a cell has the
last of what is assigned to it in whatever spelling of its reference, and the others are empty. -/
structure Describes (names : List String) (assignments : List (String × String)) (s : Sheet) : Prop where
  columns : s.columns = names.toArray
  height : IsGreatest
    {n | n = 1 ∨ ∃ p ∈ assignments, ∃ a, Address.parse? (Text.trim p.1) = some a ∧ n = a.row + 1} s.rows.size
  assigned : ∀ before p after a, assignments = before ++ p :: after →
    Address.parse? (Text.trim p.1) = some a → (∀ q ∈ after, Address.parse? (Text.trim q.1) ≠ some a) →
    s.cell? a = some (.ofInput p.2)
  others : ∀ a, s.grid.inBounds a = true →
    (∀ p ∈ assignments, Address.parse? (Text.trim p.1) ≠ some a) → s.cell? a = some .empty
  keyed : s.Keyed

theorem describes_of_buildSheet {s : Sheet} (hnames : (columnNames columns).Nodup)
    (hs : buildSheet columns (given assignments) = .ok s) :
    Describes (columnNames columns) assignments s := by
  obtain ⟨hcells, rfl⟩ := buildSheet_given_eq_ok_iff.1 hs
  have hheight := isGreatest_rowsNeeded_given assignments
  generalize rowsNeeded (given assignments) = rows at hheight ⊢
  have hkeyed := keyed_blankSheet hnames rows
  have hshape := Sheet.sameShape_run_writes (blankSheet columns rows) (contents assignments)
  have hcell : ∀ a, (blankSheet columns rows).grid.inBounds a = true →
      ((blankSheet columns rows).run (Sheet.writes (contents assignments))).cell? a =
        ((contents assignments).reverse.lookup a).or (some .empty) := fun a ha => by
    rw [Sheet.cell?_run_writes hkeyed, if_pos ha, cell?_blankSheet ha]
  constructor
  · exact hshape.columns
  · have hsize : rows = ((blankSheet columns rows).run (Sheet.writes (contents assignments))).rows.size := by
      rw [hshape.rowCount, blankSheet, Array.size_replicate]
    exact hsize ▸ hheight
  · rintro before p after a rfl hp hafter
    simp only [Address.parse?_trim] at hp hafter
    have hp_mem : p ∈ before ++ p :: after := List.mem_append_right before List.mem_cons_self
    have hrow : a.row < rows := hheight.2 (.inr ⟨p, hp_mem, a, (Address.parse?_trim p.1).trans hp, rfl⟩)
    obtain ⟨b, hb, hcol, -⟩ := hcells p hp_mem
    cases hp.symm.trans hb
    have ha := inBounds_blankSheet.2 ⟨hrow, hcol⟩
    rw [hcell a ha, lookup_contents_eq_some hp hafter, Option.some_or]
  · intro a ha h
    simp only [Address.parse?_trim] at h
    rw [hshape.inBounds_eq] at ha
    rw [hcell a ha, lookup_contents_eq_none h, Option.none_or]
  · exact hkeyed.run _

/-- Assignments build a sheet if each names a cell in a column that there is and not too far down, and the
sheet is the one that they describe. -/
theorem buildSheet_exact (columns : Option (List String)) (assignments : List (String × String))
    (hnames : (columnNames columns).Nodup) :
    ((∃ s, buildSheet columns (given assignments) = .ok s) ↔
      ∀ p ∈ assignments, ∃ a, Address.parse? (Text.trim p.1) = some a ∧
        a.col < (columnNames columns).length ∧ a.row + 1 ≤ 100000) ∧
    (∀ s, buildSheet columns (given assignments) = .ok s →
      Describes (columnNames columns) assignments s) ∧
    ∀ args o, Options.parse args = .ok o → given o.assignments = o.assignments := by
  refine ⟨?_, fun s hs => describes_of_buildSheet hnames hs, fun args o => given_assignments_of_parse⟩
  simp only [buildSheet_given_eq_ok_iff, Address.parse?_trim]
  exact ⟨fun ⟨_, h, _⟩ => h, fun h => ⟨_, h, rfl⟩⟩

theorem buildSheet_exact_repeated :
    ["Name", "Price"].Nodup ∧
    ∃ s, buildSheet (some ["Name", "Price"]) (given [(" b2", "3"), ("A1", "Nuts"), ("B2 ", "=A1")]) = .ok s ∧
      s.cell? ⟨1, 1⟩ = some (.text "=A1") ∧ s.cell? ⟨0, 0⟩ = some (.text "Nuts") ∧
      s.cell? ⟨0, 1⟩ = some .empty := by
  have hnames : ["Name", "Price"].Nodup := by decide
  obtain ⟨hbuilds, hdescribes, -⟩ := buildSheet_exact (some ["Name", "Price"])
    [(" b2", "3"), ("A1", "Nuts"), ("B2 ", "=A1")] hnames
  obtain ⟨s, hs⟩ := hbuilds.2 (by
    simp only [List.forall_mem_cons]
    exact ⟨⟨⟨1, 1⟩, by decide +kernel⟩, ⟨⟨0, 0⟩, by decide +kernel⟩, ⟨⟨1, 1⟩, by decide +kernel⟩, by simp⟩)
  have hsheet := hdescribes s hs
  have hlow : s.grid.inBounds ⟨0, 1⟩ = true := by
    have hrows : 1 < s.rows.size :=
      hsheet.height.2 (.inr ⟨(" b2", "3"), by decide, ⟨1, 1⟩, by decide +kernel, rfl⟩)
    rw [Grid.inBounds_eq_true_iff, Table.grid_rowCount, Table.grid_colCount, hsheet.columns]
    exact ⟨hrows, by decide⟩
  refine ⟨hnames, s, hs, ?_, ?_, ?_⟩
  · exact hsheet.assigned [(" b2", "3"), ("A1", "Nuts")] ("B2 ", "=A1") [] _ rfl (by decide +kernel)
      (by simp)
  · exact hsheet.assigned [(" b2", "3")] ("A1", "Nuts") [("B2 ", "=A1")] _ rfl (by decide +kernel)
      (by decide +kernel)
  · exact hsheet.others _ hlow (by decide +kernel)

end CommandLine

end Spreadsheet
