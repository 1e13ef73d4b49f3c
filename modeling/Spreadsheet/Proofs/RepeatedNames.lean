import Mathlib.Data.List.Induction
import Spreadsheet.Proofs.Keys

namespace Spreadsheet

/-- An edit that renames or deletes one of several columns of the same name, in a sheet with rows. -/
structure Edit.Orphans (s : Sheet) (e : Edit) : Prop where
  rows_ne : s.rows ≠ #[]
  succeeds : ∃ r, s.apply e = .ok r
  repeated : ∃ name ∈ e.removedKey?, 1 < s.columns.count name

namespace Sheet

variable {s t : Sheet} {es : List Edit}

structure Readable (s : Sheet) : Prop where
  exists_cell? : ∀ a, s.grid.inBounds a = true → ∃ c, s.cell? a = some c
  cellAt_eq_error_iff : ∀ reference e, s.cellAt reference = .error e ↔ s.resolve reference = .error e

def NeverOrphans (s : Sheet) (es : List Edit) : Prop :=
  ∀ before e, before ++ [e] <+: es → ¬e.Orphans (s.run before)

theorem readable_of_keysMatch (h : s.KeysMatch) : s.Readable :=
  ⟨fun _ ha => h.exists_cell? ha, fun _ _ => h.cellAt_eq_error_iff⟩

theorem Readable.not_mem_columns (h : t.Readable) {f : Row → Row} (hrows : t.rows = s.rows.map f)
    (hs : s.rows ≠ #[]) {name : String} (hf : ∀ row, name ∉ f row) : name ∉ t.columns := by
  intro hname
  obtain ⟨row, hrow⟩ := Array.exists_mem_of_ne_empty _ hs
  obtain ⟨i, hi⟩ := Array.mem_iff_getElem?.1 (hrows ▸ Array.mem_map_of_mem hrow)
  obtain ⟨j, hj⟩ := Array.mem_iff_getElem?.1 hname
  obtain ⟨c, hc⟩ := h.exists_cell? ⟨j, i⟩ (Table.inBounds_iff.2 ⟨name, f row, hj, hi⟩)
  rw [Table.cell?_eq hj hi] at hc
  exact hf row (Std.ExtTreeMap.mem_iff_isSome_getElem?.2 (by simp [hc]))

theorem Change.not_readable {name : String} (ht : s.Change (some name) t) (hs : s.rows ≠ #[])
    (hname : 1 < s.columns.count name) : ¬t.Readable := by
  intro h
  cases ht with
  | renameColumn hne hcol =>
    obtain ⟨-, hsame, -⟩ | ⟨-, before, after, hcols, hbefore, rfl⟩ := renameColumn_eq_ok hcol
    · exact hne hsame
-- The second column of the name is still there, and its cells are gone.
    have hafter := (Table.one_lt_count_iff hcols hbefore).1 hname
    refine h.not_mem_columns rfl hs (fun row => ?_) (Array.mem_toList_iff.1
      (List.mem_append_right before (List.mem_cons_of_mem _ hafter)))
    simp [mem_renameKey, hne]
  | deleteColumn hcol =>
    obtain ⟨before, after, hcols, hbefore, rfl⟩ := deleteColumn_eq_ok hcol
    have hafter := (Table.one_lt_count_iff hcols hbefore).1 hname
    refine h.not_mem_columns rfl hs (fun row => ?_) (Array.mem_toList_iff.1
      (List.mem_append_right before hafter))
    simp

theorem not_readable_of_orphans {e : Edit} (h : e.Orphans s) : ¬(s.edit e).Readable := by
  obtain ⟨⟨t, reply⟩, ht⟩ := h.succeeds
  obtain ⟨name, hkey, hname⟩ := h.repeated
  rw [edit, ht]
  exact Change.not_readable (hkey ▸ change_apply ht) h.rows_ne hname

theorem keysMatch_edit {e : Edit} (h : s.KeysMatch) (he : ¬e.Orphans s) : (s.edit e).KeysMatch := by
  rw [edit]
  split
  · next t reply ht =>
    exact h.change (change_apply ht) fun name hname hrows hcount =>
      he ⟨hrows, ⟨_, ht⟩, name, hname, hcount⟩
  · exact h

theorem run_concat (before : List Edit) (e : Edit) :
    s.run (before ++ [e]) = (s.run before).edit e := by
  simp [run]

theorem keysMatch_run (h : s.KeysMatch) (hes : s.NeverOrphans es) {before : List Edit}
    (hbefore : before <+: es) : (s.run before).KeysMatch := by
  -- The prefix is taken apart from its end, where the edit meets the sheet of the edits before it.
  induction before using List.reverseRecOn with
  | nil => exact h
  | append_singleton before e ih =>
    rw [run_concat]
    exact keysMatch_edit (ih ((List.prefix_append before [e]).trans hbefore)) (hes before e hbefore)

theorem neverOrphans_of_readable (h : ∀ before, before <+: es → (s.run before).Readable) :
    s.NeverOrphans es := by
  intro before e hbefore horphans
  exact not_readable_of_orphans horphans (run_concat before e ▸ h _ hbefore)

/-- Whatever names the columns of a new sheet have, its rows keep to the columns and all of it can be
read through a run of edits exactly as long as no edit orphans a column. -/
theorem keysMatch_throughout_iff (name : String) (columns : List String) (es : List Edit) :
    ((∀ before, before <+: es → ((ofColumns name columns).run before).KeysMatch) ↔
      (ofColumns name columns).NeverOrphans es) ∧
    ((∀ before, before <+: es → ((ofColumns name columns).run before).Readable) ↔
      (ofColumns name columns).NeverOrphans es) := by
  have hnew : (ofColumns name columns).KeysMatch :=
    fun row hrow => absurd hrow (Array.not_mem_empty row)
  constructor
  · exact ⟨fun h => neverOrphans_of_readable fun before hb => readable_of_keysMatch (h before hb),
      fun h before => keysMatch_run hnew h⟩
  · exact ⟨neverOrphans_of_readable, fun h before hb => readable_of_keysMatch (keysMatch_run hnew h hb)⟩

theorem neverOrphans_of_removedKey? (h : ∀ e ∈ es, e.removedKey? = none) : s.NeverOrphans es := by
  intro before e hbefore horphans
  obtain ⟨name, hname, -⟩ := horphans.repeated
  rw [h e (hbefore.subset (List.mem_append_right before (List.mem_singleton_self e)))] at hname
  cases hname

theorem keysMatch_throughout_prices :
    ∀ before,
      before <+: [.addRow, .setInput "B1" "3", .addColumn "Total", .setInput "C1" "=A1+B1"] →
      ((ofColumns "Sheet" ["Price", "Price"]).run before).KeysMatch :=
  (keysMatch_throughout_iff "Sheet" ["Price", "Price"] _).1.2
    (neverOrphans_of_removedKey? (by simp [Edit.removedKey?]))

def orphaned : Sheet :=
  (ofColumns "Sheet" ["Price", "Price"]).run [.addRow, .deleteColumn "Price"]

theorem orphaned_not_readable :
    orphaned.columns = #["Price"] ∧ orphaned.rows = #[∅] ∧ ¬orphaned.KeysMatch ∧
    orphaned.resolve "A1" = .ok ⟨0, 0⟩ ∧ orphaned.cellAt "A1" = .error (.outOfBounds ⟨0, 0⟩) := by
  have hresolve : orphaned.resolve "A1" = .ok ⟨0, 0⟩ := by decide +kernel
  have hcell : orphaned.cellAt "A1" = .error (.outOfBounds ⟨0, 0⟩) := by decide +kernel
  refine ⟨by decide +kernel, by decide +kernel, fun h => ?_, hresolve, hcell⟩
  have herror := h.cellAt_eq_error_iff.1 hcell
  rw [hresolve] at herror
  cases herror

end Sheet

end Spreadsheet
