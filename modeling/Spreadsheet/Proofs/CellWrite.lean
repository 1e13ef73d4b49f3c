import Spreadsheet.Proofs.Rectangle
import Spreadsheet.Proofs.Shift
import Spreadsheet.Proofs.Unread

namespace Spreadsheet

namespace Table

variable {t u : Table}

theorem KeysMatch.ext (ht : t.KeysMatch) (hu : u.KeysMatch) (hcolumns : u.columns = t.columns)
    (hrows : u.rows.size = t.rows.size) (hcell : ∀ a, u.cell? a = t.cell? a) : u = t := by
  obtain ⟨columns, rows⟩ := t
  obtain ⟨_, rows'⟩ := u
  cases hcolumns
  congr 1
  refine Array.ext hrows fun i hi' hi => Std.ExtTreeMap.ext_getElem? fun name => ?_
  by_cases hname : name ∈ columns
  · obtain ⟨col, hcol, rfl⟩ := Array.mem_iff_getElem.1 hname
    have h := hcell ⟨col, i⟩
    rwa [cell?_eq (Array.getElem?_eq_getElem hcol) (Array.getElem?_eq_getElem hi'),
      cell?_eq (Array.getElem?_eq_getElem hcol) (Array.getElem?_eq_getElem hi)] at h
  · rw [Std.ExtTreeMap.getElem?_eq_none (mt (ht _ (Array.getElem_mem hi) name).1 hname),
      Std.ExtTreeMap.getElem?_eq_none (mt (hu _ (Array.getElem_mem hi') name).1 hname)]

end Table

namespace Sheet

structure SameShape (s t : Sheet) : Prop where
  name : t.name = s.name
  columns : t.columns = s.columns
  rowCount : t.rows.size = s.rows.size
  watched : t.watched = s.watched

namespace SameShape

variable {s t u : Sheet}

theorem refl (s : Sheet) : s.SameShape s := ⟨rfl, rfl, rfl, rfl⟩

theorem symm (h : s.SameShape t) : t.SameShape s :=
  ⟨h.name.symm, h.columns.symm, h.rowCount.symm, h.watched.symm⟩

theorem trans (h : s.SameShape t) (h' : t.SameShape u) : s.SameShape u :=
  ⟨h'.name.trans h.name, h'.columns.trans h.columns, h'.rowCount.trans h.rowCount,
    h'.watched.trans h.watched⟩

theorem inBounds_eq (h : s.SameShape t) (a : Address) : t.grid.inBounds a = s.grid.inBounds a := by
  simp only [Grid.inBounds, Table.grid_rowCount, Table.grid_colCount, h.rowCount, h.columns]
  rfl

theorem ext (h : s.SameShape t) (hs : s.KeysMatch) (ht : t.KeysMatch)
    (hcell : ∀ a, t.cell? a = s.cell? a) : t = s := by
  have htable : t.toTable = s.toTable := hs.ext ht h.columns h.rowCount hcell
  obtain ⟨_, _, _⟩ := s
  obtain ⟨_, _, _⟩ := t
  cases htable
  cases h.name
  cases h.watched
  rfl

end SameShape

variable {s t : Sheet} {a b : Address} {content : Content}

theorem exists_setCell_eq_ok_iff : (∃ t, s.setCell a content = .ok t) ↔ s.grid.inBounds a = true := by
  refine ⟨?_, fun h => exists_setCell_eq_ok h content⟩
  rintro ⟨t, ht⟩
  obtain ⟨u, hu, -⟩ := setCell_eq_ok ht
  exact Table.exists_set?_eq_some_iff.1 ⟨u, hu⟩

theorem sameShape_setCell (h : s.setCell a content = .ok t) : s.SameShape t := by
  obtain ⟨u, hu, rfl⟩ := setCell_eq_ok h
  obtain ⟨key, row, -, -, rfl⟩ := Table.set?_eq_some_iff.1 hu
  exact ⟨rfl, rfl, Array.size_setIfInBounds, rfl⟩

theorem edit_setCell (h : s.setCell a content = .ok t) : s.edit (.setCell a content) = t := by
  simp only [edit, apply, h, Except.map]

theorem edit_setCell_of_not_inBounds (h : ¬s.grid.inBounds a = true) :
    s.edit (.setCell a content) = s := by
  cases hset : s.setCell a content with
  | error e => simp only [edit, apply, hset, Except.map]
  | ok t => exact absurd (exists_setCell_eq_ok_iff.1 ⟨t, hset⟩) h

theorem sameShape_edit_setCell (s : Sheet) (a : Address) (content : Content) :
    s.SameShape (s.edit (.setCell a content)) := by
  by_cases h : s.grid.inBounds a = true
  · obtain ⟨t, ht⟩ := exists_setCell_eq_ok h content
    rw [edit_setCell ht]
    exact sameShape_setCell ht
  · rw [edit_setCell_of_not_inBounds h]
    exact .refl s

theorem cell?_edit_setCell (hs : s.Keyed) (a b : Address) (content : Content) :
    (s.edit (.setCell b content)).cell? a =
      if a = b ∧ s.grid.inBounds b = true then some content else s.cell? a := by
  by_cases h : s.grid.inBounds b = true
  · obtain ⟨t, ht⟩ := exists_setCell_eq_ok h content
    rw [edit_setCell ht]
    by_cases hab : a = b
    · rw [if_pos ⟨hab, h⟩, hab, cell?_of_setCell_self ht]
    · rw [if_neg (mt And.left hab), cell?_of_setCell_ne hs ht hab]
  · rw [edit_setCell_of_not_inBounds h, if_neg (mt And.right h)]

theorem lookup_cons_eq_ite (items : List (Address × Content)) (a b : Address) (content : Content) :
    List.lookup a ((b, content) :: items) = if a = b then some content else items.lookup a := by
  by_cases h : a = b
  · rw [if_pos h, h, List.lookup_cons_self]
  · rw [if_neg h, List.lookup_cons, beq_false_of_ne h]

def writes (items : List (Address × Content)) : List Edit :=
  items.map fun (a, content) => .setCell a content

theorem sameShape_run_writes (s : Sheet) (items : List (Address × Content)) :
    s.SameShape (s.run (writes items)) := by
  induction items generalizing s with
  | nil => exact .refl s
  | cons item items ih => exact (sameShape_edit_setCell s item.1 item.2).trans (ih _)

theorem cell?_run_writes (hs : s.Keyed) (items : List (Address × Content)) (a : Address) :
    (s.run (writes items)).cell? a =
      if s.grid.inBounds a = true then (items.reverse.lookup a).or (s.cell? a) else s.cell? a := by
  induction items generalizing s with
  | nil => rw [List.reverse_nil, List.lookup_nil, Option.none_or, ite_self]; rfl
  | cons item items ih =>
    obtain ⟨b, content⟩ := item
    have hrest := ih (hs.edit (.setCell b content))
    rw [(sameShape_edit_setCell s b content).inBounds_eq, cell?_edit_setCell hs] at hrest
    refine hrest.trans ?_
    rw [List.reverse_cons, List.lookup_append, Option.or_assoc, lookup_cons_eq_ite, List.lookup_nil]
    by_cases hab : a = b
    · simp +contextual [hab]
    · simp [hab]

theorem run_writes_congr (hs : s.Keyed) (items items' : List (Address × Content))
    (h : ∀ a, s.grid.inBounds a = true → items'.reverse.lookup a = items.reverse.lookup a) :
    s.run (writes items') = s.run (writes items) := by
  have hshape := (sameShape_run_writes s items).symm.trans (sameShape_run_writes s items')
  refine hshape.ext (hs.run _).keys (hs.run _).keys fun a => ?_
  rw [cell?_run_writes hs, cell?_run_writes hs]
  split
  · next ha => rw [h a ha]
  · rfl

theorem lookup_map_pair (as : List Address) (content : Content) (a : Address) :
    (as.map (·, content)).lookup a = if a ∈ as then some content else none := by
  induction as with
  | nil => rfl
  | cons b as ih =>
    rw [List.map_cons, lookup_cons_eq_ite, ih]
    by_cases hab : a = b <;> simp [hab]

def clearing (s : Sheet) (r : Range) : List (Address × Content) :=
  (s.grid.cellsIn r).map (·, .empty)

theorem clearRange_eq_run (s : Sheet) (r : Range) : s.clearRange r = s.run (writes (s.clearing r)) := by
  rw [clearRange, run, writes, clearing, List.map_map, List.foldl_map]
  congr 1
  funext s a
  simp only [edit, apply, Function.comp_apply]
  cases s.setCell a .empty <;> rfl

theorem lookup_clearing (s : Sheet) (r : Range) (a : Address) :
    (s.clearing r).reverse.lookup a =
      if r.contains a = true ∧ s.grid.inBounds a = true then some .empty else none := by
  rw [clearing, ← List.map_reverse, lookup_map_pair]
  simp only [List.mem_reverse, Grid.mem_cellsIn]

theorem sameShape_clearRange (s : Sheet) (r : Range) : s.SameShape (s.clearRange r) := by
  rw [clearRange_eq_run]
  exact sameShape_run_writes s _

theorem cell?_clearRange (hs : s.Keyed) (r : Range) (a : Address) : (s.clearRange r).cell? a =
    if r.contains a = true ∧ s.grid.inBounds a = true then some .empty else s.cell? a := by
  rw [clearRange_eq_run, cell?_run_writes hs, lookup_clearing]
  by_cases ha : s.grid.inBounds a = true <;> by_cases hr : r.contains a = true <;> simp [ha, hr]

theorem clearRange_congr (hs : s.Keyed) {r r' : Range}
    (h : ∀ a, s.grid.inBounds a = true → r'.contains a = r.contains a) :
    s.clearRange r' = s.clearRange r := by
  rw [clearRange_eq_run, clearRange_eq_run]
  refine run_writes_congr hs _ _ fun a ha => ?_
  rw [lookup_clearing, lookup_clearing, h a ha]

theorem clearRange_clearRange (hs : s.Keyed) (r : Range) :
    (s.clearRange r).clearRange r = s.clearRange r := by
  have hshape := sameShape_clearRange s r
  have hsame : (s.clearRange r).clearing r = s.clearing r := by
    simp only [clearing, Grid.cellsIn, Table.grid_rowCount, Table.grid_colCount, hshape.rowCount,
      hshape.columns]
  have htwice : (s.clearRange r).clearRange r = s.run (writes (s.clearing r ++ s.clearing r)) := by
    rw [clearRange_eq_run _ r, hsame, clearRange_eq_run, writes, writes, List.map_append, run, run,
      run, List.foldl_append]
  rw [htwice, clearRange_eq_run]
  refine run_writes_congr hs _ _ fun a _ => ?_
  rw [List.reverse_append, List.lookup_append, Option.or_self]

/-- A write is seen in the cell that it names and nowhere else. Clearing a range empties its cells in the
grid, whatever corners it is written by. -/
theorem writes_touch_named (s : Sheet) (hs : s.Keyed) :
    (∀ a content, (∃ t, s.setCell a content = .ok t) ↔ s.grid.inBounds a = true) ∧
    (∀ a content t, s.setCell a content = .ok t →
      s.SameShape t ∧ t.cell? a = some content ∧ ∀ b, b ≠ a → t.cell? b = s.cell? b) ∧
    (∀ a b content content', a ≠ b →
      s.run [.setCell a content, .setCell b content'] =
        s.run [.setCell b content', .setCell a content]) ∧
    (∀ a content content',
      s.run [.setCell a content, .setCell a content'] = s.run [.setCell a content']) ∧
    ∀ r, s.SameShape (s.clearRange r) ∧
      (∀ a, r.contains a = true → s.grid.inBounds a = true →
        (s.clearRange r).cell? a = some .empty) ∧
      (∀ a, ¬(r.contains a = true ∧ s.grid.inBounds a = true) →
        (s.clearRange r).cell? a = s.cell? a) ∧
      (s.clearRange r).clearRange r = s.clearRange r ∧
      (∀ r' ∈ r.spellings, s.clearRange r' = s.clearRange r) ∧
      ∀ r', (∀ a, s.grid.inBounds a = true → r'.contains a = r.contains a) →
        s.clearRange r' = s.clearRange r := by
  refine ⟨fun a content => exists_setCell_eq_ok_iff, fun a content t ht =>
    ⟨sameShape_setCell ht, cell?_of_setCell_self ht, fun b hb => cell?_of_setCell_ne hs ht hb⟩,
    fun a b content content' hab => ?_, fun a content content' => ?_, fun r =>
    ⟨sameShape_clearRange s r, fun a hr ha => ?_, fun a ha => ?_, clearRange_clearRange hs r,
      fun r' hr' => clearRange_congr hs fun a _ => Range.mem_spellings_iff.1 hr' a,
      fun r' hr' => clearRange_congr hs hr'⟩⟩
  · refine run_writes_congr hs [(b, content'), (a, content)] [(a, content), (b, content')]
      fun c _ => ?_
    have hne : c = a → c ≠ b := fun hca hcb => hab (hca.symm.trans hcb)
    simp only [List.reverse_cons, List.reverse_nil, List.nil_append, List.singleton_append,
      lookup_cons_eq_ite]
    by_cases hca : c = a
    · rw [if_pos hca, if_pos hca, if_neg (hne hca)]
    · rw [if_neg hca, if_neg hca]
  · refine run_writes_congr hs [(a, content')] [(a, content), (a, content')] fun c _ => ?_
    simp only [List.reverse_cons, List.reverse_nil, List.nil_append, List.singleton_append,
      lookup_cons_eq_ite]
    by_cases hca : c = a <;> simp [hca]
  · rw [cell?_clearRange hs, if_pos ⟨hr, ha⟩]
  · rw [cell?_clearRange hs, if_neg ha]

theorem writes_touch_named_stock :
    stock.Keyed ∧
    stock.run [.setCell ⟨0, 1⟩ (.text "Nuts"), .setCell ⟨1, 0⟩ (.number 7)] =
      stock.run [.setCell ⟨1, 0⟩ (.number 7), .setCell ⟨0, 1⟩ (.text "Nuts")] ∧
    (stock.clearRange ⟨⟨1, 9⟩, ⟨0, 1⟩⟩).cell? ⟨1, 1⟩ = some .empty ∧
    (stock.clearRange ⟨⟨1, 9⟩, ⟨0, 1⟩⟩).cell? ⟨1, 0⟩ = some (.number 12) ∧
    stock.clearRange ⟨⟨0, 1⟩, ⟨1, 9⟩⟩ = stock.clearRange ⟨⟨1, 9⟩, ⟨0, 1⟩⟩ := by
  have hs : stock.Keyed := (keyed_ofColumns _ (by decide)).run _
  obtain ⟨-, -, hcomm, -, hclear⟩ := writes_touch_named stock hs
  obtain ⟨-, hcleared, hkept, -, hsame, -⟩ := hclear ⟨⟨1, 9⟩, ⟨0, 1⟩⟩
  refine ⟨hs, hcomm _ _ _ _ (by decide), hcleared _ (by decide) (by decide +kernel), ?_,
    hsame _ (by decide)⟩
  rw [hkept _ (by decide)]
  decide +kernel

end Sheet

end Spreadsheet
