import Spreadsheet.Evaluate
import Spreadsheet.Proofs.Table

namespace Spreadsheet

namespace Row

def insertAll (row : Row) (items : List (String × Content)) : Row :=
  items.foldl (fun row item => row.insert item.1 item.2) row

theorem getElem?_insertAll (row : Row) (items : List (String × Content)) (name : String) :
    (row.insertAll items)[name]? = (items.reverse.lookup name).or row[name]? := by
  induction items generalizing row with
  | nil => rfl
  | cons item items ih =>
    obtain ⟨key, content⟩ := item
    have hfirst : (row.insert key content)[name]? =
        ([(key, content)].lookup name).or row[name]? := by
      rw [Std.ExtTreeMap.getElem?_insert]
      by_cases hname : name = key
      · simp [hname]
      · have hkey : (name == key) = false := beq_false_of_ne hname
        simp [Ne.symm hname, List.lookup_cons, hkey]
    have hrest := ih (row.insert key content)
    rw [insertAll] at hrest
    rw [insertAll, List.foldl_cons, hrest, hfirst, List.reverse_cons, List.lookup_append,
      Option.or_assoc]

end Row

namespace Table

def named (t : Table) (writes : List (Nat × Content)) : List (String × Content) :=
  writes.filterMap fun (col, content) => t.columns[col]?.map (·, content)

def writeRow (t : Table) (index : Nat) (writes : List (Nat × Content)) : Table :=
  { t with rows := t.rows.modify index (·.insertAll (t.named writes)) }

end Table

namespace Shadow

def store (s : Shadow) (col : Nat) (content : Content) : Bool × Shadow :=
  match s.set? col content with
  | some s' => (true, s')
  | none => (false, s)

def storeAll (s : Shadow) : List (Nat × Content) → List Bool × Shadow
  | [] => ([], s)
  | (col, content) :: writes =>
    let (stored, s) := s.store col content
    let (rest, s) := s.storeAll writes
    (stored :: rest, s)

theorem store_eq (s : Shadow) (col : Nat) (content : Content) :
    s.store col content = (decide (col < s.table.columns.size),
      { s with row := s.row.insertAll (s.table.named [(col, content)]) }) := by
  by_cases h : col < s.table.columns.size
  · simp [store, set?, Table.named, Row.insertAll, h]
  · simp [store, set?, Table.named, Row.insertAll, h]

theorem storeAll_eq (s : Shadow) (writes : List (Nat × Content)) :
    s.storeAll writes = (writes.map fun write => decide (write.1 < s.table.columns.size),
      { s with row := s.row.insertAll (s.table.named writes) }) := by
  induction writes generalizing s with
  | nil => rfl
  | cons write writes ih =>
    obtain ⟨col, content⟩ := write
    rw [storeAll, store_eq]
    simp only [ih, List.map_cons, Table.named, Row.insertAll, ← List.foldl_append,
      ← List.filterMap_append]
    rfl

theorem store_eq_false_iff {s : Shadow} {col : Nat} {content : Content} :
    s.store col content = (false, s) ↔ ¬col < s.table.columns.size := by
  by_cases h : col < s.table.columns.size <;> simp [store, set?, h]

theorem commit_storeAll {t : Table} {index : Nat} {row : Row} (h : t.rows[index]? = some row)
    (writes : List (Nat × Content)) :
    (storeAll ⟨t, index, row⟩ writes).2.commit = t.writeRow index writes := by
  have hrows : t.rows.setIfInBounds index (row.insertAll (t.named writes)) =
      t.rows.modify index (·.insertAll (t.named writes)) := by
    apply Array.ext_getElem?
    intro i
    rw [Array.getElem?_setIfInBounds, Array.getElem?_modify]
    split
    · next hi =>
      rw [← hi, h, if_pos (Array.getElem?_eq_some_iff.1 h).1]
      rfl
    · rfl
  rw [storeAll_eq, commit, Table.writeRow, hrows]

end Shadow

namespace Table

variable {t : Table} {index : Nat}

theorem cell?_writeRow {row : Row} (h : t.rows[index]? = some row) (writes : List (Nat × Content))
    (a : Address) :
    (t.writeRow index writes).cell? a =
      if a.row = index then
        t.columns[a.col]?.bind fun key => ((t.named writes).reverse.lookup key).or row[key]?
      else t.cell? a := by
  by_cases hrow : a.row = index
  · simp [cell?, writeRow, hrow, h, Array.getElem?_modify, Row.getElem?_insertAll]
  · simp [cell?, writeRow, hrow, Ne.symm hrow, Array.getElem?_modify]

/-- Contents are stored in a shadow by position, where the table has a column, and elsewhere nothing
happens. Whatever was stored, formulas have the values on the shadow that they have on the table with the
same contents stored in the row itself, and the shadow still shadows the table as it was. -/
theorem shadow_exact (t : Table) (index : Nat) (row : Row) (h : t.rows[index]? = some row) :
    ∃ shadow, Shadow.ofTable? t index = some shadow ∧ ∀ writes : List (Nat × Content),
      ∃ after, shadow.storeAll writes =
          (writes.map fun write => decide (write.1 < t.columns.size), after) ∧
        after.table = t ∧
        (∀ col content, after.store col content = (false, after) ↔ ¬col < t.columns.size) ∧
        after.grid.rowCount = (t.writeRow index writes).grid.rowCount ∧
        after.grid.colCount = (t.writeRow index writes).grid.colCount ∧
        (∀ a, after.grid.inBounds a = (t.writeRow index writes).grid.inBounds a) ∧
        (∀ a, after.grid.cell a = (t.writeRow index writes).grid.cell a ∧
          after.grid.cell a =
            if a.row = index then
              t.columns[a.col]?.bind fun key => ((t.named writes).reverse.lookup key).or row[key]?
            else t.cell? a) ∧
        ∀ c, after.grid.evaluate c = (t.writeRow index writes).grid.evaluate c := by
  refine ⟨⟨t, index, row⟩, by rw [Shadow.ofTable?, h]; rfl, fun writes => ?_⟩
  have hstored := Shadow.storeAll_eq ⟨t, index, row⟩ writes
  have hcommit := Shadow.commit_storeAll h writes
  rw [hstored] at hcommit
  have hgrid := Shadow.grid_eq_grid_commit (s := ⟨t, index, row.insertAll (t.named writes)⟩)
    (Array.getElem?_eq_some_iff.1 h).1
  rw [hcommit] at hgrid
  refine ⟨_, hstored, rfl, fun col content => Shadow.store_eq_false_iff, ?_⟩
  rw [hgrid]
  exact ⟨rfl, rfl, fun a => rfl, fun a => ⟨rfl, cell?_writeRow h writes a⟩, fun c => rfl⟩

def twins : Table where
  columns := #["Half", "Whole", "Half"]
  rows := #[∅, (∅ : Row).insert "Half" (.number 3)]

theorem shadow_exact_twins :
    ∃ shadow, Shadow.ofTable? twins 1 = some shadow ∧
      ∃ after, shadow.storeAll [(2, .number 4), (3, .number 9), (1, .text "=A2*2")] =
          ([true, false, true], after) ∧
        after.table = twins ∧ after.grid.cell ⟨0, 1⟩ = some (.number 4) ∧
        after.grid.evaluate (.text "=A2*2") = .number 8 := by
  have hrow : twins.rows[1]? = some ((∅ : Row).insert "Half" (.number 3)) := rfl
  obtain ⟨shadow, hshadow, hwrites⟩ := shadow_exact twins 1 _ hrow
  obtain ⟨after, hstored, htable, -, -, -, -, hcell, hvalue⟩ :=
    hwrites [(2, .number 4), (3, .number 9), (1, .text "=A2*2")]
  refine ⟨shadow, hshadow, after, hstored, htable, ?_, ?_⟩
  · rw [(hcell _).1]
    decide +kernel
  · rw [hvalue]
    decide +kernel

end Table

end Spreadsheet
