import Spreadsheet.Proofs.Shift
import Spreadsheet.Proofs.Unread

namespace Spreadsheet

namespace Content

inductive Numberless : Content → Prop
  | empty : Numberless .empty
  | formula {c : Content} (h : c.isFormula = true) : Numberless c
  | text {s : String} (h : Binary64.leadingOfText? s = none) : Numberless (.text s)

theorem leadingNumber?_of_isFormula {c : Content} (h : c.isFormula = true) :
    c.leadingNumber? = none := by
  cases c with
  | empty => rfl
  | number n => cases h
  | text s =>
    simp only [isFormula, formulaBody?] at h
    split at h
    · next body hs =>
      have hblanks : Text.dropBlanks s.toList = '=' :: body := by
        rw [hs, Text.dropBlanks, List.dropWhile_cons_of_neg (by decide)]
      have hscan : Numeral.scan ('=' :: body) = none := rfl
      rw [leadingNumber?, Binary64.leadingOfText?, hblanks, hscan]
      rfl
    · cases h

theorem Numberless.leadingNumber? {c : Content} (h : c.Numberless) : c.leadingNumber? = none := by
  cases h with
  | empty => rfl
  | formula h => exact leadingNumber?_of_isFormula h
  | text h =>
    rw [Content.leadingNumber?, h]
    rfl

end Content

namespace Grid

variable {g g' : Grid}

theorem filter_lt_range' (lo n len : Nat) :
    (List.range' lo n).filter (· < len) = List.range' lo (min n (len - lo)) := by
  induction n generalizing lo with
  | zero => simp
  | succ n ih =>
    rw [List.range'_succ, List.filter_cons, ih]
    by_cases hlo : lo < len
    · have hmin : min (n + 1) (len - lo) = min n (len - (lo + 1)) + 1 := by omega
      rw [if_pos (by simpa using hlo), hmin, List.range'_succ]
    · have hmin : min (n + 1) (len - lo) = 0 ∧ min n (len - (lo + 1)) = 0 := by omega
      rw [if_neg (by simpa using hlo), hmin.1, hmin.2]
      rfl

def Confined (g : Grid) : Prop :=
  ∀ a c, g.cell a = some c → g.inBounds a = true

def SameNumbers (g g' : Grid) : Prop :=
  ∀ a, g.leadingNumber? a = g'.leadingNumber? a

theorem clip_eq_filter {lo hi : Nat} (h : lo ≤ hi) (len : Nat) :
    clip lo hi len = (List.range' lo (hi - lo + 1)).filter (· < len) := by
  have hmin : min (hi + 1) len - lo = min (hi - lo + 1) (len - lo) := by omega
  rw [clip, filter_lt_range', hmin]

theorem cellsIn_eq_filter (g : Grid) (r : Range) : g.cellsIn r = r.cells.filter g.inBounds := by
  rw [cellsIn, clip_eq_filter r.minRow_le_maxRow, clip_eq_filter r.minCol_le_maxCol, Range.cells,
    Range.height, Range.width]
  generalize List.range' r.minRow _ = rows
  generalize List.range' r.minCol _ = cols
  induction rows with
  | nil => rfl
  | cons row rows ih =>
    simp only [Range.product, List.flatMap_cons, List.filter_append, List.filter_map] at ih ⊢
    rw [← ih, List.filter_cons]
    by_cases hrow : row < g.rowCount
    · simp [hrow, inBounds, Function.comp_def]
    · simp [hrow, inBounds, Function.comp_def]

theorem Confined.leadingNumber? (h : g.Confined) {a : Address} (ha : g.inBounds a = false) :
    g.leadingNumber? a = none := by
  rw [Grid.leadingNumber?]
  cases hc : g.cell a with
  | none => rfl
  | some c =>
    rw [h a c hc] at ha
    cases ha

theorem Confined.numbersIn_eq (h : g.Confined) (r : Range) :
    g.numbersIn r = r.cells.filterMap g.leadingNumber? := by
  rw [numbersIn, cellsIn_eq_filter, List.filterMap_filter]
  apply List.filterMap_congr
  intro a _
  cases ha : g.inBounds a with
  | true => rfl
-- Clipping leaves out a cell that has no number anyway.
  | false => simp [h.leadingNumber? ha]

theorem SameNumbers.numbersIn_eq (h : g.SameNumbers g') (hg : g.Confined) (hg' : g'.Confined)
    (r : Range) : g.numbersIn r = g'.numbersIn r := by
  have hleading : g.leadingNumber? = g'.leadingNumber? := funext h
  rw [hg.numbersIn_eq, hg'.numbersIn_eq, hleading]

theorem SameNumbers.referenceValue_eq (h : g.SameNumbers g') :
    g.referenceValue = g'.referenceValue := by
  funext a
  simp only [referenceValue, h a]

/-- The grids that formulas are evaluated on: tables, and tables behind a changed copy of one of their
rows. -/
inductive IsSource : Grid → Prop
  | table (t : Table) : IsSource t.grid
  | shadow {s : Shadow} (h : s.index < s.table.rows.size) : IsSource s.grid

theorem confined_table (t : Table) : t.grid.Confined := by
  intro a c hc
  simp only [Table.grid_cell, Table.cell?, Option.bind_eq_bind, Option.bind_eq_some_iff] at hc
  obtain ⟨key, hkey, row, hrow, -⟩ := hc
  exact Table.inBounds_iff.2 ⟨key, row, hkey, hrow⟩

theorem IsSource.confined (h : g.IsSource) : g.Confined := by
  cases h with
  | table t => exact confined_table t
  | shadow h =>
    rw [Shadow.grid_eq_grid_commit h]
    exact confined_table _

end Grid

variable {g g' : Grid}

theorem Function.ofName?_aggregate {f : String} {function : Function}
    (hf : f ∉ ["SUMIF", "VLOOKUP", "INDEX", "MATCH"]) (h : ofName? f = some function) :
    ∃ kind, function = .aggregate kind := by
  obtain ⟨entry, hentry, rfl⟩ := Option.map_eq_some_iff.1 h
  have hname : entry.name = f := by simpa using List.find?_some hentry
  have hmem := List.mem_of_find?_eq_some hentry
  subst hname
  revert hf
  revert entry
  simp [entries]

theorem Function.callAggregate_of_numbersIn (h : ∀ r, g.numbersIn r = g'.numbersIn r)
    (kind : Aggregate) (args : List Argument) :
    callAggregate g kind args = callAggregate g' kind args := by
  have hnumbers : (fun a : Argument => a.numbers g) = fun a => a.numbers g' := by
    funext a
    simp only [Argument.numbers, h]
  simp only [callAggregate, hnumbers]

namespace Expr

mutual

def isPlain : Expr → Bool
  | .number _ | .text _ | .cell _ | .range _ => true
  | .neg e => isPlain e
  | .binary _ l r => isPlain l && isPlain r
  | .call f args => f ∉ ["SUMIF", "VLOOKUP", "INDEX", "MATCH"] && argsPlain args

def argsPlain : List Expr → Bool
  | [] => true
  | e :: es => isPlain e && argsPlain es

end

mutual

theorem eval_of_numbersIn (h : ∀ r, g.numbersIn r = g'.numbersIn r) (resolve : Address → Binary64)
    {e : Expr} (he : e.isPlain = true) : e.eval g resolve = e.eval g' resolve := by
  match e with
  | .number n => rfl
  | .text s => rfl
  | .cell a => rfl
  | .range r => rfl
  | .neg e =>
    rw [isPlain] at he
    simp only [eval, eval_of_numbersIn h resolve he]
  | .binary op l r =>
    rw [isPlain, Bool.and_eq_true] at he
    simp only [eval, eval_of_numbersIn h resolve he.1, eval_of_numbersIn h resolve he.2]
  | .call f args =>
    rw [isPlain, Bool.and_eq_true, decide_eq_true_eq] at he
    simp only [eval, evalArgs_of_numbersIn h resolve he.2]
    cases hf : Function.ofName? f with
    | none => rfl
    | some function =>
      obtain ⟨kind, rfl⟩ := Function.ofName?_aggregate he.1 hf
      exact Function.callAggregate_of_numbersIn h kind _

theorem evalArgs_of_numbersIn (h : ∀ r, g.numbersIn r = g'.numbersIn r)
    (resolve : Address → Binary64) {es : List Expr} (hes : argsPlain es = true) :
    evalArgs g resolve es = evalArgs g' resolve es := by
  match es with
  | [] => rfl
  | e :: es =>
    rw [argsPlain, Bool.and_eq_true] at hes
    simp only [evalArgs, eval_of_numbersIn h resolve hes.1, evalArgs_of_numbersIn h resolve hes.2]

end

theorem eval_of_sameNumbers (h : g.SameNumbers g') (hg : g.Confined) (hg' : g'.Confined) {e : Expr}
    (he : e.isPlain = true) : e.eval g g.referenceValue = e.eval g' g'.referenceValue := by
  rw [← h.referenceValue_eq]
  exact eval_of_numbersIn (h.numbersIn_eq hg hg') _ he

end Expr

namespace Sheet

variable {s t : Sheet}

theorem sameNumbers_of_extends
    (hin : ∀ a, s.grid.inBounds a = true → t.cell? a = s.cell? a)
    (hout : ∀ a, s.grid.inBounds a = false → t.grid.inBounds a = true → t.cell? a = some .empty) :
    s.grid.SameNumbers t.grid := by
  intro a
  cases ha : s.grid.inBounds a with
  | true => simp only [Grid.leadingNumber?, Table.grid_cell, hin a ha]
  | false =>
    rw [(Grid.confined_table _).leadingNumber? ha]
    cases ha' : t.grid.inBounds a with
    | true =>
      simp only [Grid.leadingNumber?, Table.grid_cell, hout a ha ha']
      rfl
    | false => exact ((Grid.confined_table _).leadingNumber? ha').symm

theorem sameNumbers_setCell {a : Address} {content : Content}
    (ha : ∀ c ∈ s.cell? a, c.Numberless) (hcontent : content.Numberless)
    (h : s.setCell a content = .ok t) : s.grid.SameNumbers t.grid := by
  intro b
  simp only [Grid.leadingNumber?, Table.grid_cell, cell?_of_setCell h]
  split
  · next hplace =>
-- Cells stored in one place hold the same, so none of them has a number to lose.
    have hsame : s.cell? b = s.cell? a := by simp only [Table.cell?, hplace.1, hplace.2]
    rw [hsame, Option.bind_some, hcontent.leadingNumber?]
    cases hc : s.cell? a with
    | none => rfl
    | some c => exact (ha c hc).leadingNumber?
  · rfl

theorem sameNumbers_insertRow (h : s.insertRow s.rows.size = .ok t) :
    s.grid.SameNumbers t.grid := by
  obtain ⟨⟨hcolumns, hrows, hcell⟩, hblank⟩ := rowInserted_insertRow h
  apply sameNumbers_of_extends
  · intro a ha
    rw [Grid.inBounds_eq_true_iff, Table.grid_rowCount] at ha
    rw [hcell a, skip_of_lt ha.1]
  · rintro ⟨col, row⟩ ha ha'
    rw [← Bool.not_eq_true, Grid.inBounds_eq_true_iff] at ha
    rw [Grid.inBounds_eq_true_iff] at ha'
    simp only [Table.grid_rowCount, Table.grid_colCount, ← hcolumns, hrows] at ha ha'
    have hrow : row = s.rows.size := by omega
    rw [hrow]
    exact hblank col (by omega)

theorem sameNumbers_withColumn {name : String} (hname : name ∉ s.columns) :
    s.grid.SameNumbers (s.withColumn s.columns.size name).grid := by
  obtain ⟨⟨hcolumns, hrows, hcell⟩, -, hblank⟩ := columnInserted_withColumn (Nat.le_refl _) hname
  have hsize : (s.withColumn s.columns.size name).columns.size = s.columns.size + 1 := by
    rw [← Array.length_toList, columns_withColumn (Nat.le_refl _), List.length_insertIdx]
    simp
  apply sameNumbers_of_extends
  · intro a ha
    rw [Grid.inBounds_eq_true_iff, Table.grid_colCount] at ha
    rw [hcell a, skip_of_lt ha.2]
  · rintro ⟨col, row⟩ ha ha'
    rw [← Bool.not_eq_true, Grid.inBounds_eq_true_iff] at ha
    rw [Grid.inBounds_eq_true_iff] at ha'
    simp only [Table.grid_rowCount, Table.grid_colCount, hsize, ← hrows] at ha ha'
    have hcol : col = s.columns.size := by omega
    rw [hcol]
    exact hblank row (by omega)

theorem insertRow_size (s : Sheet) : s.insertRow s.rows.size = .ok s.addRow := by
  rw [insertRow, dif_pos (Nat.le_refl _), addRow, Array.insertIdx_size_self]

end Sheet

namespace Expr

variable {e : Expr} {s t : Sheet}

def SameOn (e : Expr) (s t : Sheet) : Prop :=
  e.eval s.grid s.grid.referenceValue = e.eval t.grid t.grid.referenceValue ∧
  ∀ a, s.formula? a = some e → t.formula? a = some e → s.evaluate a = t.evaluate a

theorem sameOn_of_sameNumbers (he : e.isPlain = true) (h : s.grid.SameNumbers t.grid) :
    e.SameOn s t := by
  have hvalue := eval_of_sameNumbers h (Grid.confined_table _) (Grid.confined_table _) he
  refine ⟨hvalue, fun a hs ht => ?_⟩
  rw [Sheet.evaluate_of_formula?_eq_some hs, Sheet.evaluate_of_formula?_eq_some ht, hvalue]

/-- An expression without searches takes from a grid the numbers that lead its cells, and nothing else.
So cells without such a number can take each other's place, and blank rows and columns can be added. -/
theorem plain_sees_leading_numbers (e : Expr) (he : e.isPlain = true) :
    (∀ g g' : Grid, g.IsSource → g'.IsSource →
      (∀ a, g.leadingNumber? a = g'.leadingNumber? a) →
      e.eval g g.referenceValue = e.eval g' g'.referenceValue) ∧
    (∀ (s t : Sheet) (a : Address) (content : Content), (∀ c ∈ s.cell? a, c.Numberless) →
      content.Numberless → s.setCell a content = .ok t → e.SameOn s t) ∧
    (∀ s : Sheet, e.SameOn s s.addRow) ∧
    (∀ (s t : Sheet) (name : String), s.addColumn name = .ok t → e.SameOn s t) ∧
    ∀ (s : Sheet) (after : Nat), s.columns.size ≤ after + 1 → e.SameOn s (s.insertColumn after) := by
  refine ⟨fun g g' hg hg' h => eval_of_sameNumbers h hg.confined hg'.confined he,
    fun s t a content ha hcontent h => ?_, fun s => ?_, fun s t name h => ?_, fun s after h => ?_⟩
  · exact sameOn_of_sameNumbers he (Sheet.sameNumbers_setCell ha hcontent h)
  · exact sameOn_of_sameNumbers he (Sheet.sameNumbers_insertRow s.insertRow_size)
  · obtain ⟨⟨-, hname⟩, rfl⟩ := Sheet.addColumn_eq_ok h
    exact sameOn_of_sameNumbers he (Sheet.sameNumbers_withColumn hname)
  · rw [Sheet.insertColumn, Nat.min_eq_right h]
    exact sameOn_of_sameNumbers he (Sheet.sameNumbers_withColumn s.freshName_not_mem)

end Expr

namespace Sheet

def boxes : Sheet :=
  (ofColumns "Boxes" ["Item", "Count"]).run
    [.addRow, .addRow, .setInput "A1" "Bolts", .setInput "B1" "12 boxes", .setInput "B2" "=B1*2"]

def total : Expr :=
  .call "SUM" [.range ⟨⟨0, 0⟩, ⟨25, 99⟩⟩]

theorem plain_sees_leading_numbers_total :
    total.isPlain = true ∧ boxes.grid.IsSource ∧ boxes.addRow.grid.IsSource ∧
    total.eval boxes.grid boxes.grid.referenceValue =
      total.eval boxes.addRow.grid boxes.addRow.grid.referenceValue ∧
    (Content.text "=B1*2").Numberless ∧ (Content.text "=B1*3").Numberless ∧
    (∃ t, boxes.setCell ⟨1, 1⟩ (.text "=B1*3") = .ok t ∧ total.SameOn boxes t) ∧
    total.SameOn boxes boxes.addRow ∧
    (∃ t, boxes.addColumn "Unit" = .ok t ∧ total.SameOn boxes t) ∧
    total.SameOn boxes (boxes.insertColumn 1) := by
  have he : total.isPlain = true := by decide
  have hformula : ∀ c ∈ boxes.cell? ⟨1, 1⟩, c.Numberless := by
    have hcell : boxes.cell? ⟨1, 1⟩ = some (.text "=B1*2") := by decide +kernel
    rw [hcell]
    rintro c ⟨⟩
    exact .formula (by decide +kernel)
  have hset : boxes.setCell ⟨1, 1⟩ (.text "=B1*3") =
      .ok (boxes.edit (.setCell ⟨1, 1⟩ (.text "=B1*3"))) := by decide +kernel
  have hadd : boxes.addColumn "Unit" = .ok (boxes.edit (.addColumn "Unit")) := by decide +kernel
  have hnew : (Content.text "=B1*3").Numberless := .formula (by decide +kernel)
  obtain ⟨hgrids, hwrite, hrow, hcolumn, hinsert⟩ :=
    Expr.plain_sees_leading_numbers total he
  exact ⟨he, .table _, .table _,
    hgrids _ _ (.table _) (.table _) (sameNumbers_insertRow boxes.insertRow_size),
    .formula (by decide +kernel), hnew, ⟨_, hset, hwrite _ _ _ _ hformula hnew hset⟩,
    hrow boxes, ⟨_, hadd, hcolumn _ _ _ hadd⟩, hinsert boxes 1 (by decide +kernel)⟩

end Sheet

end Spreadsheet
