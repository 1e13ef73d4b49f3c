import Spreadsheet.Proofs.Agreement
import Spreadsheet.Proofs.Named
import Spreadsheet.Word

namespace Spreadsheet

namespace Word

theorem add?_eq {m n : Nat} (h : m + n ≤ Address.limit) : add? m n = some (m + n) := if_pos h

theorem sub?_eq {m n : Nat} (h : n ≤ m) : sub? m n = some (m - n) := if_pos h

variable {g : Grid} {r s : Range}

theorem height?_eq (h : r.Numbered) : height? r = some r.height := by
  have hsize := h.maxRow
  simp only [height?, sub?_eq r.minRow_le_maxRow, Option.bind_eq_bind, Option.bind_some]
  exact add?_eq (by omega)

theorem width?_eq (h : r.Numbered) : width? r = some r.width := by
  have hsize := h.maxCol
  simp only [width?, sub?_eq r.minCol_le_maxCol, Option.bind_eq_bind, Option.bind_some]
  exact add?_eq (by omega)

theorem toText?_eq {a : Address} (h : a.Numbered) : toText? a = some a.toText := by
  have hrow : a.row + 1 ≤ Address.limit := h.row
  simp only [toText?, add?_eq hrow, Option.bind_eq_bind, Option.bind_some]
  rfl

theorem rangeText?_eq (h : r.Numbered) : rangeText? r = some r.toText := by
  simp only [rangeText?, toText?_eq h.start, toText?_eq h.stop, Option.bind_eq_bind,
    Option.bind_some]
  rfl

theorem clip?_eq {lo hi : Nat} (h : hi < Address.limit) (len : Nat) :
    clip? lo hi len = some (Grid.clip lo hi len) := by
  by_cases hlo : len ≤ lo
  · have hcount : min (hi + 1) len - lo = 0 := by omega
    simp [clip?, Grid.clip, hlo, hcount]
  · have hlast : min hi (len - 1) + 1 ≤ Address.limit := by omega
    have hstop : min hi (len - 1) + 1 = min (hi + 1) len := by omega
    simp only [clip?, hlo, if_false, sub?_eq (Nat.one_le_iff_ne_zero.2 (by omega : len ≠ 0)),
      Option.bind_eq_bind, Option.bind_some, add?_eq hlast]
    simp only [hstop]
    rfl

theorem cellsIn?_eq (h : r.Numbered) (g : Grid) : cellsIn? g r = some (g.cellsIn r) := by
  simp only [cellsIn?, clip?_eq h.maxRow, clip?_eq h.maxCol, Option.bind_eq_bind, Option.bind_some]
  rfl

theorem counterpart?_eq {a : Address} (h : s.Numbered) (hheight : s.height = r.height)
    (hwidth : s.width = r.width) (ha : r.contains a = true) :
    counterpart? r s a = some (r.counterpart s a) := by
  have hin := Range.contains_iff.1 (Range.contains_counterpart hheight hwidth ha)
  have hrow := h.maxRow
  have hcol := h.maxCol
  obtain ⟨⟨harow, -⟩, hacol, -⟩ := Range.contains_iff.1 ha
  simp only [Range.counterpart] at hin
  simp only [counterpart?, sub?_eq hacol, sub?_eq harow, Option.bind_eq_bind, Option.bind_some]
  rw [add?_eq (by omega), Option.bind_some, add?_eq (by omega)]
  rfl

theorem foldlM_counterpart? (criterion : Criterion) (h : s.Numbered) (hheight : s.height = r.height)
    (hwidth : s.width = r.width) {as : List Address} (has : ∀ a ∈ as, r.contains a = true)
    (total : Binary64) :
    as.foldlM (fun total a => do
      if criterion.accepts (g.cell a) then
        return total + g.referenceValue (← counterpart? r s a)
      else return total) total =
    some ((as.filter fun a => criterion.accepts (g.cell a)).foldl
      (fun total a => total + g.referenceValue (r.counterpart s a)) total) := by
  induction as generalizing total with
  | nil => rfl
  | cons a as ih =>
    obtain ⟨ha, has⟩ := List.forall_mem_cons.1 has
    rw [List.foldlM_cons, List.filter_cons]
    by_cases haccepts : criterion.accepts (g.cell a) = true
    · rw [if_pos haccepts, if_pos haccepts, List.foldl_cons, counterpart?_eq h hheight hwidth ha]
      exact ih has _
    · rw [if_neg haccepts, if_neg haccepts]
      exact ih has total

theorem sumIf?_eq (hr : r.Numbered) (hs : s.Numbered) (g : Grid) (criterion : Criterion) :
    sumIf? g r criterion s = some (g.sumIf r criterion s) := by
  simp only [sumIf?, height?_eq hr, height?_eq hs, width?_eq hr, width?_eq hs, cellsIn?_eq hr,
    Option.bind_eq_bind, Option.bind_some, Grid.sumIf]
  by_cases hsize : s.height = r.height ∧ s.width = r.width
  · have hfold := foldlM_counterpart? (g := g) criterion hs hsize.1 hsize.2
      (fun a (ha : a ∈ g.cellsIn r) => (Grid.mem_cellsIn.1 ha).1) 0
    simp only [Option.bind_eq_bind] at hfold
    rw [if_pos hsize, if_neg (by simpa using hsize), hfold]
    rfl
  · rw [if_neg hsize, if_pos (not_and_or.1 hsize)]
    rfl

theorem firstColumn?_eq (h : r.Numbered) (g : Grid) : firstColumn? g r = some (g.firstColumn r) := by
  have hrow := h.maxRow
  simp only [firstColumn?, Grid.firstColumn]
  split
  · next hlt =>
    have hstop : min r.maxRow (g.rowCount - 1) + 1 = min (r.maxRow + 1) g.rowCount := by omega
    rw [add?_eq (by omega), hstop]
    rfl
  · next hge =>
    have hcount : min (r.maxRow + 1) g.rowCount - r.minRow = 0 := by omega
    simp [Grid.clip, hcount]

theorem hits?_eq (h : r.Numbered) (g : Grid) (key : String) :
    hits? g key r = some (g.hits key r) := by
  simp only [hits?, firstColumn?_eq h, Option.bind_eq_bind, Option.bind_some]
  rfl

theorem inside_of_limit_lt {a : Address} (hg : g.colCount ≤ Address.limit)
    (ha : Address.limit < a.col) : g.inside a = .error .reference := by
  have hout : ¬g.inBounds a = true := by
    simp only [Grid.inBounds, Bool.and_eq_true, decide_eq_true_eq]
    omega
  rw [Grid.inside, if_neg hout]

theorem vlookup_ne_ok {key : String} {column : Nat} (hg : g.colCount ≤ Address.limit)
    (hsum : Address.limit < r.minCol + (column - 1)) (a : Address) :
    g.vlookup key r column ≠ .ok a := by
  intro h
  rw [Grid.vlookup] at h
  split at h
  · cases h
  split at h
  · cases h
  · rw [inside_of_limit_lt hg hsum] at h
    cases h

theorem vlookup?_eq (h : r.Numbered) (hg : g.colCount ≤ Address.limit) (key : String)
    (column : Nat) : vlookup? g key r column = some (g.vlookup key r column) := by
  simp only [vlookup?, Grid.vlookup, hits?_eq h, Option.bind_eq_bind, Option.bind_some]
  split
  · rfl
  next hcolumn =>
  cases (g.hits key r).head? with
  | none => rfl
  | some hit =>
    simp only [sub?_eq (Nat.one_le_iff_ne_zero.2 hcolumn), Option.bind_some]
    by_cases hsum : r.minCol + (column - 1) ≤ Address.limit
    · rw [add?_eq hsum]
      rfl
    · simp only [add?, ofNat?, if_neg hsum]
      rw [inside_of_limit_lt hg (Nat.lt_of_not_le hsum)]
      rfl

theorem index?_eq (h : r.Numbered) (g : Grid) (row column : Nat) :
    index? g r row column = some (g.index r row column) := by
  have hrow := h.maxRow
  have hcol := h.maxCol
  have hrow' := r.minRow_le_maxRow
  have hcol' := r.minCol_le_maxCol
  simp only [index?, Grid.index, height?_eq h, width?_eq h, Option.bind_eq_bind, Option.bind_some]
  split
  · rfl
  next hsize =>
  simp only [Range.height, Range.width] at hsize
  have hplace : r.minCol + column - 1 = r.minCol + (column - 1) ∧
      r.minRow + row - 1 = r.minRow + (row - 1) := by omega
  rw [add?_eq (by omega), Option.bind_some, sub?_eq (by omega), Option.bind_some, add?_eq (by omega),
    Option.bind_some, sub?_eq (by omega), Option.bind_some, hplace.1, hplace.2]
  rfl

theorem matchPosition?_eq (h : r.Numbered) (g : Grid) (key : String) (last : Bool) :
    matchPosition? g key r last = some (g.matchPosition key r last) := by
  simp only [matchPosition?, Grid.matchPosition, hits?_eq h, Option.bind_eq_bind, Option.bind_some]
  cases hhit : (if last then (g.hits key r).getLast? else (g.hits key r).head?) with
  | none => rfl
  | some hit =>
    have hmem : hit ∈ g.hits key r := by
      split at hhit
      · exact List.mem_of_getLast? hhit
      · exact List.mem_of_head? hhit
    have hin := Grid.contains_of_mem_firstColumn (List.mem_filter.1 hmem).1
    obtain ⟨⟨hlow, hhigh⟩, -⟩ := Range.contains_iff.1 hin
    have hrow := h.maxRow
    simp only [sub?_eq hlow, Option.bind_some]
    rw [add?_eq (by omega)]
    rfl

/-- Over ranges that can be named, and for all positions in them, every step of the index arithmetic
gives a word, and the words come to what the numbers come to. The column of a VLOOKUP is the one sum
that may be no word; it is checked, and no cell is found by it. -/
theorem indexing_never_overflows {g : Grid} {r s : Range} (hr : r.Named) (hs : s.Named)
    (hg : g.colCount ≤ Address.limit) :
    height? r = some r.height ∧ width? r = some r.width ∧
    (∀ a ∈ [r.start, r.stop], toText? a = some a.toText) ∧ rangeText? r = some r.toText ∧
    cellsIn? g r = some (g.cellsIn r) ∧
    (∀ criterion, sumIf? g r criterion s = some (g.sumIf r criterion s)) ∧
    (s.height = r.height → s.width = r.width → ∀ a ∈ g.cellsIn r,
      counterpart? r s a = some (r.counterpart s a) ∧ s.contains (r.counterpart s a) = true) ∧
    firstColumn? g r = some (g.firstColumn r) ∧
    (∀ key column, vlookup? g key r column = some (g.vlookup key r column) ∧
      (Address.limit < r.minCol + (column - 1) → ∀ a, g.vlookup key r column ≠ .ok a)) ∧
    (∀ row column, index? g r row column = some (g.index r row column)) ∧
    ∀ key last, matchPosition? g key r last = some (g.matchPosition key r last) := by
  have hr := hr.numbered
  have hs := hs.numbered
  refine ⟨height?_eq hr, width?_eq hr, ?_, rangeText?_eq hr, cellsIn?_eq hr g, sumIf?_eq hr hs g, ?_,
    firstColumn?_eq hr g, fun key column => ⟨vlookup?_eq hr hg key column, vlookup_ne_ok hg⟩,
    index?_eq hr g, matchPosition?_eq hr g⟩
  · simp [toText?_eq hr.start, toText?_eq hr.stop]
  · intro hheight hwidth a ha
    have hin := (Grid.mem_cellsIn.1 ha).1
    exact ⟨counterpart?_eq hs hheight hwidth hin, Range.contains_counterpart hheight hwidth hin⟩

def leftEdge : Range := ⟨⟨0, 0⟩, ⟨0, Address.limit - 1⟩⟩

def rightEdge : Range := ⟨⟨Address.limit - 1, 0⟩, ⟨Address.limit - 1, Address.limit - 1⟩⟩

theorem parse_rightEdge :
    Expr.parse "GKGWBYLWRXTLPO1:GKGWBYLWRXTLPO18446744073709551615".toList =
      .ok (.range rightEdge) := by
  have htokens : Token.tokens "GKGWBYLWRXTLPO1:GKGWBYLWRXTLPO18446744073709551615".toList =
      .ok [.address rightEdge.start, .colon, .address rightEdge.stop] := by decide +kernel
  rw [Expr.parse, htokens]
  exact Expr.ofTokens_eq_ok (.of_primary (.range _ _)) (Nat.zero_le _) (Nat.zero_le _)

theorem parse_leftEdge : Range.parse? "A1:A18446744073709551615" = some leftEdge := by
  decide +kernel

theorem indexing_never_overflows_edges :
    rightEdge.Named ∧ leftEdge.Named ∧ height? rightEdge = some Address.limit ∧
    rangeText? rightEdge = some "GKGWBYLWRXTLPO1:GKGWBYLWRXTLPO18446744073709551615" ∧
    (∀ a ∈ Grid.cellsIn ⟨2, 2, fun _ => none⟩ leftEdge,
      counterpart? leftEdge rightEdge a = some ⟨Address.limit - 1, a.row⟩) ∧
    vlookup? ⟨2, 2, fun _ => none⟩ "" rightEdge Address.limit = some (.error .reference) := by
  have hleft : leftEdge.Named := .text parse_leftEdge
  have hright : rightEdge.Named := .formula parse_rightEdge (List.mem_singleton.2 rfl)
  obtain ⟨hheight, -, -, htext, -, -, -, -, hlookup, -⟩ :=
    indexing_never_overflows (g := ⟨2, 2, fun _ => none⟩) hright hleft (by decide)
  obtain ⟨-, -, -, -, -, -, hplace, -⟩ :=
    indexing_never_overflows (g := ⟨2, 2, fun _ => none⟩) hleft hright (by decide)
  refine ⟨hright, hleft, hheight, ?_, ?_, ?_⟩
  · rw [htext]
    decide +kernel
  · intro a ha
    obtain ⟨hcol, -⟩ := hplace rfl rfl a ha
    have hin := Range.contains_iff.1 (Grid.mem_cellsIn.1 ha).1
    rw [hcol]
    simp [Range.counterpart, leftEdge, rightEdge, Range.minCol, Range.minRow, Range.maxCol] at hin ⊢
    omega
  · rw [(hlookup _ _).1]
    rfl
end Word

end Spreadsheet
