import Spreadsheet.Proofs.Unread

/-! What a text will show in an empty cell, told before it is typed there. The cell itself is all that
typing changes. A formula that does not name it can still come to it with a lookup beside its table, but
a lookup takes a formula for the same number as an empty cell. -/

namespace Spreadsheet

namespace Grid

variable {g : Grid} {a : Address} {c : Content}

theorem found_of_empty (h : g.cell a = some .empty) : g.found a = .number 0 := by
  rw [found, h]
  rfl

theorem found_of_isFormula (h : g.cell a = some c) (hc : c.isFormula = true) :
    g.found a = .number 0 := by
  rw [found, h]
  exact if_pos hc

end Grid

namespace Sheet

variable {s t : Sheet} {a : Address} {c : Content}

theorem evaluate_setCell_of_empty (hs : s.Keyed) (hempty : s.cell? a = some .empty)
    (h : s.setCell a c = .ok t) (hself : t.readsCell a a = false) :
    t.evaluate a = s.grid.evaluate c := by
  have hagree := agree_setCell hs h
  have hcell := cell?_of_setCell_self h
  simp only [evaluate, hcell]
  symm
  apply Grid.evaluate_congr
  intro body e hbody hparse
  have he := formula?_eq_some_iff.2 ⟨c, hcell, body, hbody, hparse⟩
  simp only [readsCell, he] at hself
  apply Expr.eval_eq hagree fun b hb => hagree.referenceValue_eq hb
  · rintro b hb rfl
    rw [hself] at hb
    cases hb
  · intro b _
-- A lookup that comes to the cell itself takes the formula there for an empty cell.
    by_cases hb : b = a
    · have hformula : c.isFormula = true := by rw [Content.isFormula, hbody, Option.isSome_some]
      rw [hb, Grid.found_of_empty hempty, Grid.found_of_isFormula hcell hformula]
    · exact hagree.found b hb

/-- Any text can be typed into an empty cell, and the cell then shows the value told for the text before,
unless the text is a formula that reads the cell. -/
theorem evaluateInput_previews (s : Sheet) (hs : s.Keyed) (a : Address)
    (hempty : s.cell? a = some .empty) (reference input : String)
    (href : s.resolve reference = .ok a) :
    ∃ t, s.setInput reference input = .ok (t, a) ∧
      (t.readsCell a a = false → t.evaluate a = s.evaluateInput input) := by
  obtain ⟨t, ht⟩ := exists_setCell_eq_ok (inBounds_of_resolve href) (.ofInput input)
  refine ⟨t, ?_, evaluate_setCell_of_empty hs hempty ht⟩
  simp only [setInput, setCellRef, href, ht]
  rfl

def unpriced : Sheet :=
  (ofColumns "Prices" ["Name", "Price"]).run [.addRow, .setInput "A1" "PEAR"]

def selfPriced : Sheet :=
  unpriced.edit (.setInput "B1" "=VLOOKUP(\"PEAR\",A1:A1,2)+1")

theorem evaluateInput_previews_unpriced :
    unpriced.Keyed ∧ unpriced.cell? ⟨1, 0⟩ = some .empty ∧ unpriced.resolve " b1 " = .ok ⟨1, 0⟩ ∧
    unpriced.setInput " b1 " "=VLOOKUP(\"PEAR\",A1:A1,2)+1" = .ok (selfPriced, ⟨1, 0⟩) ∧
    selfPriced.readsCell ⟨1, 0⟩ ⟨1, 0⟩ = false ∧ ⟨1, 0⟩ ∈ selfPriced.beside ⟨1, 0⟩ ∧
    selfPriced.evaluate ⟨1, 0⟩ = .number 1 := by
  have hkeyed : unpriced.Keyed := (keyed_ofColumns _ (by decide)).run _
  have hempty : unpriced.cell? ⟨1, 0⟩ = some .empty := by decide +kernel
  have href : unpriced.resolve " b1 " = .ok ⟨1, 0⟩ := by decide +kernel
  have hset : unpriced.setInput " b1 " "=VLOOKUP(\"PEAR\",A1:A1,2)+1" =
      .ok (selfPriced, ⟨1, 0⟩) := by
    decide +kernel
  have hself : selfPriced.readsCell ⟨1, 0⟩ ⟨1, 0⟩ = false := by decide +kernel
  obtain ⟨t, ht, hsame⟩ := evaluateInput_previews unpriced hkeyed ⟨1, 0⟩ hempty " b1 "
    "=VLOOKUP(\"PEAR\",A1:A1,2)+1" href
  rw [hset] at ht
  cases ht
  refine ⟨hkeyed, hempty, href, hset, hself, by decide +kernel, ?_⟩
  rw [hsame hself]
  decide +kernel

end Sheet

end Spreadsheet
