import Spreadsheet.Proofs.Dependency
import Spreadsheet.Proofs.Keys
import Spreadsheet.Proofs.Parser.Sound

namespace Spreadsheet

namespace Sheet

variable {s t : Sheet} {a c : Address} {content : Content}

def beside (s : Sheet) (a : Address) : List Address :=
  match s.formula? a with
  | some e => e.beside s.grid s.grid.referenceValue
  | none => []

theorem cell?_of_setCell_self (h : s.setCell c content = .ok t) : t.cell? c = some content := by
  rw [cell?_of_setCell h, if_pos ⟨rfl, rfl⟩]

theorem cell?_of_setCell_ne (hs : s.Keyed) (h : s.setCell c content = .ok t) (hne : a ≠ c) :
    t.cell? a = s.cell? a := by
  rw [cell?_of_setCell h, if_neg]
  rintro ⟨hrow, hcol⟩
  obtain ⟨u, hu, -⟩ := setCell_eq_ok h
  obtain ⟨key, row, hkey, -, -⟩ := Table.set?_eq_some_iff.1 hu
  have hlt : c.col < s.columns.toList.length := (Array.getElem?_eq_some_iff.1 hkey).1
  have hsame : c.col = a.col := by
    rw [← List.getElem?_inj hlt hs.nodup, Array.getElem?_toList, Array.getElem?_toList, hcol]
  apply hne
  obtain ⟨col, row⟩ := a
  cases hrow
  cases hsame
  rfl

theorem agree_setCell (hs : s.Keyed) (h : s.setCell c content = .ok t) :
    Grid.Agree (· ≠ c) s.grid t.grid := by
  have hcell : ∀ a, a ≠ c → s.grid.cell a = t.grid.cell a :=
    fun a ha => (cell?_of_setCell_ne hs h ha).symm
  obtain ⟨u, hu, rfl⟩ := setCell_eq_ok h
  obtain ⟨key, row, -, -, rfl⟩ := Table.set?_eq_some_iff.1 hu
  apply Grid.Agree.of_cell _ _ hcell
  · simp
  · simp

theorem formula?_eq_some_iff {e : Expr} : s.formula? a = some e ↔
    ∃ c, s.cell? a = some c ∧ ∃ body, c.formulaBody? = some body ∧ Expr.parseBody body = .ok e := by
  simp only [formula?, Option.bind_eq_bind, Option.bind_eq_some_iff, toOption_eq_some_iff]

theorem evaluate_of_formula?_eq_some {e : Expr} (h : s.formula? a = some e) :
    s.evaluate a = .ofResult (e.eval s.grid s.grid.referenceValue) := by
  obtain ⟨content, hcell, body, hbody, hparse⟩ := formula?_eq_some_iff.1 h
  simp only [evaluate, hcell, Grid.evaluate, Grid.evaluateWith, hbody, hparse]

theorem evaluate_setCell_of_not_beside (hs : s.Keyed) (h : s.setCell c content = .ok t)
    (hne : a ≠ c) (hunread : s.readsCell a c = false) (hbeside : c ∉ s.beside a) :
    t.evaluate a = s.evaluate a := by
  have hagree := agree_setCell hs h
  simp only [evaluate, cell?_of_setCell_ne hs h hne]
  cases hcell : s.cell? a with
  | none => rfl
  | some formula =>
    symm
    apply Grid.evaluate_congr
    intro body e hbody hparse
    have he := formula?_eq_some_iff.2 ⟨formula, hcell, body, hbody, hparse⟩
    simp only [readsCell, he] at hunread
    simp only [beside, he] at hbeside
    apply Expr.eval_eq hagree fun b hb => hagree.referenceValue_eq hb
    · rintro b hb rfl
      rw [hunread] at hb
      cases hb
    · exact fun b hb => hagree.found b fun hbc => hbeside (hbc ▸ hb)

theorem evaluate_setCell_of_beside {f : String} {args : List Expr} (hs : s.Keyed)
    (h : s.setCell c content = .ok t) (hne : a ≠ c) (hunread : s.readsCell a c = false)
    (hformula : s.formula? a = some (.call f args))
    (hargs : c ∉ Expr.argBeside s.grid s.grid.referenceValue args) (hbeside : c ∈ s.beside a) :
    t.evaluate a = .ofResult (.ok (t.grid.found c)) := by
  have hformula' : t.formula? a = some (.call f args) := by
    rwa [formula?, cell?_of_setCell_ne hs h hne]
  rw [evaluate_of_formula?_eq_some hformula']
  simp only [readsCell, hformula, Expr.reads] at hunread
  simp only [beside, hformula, Expr.beside, List.mem_append, hargs, false_or,
    Option.mem_toList, Option.bind_eq_some_iff] at hbeside
  obtain ⟨f', hf', hc⟩ := hbeside
  have hagree := agree_setCell hs h
  have hreads : ∀ b, Expr.argReads b args = true → b ≠ c := by
    rintro b hb rfl
    rw [hunread] at hb
    cases hb
  have heval : Expr.evalArgs s.grid s.grid.referenceValue args =
      Expr.evalArgs t.grid t.grid.referenceValue args := by
    apply Expr.evalArgs_eq hagree (fun b hb => hagree.referenceValue_eq hb) hreads
    exact fun b hb => hagree.found b fun hbc => hargs (hbc ▸ hb)
  have hc' : f'.beside? t.grid (Expr.evalArgs t.grid t.grid.referenceValue args) = some c := by
    rw [← heval, ← Function.beside?_eq hagree, hc]
    intro arg harg b hb
    exact hreads b (Expr.reads_of_mem_evalArgs harg hb)
  simp only [Expr.eval, hf', Function.call_of_beside? hc']

/-- Writing a cell that a formula does not name leaves the value of the formula alone, unless a lookup
reads the cell beside its table. For a lookup that is the whole formula this is exact. -/
theorem evaluate_setCell_unread (s : Sheet) (hs : s.Keyed) (a c : Address)
    (hc : s.grid.inBounds c = true) (hne : a ≠ c) (hunread : s.readsCell a c = false) :
    (c ∉ s.beside a →
      ∀ content, ∃ t, s.setCell c content = .ok t ∧ t.evaluate a = s.evaluate a) ∧
    ∀ f args, s.formula? a = some (.call f args) →
      c ∉ Expr.argBeside s.grid s.grid.referenceValue args →
      ((∀ content, ∃ t, s.setCell c content = .ok t ∧ t.evaluate a = s.evaluate a) ↔
        c ∉ s.beside a) := by
  have hsame : c ∉ s.beside a →
      ∀ content, ∃ t, s.setCell c content = .ok t ∧ t.evaluate a = s.evaluate a := by
    intro hbeside content
    obtain ⟨t, ht⟩ := exists_setCell_eq_ok hc content
    exact ⟨t, ht, evaluate_setCell_of_not_beside hs ht hne hunread hbeside⟩
  refine ⟨hsame, fun f args hformula hargs => ⟨fun hall hbeside => ?_, hsame⟩⟩
  -- A number and a text show different values, and the formula cannot show both before the change.
  obtain ⟨t, ht, hnumber⟩ := hall (.number 0)
  obtain ⟨u, hu, htext⟩ := hall (.text "A")
  rw [evaluate_setCell_of_beside hs ht hne hunread hformula hargs hbeside] at hnumber
  rw [evaluate_setCell_of_beside hs hu hne hunread hformula hargs hbeside, ← hnumber] at htext
  simp only [Grid.found, Table.grid_cell, cell?_of_setCell_self ht, cell?_of_setCell_self hu] at htext
  revert htext
  decide +kernel

def prices : Sheet :=
  (ofColumns "Prices" ["Name", "Price", "Wanted"]).run
    [.addRow, .addRow, .setInput "A1" "PEAR", .setInput "B1" "3",
      .setInput "C1" "=VLOOKUP(\"PEAR\",A1:A2,2)"]

theorem prices_keyed : prices.Keyed :=
  (keyed_ofColumns _ (by decide)).run _

open Grammar in
theorem prices_formula? : prices.formula? ⟨2, 0⟩ =
    some (.call "VLOOKUP" [.text "PEAR", .range ⟨⟨0, 0⟩, ⟨0, 1⟩⟩, .number 2]) := by
  have hcolumn := Derives.argument (.of_primary (.number 2))
  have htable := Derives.comma (.of_primary (.range ⟨0, 0⟩ ⟨0, 1⟩)) hcolumn
  have hcall := Derives.of_primary
    (.call (f := "VLOOKUP") (.comma (.of_primary (.text "PEAR")) htable))
  have htokens : Token.tokens (Text.upperCase (Text.trim "VLOOKUP(\"PEAR\",A1:A2,2)")).toList =
      .ok [.name "VLOOKUP", .opening, .text "PEAR", .comma, .address ⟨0, 0⟩, .colon,
        .address ⟨0, 1⟩, .comma, .number 2, .closing] := by
    decide +kernel
  have hparse : Expr.parseBody "VLOOKUP(\"PEAR\",A1:A2,2)" =
      .ok (.call "VLOOKUP" [.text "PEAR", .range ⟨⟨0, 0⟩, ⟨0, 1⟩⟩, .number 2]) := by
    rw [Expr.parseBody, Expr.parse, htokens]
    exact Expr.ofTokens_eq_ok hcall (by decide) (by decide)
  have hbody : (prices.cell? ⟨2, 0⟩).bind Content.formulaBody? =
      some "VLOOKUP(\"PEAR\",A1:A2,2)" := by
    decide +kernel
  simp only [formula?, ← Option.bind_assoc, Option.bind_eq_bind, hbody, Option.bind_some, hparse]
  rfl

theorem evaluate_setCell_unread_prices :
    (∃ t, prices.setCell ⟨1, 1⟩ (.number 5) = .ok t ∧
      t.evaluate ⟨2, 0⟩ = prices.evaluate ⟨2, 0⟩) ∧
    ¬∀ content, ∃ t, prices.setCell ⟨1, 0⟩ content = .ok t ∧
      t.evaluate ⟨2, 0⟩ = prices.evaluate ⟨2, 0⟩ := by
  constructor
  · have h := evaluate_setCell_unread prices prices_keyed ⟨2, 0⟩ ⟨1, 1⟩ (by decide +kernel)
      (by decide) (by decide +kernel)
    exact h.1 (by decide +kernel) (.number 5)
  · have h := evaluate_setCell_unread prices prices_keyed ⟨2, 0⟩ ⟨1, 0⟩ (by decide +kernel)
      (by decide) (by decide +kernel)
    have hexact := h.2 _ _ prices_formula? (by simp [Expr.argBeside, Expr.beside])
    rw [hexact]
    exact not_not_intro (by decide +kernel)

/-- The price that is looked up in a table of names is not among the cells that the formula reads, and
yet changes its value. -/
theorem evaluate_depends_on_unread :
    ¬∀ (s t : Sheet) (a c : Address) (content : Content), s.Keyed →
      (∃ formula, s.cell? a = some formula ∧ formula.isFormula = true) →
      s.grid.inBounds c = true → a ≠ c → s.readsCell a c = false →
      s.setCell c content = .ok t → t.evaluate a = s.evaluate a := by
  intro h
  have hsame := h prices (prices.edit (.setCell ⟨1, 0⟩ (.number 4))) ⟨2, 0⟩ ⟨1, 0⟩ (.number 4)
    prices_keyed ⟨.text "=VLOOKUP(\"PEAR\",A1:A2,2)", by decide +kernel, by decide +kernel⟩
    (by decide +kernel) (by decide) (by decide +kernel) (by decide +kernel)
  revert hsame
  decide +kernel

end Sheet

end Spreadsheet
