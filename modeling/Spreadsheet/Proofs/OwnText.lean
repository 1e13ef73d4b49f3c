import Spreadsheet.Proofs.Address
import Spreadsheet.Proofs.Lookup
import Spreadsheet.Proofs.Parser.Sound
import Spreadsheet.Proofs.Success
import Spreadsheet.Proofs.Table
import Spreadsheet.Proofs.WholeNumber

/-! A cell as the key of a search. The search is for the literal in the cell, while the cells that it
goes through are compared by their own texts. The two differ where a literal is not written as it reads:
the words for truth and falsity read as 1 and 0, and a number in a text reads without the blanks. -/

namespace Spreadsheet

namespace Binary64

theorem read?_cons_of_isAlpha {c : Char} (cs : List Char) (hc : c.isAlpha = true) :
    read? (c :: cs) = ofName? false (c :: cs) := by
  have hclass := Address.isAlpha_iff.1 hc
  have hne (d : Char) (hd : d.isAlpha = false) : c ≠ d := by
    rintro rfl
    rw [hc] at hd
    cases hd
  have hsign : Numeral.splitSign (c :: cs) = (false, c :: cs) := by
    rw [Numeral.splitSign.eq_def]
    split
    · next h => exact absurd (List.cons.inj h).1 (hne '-' (by decide))
    · next h => exact absurd (List.cons.inj h).1 (hne '+' (by decide))
    · rfl
  have hdigit : ¬c.isDigit = true := by
    rw [Address.isDigit_iff]
    omega
  have hdigits : Numeral.splitDigits (c :: cs) = ([], c :: cs) := by
    rw [Numeral.splitDigits, List.takeWhile_cons_of_neg hdigit, List.dropWhile_cons_of_neg hdigit]
  have hfraction : Numeral.splitFraction (c :: cs) = ([], c :: cs) := by
    rw [Numeral.splitFraction.eq_def]
    split
    · next h => exact absurd (List.cons.inj h).1 (hne '.' (by decide))
    · rfl
  have hscan : Numeral.scan (c :: cs) = none := by
    simp only [Numeral.scan, hsign, hdigits, hfraction, and_self, if_true]
  simp only [read?, hscan, hsign]

end Binary64

namespace Scalar

def IsTruthWord (s : String) : Prop :=
  String.ofList ((Text.trimList s.toList).map Char.toLower) ∈ ["true", "false"]

instance (s : String) : Decidable (IsTruthWord s) :=
  inferInstanceAs (Decidable (_ ∈ _))

theorem isAlpha_of_toLower {c d : Char} (h : c.toLower = d) (hd : 97 ≤ d.toNat ∧ d.toNat ≤ 122) :
    c.isAlpha = true := by
  have hlower := Address.toNat_toLower (c := c)
  rw [h] at hlower
  rw [Address.isAlpha_iff]
  split at hlower <;> omega

theorem read?_of_isTruthWord {s : String} (h : IsTruthWord s) :
    Binary64.read? (Text.trimList s.toList) = none := by
  rw [IsTruthWord, List.mem_pair, ← String.toList_inj, ← String.toList_inj,
    String.toList_ofList] at h
  cases hs : Text.trimList s.toList with
  | nil =>
    rw [hs] at h
    exact absurd h (by decide)
  | cons c cs =>
    rw [hs, List.map_cons] at h
    have hc : c.isAlpha = true := by
      rcases h with h | h
      · exact isAlpha_of_toLower (List.cons.inj h).1 (by decide)
      · exact isAlpha_of_toLower (List.cons.inj h).1 (by decide)
    rw [Binary64.read?_cons_of_isAlpha cs hc, Binary64.ofName?, List.map_cons]
    rcases h with h | h
    all_goals
      rw [h]
      rfl

theorem toText_ofText_eq_iff {s : String} : (ofText s).toText = s ↔
    ¬IsTruthWord s ∧ ∀ n, ofText s = .number n → Text.trim s = s := by
  cases hread : (Binary64.read? (Text.trimList s.toList)).filter
      (fun n => n.isFinite && n.cellText.toList == Text.trimList s.toList) with
  | some n =>
    have hnumber : ofText s = .number n := by
      simp only [ofText, hread]
    obtain ⟨hn, hwritten⟩ := Option.filter_eq_some_iff.1 hread
    have htext : n.cellText = Text.trim s := by
      rw [Bool.and_eq_true, beq_iff_eq] at hwritten
      rw [Text.trim, ← hwritten.2, String.ofList_toList]
    have hword : ¬IsTruthWord s := by
      intro h
      rw [read?_of_isTruthWord h] at hn
      cases hn
    rw [hnumber, toText, htext]
    exact ⟨fun h => ⟨hword, fun _ _ => h⟩, fun h => h.2 n rfl⟩
  | none =>
    by_cases hword : IsTruthWord s
    · refine iff_of_false (fun hs => ?_) (fun h => h.1 hword)
      rcases List.mem_pair.1 hword with h | h
      · have hone : ofText s = .number 1 := by simp only [ofText, hread, h, if_true]
        rw [hone] at hs
        subst hs
        exact absurd hword (by decide +kernel)
      · have hzero : ofText s = .number 0 := by simp only [ofText, hread, h]; rfl
        rw [hzero] at hs
        subst hs
        exact absurd hword (by decide +kernel)
    · have htext : ofText s = .text s := by
        rw [IsTruthWord, List.mem_pair, not_or] at hword
        simp only [ofText, hread, if_neg hword.1, if_neg hword.2]
      rw [htext]
      exact iff_of_true rfl ⟨hword, fun n hn => nomatch hn⟩

end Scalar

namespace Content

/-- The literal in the content is written as it reads: the content is no word for truth or falsity, and
no number with blanks around it. -/
def ReadsAsWritten : Content → Prop
  | .empty | .number _ => True
  | .text s => ¬Scalar.IsTruthWord s ∧ ∀ n, Scalar.ofText s = .number n → Text.trim s = s

end Content

namespace Grid

variable {g : Grid} {a : Address} {c : Content} {r : Range} {p : Nat}

theorem toText_found_eq_iff (hcell : g.cell a = some c) (hliteral : c.isFormula = false)
    (hne : c ≠ .empty) : (g.found a).toText = c.rawText ↔ c.ReadsAsWritten := by
  have hfound : g.found a = c.literal?.getD (.number 0) := by
    simp only [found, hcell, hliteral, if_neg Bool.false_ne_true]
  rw [hfound]
  cases c with
  | empty => exact absurd rfl hne
  | number n => exact iff_of_true rfl trivial
  | text s => exact Scalar.toText_ofText_eq_iff

theorem keyAt_rawText (hcell : g.cell a = some c) (hin : g.inBounds a = true)
    (hcol : r.minCol = a.col) (hrow : r.minRow ≤ a.row ∧ a.row ≤ r.maxRow) :
    g.KeyAt c.rawText r (a.row - r.minRow + 1) := by
  have hplace : r.minRow + (a.row - r.minRow + 1 - 1) = a.row := by omega
  have hheight : r.height = r.maxRow - r.minRow + 1 := rfl
  refine ⟨Nat.succ_pos _, by omega, ?_, ?_⟩
  · rw [hplace]
    exact (inBounds_eq_true_iff.1 hin).1
  · rw [hplace, hcol, rawText, hcell]
    rfl

theorem eval_match (g : Grid) (resolve : Address → Binary64) (a : Address) (r : Range) :
    (Expr.call "MATCH" [.cell a, .range r, .number 0]).eval g resolve =
      (Failure.ofShown (g.matchPosition (g.found a).toText r false)).map
        fun p => .number (.ofNat p) := by
  have hname : Function.ofName? "MATCH" = some .match := by decide +kernel
  have hlast : Binary64.same 0 (-1) = false := by decide +kernel
  have hkind : Binary64.same 0 0 = true := by decide +kernel
  simp only [Expr.eval, hname, Expr.evalArgs, Function.call, Function.callMatch, Argument.key,
    Argument.range, Argument.range?, Argument.number, Except.bind, Scalar.toNumber, hlast, hkind, bind,
    Bool.false_or, Bool.true_or, if_true]
  cases g.matchPosition (g.found a).toText r false <;> rfl

theorem KeyAt.le_rowCount {key : String} (h : g.KeyAt key r p) : p ≤ g.rowCount := by
  have hrow := h.row_lt
  have hpos := h.one_le
  omega

theorem matchPosition_eq_iff_of_eq_ok {key key' : String} {last : Bool}
    (hp : g.matchPosition key r last = .ok p) :
    g.matchPosition key' r last = .ok p ↔ key' = key := by
  constructor
  · intro hp'
    rw [← (keyAt_of_matchPosition hp').rawText_eq, (keyAt_of_matchPosition hp).rawText_eq]
  · rintro rfl
    exact hp

section

variable {resolve : Address → Binary64} {formula : Content} {body : String}
  (hbody : formula.formulaBody? = some body)
  (hparse : Expr.parseBody body = .ok (.call "MATCH" [.cell a, .range r, .number 0]))

include hbody hparse

theorem evaluateWith_match_of_ok (hp : p ≤ Address.limit)
    (h : g.matchPosition (g.found a).toText r false = .ok p) :
    g.evaluateWith resolve formula = .number (Binary64.ofNat p).round4 := by
  simp only [evaluateWith, hbody, hparse, eval_match, h, Failure.ofShown, Except.mapError, Except.map,
    Value.ofResult, Binary64.isFinite_ofNat hp, if_true]

theorem evaluateWith_match_of_error {e : CellError}
    (h : g.matchPosition (g.found a).toText r false = .error e) :
    g.evaluateWith resolve formula = .error e := by
  simp only [evaluateWith, hbody, hparse, eval_match, h]
  rfl

theorem evaluateWith_match_eq_iff (hsize : g.rowCount ≤ Address.limit)
    (hexact : g.rowCount ≤ Binary64.exactPlaces) (hp : p ≤ g.rowCount) :
    g.evaluateWith resolve formula = .number (.ofNat p) ↔
      g.matchPosition (g.found a).toText r false = .ok p := by
  cases hfound : g.matchPosition (g.found a).toText r false with
  | error e =>
    rw [evaluateWith_match_of_error hbody hparse hfound]
    exact iff_of_false (fun h => nomatch h) (fun h => nomatch h)
  | ok q =>
    have hq := (keyAt_of_matchPosition hfound).le_rowCount
    have hbound {n : Nat} (hn : n ≤ g.rowCount) : n ≤ Nat.pow 2 53 :=
      Nat.le_trans hn (Nat.le_trans hexact (Nat.div_le_self _ _))
    rw [evaluateWith_match_of_ok hbody hparse (Nat.le_trans hq hsize) hfound,
      Binary64.round4_ofNat (Nat.le_trans hq hexact), Value.number.injEq,
      Binary64.ofNat_inj (hbound hq) (hbound hp), Except.ok.injEq]

end

/-- The cell's own text is at a place no further down than the cell. If the cell reads as it is written, then
MATCH shows that place, and in a grid whose rows can all be counted exactly only then. -/
theorem match_finds_own_text (hcell : g.cell a = some c) (hin : g.inBounds a = true)
    (hliteral : c.isFormula = false) (hne : c ≠ .empty) (hcol : r.minCol = a.col)
    (hrow : r.minRow ≤ a.row ∧ a.row ≤ r.maxRow) (hsize : g.rowCount ≤ Address.limit) :
    ∃ p, IsLeast {q | g.KeyAt c.rawText r q} p ∧ p ≤ a.row - r.minRow + 1 ∧
      (p ≤ Binary64.exactPlaces → (Binary64.ofNat p).round4 = .ofNat p) ∧
      ∀ resolve formula body, formula.formulaBody? = some body →
        Expr.parseBody body = .ok (.call "MATCH" [.cell a, .range r, .number 0]) →
        (c.ReadsAsWritten → g.evaluateWith resolve formula = .number (Binary64.ofNat p).round4) ∧
        (g.rowCount ≤ Binary64.exactPlaces →
          (g.evaluateWith resolve formula = .number (.ofNat p) ↔ c.ReadsAsWritten)) := by
  have hown := keyAt_rawText hcell hin hcol hrow
  obtain ⟨p, hp⟩ : ∃ p, g.matchPosition c.rawText r false = .ok p := by
    apply exists_eq_ok_of_not_error
-- The cell itself is a place of its text.
    rintro ⟨e, he⟩
    exact (matchPosition_eq_error_iff.1 he).2 _ hown
  have hleast := matchPosition_first_iff.1 hp
  refine ⟨p, hleast, hleast.2 hown, Binary64.round4_ofNat, fun resolve formula body hbody hparse =>
    ⟨fun h => ?_, fun hexact => ?_⟩⟩
  · rw [← (toText_found_eq_iff hcell hliteral hne).2 h] at hp
    exact evaluateWith_match_of_ok hbody hparse (Nat.le_trans hleast.1.le_rowCount hsize) hp
  · rw [evaluateWith_match_eq_iff hbody hparse hsize hexact hleast.1.le_rowCount,
      matchPosition_eq_iff_of_eq_ok hp, toText_found_eq_iff hcell hliteral hne]

end Grid

namespace Sheet

def pears : Sheet :=
  (ofColumns "Pears" ["Name"]).run
    [.addRow, .addRow, .addRow, .setInput "A1" "pear", .setInput "A2" "2.5", .setInput "A3" "pear"]

open Grammar in
theorem parseBody_matchPear : Expr.parseBody "MATCH(A3,A1:A3,0)" =
    .ok (.call "MATCH" [.cell ⟨0, 2⟩, .range ⟨⟨0, 0⟩, ⟨0, 2⟩⟩, .number 0]) := by
  have hkind := Derives.argument (.of_primary (.number 0))
  have hrange := Derives.comma (.of_primary (.range ⟨0, 0⟩ ⟨0, 2⟩)) hkind
  have hcall := Derives.of_primary
    (.call (f := "MATCH") (.comma (.of_primary (.cell ⟨0, 2⟩)) hrange))
  have htokens : Token.tokens (Text.upperCase (Text.trim "MATCH(A3,A1:A3,0)")).toList =
      .ok [.name "MATCH", .opening, .address ⟨0, 2⟩, .comma, .address ⟨0, 0⟩, .colon,
        .address ⟨0, 2⟩, .comma, .number 0, .closing] := by
    decide +kernel
  rw [Expr.parseBody, Expr.parse, htokens]
  exact Expr.ofTokens_eq_ok hcall (by decide) (by decide)

theorem match_finds_own_text_pears :
    pears.grid.cell ⟨0, 2⟩ = some (.text "pear") ∧ pears.grid.inBounds ⟨0, 2⟩ = true ∧
    (Content.text "pear").isFormula = false ∧ (Content.text "pear").ReadsAsWritten ∧
    pears.grid.rowCount ≤ Binary64.exactPlaces ∧
    pears.grid.evaluate (.text "=MATCH(A3,A1:A3,0)") = .number 1 := by
  have hcell : pears.grid.cell ⟨0, 2⟩ = some (.text "pear") := by decide +kernel
  have hin : pears.grid.inBounds ⟨0, 2⟩ = true := by decide +kernel
  have hliteral : (Content.text "pear").isFormula = false := by decide +kernel
  have hreads : (Content.text "pear").ReadsAsWritten := by
    refine ⟨by decide +kernel, fun n hn => ?_⟩
    decide +kernel
  have hexact : pears.grid.rowCount ≤ Binary64.exactPlaces := by decide +kernel
  obtain ⟨p, hp, -, -, hmatch⟩ := Grid.match_finds_own_text (r := ⟨⟨0, 0⟩, ⟨0, 2⟩⟩) hcell hin
    hliteral (by decide) rfl ⟨by decide, by decide⟩ (by decide +kernel)
  have hfirst : p = 1 := by
    refine hp.unique ⟨⟨by decide, by decide, by decide +kernel, by decide +kernel⟩, ?_⟩
    exact fun q hq => hq.one_le
  refine ⟨hcell, hin, hliteral, hreads, hexact, ?_⟩
  rw [Grid.evaluate, ((hmatch _ _ _ (by decide +kernel) parseBody_matchPear).2 hexact).2 hreads, hfirst]
  rfl

def switches : Sheet :=
  (ofColumns "Switches" ["On"]).run
    [.addRow, .addRow, .addRow, .setInput "A1" "1", .setInput "A2" "TRUE",
      .setCell ⟨0, 2⟩ (.text " 7 ")]

theorem match_misses_own_text :
    switches.cell? ⟨0, 1⟩ = some (.text "TRUE") ∧ switches.cell? ⟨0, 2⟩ = some (.text " 7 ") ∧
    switches.grid.evaluate (.text "=MATCH(A2,A2:A2,0)") = .error .notAvailable ∧
    switches.grid.evaluate (.text "=MATCH(A2,A1:A2,0)") = .number 1 ∧
    switches.grid.evaluate (.text "=MATCH(A3,A3:A3,0)") = .error .notAvailable := by
  decide +kernel

end Sheet

end Spreadsheet
