import Mathlib.Data.Nat.Digits.Defs
import Spreadsheet.Proofs.Letters
import Spreadsheet.Word

namespace Spreadsheet

namespace Address

def letterDigit (c : Char) : Nat := c.toNat - 'A'.toNat + 1

def decimalDigit (c : Char) : Nat := c.toNat - '0'.toNat

def positional (base : Nat) (digit : Char → Nat) (cs : List Char) : Nat :=
  Nat.ofDigits base (cs.reverse.map digit)

theorem foldl_eq_positional (base : Nat) (digit : Char → Nat) (cs : List Char) :
    cs.foldl (fun n c => base * n + digit c) 0 = positional base digit cs := by
  induction cs using List.reverseRecOn with
  | nil => rfl
  | append_singleton cs c ih =>
    rw [List.foldl_append, List.foldl_cons, List.foldl_nil, ih, positional, positional,
      List.reverse_concat, List.map_cons, Nat.ofDigits_cons, Nat.add_comm]

theorem lettersValue_eq_positional (cs : List Char) :
    lettersValue cs = positional 26 letterDigit cs :=
  foldl_eq_positional 26 letterDigit cs

theorem ofDigitChars_eq_positional (ds : List Char) :
    Nat.ofDigitChars 10 ds 0 = positional 10 decimalDigit ds := by
  rw [Nat.ofDigitChars_eq_foldl]
  exact foldl_eq_positional 10 decimalDigit ds

theorem columnOfLetters?_eq_none_iff {cs : List Char} : columnOfLetters? cs = none ↔
    cs = [] ∨ (∃ c ∈ cs, isCapital c = false) ∨ limit < positional 26 letterDigit cs := by
  rw [← lettersValue_eq_positional, columnOfLetters?]
  simp only [ite_eq_right_iff, reduceCtorEq, imp_false, not_and_or, not_not, Nat.not_le, ne_eq,
    List.all_eq_true, not_forall, Bool.not_eq_true, exists_prop]

theorem rowOfDigits?_eq_some_iff {ds : List Char} {row : Nat} : rowOfDigits? ds = some row ↔
    ds ≠ [] ∧ (∀ d ∈ ds, d.isDigit = true) ∧ positional 10 decimalDigit ds = row + 1 ∧
      row + 1 ≤ limit := by
  simp only [rowOfDigits?, ofDigitChars_eq_positional, List.all_eq_true]
  generalize positional 10 decimalDigit ds = n
  constructor
  · intro h
    split at h
    · next hds =>
      obtain ⟨hne, hall, hpos, hle⟩ := hds
      cases h
      rw [Nat.sub_add_cancel hpos]
      exact ⟨hne, hall, rfl, hle⟩
    · cases h
  · rintro ⟨hne, hall, rfl, hle⟩
    rw [if_pos ⟨hne, hall, Nat.le_add_left 1 row, hle⟩, Nat.add_sub_cancel]

theorem parse?_eq_some_iff {s : String} {a : Address} : parse? s = some a ↔
    ∃ ls ds, s.toList = ls ++ ds ∧ ls ≠ [] ∧ (∀ c ∈ ls, c.isAlpha = true) ∧
      ds ≠ [] ∧ (∀ d ∈ ds, d.isDigit = true) ∧ columnOfLetters? (ls.map Char.toUpper) = some a.col ∧
      positional 10 decimalDigit ds = a.row + 1 ∧ a.row + 1 ≤ limit := by
  rw [parse?, parseList?_eq_some_iff]
  constructor
  · rintro ⟨ls, ds, hs, hls, -, hcol, hrow⟩
    obtain ⟨hne, hds, hvalue, hle⟩ := rowOfDigits?_eq_some_iff.1 hrow
    refine ⟨ls, ds, hs, ?_, hls, hne, hds, hcol, hvalue, hle⟩
    rintro rfl
    cases hcol
  · rintro ⟨ls, ds, hs, -, hls, hne, hds, hcol, hvalue, hle⟩
    exact ⟨ls, ds, hs, hls, hds, hcol, rowOfDigits?_eq_some_iff.2 ⟨hne, hds, hvalue, hle⟩⟩

theorem toUpper_of_isCapital {c : Char} (h : isCapital c = true) : c.toUpper = c := by
  have hc := isCapital_iff.1 h
  apply Char.toNat_inj.1
  rw [toNat_toUpper, if_neg (by omega)]

theorem toList_toText (a : Address) :
    a.toText.toList = letters (a.col + 1) ++ Nat.toDigits 10 (a.row + 1) := by
  rw [toText, String.toList_append, columnLetters, String.toList_ofList, Nat.toList_repr]

theorem isAlpha_or_isDigit_of_mem_toText {a : Address} {c : Char} (h : c ∈ a.toText.toList) :
    c.isAlpha = true ∨ c.isDigit = true := by
  rw [toList_toText, List.mem_append] at h
  obtain h | h := h
  · have hc := isCapital_iff.1 (isCapital_of_mem_letters h)
    exact .inl (isAlpha_iff.2 (.inl hc))
  · exact .inr (Nat.isDigit_of_mem_toDigits (by decide) (by decide) h)

theorem parse?_toText {a : Address} (hcol : a.col < limit) (hrow : a.row < limit) :
    parse? a.toText = some a := by
  have hupper : (letters (a.col + 1)).map Char.toUpper = letters (a.col + 1) :=
    (List.map_congr_left fun c hc => toUpper_of_isCapital (isCapital_of_mem_letters hc)).trans
      (List.map_id _)
  have hvalue : positional 10 decimalDigit (Nat.toDigits 10 (a.row + 1)) = a.row + 1 := by
    rw [← ofDigitChars_eq_positional, Nat.ofDigitChars_ten_toDigits]
  refine parse?_eq_some_iff.2 ⟨_, _, a.toList_toText, letters_succ_ne_nil a.col, ?_,
    Nat.toDigits_ne_nil, ?_, ?_, hvalue, hrow⟩
  · intro c hc
    exact isAlpha_iff.2 (.inl (isCapital_iff.1 (isCapital_of_mem_letters hc)))
  · intro d hd
    exact Nat.isDigit_of_mem_toDigits (by decide) (by decide) hd
  · rw [hupper]
    exact columnOfLetters?_eq_some_iff.2 ⟨hcol, rfl⟩

end Address

namespace Range

theorem parse?_of_toList {s : String} {cs ds : List Char} {a b : Address}
    (hs : s.toList = cs ++ ':' :: ds) (hcs : ∀ c ∈ cs, (c != ':') = true)
    (ha : Address.parseList? (Text.trimList cs) = some a)
    (hb : Address.parseList? (Text.trimList ds) = some b) : parse? s = some ⟨a, b⟩ := by
  have htake : s.toList.takeWhile (· != ':') = cs := by
    rw [hs, List.takeWhile_append_of_pos hcs]
    simp
  have hdrop : s.toList.dropWhile (· != ':') = ':' :: ds := by
    rw [hs, List.dropWhile_append_of_pos hcs]
    simp
  simp only [parse?, htake, hdrop, ha, hb, Option.bind_eq_bind, Option.bind_some]
  rfl

theorem parse?_toText {a b : Address} (ha : Address.parse? a.toText = some a)
    (hb : Address.parse? b.toText = some b) : parse? (Range.toText ⟨a, b⟩) = some ⟨a, b⟩ := by
  refine parse?_of_toList ?_ ?_ (Address.parseTrimmed?_eq_some ha) (Address.parseTrimmed?_eq_some hb)
  · rw [toText, String.toList_append, String.toList_append, List.append_assoc]
    rfl
  · intro c hc
    rw [bne_iff_ne]
    rintro rfl
    exact absurd (Address.isAlpha_or_isDigit_of_mem_toText hc) (by decide)

end Range

namespace Word

theorem appendLetter?_eq (n : Nat) (c : Char) : appendLetter? n c =
    if Address.isCapital c = true ∧ 26 * n + Address.letterDigit c ≤ Address.limit then
      some (26 * n + Address.letterDigit c) else none := by
  by_cases hc : Address.isCapital c = true
  · by_cases hn : n * 26 ≤ Address.limit
    · simp [appendLetter?, mul?, add?, ofNat?, hc, hn, Address.letterDigit, Nat.mul_comm 26]
    · have hlarge : ¬26 * n + Address.letterDigit c ≤ Address.limit := by omega
      simp [appendLetter?, mul?, ofNat?, hc, hn, hlarge]
  · simp [appendLetter?, hc]

def appendLetters (n : Nat) (cs : List Char) : Nat :=
  cs.foldl (fun n c => 26 * n + Address.letterDigit c) n

theorem appendLetters_zero (cs : List Char) : appendLetters 0 cs = Address.lettersValue cs := rfl

theorem appendLetters_cons (n : Nat) (c : Char) (cs : List Char) :
    appendLetters n (c :: cs) = appendLetters (26 * n + Address.letterDigit c) cs := rfl

theorem le_appendLetters (n : Nat) (cs : List Char) : n ≤ appendLetters n cs := by
  induction cs generalizing n with
  | nil => exact Nat.le_refl n
  | cons c cs ih =>
    rw [appendLetters_cons]
    exact Nat.le_trans (by omega) (ih _)

theorem foldlM_appendLetter? (cs : List Char) {n : Nat} (hn : n ≤ Address.limit) :
    cs.foldlM appendLetter? n =
      if cs.all Address.isCapital = true ∧ appendLetters n cs ≤ Address.limit then
        some (appendLetters n cs) else none := by
  induction cs generalizing n with
  | nil => simp [appendLetters, hn]
  | cons c cs ih =>
    rw [List.foldlM_cons, appendLetter?_eq, appendLetters_cons]
    split
    · next h =>
      obtain ⟨hc, hle⟩ := h
      simp only [Option.bind_eq_bind, Option.bind_some, ih hle, List.all_cons, hc, Bool.true_and]
    · next h =>
-- Letters only make the number larger, so one that ends as a word has been one throughout.
      have hlate := le_appendLetters (26 * n + Address.letterDigit c) cs
      rw [if_neg]
      · rfl
      · rintro ⟨hall, hle⟩
        rw [List.all_cons, Bool.and_eq_true] at hall
        exact h ⟨hall.1, Nat.le_trans hlate hle⟩

theorem columnOfLetters?_eq (cs : List Char) :
    columnOfLetters? cs = Address.columnOfLetters? cs := by
  cases cs with
  | nil => rfl
  | cons c cs =>
    have hpos : 1 ≤ Address.lettersValue (c :: cs) := by
      rw [← appendLetters_zero, appendLetters_cons]
      exact Nat.le_trans (Nat.le_add_left 1 _) (le_appendLetters _ cs)
    have hfold := foldlM_appendLetter? (c :: cs) (Nat.zero_le Address.limit)
    rw [appendLetters_zero] at hfold
    by_cases h : (c :: cs).all Address.isCapital = true ∧
        Address.lettersValue (c :: cs) ≤ Address.limit
    · rw [if_pos h] at hfold
      rw [Address.columnOfLetters?, if_pos ⟨List.cons_ne_nil c cs, h⟩]
      simp [columnOfLetters?, hfold, sub?, hpos]
    · rw [if_neg h] at hfold
      rw [Address.columnOfLetters?, if_neg fun hall => h hall.2]
      simp [columnOfLetters?, hfold]

end Word

namespace Address

/-- Columns below the limit and their letters determine each other, a text is an address just if it is
the letters of a column and then the number of a row, and every address and every range below the limit
is read back from its text. -/
theorem text_bijective :
    (∀ col < limit, columnOfLetters? (columnLetters col).toList = some col) ∧
    (∀ col, (∀ c ∈ (columnLetters col).toList, isCapital c = true) ∧
      positional 26 letterDigit (columnLetters col).toList = col + 1) ∧
    (∀ s col, columnOfLetters? s.toList = some col → s = columnLetters col) ∧
    (∀ cs, columnOfLetters? cs = none ↔
      cs = [] ∨ (∃ c ∈ cs, isCapital c = false) ∨ limit < positional 26 letterDigit cs) ∧
    (∀ cs, Word.columnOfLetters? cs = columnOfLetters? cs) ∧
    (∀ s a, parse? s = some a ↔
      ∃ ls ds, s.toList = ls ++ ds ∧ ls ≠ [] ∧ (∀ c ∈ ls, c.isAlpha = true) ∧
        ds ≠ [] ∧ (∀ d ∈ ds, d.isDigit = true) ∧
        columnOfLetters? (ls.map Char.toUpper) = some a.col ∧
        positional 10 decimalDigit ds = a.row + 1 ∧ a.row + 1 ≤ limit) ∧
    (∀ a, a.col < limit → a.row < limit → parse? a.toText = some a) ∧
    ∀ r : Range, r.start.col < limit → r.start.row < limit → r.stop.col < limit →
      r.stop.row < limit → Range.parse? r.toText = some r := by
  have hletters : ∀ col, (columnLetters col).toList = letters (col + 1) :=
    fun col => String.toList_ofList
  refine ⟨fun col hcol => ?_, fun col => ⟨fun c hc => ?_, ?_⟩, fun s col h => ?_,
    fun cs => columnOfLetters?_eq_none_iff, Word.columnOfLetters?_eq, fun s a => parse?_eq_some_iff,
    fun a => parse?_toText, fun r hcol hrow hcol' hrow' => ?_⟩
  · exact columnOfLetters?_eq_some_iff.2 ⟨hcol, hletters col⟩
  · rw [hletters] at hc
    exact isCapital_of_mem_letters hc
  · rw [← lettersValue_eq_positional, hletters, lettersValue_letters]
  · obtain ⟨-, hs⟩ := columnOfLetters?_eq_some_iff.1 h
    exact String.toList_inj.1 (hs.trans (hletters col).symm)
  · exact Range.parse?_toText (parse?_toText hcol hrow) (parse?_toText hcol' hrow')

theorem text_bijective_last :
    columnOfLetters? (columnLetters (2 ^ 64 - 2)).toList = some (2 ^ 64 - 2) ∧
    columnLetters (2 ^ 64 - 2) = "GKGWBYLWRXTLPO" ∧
    parse? (toText ⟨2 ^ 64 - 2, 2 ^ 64 - 2⟩) = some ⟨2 ^ 64 - 2, 2 ^ 64 - 2⟩ ∧
    Range.parse? (Range.toText ⟨⟨2 ^ 64 - 2, 2 ^ 64 - 2⟩, ⟨0, 0⟩⟩) =
      some ⟨⟨2 ^ 64 - 2, 2 ^ 64 - 2⟩, ⟨0, 0⟩⟩ := by
  obtain ⟨hcol, -, hback, -, -, -, haddress, hrange⟩ := text_bijective
  refine ⟨hcol _ (by decide), ?_, haddress _ (by decide) (by decide),
    hrange _ (by decide) (by decide) (by decide) (by decide)⟩
  exact (hback "GKGWBYLWRXTLPO" _ (by decide +kernel)).symm

end Address

end Spreadsheet
