import Mathlib.Data.List.DropRight
import Mathlib.Data.List.TakeWhile
import Spreadsheet.Address

namespace Spreadsheet

namespace Text

theorem toNat_of_isBlank {c : Char} (h : isBlank c = true) : c.toNat ≤ 32 ∨ 133 ≤ c.toNat := by
  simp [isBlank, blankRanges] at h
  omega

theorem exists_dropBlanksEnd (cs : List Char) :
    ∃ gap, cs = dropBlanksEnd cs ++ gap ∧ ∀ c ∈ gap, isBlank c = true :=
  ⟨cs.rtakeWhile isBlank, List.rdropWhile_append_rtakeWhile.symm, fun _ hc => List.mem_rtakeWhile_imp hc⟩

theorem trimList_eq_self {cs : List Char} (h : ∀ c ∈ cs, isBlank c = false) : trimList cs = cs := by
  have hdrop : ∀ ds : List Char, (∀ c ∈ ds, isBlank c = false) → ds.dropWhile isBlank = ds := by
    intro ds hds
    cases ds with
    | nil => rfl
    | cons d ds => exact List.dropWhile_cons_of_neg (by simp [hds d])
  rw [trimList, dropBlanks, hdrop cs h, dropBlanksEnd, hdrop cs.reverse (by simpa using h),
    List.reverse_reverse]

end Text

namespace Address

theorem isCapital_iff {c : Char} : isCapital c = true ↔ 65 ≤ c.toNat ∧ c.toNat ≤ 90 := by
  simp [isCapital, Char.le_def, UInt32.le_iff_toNat_le]

theorem isDigit_iff {c : Char} : c.isDigit = true ↔ 48 ≤ c.toNat ∧ c.toNat ≤ 57 := by
  simp [Char.isDigit, UInt32.le_iff_toNat_le]

theorem isAlpha_iff {c : Char} : c.isAlpha = true ↔
    (65 ≤ c.toNat ∧ c.toNat ≤ 90) ∨ (97 ≤ c.toNat ∧ c.toNat ≤ 122) := by
  delta Char.isAlpha Char.isUpper Char.isLower
  simp [UInt32.le_iff_toNat_le]

theorem toNat_toUpper {c : Char} : c.toUpper.toNat =
    if 97 ≤ c.toNat ∧ c.toNat ≤ 122 then c.toNat - 32 else c.toNat := by
  have hlower : ('a'.val ≤ c.val ∧ c.val ≤ 'z'.val) ↔ 97 ≤ c.toNat ∧ c.toNat ≤ 122 := by
    simp [UInt32.le_iff_toNat_le]
  have hdiff : ('A'.val - 'a'.val).toNat = 2 ^ 32 - 32 := by decide
  delta Char.toUpper
  split
  · next h =>
    rw [if_pos (hlower.1 h), ← Char.toNat_val, UInt32.toNat_add, hdiff, Char.toNat_val]
    have hc := hlower.1 h
    omega
  · next h => rw [if_neg (mt hlower.2 h)]

theorem toNat_toLower {c : Char} : c.toLower.toNat =
    if 65 ≤ c.toNat ∧ c.toNat ≤ 90 then c.toNat + 32 else c.toNat := by
  have hcapital : (c.val ≥ 'A'.val ∧ c.val ≤ 'Z'.val) ↔ 65 ≤ c.toNat ∧ c.toNat ≤ 90 := by
    simp [UInt32.le_iff_toNat_le]
  have hdiff : ('a'.val - 'A'.val).toNat = 32 := by decide
  delta Char.toLower
  split
  · next h =>
    rw [if_pos (hcapital.1 h), ← Char.toNat_val, UInt32.toNat_add, hdiff, Char.toNat_val]
    have hc := hcapital.1 h
    omega
  · next h => rw [if_neg (mt hcapital.2 h)]

theorem isCapital_toUpper_iff {c : Char} : isCapital c.toUpper = true ↔ c.isAlpha = true := by
  rw [isCapital_iff, isAlpha_iff, toNat_toUpper]
  split <;> omega

theorem isDigit_toUpper_iff {c : Char} : c.toUpper.isDigit = true ↔ c.isDigit = true := by
  rw [isDigit_iff, isDigit_iff, toNat_toUpper]
  split <;> omega

theorem map_toUpper_of_isDigit {ds : List Char} (h : ∀ d ∈ ds, d.isDigit = true) :
    ds.map Char.toUpper = ds := by
  refine (List.map_congr_left fun d hd => Char.toNat_inj.1 ?_).trans (List.map_id ds)
  have hd' := isDigit_iff.1 (h d hd)
  rw [toNat_toUpper, if_neg (by omega), id]

theorem takeWhile_isCapital_digits {ds : List Char} (h : ∀ d ∈ ds, d.isDigit = true) :
    ds.takeWhile isCapital = [] ∧ ds.dropWhile isCapital = ds := by
  cases ds with
  | nil => exact ⟨rfl, rfl⟩
  | cons d ds =>
    have hd : ¬isCapital d = true := by
      have hd' := isDigit_iff.1 (h d List.mem_cons_self)
      rw [isCapital_iff]
      omega
    exact ⟨List.takeWhile_cons_of_neg hd, List.dropWhile_cons_of_neg hd⟩

theorem isBlank_eq_false {c : Char} (h : c.isAlpha = true ∨ c.isDigit = true) :
    Text.isBlank c = false := by
  by_contra hblank
  rw [Bool.not_eq_false] at hblank
  have hc := Text.toNat_of_isBlank hblank
  rw [isAlpha_iff, isDigit_iff] at h
  omega

theorem of_parseList?_eq_some {cs : List Char} {a : Address} (h : parseList? cs = some a) :
    columnOfLetters? ((cs.map Char.toUpper).takeWhile isCapital) = some a.col ∧
      rowOfDigits? ((cs.map Char.toUpper).dropWhile isCapital) = some a.row := by
  simp only [parseList?, Option.bind_eq_bind, Option.bind_eq_some_iff, Option.pure_def,
    Option.some.injEq] at h
  obtain ⟨col, hcol, row, hrow, rfl⟩ := h
  exact ⟨hcol, hrow⟩

theorem all_isDigit_of_rowOfDigits? {ds : List Char} {row : Nat} (h : rowOfDigits? ds = some row) :
    ds.all Char.isDigit = true := by
  simp only [rowOfDigits?] at h
  split at h
  · next hds => exact hds.2.1
  · cases h

theorem parseList?_eq_some_iff {cs : List Char} {a : Address} : parseList? cs = some a ↔
    ∃ ls ds, cs = ls ++ ds ∧ (∀ c ∈ ls, c.isAlpha = true) ∧ (∀ d ∈ ds, d.isDigit = true) ∧
      columnOfLetters? (ls.map Char.toUpper) = some a.col ∧ rowOfDigits? ds = some a.row := by
  constructor
  · intro h
    obtain ⟨hcol, hrow⟩ := of_parseList?_eq_some h
    obtain ⟨ls, ds, rfl, hls, hds⟩ := List.map_eq_append_iff.1
      (List.takeWhile_append_dropWhile (p := isCapital) (l := cs.map Char.toUpper)).symm
    have hletters : ∀ c ∈ ls, c.isAlpha = true := by
      intro c hc
      have hmem := List.mem_map_of_mem (f := Char.toUpper) hc
      rw [hls] at hmem
      exact isCapital_toUpper_iff.1 (List.mem_takeWhile_imp hmem)
    have hdigits : ∀ d ∈ ds, d.isDigit = true := by
      intro d hd
      have hmem := List.mem_map_of_mem (f := Char.toUpper) hd
      rw [hds] at hmem
      exact isDigit_toUpper_iff.1
        (List.all_eq_true.1 (all_isDigit_of_rowOfDigits? hrow) _ hmem)
    rw [← hls] at hcol
    rw [← hds, map_toUpper_of_isDigit hdigits] at hrow
    exact ⟨ls, ds, rfl, hletters, hdigits, hcol, hrow⟩
  · rintro ⟨ls, ds, rfl, hls, hds, hcol, hrow⟩
    have hcapital : ∀ c ∈ ls.map Char.toUpper, isCapital c = true := by
      intro c hc
      obtain ⟨l, hl, rfl⟩ := List.mem_map.1 hc
      exact isCapital_toUpper_iff.2 (hls l hl)
    obtain ⟨htake, hdrop⟩ := takeWhile_isCapital_digits hds
    rw [parseList?, List.map_append, map_toUpper_of_isDigit hds,
      List.takeWhile_append_of_pos hcapital, List.dropWhile_append_of_pos hcapital, htake, hdrop,
      List.append_nil, hcol, hrow]
    rfl

theorem not_isBlank_of_parseList? {cs : List Char} {a : Address} (h : parseList? cs = some a) :
    ∀ c ∈ cs, Text.isBlank c = false := by
  obtain ⟨ls, ds, rfl, hls, hds, -, -⟩ := parseList?_eq_some_iff.1 h
  intro c hc
  rcases List.mem_append.1 hc with hc | hc
  · exact isBlank_eq_false (.inl (hls c hc))
  · exact isBlank_eq_false (.inr (hds c hc))

theorem parseTrimmed?_eq_some {s : String} {a : Address} (h : parse? s = some a) :
    parseTrimmed? s = some a := by
  rw [parseTrimmed?, Text.trimList_eq_self (not_isBlank_of_parseList? h)]
  exact h

end Address

end Spreadsheet
