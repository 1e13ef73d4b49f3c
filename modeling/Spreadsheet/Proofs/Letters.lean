import Mathlib.Data.List.Induction
import Mathlib.Data.List.Nodup
import Mathlib.Logic.Function.Basic
import Spreadsheet.Proofs.Address
import Spreadsheet.Sheet.Basic

namespace Spreadsheet

namespace Address

theorem toNat_letter {d : Nat} (h : d < 26) : (letter d).toNat = 'A'.toNat + d := by
  have hv : ('A'.toNat + d).isValidChar := Or.inl (by simp; omega)
  rw [letter, Char.ofNat, dif_pos hv]
  rfl

theorem lettersValue_append_letter (cs : List Char) {d : Nat} (h : d < 26) :
    lettersValue (cs ++ [letter d]) = 26 * lettersValue cs + (d + 1) := by
  simp only [lettersValue, List.foldl_append, List.foldl_cons, List.foldl_nil, toNat_letter h]
  omega

@[simp] theorem lettersValue_letters (n : Nat) : lettersValue (letters n) = n := by
  induction n using letters.induct with
  | case1 => simp [letters, lettersValue]
  | case2 n ih =>
    rw [letters, lettersValue_append_letter _ (Nat.mod_lt n (by decide)), ih]
    omega

theorem exists_letter_eq {c : Char} (h : isCapital c = true) : ∃ d < 26, letter d = c := by
  have hc := isCapital_iff.1 h
  have hA : 'A'.toNat = 65 := rfl
  have hd : c.toNat - 'A'.toNat < 26 := by omega
  refine ⟨c.toNat - 'A'.toNat, hd, Char.toNat_inj.1 ?_⟩
  rw [toNat_letter hd]
  omega

theorem isCapital_letter {d : Nat} (h : d < 26) : isCapital (letter d) = true := by
  have hA : 'A'.toNat = 65 := rfl
  rw [isCapital_iff, toNat_letter h]
  omega

theorem isCapital_of_mem_letters {n : Nat} {c : Char} (h : c ∈ letters n) : isCapital c = true := by
  induction n using letters.induct with
  | case1 => simp [letters] at h
  | case2 n ih =>
    rw [letters, List.mem_append, List.mem_singleton] at h
    obtain h | rfl := h
    · exact ih h
    · exact isCapital_letter (Nat.mod_lt n (by decide))

theorem letters_lettersValue {cs : List Char} (h : ∀ c ∈ cs, isCapital c = true) :
    letters (lettersValue cs) = cs := by
  induction cs using List.reverseRecOn with
  | nil => simp [lettersValue, letters]
  | append_singleton cs c ih =>
    obtain ⟨d, hd, rfl⟩ := exists_letter_eq (h c (by simp))
    have hcs := ih fun c' hc' => h c' (by simp [hc'])
    have hdiv : (26 * lettersValue cs + d) / 26 = lettersValue cs := by omega
    have hmod : (26 * lettersValue cs + d) % 26 = d := by omega
    rw [lettersValue_append_letter cs hd, ← Nat.add_assoc, letters, hdiv, hmod, hcs]

theorem letters_succ_ne_nil (n : Nat) : letters (n + 1) ≠ [] := by
  rw [letters]
  exact List.concat_ne_nil _ _

theorem columnOfLetters?_eq_some_iff {cs : List Char} {col : Nat} :
    columnOfLetters? cs = some col ↔ col < limit ∧ cs = letters (col + 1) := by
  rw [columnOfLetters?]
  constructor
  · intro h
    split at h
    · next hcs =>
      obtain ⟨hne, hall, hle⟩ := hcs
      cases h
      have hback := letters_lettersValue (List.all_eq_true.1 hall)
      have hpos : lettersValue cs ≠ 0 := by
        intro h0
        rw [h0, letters] at hback
        exact hne hback.symm
      rw [Nat.sub_add_cancel (Nat.one_le_iff_ne_zero.2 hpos)]
      exact ⟨by omega, hback.symm⟩
    · cases h
  · rintro ⟨hlt, rfl⟩
    have hall : (letters (col + 1)).all isCapital = true :=
      List.all_eq_true.2 fun c hc => isCapital_of_mem_letters hc
    have hle : lettersValue (letters (col + 1)) ≤ limit := by rwa [lettersValue_letters]
    rw [if_pos ⟨letters_succ_ne_nil col, hall, hle⟩, lettersValue_letters, Nat.add_sub_cancel]

theorem letters_injective : Function.Injective letters := by
  intro m n h
  simpa using congrArg lettersValue h

theorem columnLetters_injective : Function.Injective columnLetters := by
  intro m n h
  have := letters_injective (String.ofList_injective h)
  omega

end Address

theorem Sheet.nodup_letterColumns (count : Nat) : (letterColumns count).Nodup :=
  List.nodup_range.map Address.columnLetters_injective

end Spreadsheet
