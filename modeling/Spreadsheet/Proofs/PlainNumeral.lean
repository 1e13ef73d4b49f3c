import Spreadsheet.Formula.Token
import Spreadsheet.Proofs.Address
import Spreadsheet.Proofs.Rounding

namespace Spreadsheet

theorem span_append {p : Char → Bool} {cs rest : List Char} (hcs : ∀ c ∈ cs, p c = true)
    (hrest : ∀ c ∈ rest.head?, p c = false) :
    (cs ++ rest).takeWhile p = cs ∧ (cs ++ rest).dropWhile p = rest := by
  rw [List.takeWhile_append_of_pos hcs, List.dropWhile_append_of_pos hcs]
  cases rest with
  | nil => exact ⟨List.append_nil cs, rfl⟩
  | cons c rest =>
    have hc : ¬p c = true := by simp [hrest c rfl]
    rw [List.takeWhile_cons_of_neg hc, List.dropWhile_cons_of_neg hc, List.append_nil]
    exact ⟨rfl, rfl⟩

theorem not_of_mem_head?_dropWhile {p : Char → Bool} {cs : List Char} :
    ∀ c ∈ (cs.dropWhile p).head?, p c = false := by
  intro c hc
  have hstop := List.head?_dropWhile_not p cs
  rwa [hc] at hstop

namespace Binary64

theorem roundUnits_of_small {n d : Nat} (h : 2 * n < d) : roundUnits n d = 0 := by
  have hquot : n / d = 0 := Nat.div_eq_of_lt (by omega)
  have hgrid : gridExponent n d = 0 := by
    rw [gridExponent, hquot, Nat.log2_zero]
  have hnearest : nearest (0 * d + n) d = 0 := nearest_add (by omega) (.inl h)
  rw [Nat.zero_mul, Nat.zero_add] at hnearest
  rw [roundUnits, hgrid, Nat.pow_eq, Nat.pow_zero, Nat.mul_one, Nat.mul_one, hnearest]

theorem ofQuotient_of_small {s : Bool} {n d : Nat} (h : 2 * n < d) : ofQuotient s n d = zero s :=
  ofQuotient_eq_finite_iff.2 (roundUnits_of_small h)

theorem two_mul_lt_ten_pow {digits places : Nat} (h : 400 + digits.log2 / 3 < places) :
    2 * (digits * one) < Nat.pow 10 places := by
  have hone : oneExponent = 1074 := rfl
  have hexp : digits.log2 + 1 + oneExponent + 1 ≤ 3 * places := by omega
  unfold one
  generalize oneExponent = e at *
  calc 2 * (digits * 2 ^ e) < 2 * (2 ^ (digits.log2 + 1) * 2 ^ e) :=
      (Nat.mul_lt_mul_left (by decide)).2
        ((Nat.mul_lt_mul_right (Nat.two_pow_pos e)).2 Nat.lt_log2_self)
    _ = 2 ^ (digits.log2 + 1 + e + 1) := by rw [← Nat.pow_add, ← Nat.pow_succ']
    _ ≤ 2 ^ (3 * places) := Nat.pow_le_pow_right (by decide) hexp
    _ = 8 ^ places := Nat.pow_mul 2 3 places
    _ ≤ 10 ^ places := Nat.pow_le_pow_left (by decide) places

theorem ofDecimal_neg (s : Bool) (digits places : Nat) :
    ofDecimal s digits (-(places : Int)) = ofQuotient s (digits * one) (Nat.pow 10 places) := by
  have hpow : 0 < Nat.pow 10 places := Nat.pow_pos (by decide)
  simp only [ofDecimal]
  split
  · next h0 =>
    have h : 2 * (digits * one) < Nat.pow 10 places := by
      rwa [h0, Nat.zero_mul, Nat.mul_zero]
    rw [ofQuotient_of_small h]
  · rw [if_neg (by omega)]
    split
    · next hsmall => rw [ofQuotient_of_small (two_mul_lt_ten_pow (by omega))]
    · split
      · next hnonneg =>
        have hplaces : places = 0 := by omega
        subst hplaces
        simp
      · rw [Int.neg_neg, Int.toNat_natCast]

def ofDigits (whole fraction : List Char) : Binary64 :=
  ofQuotient false (Numeral.digitsValue (whole ++ fraction) * one) (Nat.pow 10 fraction.length)

end Binary64

namespace Numeral

theorem value_eq_ofDigits (whole fraction : List Char) :
    value ⟨false, whole, fraction, 0⟩ = .ofDigits whole fraction := by
  rw [value, Int.zero_sub, Binary64.ofDecimal_neg, Binary64.ofDigits]

end Numeral

/-- The text is a plain numeral, and the number is the one nearest to it. -/
inductive Numeral.Plain : List Char → Binary64 → Prop
  | whole {ds : List Char} : ds ≠ [] → (∀ d ∈ ds, d.isDigit = true) → Plain ds (.ofDigits ds [])
  | point {ds es : List Char} : ds ++ es ≠ [] → (∀ d ∈ ds ++ es, d.isDigit = true) →
      Plain (ds ++ '.' :: es) (.ofDigits ds es)

open Token (isNumeralPart)

theorem isNumeralPart_iff {c : Char} : isNumeralPart c = true ↔ c.isDigit = true ∨ c = '.' := by
  rw [isNumeralPart, Bool.or_eq_true, beq_iff_eq]

namespace Numeral.Plain

variable {cs : List Char} {n : Binary64}

theorem isNumeralPart_of_mem (h : Plain cs n) : ∀ c ∈ cs, isNumeralPart c = true := by
  intro c hc
  cases h with
  | whole _ hds => exact isNumeralPart_iff.2 (.inl (hds c hc))
  | point _ hds =>
    rcases List.mem_append.1 hc with hc | hc
    · exact isNumeralPart_iff.2 (.inl (hds c (List.mem_append_left _ hc)))
    rcases List.mem_cons.1 hc with rfl | hc
    · rfl
    · exact isNumeralPart_iff.2 (.inl (hds c (List.mem_append_right _ hc)))

theorem ne_nil (h : Plain cs n) : cs ≠ [] := by
  cases h with
  | whole hne _ => exact hne
  | point => exact List.append_ne_nil_of_right_ne_nil _ (List.cons_ne_nil _ _)

end Numeral.Plain

namespace Numeral

variable {c : Char} {cs ds es rest : List Char}

theorem splitSign_of_isNumeralPart (h : ∀ c ∈ cs, isNumeralPart c = true) :
    splitSign cs = (false, cs) := by
  rw [splitSign.eq_def]
  split
  · exact absurd (h '-' List.mem_cons_self) (by decide)
  · exact absurd (h '+' List.mem_cons_self) (by decide)
  · rfl

theorem splitDigits_append (hds : ∀ d ∈ ds, d.isDigit = true)
    (hrest : ∀ c ∈ rest.head?, c.isDigit = false) : splitDigits (ds ++ rest) = (ds, rest) := by
  obtain ⟨htake, hdrop⟩ := span_append hds hrest
  rw [splitDigits, htake, hdrop]

theorem splitExponent_of_isNumeralPart (h : ∀ c ∈ cs, isNumeralPart c = true) :
    splitExponent cs = (0, cs) := by
  cases cs with
  | nil => rfl
  | cons c cs =>
    have hc := h c List.mem_cons_self
    rw [splitExponent, if_neg]
    rintro (rfl | rfl)
    · exact absurd hc (by decide)
    · exact absurd hc (by decide)

theorem scan_digits (hne : ds ≠ []) (hds : ∀ d ∈ ds, d.isDigit = true) :
    scan ds = some (⟨false, ds, [], 0⟩, []) := by
  have hrun : ∀ c ∈ ds, isNumeralPart c = true := fun c hc => isNumeralPart_iff.2 (.inl (hds c hc))
  have hdigits : splitDigits (ds ++ []) = (ds, []) := splitDigits_append hds fun c hc => nomatch hc
  rw [List.append_nil] at hdigits
  simp [scan, splitSign_of_isNumeralPart hrun, hdigits, splitFraction, hne, splitExponent]

theorem scan_point (hds : ∀ d ∈ ds ++ es, d.isDigit = true)
    (hrun : ∀ c ∈ ds ++ '.' :: (es ++ rest), isNumeralPart c = true)
    (hstop : ∀ c ∈ rest.head?, c.isDigit = false) :
    scan (ds ++ '.' :: (es ++ rest)) =
      if ds = [] ∧ es = [] then none else some (⟨false, ds, es, 0⟩, rest) := by
  have hrest : ∀ c ∈ rest, isNumeralPart c = true := fun c hc => hrun c (by simp [hc])
  have hwhole : splitDigits (ds ++ '.' :: (es ++ rest)) = (ds, '.' :: (es ++ rest)) :=
    splitDigits_append (fun d hd => hds d (List.mem_append_left _ hd)) fun c hc => by cases hc; rfl
  have hfraction : splitFraction ('.' :: (es ++ rest)) = (es, rest) :=
    splitDigits_append (fun d hd => hds d (List.mem_append_right _ hd)) hstop
  simp only [scan, splitSign_of_isNumeralPart hrun, hwhole, hfraction,
    splitExponent_of_isNumeralPart hrest]

theorem exists_run (h : ∀ c ∈ cs, isNumeralPart c = true) :
    (∀ d ∈ cs, d.isDigit = true) ∨ ∃ ds es rest, cs = ds ++ '.' :: (es ++ rest) ∧
      (∀ d ∈ ds ++ es, d.isDigit = true) ∧ ∀ c ∈ rest.head?, c.isDigit = false := by
  have htake {ds : List Char} : ∀ d ∈ ds.takeWhile Char.isDigit, d.isDigit = true :=
    fun d hd => List.mem_takeWhile_imp hd
  cases hdrop : cs.dropWhile Char.isDigit with
  | nil => exact .inl (List.dropWhile_eq_nil_iff.1 hdrop)
  | cons c ds =>
    have hc : c = '.' := by
      have hmem : c ∈ cs := (List.dropWhile_sublist _).mem (hdrop ▸ List.mem_cons_self)
      have hstop := not_of_mem_head?_dropWhile (p := Char.isDigit) c (by rw [hdrop]; rfl)
      exact (isNumeralPart_iff.1 (h c hmem)).resolve_left (by simp [hstop])
    refine .inr ⟨cs.takeWhile Char.isDigit, ds.takeWhile Char.isDigit, ds.dropWhile Char.isDigit,
      ?_, ?_, not_of_mem_head?_dropWhile⟩
    · rw [List.takeWhile_append_dropWhile, ← hc, ← hdrop, List.takeWhile_append_dropWhile]
    · intro d hd
      rcases List.mem_append.1 hd with hd | hd
      · exact htake d hd
      · exact htake d hd

end Numeral

namespace Binary64

variable {cs : List Char} {n : Binary64}

theorem ofName?_of_isNumeralPart (h : ∀ c ∈ cs, isNumeralPart c = true) :
    ofName? false cs = none := by
  have hname {c : Char} {name : List Char} (hc : c.isAlpha = true) :
      String.ofList (cs.map Char.toLower) ≠ String.ofList (c :: name) := by
    intro heq
    obtain ⟨d, ds, rfl, hd, -⟩ := List.map_eq_cons_iff.1 (String.ofList_injective heq)
    have hd' := Address.toNat_toLower (c := d)
    have hpart := isNumeralPart_iff.1 (h d List.mem_cons_self)
    rw [hd] at hd'
    rw [Address.isAlpha_iff] at hc
    rw [Address.isDigit_iff, ← Char.toNat_inj] at hpart
    have hpoint : '.'.toNat = 46 := rfl
    split at hd' <;> omega
  rw [ofName?, if_neg, if_neg]
  · exact hname (c := 'n') rfl
  · rintro (heq | heq)
    · exact hname (c := 'i') rfl heq
    · exact hname (c := 'i') rfl heq

theorem read?_whole (hne : cs ≠ []) (hcs : ∀ d ∈ cs, d.isDigit = true) :
    read? cs = some (ofDigits cs []) := by
  rw [read?, Numeral.scan_digits hne hcs]
  exact congrArg some (Numeral.value_eq_ofDigits cs [])

theorem read?_point {ds es rest : List Char} (hds : ∀ d ∈ ds ++ es, d.isDigit = true)
    (hrun : ∀ c ∈ ds ++ '.' :: (es ++ rest), isNumeralPart c = true)
    (hstop : ∀ c ∈ rest.head?, c.isDigit = false) :
    read? (ds ++ '.' :: (es ++ rest)) =
      if ds ++ es ≠ [] ∧ rest = [] then some (ofDigits ds es) else none := by
  rw [read?, Numeral.scan_point hds hrun hstop, Numeral.splitSign_of_isNumeralPart hrun]
  simp only [ofName?_of_isNumeralPart hrun, ne_eq, List.append_eq_nil_iff]
  split
  · next numeral heq =>
    split at heq
    · cases heq
    · next hne =>
      obtain ⟨rfl, rfl⟩ := Prod.mk.inj (Option.some.inj heq)
      rw [if_pos ⟨hne, rfl⟩, Numeral.value_eq_ofDigits]
  · next hother =>
    rw [if_neg]
    rintro ⟨hne, rfl⟩
    exact hother _ (if_neg hne)

theorem read?_eq_some_iff (hne : cs ≠ []) (hcs : ∀ c ∈ cs, isNumeralPart c = true) :
    read? cs = some n ↔ Numeral.Plain cs n := by
  constructor
  · intro h
    rcases Numeral.exists_run hcs with hds | ⟨ds, es, rest, rfl, hds, hstop⟩
    · rw [read?_whole hne hds] at h
      exact Option.some.inj h ▸ .whole hne hds
    · rw [read?_point hds hcs hstop] at h
      split at h
      · next hsome =>
        obtain ⟨hdigits, rfl⟩ := hsome
        rw [List.append_nil]
        exact Option.some.inj h ▸ .point hdigits hds
      · cases h
  · intro h
    cases h with
    | whole _ hds => exact read?_whole hne hds
    | @point ds es hdigits hds =>
      rw [← List.append_nil es] at hcs
      have hread := read?_point hds hcs fun c hc => nomatch hc
      rwa [List.append_nil, if_pos ⟨hdigits, rfl⟩] at hread

end Binary64

end Spreadsheet
