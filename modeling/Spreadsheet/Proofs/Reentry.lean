import Mathlib.Data.List.DropRight
import Mathlib.Data.Nat.Prime.Basic
import Spreadsheet.Content
import Spreadsheet.Proofs.PlainNumeral

namespace Spreadsheet

namespace Binary64

variable {units : Nat} {d : Decimal}

theorem neg_ofQuotient (s : Bool) (n d : Nat) : neg (ofQuotient s n d) = ofQuotient (!s) n d := by
  unfold ofQuotient
  split <;> rfl

theorem neg_ofDecimal (s : Bool) (digits : Nat) (exponent : Int) :
    neg (ofDecimal s digits exponent) = ofDecimal (!s) digits exponent := by
  simp only [ofDecimal, apply_ite neg, neg_ofQuotient]
  rfl

theorem sign_eq_of_ofDecimal {s t : Bool} {digits u : Nat} {exponent : Int} {hu : Representable u}
    (h : ofDecimal s digits exponent = .finite t u hu) : t = s := by
  simp only [ofDecimal, ofQuotient, zero] at h
  repeat' split at h
  all_goals cases h
  all_goals rfl

theorem readsBack_iff (h : Representable units) :
    readsBack units d = true ↔ ofDecimal false d.digits d.exponent = .finite false units h := by
  rw [readsBack]
  constructor
  · intro hread
    split at hread
    · next t u hu hd =>
      obtain rfl := beq_iff_eq.1 hread
      rw [hd, sign_eq_of_ofDecimal hd]
    · cases hread
  · intro hd
    rw [hd]
    exact beq_self_eq_true units

end Binary64

namespace Decimal

open Binary64 (one oneExponent)

/-- Over a unit in lowest terms stands a power of two, of which powers of five make powers of ten. -/
theorem exists_ofUnits (units : Nat) : ∃ rest places : Nat,
    ofUnits units = ⟨rest * Nat.pow 5 places, -places⟩ ∧ rest * one = units * 2 ^ places := by
  rw [ofUnits]
  unfold one
  generalize oneExponent = e
  obtain ⟨k, hk, hunit⟩ := (Nat.dvd_prime_pow Nat.prime_two).1 (Nat.gcd_dvd_right units (2 ^ e))
  have hquot : 2 ^ e / 2 ^ k = 2 ^ (e - k) := Nat.pow_div hk (by decide)
  have hunits : units / 2 ^ k * 2 ^ k = units :=
    Nat.div_mul_cancel (hunit ▸ Nat.gcd_dvd_left units (2 ^ e))
  refine ⟨units / 2 ^ k, e - k, ?_, ?_⟩
  · simp only [Nat.pow_eq, hunit, hquot, Nat.log2_two_pow]
  · rw [Nat.pow_eq, ← Nat.add_sub_cancel' hk, Nat.pow_add, ← Nat.mul_assoc, hunits,
      Nat.add_sub_cancel' hk]

end Decimal

namespace Binary64

variable {units : Nat}

theorem readsBack_ofUnits (h : Representable units) : readsBack units (.ofUnits units) = true := by
  obtain ⟨rest, places, hexact, hrest⟩ := Decimal.exists_ofUnits units
  have hdigits : rest * Nat.pow 5 places * one = units * Nat.pow 10 places := by
    calc rest * 5 ^ places * one = rest * one * 5 ^ places := Nat.mul_right_comm _ _ _
      _ = units * (2 ^ places * 5 ^ places) := by rw [hrest, Nat.mul_assoc]
      _ = units * 10 ^ places := by rw [← Nat.mul_pow]
  rw [readsBack_iff h, hexact, ofDecimal_neg, hdigits]
  exact ofQuotient_of_representable h (Nat.pow_pos (by decide))

theorem readsBack_shortest (h : Representable units) : readsBack units (shortest units) = true := by
  simp only [shortest]
  cases hfind : (List.range 17).findSome? fun n => ((Decimal.ofUnits units).neighbours
      ((Nat.toDigits 10 (Decimal.ofUnits units).digits).length - (n + 1))).find? (readsBack units) with
  | none => exact readsBack_ofUnits h
  | some d =>
    obtain ⟨_, -, hd⟩ := List.exists_of_findSome?_eq_some hfind
    exact List.find?_some hd

theorem ofDecimal_shortest (h : Representable units) :
    ofDecimal false (shortest units).digits (shortest units).exponent = .finite false units h :=
  (readsBack_iff h).1 (readsBack_shortest h)

end Binary64

namespace Numeral

variable {ds es : List Char}

theorem digitsValue_append (ds es : List Char) :
    digitsValue (ds ++ es) = Nat.pow 10 es.length * digitsValue ds + digitsValue es := by
  rw [digitsValue, Nat.ofDigitChars_append, Nat.ofDigitChars_eq_ofDigitChars_zero]
  rfl

theorem digitsValue_zeros (n : Nat) : digitsValue (List.replicate n '0') = 0 :=
  Nat.ofDigitChars_replicate_zero

theorem digitsValue_toDigits (n : Nat) : digitsValue (Nat.toDigits 10 n) = n :=
  Nat.ofDigitChars_ten_toDigits

theorem ofDigits_zeros (ds es : List Char) (n : Nat) :
    Binary64.ofDigits ds (es ++ List.replicate n '0') = .ofDigits ds es := by
  have hpow : Nat.pow 10 (es.length + n) = Nat.pow 10 es.length * 10 ^ n := Nat.pow_add 10 _ n
  rw [Binary64.ofDigits, ← List.append_assoc, digitsValue_append, digitsValue_zeros, Nat.add_zero,
    List.length_append, List.length_replicate, hpow, Nat.pow_eq, Nat.mul_comm (10 ^ n),
    Nat.mul_right_comm]
  exact Binary64.ofQuotient_mul_mul (Nat.pow_pos (by decide))

theorem plain_join (hne : ds ≠ []) (hds : ∀ d ∈ ds, d.isDigit = true) (hes : ∀ e ∈ es, e.isDigit = true) :
    Plain (if es = [] then ds else ds ++ '.' :: es) (.ofDigits ds es) := by
  split
  · next hnone =>
    subst hnone
    exact .whole hne hds
  · refine .point (List.append_ne_nil_of_left_ne_nil hne es) fun c hc => ?_
    exact (List.mem_append.1 hc).elim (hds c) (hes c)

end Numeral

namespace Binary64

theorem ofDecimal_natCast {s : Bool} {digits e : Nat} (h : (ofDecimal s digits e).isFinite = true) :
    ofDecimal s digits e = ofQuotient s (digits * Nat.pow 10 e * one) 1 := by
  rw [ofDecimal] at h ⊢
  split at h
  · next h0 =>
    rw [if_pos h0, h0, Nat.zero_mul, Nat.zero_mul]
    exact (ofQuotient_of_small (by decide)).symm
  · next h0 =>
    rw [if_neg h0]
    split at h
    · cases h
    · next hlarge => rw [if_neg hlarge, if_neg (by omega), if_pos (by omega), Int.toNat_natCast]

end Binary64

namespace Decimal

open Binary64 (ofDecimal ofDigits ofQuotient)
open Numeral (digitsValue)

variable {d : Decimal} {count n : Nat}

theorem exists_trimFraction (ds : List Char) : ∃ n, ds = trimFraction ds ++ List.replicate n '0' := by
  have hzeros : ∀ c ∈ ds.rtakeWhile (· == '0'), c = '0' :=
    fun c hc => beq_iff_eq.1 (List.mem_rtakeWhile_imp (p := (· == '0')) hc)
  refine ⟨_, Eq.trans ?_ (congrArg _ (List.eq_replicate_of_mem hzeros))⟩
  exact List.rdropWhile_append_rtakeWhile.symm

theorem isDigit_of_mem_toDigits : ∀ c ∈ Nat.toDigits 10 n, c.isDigit = true :=
  fun _ => Nat.isDigit_of_mem_toDigits (by decide) (by decide)

def padded (count n : Nat) : List Char :=
  List.replicate (count - (Nat.toDigits 10 n).length) '0' ++ Nat.toDigits 10 n

theorem length_padded (hcount : 0 < count) (hn : n < Nat.pow 10 count) :
    (padded count n).length = count := by
  have hle := (Nat.length_toDigits_le_iff (by decide) hcount).2 hn
  rw [padded, List.length_append, List.length_replicate, Nat.sub_add_cancel hle]

theorem isDigit_of_mem_padded : ∀ c ∈ padded count n, c.isDigit = true := by
  intro c hc
  rcases List.mem_append.1 hc with hc | hc
  · rw [List.eq_of_mem_replicate hc]
    rfl
  · exact isDigit_of_mem_toDigits c hc

theorem digitsValue_padded : digitsValue (padded count n) = n := by
  rw [padded, Numeral.digitsValue_append, Numeral.digitsValue_zeros, Numeral.digitsValue_toDigits,
    Nat.mul_zero, Nat.zero_add]

theorem ofDigits_padded (digits : Nat) (hcount : 0 < count) :
    ofDigits (Nat.toDigits 10 (digits / Nat.pow 10 count)) (padded count (digits % Nat.pow 10 count)) =
      ofDecimal false digits (-count) := by
  have hlt : digits % Nat.pow 10 count < Nat.pow 10 count := Nat.mod_lt _ (Nat.pow_pos (by decide))
  rw [ofDigits, Numeral.digitsValue_append, length_padded hcount hlt, digitsValue_padded,
    Numeral.digitsValue_toDigits, Nat.div_add_mod, Binary64.ofDecimal_neg]

theorem plain_render (h : (ofDecimal false d.digits d.exponent).isFinite = true) :
    Numeral.Plain d.render (ofDecimal false d.digits d.exponent) := by
  obtain ⟨digits, exponent⟩ := d
  cases exponent with
  | ofNat e =>
    have hvalue : ofDigits (Nat.toDigits 10 (digits * Nat.pow 10 e)) [] = ofDecimal false digits e := by
      rw [ofDigits, List.append_nil, Numeral.digitsValue_toDigits, Binary64.ofDecimal_natCast h]
      rfl
    exact hvalue ▸ .whole Nat.toDigits_ne_nil isDigit_of_mem_toDigits
  | negSucc e =>
    -- Zeros are cut off the end of the places, which changes the digits but not their value.
    obtain ⟨zeros, htrim⟩ := exists_trimFraction (padded (e + 1) (digits % Nat.pow 10 (e + 1)))
    have hexponent : Int.negSucc e = -((e + 1 : Nat) : Int) := rfl
    have hvalue := ofDigits_padded digits (Nat.succ_pos e)
    have hdigits : ∀ c ∈ padded (e + 1) (digits % Nat.pow 10 (e + 1)), c.isDigit = true :=
      isDigit_of_mem_padded
    rw [htrim, Numeral.ofDigits_zeros] at hvalue
    rw [htrim] at hdigits
    rw [hexponent, ← hvalue]
    exact Numeral.plain_join Nat.toDigits_ne_nil isDigit_of_mem_toDigits
      fun c hc => hdigits c (List.mem_append_left _ hc)

end Decimal

namespace Numeral

variable {cs : List Char}

theorem scan_minus (h : splitSign cs = (false, cs)) :
    scan ('-' :: cs) = (scan cs).map fun p => ({ p.1 with negative := true }, p.2) := by
  simp only [scan, h]
  rw [splitSign]
  split <;> rfl

theorem Plain.exists_scan {x : Binary64} (h : Plain cs x) : ∃ whole fraction,
    scan cs = some (⟨false, whole, fraction, 0⟩, []) ∧ Binary64.ofDigits whole fraction = x := by
  have hrun := h.isNumeralPart_of_mem
  cases h with
  | whole hne hds => exact ⟨_, _, scan_digits hne hds, rfl⟩
  | @point ds es hne hds =>
    refine ⟨ds, es, ?_, rfl⟩
    rw [← List.append_nil es] at hrun
    have hscan := scan_point hds hrun fun c hc => nomatch hc
    rwa [List.append_nil, if_neg fun hnil => hne (List.append_eq_nil_iff.2 hnil)] at hscan

end Numeral

namespace Binary64

variable {units : Nat}

theorem read?_minus {cs : List Char} {x : Binary64} (h : Numeral.Plain cs x) :
    read? ('-' :: cs) = some x.neg := by
  obtain ⟨whole, fraction, hscan, rfl⟩ := h.exists_scan
  have hsign := Numeral.splitSign_of_isNumeralPart h.isNumeralPart_of_mem
  rw [read?, Numeral.scan_minus hsign, hscan, ← Numeral.value_eq_ofDigits, Numeral.value, neg_ofDecimal]
  rfl

theorem ofDigits_zero : ofDigits ['0'] [] = zero false := by
  have hzero : Numeral.digitsValue ['0'] = 0 := Numeral.digitsValue_zeros 1
  rw [ofDigits, List.append_nil, hzero, Nat.zero_mul]
  exact ofQuotient_of_small (by decide)

theorem plain_digits (h : Representable units) :
    Numeral.Plain (if units = 0 then ['0'] else (shortest units).render) (.finite false units h) := by
  split
  · next h0 =>
    subst h0
    change Numeral.Plain ['0'] (zero false)
    exact ofDigits_zero ▸ .whole (by decide) (List.forall_mem_singleton.2 rfl)
  · have hread := ofDecimal_shortest h
    exact hread ▸ Decimal.plain_render (hread ▸ rfl)

theorem exists_plain_toText {x : Binary64} (hx : x.isFinite = true) :
    ∃ cs y, Numeral.Plain cs y ∧
      ((x.toText.toList = cs ∧ x = y) ∨ (x.toText.toList = '-' :: cs ∧ x = y.neg)) := by
  cases x with
  | infinite s => cases hx
  | nan => cases hx
  | finite s u hu =>
    refine ⟨_, _, plain_digits hu, ?_⟩
    cases s with
    | false => exact .inl ⟨String.toList_ofList, rfl⟩
    | true => exact .inr ⟨String.toList_ofList, rfl⟩

theorem read?_toText {x : Binary64} (hx : x.isFinite = true) : read? x.toText.toList = some x := by
  obtain ⟨cs, y, hplain, ⟨htext, rfl⟩ | ⟨htext, rfl⟩⟩ := exists_plain_toText hx
  · rw [htext]
    exact (read?_eq_some_iff hplain.ne_nil hplain.isNumeralPart_of_mem).2 hplain
  · rw [htext]
    exact read?_minus hplain

theorem mem_toText {x : Binary64} (hx : x.isFinite = true) :
    ∀ c ∈ x.toText.toList, c = '-' ∨ c = '.' ∨ c.isDigit = true := by
  obtain ⟨cs, y, hplain, hcases⟩ := exists_plain_toText hx
  have hpart : ∀ c ∈ cs, c = '.' ∨ c.isDigit = true :=
    fun c hc => (isNumeralPart_iff.1 (hplain.isNumeralPart_of_mem c hc)).symm
  intro c hc
  rcases hcases with ⟨htext, -⟩ | ⟨htext, -⟩
  · exact .inr (hpart c (htext ▸ hc))
  · rcases List.mem_cons.1 (htext ▸ hc) with rfl | hc
    · exact .inl rfl
    · exact .inr (hpart c hc)

end Binary64

namespace Content

variable {x : Binary64} {input : String}

theorem ofInput_of_read? (hblank : ∀ c ∈ input.toList, Text.isBlank c = false)
    (hmark : '=' ∉ input.toList) (hread : Binary64.read? input.toList = some x)
    (hx : x.isFinite = true) : ofInput input = .number x := by
  rw [ofInput, Text.trimList_eq_self hblank]
  split
  · next hnil =>
    rw [hnil] at hread
    cases hread
  · next hformula =>
    rw [hformula] at hmark
    exact absurd List.mem_cons_self hmark
  · rw [hread, Option.filter_some, if_pos hx]

theorem ofInput_toText (hx : x.isFinite = true) : ofInput x.toText = .number x := by
  refine ofInput_of_read? (fun c hc => ?_) (fun hmark => ?_) (Binary64.read?_toText hx) hx
  · rcases Binary64.mem_toText hx c hc with rfl | rfl | hdigit
    · decide
    · decide
    · exact Address.isBlank_eq_false (.inr hdigit)
  · exact absurd (Binary64.mem_toText hx '=' hmark) (by decide)

theorem ofInput_rawText_number (hx : x.isFinite = true) :
    ofInput (number x).rawText = .number x ∨
      (x = .zero true ∧ ofInput (number x).rawText = .number (.zero false)) := by
  cases x with
  | infinite s => cases hx
  | nan => cases hx
  | finite s u hu =>
    by_cases hzero : u = 0
    · subst hzero
      have htext : (number (.finite s 0 hu)).rawText = (Binary64.zero false).toText := rfl
      rw [htext, ofInput_toText rfl]
      cases s with
      | false => exact .inl rfl
      | true => exact .inr ⟨rfl, rfl⟩
    · have htext : (number (.finite s u hu)).rawText = (Binary64.finite s u hu).toText :=
        if_neg (by rwa [Binary64.isZero, beq_iff_eq])
      rw [htext, ofInput_toText hx]
      exact .inl rfl

theorem ofInput_cases (input : String) : ofInput input = .empty ∨ ofInput input = .text input ∨
    ∃ x : Binary64, x.isFinite = true ∧ ofInput input = .number x := by
  rw [ofInput]
  split
  · exact .inl rfl
  · exact .inr (.inl rfl)
  · split
    · next x hx => exact .inr (.inr ⟨x, (Option.filter_eq_some_iff.1 hx).2, rfl⟩)
    · exact .inr (.inl rfl)

/-- The content that a text gives is given by its own text again, but for zero, which loses its sign. -/
theorem reentering_changes_nothing (input : String) :
    ofInput (ofInput input).rawText = ofInput input ∨
      (ofInput input = .number (.zero true) ∧
        ofInput (ofInput input).rawText = .number (.zero false)) := by
  rcases ofInput_cases input with h | h | ⟨x, hx, h⟩
  · rw [h]
    exact .inl rfl
  · have htext : (ofInput input).rawText = input := by rw [h, rawText]
    rw [htext]
    exact .inl rfl
  · rw [h, number.injEq]
    exact ofInput_rawText_number hx

-- The sign that zero loses is there before.
example : ofInput "-0" = .number (.zero true) ∧
    ofInput (ofInput "-0").rawText = .number (.zero false) := by decide +kernel

end Content

end Spreadsheet
