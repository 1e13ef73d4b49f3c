import Spreadsheet.Content
import Spreadsheet.Number.ByteScan
import Spreadsheet.Proofs.Numeral

namespace Spreadsheet

namespace Numeral

variable {c : Char} {cs : List Char}

theorem splitDigits_cons_of_pos (hc : c.isDigit = true) :
    splitDigits (c :: cs) = (c :: (splitDigits cs).1, (splitDigits cs).2) := by
  rw [splitDigits, List.takeWhile_cons_of_pos hc, List.dropWhile_cons_of_pos hc, splitDigits]

theorem splitDigits_cons_of_neg (hc : ¬c.isDigit = true) : splitDigits (c :: cs) = ([], c :: cs) := by
  rw [splitDigits, List.takeWhile_cons_of_neg hc, List.dropWhile_cons_of_neg hc]

theorem splitMantissa_cons_of_pos (hc : c.isDigit = true) :
    splitMantissa (c :: cs) = (c :: (splitMantissa cs).1, (splitMantissa cs).2) := by
  rw [splitMantissa, splitDigits_cons_of_pos hc, splitMantissa]

end Numeral

namespace ByteScan

open Numeral (splitDigits splitDigits_cons_of_neg splitDigits_cons_of_pos splitExponent splitFraction
  splitMantissa splitMantissa_cons_of_pos splitSign)

variable {text rest cs set : List Char} {c : Char} {i : Nat} {b : UInt8}

theorem bytes_cons (c : Char) (cs : List Char) : bytes (c :: cs) = String.utf8EncodeChar c ++ bytes cs :=
  rfl

theorem bytes_append (cs ds : List Char) : bytes (cs ++ ds) = bytes cs ++ bytes ds :=
  List.flatMap_append

def Begins (b : UInt8) (c : Char) : Prop :=
  (c.toNat < 128 ∧ b.toNat = c.toNat) ∨ (128 ≤ c.toNat ∧ 128 ≤ b.toNat)

theorem utf8EncodeChar_of_lt (h : c.toNat < 128) : String.utf8EncodeChar c = [UInt8.ofNat c.toNat] := by
  have hle : c.val.toNat ≤ 127 := Nat.le_of_lt_succ h
  rw [String.utf8EncodeChar, if_pos hle]
  rfl

theorem exists_utf8EncodeChar (c : Char) : ∃ b bs, String.utf8EncodeChar c = b :: bs ∧ Begins b c := by
  have hval : c.val.toNat = c.toNat := rfl
  have hbyte (n : Nat) (h : n < 256) : (UInt8.ofNat n).toNat = n := Nat.mod_eq_of_lt h
  simp only [String.utf8EncodeChar, hval]
  split
  · exact ⟨_, _, rfl, .inl ⟨by omega, hbyte _ (by omega)⟩⟩
  split
  · exact ⟨_, _, rfl, .inr ⟨by omega, by rw [hbyte _ (by omega)]; omega⟩⟩
  split
  · exact ⟨_, _, rfl, .inr ⟨by omega, by rw [hbyte _ (by omega)]; omega⟩⟩
  · exact ⟨_, _, rfl, .inr ⟨by omega, by rw [hbyte _ (by omega)]; omega⟩⟩

/-- The position stands between two characters, and these are the characters after it. -/
def At (text : List Char) (i : Nat) (rest : List Char) : Prop :=
  ∃ pre, text = pre ++ rest ∧ (bytes pre).length = i

theorem At.start (text : List Char) : At text 0 text :=
  ⟨[], rfl, rfl⟩

theorem At.drop (h : At text i rest) : i ≤ (bytes text).length ∧ (bytes text).drop i = bytes rest := by
  obtain ⟨pre, rfl, rfl⟩ := h
  rw [bytes_append, List.length_append, List.drop_left]
  exact ⟨Nat.le_add_right _ _, rfl⟩

theorem At.next (h : At text i (c :: cs)) (hc : c.toNat < 128) : At text (i + 1) cs := by
  obtain ⟨pre, rfl, rfl⟩ := h
  refine ⟨pre ++ [c], by simp, ?_⟩
  rw [bytes_append, List.length_append, bytes_cons, utf8EncodeChar_of_lt hc]
  rfl

theorem toNat_lt_of_isDigit (hc : c.isDigit = true) : c.toNat < 128 := by
  have hcode := Address.isDigit_iff.1 hc
  omega

theorem At.next_of_isDigit (h : At text i (c :: cs)) (hc : c.isDigit = true) : At text (i + 1) cs :=
  h.next (toNat_lt_of_isDigit hc)

theorem At.getElem?_nil (h : At text i []) : (bytes text)[i]? = none := by
  rw [← List.head?_drop, h.drop.2]
  rfl

theorem At.exists_getElem? (h : At text i (c :: cs)) :
    ∃ b, (bytes text)[i]? = some b ∧ Begins b c := by
  obtain ⟨b, bs, hb, hbegins⟩ := exists_utf8EncodeChar c
  refine ⟨b, ?_, hbegins⟩
  rw [← List.head?_drop, h.drop.2, bytes_cons, hb]
  rfl

theorem Begins.isDigit (h : Begins b c) : isDigit b = c.isDigit := by
  have hzero : '0'.toNat = 48 := rfl
  have hnine : '9'.toNat = 57 := rfl
  rw [Bool.eq_iff_iff, ByteScan.isDigit, Bool.and_eq_true, decide_eq_true_eq, decide_eq_true_eq,
    Address.isDigit_iff]
  rcases h with ⟨hc, hb⟩ | ⟨hc, hb⟩ <;> omega

theorem Begins.isOneOf (h : Begins b c) (hset : ∀ d ∈ set, d.toNat < 128) :
    isOneOf set b = true ↔ c ∈ set := by
  rw [ByteScan.isOneOf, List.any_eq_true]
  constructor
  · rintro ⟨d, hd, heq⟩
    have hlt := hset d hd
    have hdb := beq_iff_eq.1 heq
    have hdc : d = c := Char.toNat_inj.1 (by rcases h with ⟨hc, hb⟩ | ⟨hc, hb⟩ <;> omega)
    exact hdc ▸ hd
  · intro hc
    have hlt := hset c hc
    exact ⟨c, hc, beq_iff_eq.2 (by rcases h with ⟨-, hb⟩ | ⟨hc, -⟩ <;> omega)⟩

theorem At.holds_cases (h : At text i rest) {d e : Char} (hd : d.toNat < 128) (he : e.toNat < 128) :
    (holds (bytes text) i (isOneOf [d, e]) = true ∧ ∃ c cs, rest = c :: cs ∧ (c = d ∨ c = e) ∧
      At text (i + 1) cs) ∨
    (holds (bytes text) i (isOneOf [d, e]) = false ∧ ∀ c ∈ rest.head?, c ≠ d ∧ c ≠ e) := by
  cases rest with
  | nil =>
    rw [holds, h.getElem?_nil]
    exact .inr ⟨rfl, fun c hc => nomatch hc⟩
  | cons c cs =>
    obtain ⟨b, hb, hbegins⟩ := h.exists_getElem?
    rw [holds, hb, Option.any_some]
    have hiff : isOneOf [d, e] b = true ↔ c = d ∨ c = e := by
      rw [hbegins.isOneOf (by simp [hd, he]), List.mem_pair]
    by_cases hc : c = d ∨ c = e
    · have hlt : c.toNat < 128 := hc.elim (fun hc => hc ▸ hd) (fun hc => hc ▸ he)
      exact .inl ⟨hiff.2 hc, c, cs, rfl, hc, h.next hlt⟩
    · refine .inr ⟨Bool.not_eq_true _ ▸ mt hiff.1 hc, ?_⟩
      rintro _ ⟨⟩
      exact not_or.1 hc

theorem cut?_bytes (pre rest : List Char) : cut? (pre ++ rest) (bytes pre).length = some pre := by
  induction pre with
  | nil => cases rest <;> rfl
  | cons c pre ih =>
    have hlength : (bytes (c :: pre)).length = (bytes pre).length + c.utf8Size := by
      rw [bytes_cons, List.length_append, String.length_utf8EncodeChar, Nat.add_comm]
    obtain ⟨n, hn⟩ : ∃ n, (bytes (c :: pre)).length = n + 1 :=
      Nat.exists_eq_add_one.2 (by rw [hlength]; exact Nat.add_pos_right _ c.utf8Size_pos)
    rw [List.cons_append, hn, cut?, ← hn, hlength, if_pos (Nat.le_add_left _ _), Nat.add_sub_cancel, ih]
    rfl

theorem At.skipSign (h : At text i rest) : At text (skipSign (bytes text) i) (splitSign rest).2 := by
  rw [ByteScan.skipSign]
  rcases h.holds_cases (d := '+') (e := '-') (by decide) (by decide) with
    ⟨hholds, c, cs, rfl, hc, hnext⟩ | ⟨hholds, hhead⟩
  · rw [if_pos hholds]
    rcases hc with rfl | rfl
    · exact hnext
    · exact hnext
  · have hnone : splitSign rest = (false, rest) := Numeral.Sign.none.splitSign_append hhead
    rw [hholds, if_neg Bool.false_ne_true, hnone]
    exact h

theorem At.mantissaEnd_nil (h : At text i []) (count : Nat) (seenPoint : Bool) :
    mantissaEnd (bytes text) i count seenPoint = (i, count) := by
  rw [mantissaEnd, dif_neg (Nat.not_lt.2 (List.getElem?_eq_none_iff.1 h.getElem?_nil))]

theorem At.mantissaEnd_cons (h : At text i (c :: cs)) (count : Nat) (seenPoint : Bool) :
    mantissaEnd (bytes text) i count seenPoint =
      if c.isDigit then mantissaEnd (bytes text) (i + 1) (count + 1) seenPoint
      else if c = '.' ∧ seenPoint = false then mantissaEnd (bytes text) (i + 1) count true
      else (i, count) := by
  obtain ⟨b, hb, hbegins⟩ := h.exists_getElem?
  obtain ⟨hi, rfl⟩ := List.getElem?_eq_some_iff.1 hb
  have hpoint : (isOneOf ['.'] (bytes text)[i] && !seenPoint) = true ↔ c = '.' ∧ seenPoint = false := by
    rw [Bool.and_eq_true, hbegins.isOneOf (List.forall_mem_singleton.2 (by decide)), List.mem_singleton,
      Bool.not_eq_true']
  rw [mantissaEnd, dif_pos hi, hbegins.isDigit]
  simp only [hpoint]

theorem At.digitsEnd (h : At text i rest) (count : Nat) :
    (mantissaEnd (bytes text) i count true).2 = count + (splitDigits rest).1.length ∧
      At text (mantissaEnd (bytes text) i count true).1 (splitDigits rest).2 := by
  induction rest generalizing i count with
  | nil =>
    rw [h.mantissaEnd_nil]
    exact ⟨rfl, h⟩
  | cons c cs ih =>
    rw [h.mantissaEnd_cons]
    by_cases hc : c.isDigit = true
    · obtain ⟨hcount, hat⟩ := ih (h.next_of_isDigit hc) (count + 1)
      rw [if_pos hc, splitDigits_cons_of_pos hc, hcount, List.length_cons]
      exact ⟨by omega, hat⟩
    · rw [if_neg hc, if_neg (by simp), splitDigits_cons_of_neg hc]
      exact ⟨rfl, h⟩

theorem At.mantissaEnd (h : At text i rest) (count : Nat) :
    (mantissaEnd (bytes text) i count false).2 =
        count + ((splitMantissa rest).1 ++ (splitMantissa rest).2.1).length ∧
      At text (mantissaEnd (bytes text) i count false).1 (splitMantissa rest).2.2 := by
  induction rest generalizing i count with
  | nil =>
    rw [h.mantissaEnd_nil]
    exact ⟨rfl, h⟩
  | cons c cs ih =>
    rw [h.mantissaEnd_cons]
    by_cases hc : c.isDigit = true
    · obtain ⟨hcount, hat⟩ := ih (h.next_of_isDigit hc) (count + 1)
      rw [if_pos hc, splitMantissa_cons_of_pos hc, hcount]
      simp only [List.cons_append, List.length_cons]
      exact ⟨by omega, hat⟩
    · rw [if_neg hc, splitMantissa, splitDigits_cons_of_neg hc]
      by_cases hpoint : c = '.'
      · subst hpoint
        rw [if_pos ⟨rfl, rfl⟩]
        exact (h.next (by decide)).digitsEnd count
      · rw [if_neg fun hc => hpoint hc.1, splitFraction]
        · exact ⟨rfl, h⟩
        · rintro _ heq
          exact hpoint (List.cons.inj heq).1

theorem length_takeWhile_bytes (cs : List Char) :
    ((bytes cs).takeWhile isDigit).length = (splitDigits cs).1.length := by
  induction cs with
  | nil => rfl
  | cons c cs ih =>
    obtain ⟨b, bs, hb, hbegins⟩ := exists_utf8EncodeChar c
    have hdigit := hbegins.isDigit
    by_cases hc : c.isDigit = true
    · have hsingle : bs = [] := by
        rw [utf8EncodeChar_of_lt (toNat_lt_of_isDigit hc)] at hb
        exact (List.cons.inj hb).2.symm
      rw [bytes_cons, hb, hsingle, splitDigits_cons_of_pos hc, List.singleton_append,
        List.takeWhile_cons_of_pos (hdigit.trans hc), List.length_cons, ih, List.length_cons]
    · rw [bytes_cons, hb, splitDigits_cons_of_neg hc, List.cons_append,
        List.takeWhile_cons_of_neg (hdigit ▸ hc)]
      rfl

theorem At.advance_digits (h : At text i rest) :
    At text (i + (splitDigits rest).1.length) (splitDigits rest).2 := by
  induction rest generalizing i with
  | nil => exact h
  | cons c cs ih =>
    by_cases hc : c.isDigit = true
    · rw [splitDigits_cons_of_pos hc, List.length_cons, Nat.add_comm _ 1, ← Nat.add_assoc]
      exact ih (h.next_of_isDigit hc)
    · rw [splitDigits_cons_of_neg hc]
      exact h

theorem At.exponentEnd? (h : At text i rest) :
    ∃ j, exponentEnd? (bytes text) i = some j ∧ At text j (splitExponent rest).2 := by
  rw [ByteScan.exponentEnd?]
  rcases h.holds_cases (d := 'e') (e := 'E') (by decide) (by decide) with
    ⟨hholds, mark, cs, rfl, hmark, hnext⟩ | ⟨hholds, hhead⟩
  · have hstart := hnext.skipSign
    have hslice : slice? (bytes text) (ByteScan.skipSign (bytes text) (i + 1)) =
        some (bytes (splitSign cs).2) := by
      rw [slice?, if_pos hstart.drop.1, hstart.drop.2]
    rw [if_pos hholds, Numeral.splitExponent_marked hmark]
    simp only [hslice, Option.map_some, length_takeWhile_bytes]
    by_cases hdigits : (splitDigits (splitSign cs).2).1 = []
    · rw [if_neg (by simp [hdigits]), if_pos hdigits]
      exact ⟨i, rfl, h⟩
    · rw [if_pos (List.length_pos_iff.2 hdigits), if_neg hdigits]
      exact ⟨_, rfl, hstart.advance_digits⟩
  · rw [hholds, if_neg Bool.false_ne_true, Numeral.splitExponent_unmarked hhead]
    exact ⟨i, rfl, h⟩

theorem leading?_eq (s : String) : leading? s = some (Binary64.leadingOfText? s) := by
  rw [leading?, Binary64.leadingOfText?]
  generalize Text.dropBlanks s.toList = text
  obtain ⟨hcount, hmantissa⟩ := (At.start text).skipSign.mantissaEnd 0
  obtain ⟨stop, hstop, pre, htext, hlength⟩ := hmantissa.exponentEnd?
  have hcut : cut? text stop = some pre := by
    rw [htext, ← hlength, cut?_bytes]
  simp only [hcount, hstop, hcut, Nat.zero_add, List.length_eq_zero_iff, List.append_eq_nil_iff,
    Option.bind_eq_bind, Option.bind_some]
  have hscan := Numeral.scan_eq text
  by_cases hnone : (splitMantissa (splitSign text).2).1 = [] ∧ (splitMantissa (splitSign text).2).2.1 = []
  · rw [if_pos hnone] at hscan ⊢
    rw [hscan]
    rfl
  · rw [if_neg hnone] at hscan ⊢
    rw [Binary64.read?_of_scan hscan htext, hscan]
    rfl

end ByteScan

namespace Content

variable {c : Content} {x : Binary64}

theorem leadingNumber?_of_number? (h : c.number? = some x) : c.leadingNumber? = some x := by
  cases c with
  | empty => cases h
  | number y => exact h
  | text s =>
    obtain ⟨hread, hx⟩ := Option.filter_eq_some_iff.1 h
    obtain ⟨gap, htrim, hgap⟩ := Text.exists_dropBlanksEnd (Text.dropBlanks s.toList)
    rcases Binary64.read?_eq_some hread with ⟨n, hn, -⟩ | ⟨-, hinfinite⟩
    · obtain ⟨m, hscan⟩ := hn.scan_append_blanks hgap
      rw [Text.trimList, ← htrim] at hscan
      have hvalue := (Binary64.read?_of_scan hscan htrim).symm.trans hread
      rw [leadingNumber?, Binary64.leadingOfText?, hscan, Option.map_some, hvalue, Option.filter_some,
        if_pos hx]
    · rw [hinfinite] at hx
      cases hx

end Content

/-- The number that leads a text is the one that its longest numeral is read as. It is found without a slice
that begins or ends beyond the text or within a character. Content that is a number as a whole also begins
with it. -/
theorem leading_number_longest :
    (∀ s : String, ByteScan.leading? s = some (Binary64.leadingOfText? s) ∧
      (Binary64.leadingOfText? s = none ↔
        ∀ p, p <+: Text.dropBlanks s.toList → ¬Numeral.IsNumeral p) ∧
      ∀ x, Binary64.leadingOfText? s = some x ↔
        ∃ p, Numeral.IsLongest p (Text.dropBlanks s.toList) ∧ Binary64.read? p = some x) ∧
    (∀ cs, (Binary64.read? cs).isSome = true ↔ Numeral.IsNumeral cs ∨ Numeral.IsName cs) ∧
    ∀ (c : Content) (x : Binary64), c.number? = some x → c.leadingNumber? = some x := by
  refine ⟨fun s => ⟨ByteScan.leading?_eq s, ?none, fun x => ?some⟩, fun cs => ?form, fun c x h => ?whole⟩
  case none => exact Binary64.leadingOfText?_eq_none_iff
  case some => exact Binary64.leadingOfText?_eq_some_iff
  case form => exact Binary64.isSome_read?_iff
  case whole => exact Content.leadingNumber?_of_number? h

theorem leading_number_longest_five :
    (ByteScan.leading? "5e+€" = some (some 5) ∧
      ∃ p, Numeral.IsLongest p (Text.dropBlanks "5e+€".toList) ∧ Binary64.read? p = some 5) ∧
    (Content.text " 5e0 ").number? = some 5 ∧
      (Content.text " 5e0 ").leadingNumber? = some 5 := by
  obtain ⟨htext, -, hwhole⟩ := leading_number_longest
  obtain ⟨hbytes, -, hlongest⟩ := htext "5e+€"
  have hfive : Binary64.leadingOfText? "5e+€" = some 5 := by decide +kernel
  have hnumber : (Content.text " 5e0 ").number? = some 5 := by decide +kernel
  exact ⟨⟨hbytes.trans (congrArg some hfive), (hlongest _).1 hfive⟩, hnumber, hwhole _ _ hnumber⟩

end Spreadsheet
