import Mathlib.Data.List.Basic
import Spreadsheet.Proofs.PlainNumeral

namespace Spreadsheet

namespace Numeral

inductive Sign : List Char → Bool → Prop
  | none : Sign [] false
  | plus : Sign ['+'] false
  | minus : Sign ['-'] true

inductive Mantissa : List Char → List Char → List Char → Prop
  | whole {ds : List Char} : (∀ d ∈ ds, d.isDigit = true) → Mantissa ds ds []
  | point {ds es : List Char} : (∀ d ∈ ds, d.isDigit = true) → (∀ e ∈ es, e.isDigit = true) →
      Mantissa (ds ++ '.' :: es) ds es

inductive Exponent : List Char → Int → Prop
  | none : Exponent [] 0
  | marked {mark : Char} {sign ds : List Char} {negative : Bool} : mark = 'e' ∨ mark = 'E' →
      Sign sign negative → ds ≠ [] → (∀ d ∈ ds, d.isDigit = true) →
      Exponent (mark :: (sign ++ ds)) (if negative then -(digitsValue ds : Int) else digitsValue ds)

/-- The text is a numeral from end to end, and these are its parts. -/
inductive Spells : List Char → Numeral → Prop
  | mk {sign mantissa exponent : List Char} {n : Numeral} : Sign sign n.negative →
      Mantissa mantissa n.whole n.fraction → n.whole ++ n.fraction ≠ [] →
      Exponent exponent n.exponent → Spells (sign ++ (mantissa ++ exponent)) n

def IsNumeral (cs : List Char) : Prop :=
  ∃ n, Spells cs n

def IsLongest (p cs : List Char) : Prop :=
  p <+: cs ∧ IsNumeral p ∧ ∀ q, q <+: cs → IsNumeral q → q.length ≤ p.length

def names : List (List Char) :=
  ["inf".toList, "infinity".toList, "nan".toList]

inductive IsName : List Char → Prop
  | mk {sign name : List Char} {negative : Bool} : Sign sign negative →
      name.map Char.toLower ∈ names → IsName (sign ++ name)

def splitMantissa (cs : List Char) : List Char × List Char × List Char :=
  ((splitDigits cs).1, splitFraction (splitDigits cs).2)

theorem scan_eq (cs : List Char) : scan cs =
    if (splitMantissa (splitSign cs).2).1 = [] ∧ (splitMantissa (splitSign cs).2).2.1 = [] then none
    else some (⟨(splitSign cs).1, (splitMantissa (splitSign cs).2).1, (splitMantissa (splitSign cs).2).2.1,
      (splitExponent (splitMantissa (splitSign cs).2).2.2).1⟩,
      (splitExponent (splitMantissa (splitSign cs).2).2.2).2) := rfl

theorem splitExponent_marked {mark : Char} (hmark : mark = 'e' ∨ mark = 'E') (cs : List Char) :
    splitExponent (mark :: cs) =
      if (splitDigits (splitSign cs).2).1 = [] then (0, mark :: cs)
      else (if (splitSign cs).1 then -(digitsValue (splitDigits (splitSign cs).2).1 : Int)
        else digitsValue (splitDigits (splitSign cs).2).1, (splitDigits (splitSign cs).2).2) := by
  rw [splitExponent, if_pos hmark]

theorem splitExponent_unmarked {cs : List Char} (h : ∀ c ∈ cs.head?, c ≠ 'e' ∧ c ≠ 'E') :
    splitExponent cs = (0, cs) := by
  cases cs with
  | nil => rfl
  | cons c cs => rw [splitExponent, if_neg (not_or.2 (h c rfl))]

variable {cs ds t mantissa whole fraction exponent : List Char} {x : Int}

theorem exists_sign (cs : List Char) :
    ∃ sign, Sign sign (splitSign cs).1 ∧ cs = sign ++ (splitSign cs).2 := by
  rw [splitSign.eq_def]
  split
  · exact ⟨_, .minus, rfl⟩
  · exact ⟨_, .plus, rfl⟩
  · exact ⟨_, .none, rfl⟩

theorem splitDigits_append_self (cs : List Char) : (splitDigits cs).1 ++ (splitDigits cs).2 = cs :=
  List.takeWhile_append_dropWhile

theorem exists_mantissa (cs : List Char) : ∃ mantissa,
    Mantissa mantissa (splitMantissa cs).1 (splitMantissa cs).2.1 ∧
      cs = mantissa ++ (splitMantissa cs).2.2 := by
  have hdigits : ∀ ds : List Char, ∀ d ∈ (splitDigits ds).1, d.isDigit = true :=
    fun ds d hd => List.mem_takeWhile_imp hd
  rw [splitMantissa, splitFraction.eq_def]
  split
  · next es hrest =>
    refine ⟨_, .point (hdigits cs) (hdigits es), ?_⟩
    rw [List.append_assoc, List.cons_append, splitDigits_append_self, ← hrest, splitDigits_append_self]
  · exact ⟨_, .whole (hdigits cs), (splitDigits_append_self cs).symm⟩

theorem exists_exponent (cs : List Char) :
    ∃ exponent, Exponent exponent (splitExponent cs).1 ∧ cs = exponent ++ (splitExponent cs).2 := by
  have hnone : splitExponent cs = (0, cs) →
      ∃ exponent, Exponent exponent (splitExponent cs).1 ∧ cs = exponent ++ (splitExponent cs).2 :=
    fun h => h ▸ ⟨_, .none, rfl⟩
  cases cs with
  | nil => exact hnone rfl
  | cons mark cs =>
    by_cases hmark : mark = 'e' ∨ mark = 'E'
    · by_cases hdigits : (splitDigits (splitSign cs).2).1 = []
      · exact hnone (by rw [splitExponent_marked hmark, if_pos hdigits])
      · obtain ⟨sign, hsign, hcs⟩ := exists_sign cs
        rw [splitExponent_marked hmark, if_neg hdigits]
        refine ⟨_, .marked hmark hsign hdigits fun d hd => List.mem_takeWhile_imp hd, ?_⟩
        rw [List.cons_append, List.append_assoc, splitDigits_append_self, ← hcs]
    · exact hnone (by rw [splitExponent, if_neg hmark])

theorem Sign.splitSign_append {sign : List Char} {negative : Bool} (h : Sign sign negative)
    (ht : ∀ c ∈ t.head?, c ≠ '+' ∧ c ≠ '-') : splitSign (sign ++ t) = (negative, t) := by
  cases h with
  | plus => rfl
  | minus => rfl
  | none =>
    rw [List.nil_append, splitSign.eq_def]
    split
    · exact absurd rfl (ht '-' rfl).2
    · exact absurd rfl (ht '+' rfl).1
    · rfl

theorem splitDigits_append_of_pos (hds : ∀ d ∈ ds, d.isDigit = true) (t : List Char) :
    splitDigits (ds ++ t) = (ds ++ (splitDigits t).1, (splitDigits t).2) := by
  rw [splitDigits, List.takeWhile_append_of_pos hds, List.dropWhile_append_of_pos hds, splitDigits]

theorem splitMantissa_point (hds : ∀ d ∈ ds, d.isDigit = true) (t : List Char) :
    splitMantissa (ds ++ '.' :: t) = (ds, splitDigits t) := by
  rw [splitMantissa, splitDigits_append hds fun c hc => by cases hc; rfl, splitFraction]

theorem Mantissa.grows (h : Mantissa mantissa whole fraction) (t : List Char) :
    whole <+: (splitMantissa (mantissa ++ t)).1 ∧ fraction <+: (splitMantissa (mantissa ++ t)).2.1 ∧
      (splitMantissa (mantissa ++ t)).2.2 <:+ t := by
  cases h with
  | whole hds =>
    obtain ⟨point, -, hpoint⟩ := exists_mantissa t
    rw [splitMantissa, splitDigits_append_of_pos hds]
    exact ⟨List.prefix_append _ _, List.nil_prefix, ⟨point, hpoint.symm⟩⟩
  | point hds hes =>
    rw [List.append_assoc, List.cons_append, splitMantissa_point hds, splitDigits_append_of_pos hes]
    exact ⟨List.prefix_rfl, List.prefix_append _ _, ⟨_, splitDigits_append_self t⟩⟩

theorem Mantissa.stops (h : Mantissa mantissa whole fraction)
    (ht : ∀ c ∈ t.head?, Token.isNumeralPart c = false) :
    splitMantissa (mantissa ++ t) = (whole, fraction, t) := by
  have hdigit : ∀ c ∈ t.head?, c.isDigit = false := fun c hc => by
    have hpart := ht c hc
    rw [Token.isNumeralPart, Bool.or_eq_false_iff] at hpart
    exact hpart.1
  cases h with
  | whole hds =>
    rw [splitMantissa, splitDigits_append hds hdigit, splitFraction]
    rintro cs rfl
    exact absurd (ht '.' rfl) (by decide)
  | point hds hes =>
    rw [List.append_assoc, List.cons_append, splitMantissa_point hds, splitDigits_append hes hdigit]

theorem Mantissa.exists_cons (h : Mantissa mantissa whole fraction) (hne : whole ++ fraction ≠ []) :
    ∃ c cs, mantissa = c :: cs ∧ Token.isNumeralPart c = true := by
  cases h with
  | whole hds =>
    rw [List.append_nil] at hne
    obtain ⟨c, cs, rfl⟩ := List.exists_cons_of_ne_nil hne
    exact ⟨c, cs, rfl, isNumeralPart_iff.2 (.inl (hds c List.mem_cons_self))⟩
  | point hds hes =>
    cases whole with
    | nil => exact ⟨_, _, rfl, rfl⟩
    | cons c cs => exact ⟨c, _, rfl, isNumeralPart_iff.2 (.inl (hds c List.mem_cons_self))⟩

theorem splitExponent_append {mark : Char} {sign : List Char} {negative : Bool}
    (hmark : mark = 'e' ∨ mark = 'E') (hsign : Sign sign negative) (hne : ds ≠ [])
    (hds : ∀ d ∈ ds, d.isDigit = true) (t : List Char) :
    splitExponent (mark :: (sign ++ (ds ++ t))) =
      (if negative then -(digitsValue (ds ++ (splitDigits t).1) : Int)
        else digitsValue (ds ++ (splitDigits t).1), (splitDigits t).2) := by
  have hhead : ∀ c ∈ (ds ++ t).head?, c ≠ '+' ∧ c ≠ '-' := by
    intro c hc
    rw [List.head?_append_of_ne_nil _ hne] at hc
    have hdigit := hds c (List.mem_of_mem_head? hc)
    constructor
    · rintro rfl
      cases hdigit
    · rintro rfl
      cases hdigit
  rw [splitExponent_marked hmark, hsign.splitSign_append hhead, splitDigits_append_of_pos hds,
    if_neg (List.append_ne_nil_of_left_ne_nil hne _)]

theorem Exponent.grows (h : Exponent exponent x) (t : List Char) :
    (splitExponent (exponent ++ t)).2 <:+ t := by
  cases h with
  | none =>
    obtain ⟨exponent, -, ht⟩ := exists_exponent t
    exact ⟨exponent, ht.symm⟩
  | marked hmark hsign hne hds =>
    rw [List.cons_append, List.append_assoc, splitExponent_append hmark hsign hne hds]
    exact ⟨_, splitDigits_append_self t⟩

theorem Exponent.stops (h : Exponent exponent x) : splitExponent exponent = (x, []) := by
  cases h with
  | none => rfl
  | @marked mark sign ds negative hmark hsign hne hds =>
    have hread := splitExponent_append hmark hsign hne hds []
    rw [splitDigits, List.takeWhile_nil, List.dropWhile_nil, List.append_nil] at hread
    exact hread

theorem Exponent.head (h : Exponent exponent x) : ∀ c ∈ exponent.head?, Token.isNumeralPart c = false := by
  cases h with
  | none => exact fun c hc => nomatch hc
  | marked hmark =>
    rintro c ⟨⟩
    rcases hmark with rfl | rfl
    · decide
    · decide

namespace Spells

variable {p : List Char} {n : Numeral}

theorem splitSign_mantissa {sign : List Char} {negative : Bool} (hsign : Sign sign negative)
    (hmantissa : Mantissa mantissa whole fraction) (hne : whole ++ fraction ≠ []) (t : List Char) :
    splitSign (sign ++ (mantissa ++ t)) = (negative, mantissa ++ t) := by
  obtain ⟨c, cs, rfl, hc⟩ := hmantissa.exists_cons hne
  apply hsign.splitSign_append
  rintro c ⟨⟩
  constructor
  · rintro rfl
    exact absurd hc (by decide)
  · rintro rfl
    exact absurd hc (by decide)

theorem scan_append (h : Spells p n) (t : List Char) :
    ∃ m rest, scan (p ++ t) = some (m, rest) ∧ rest <:+ t := by
  obtain @⟨sign, mantissa, exponent, n, hsign, hmantissa, hne, hexponent⟩ := h
  obtain ⟨hwhole, hfraction, hrest⟩ := hmantissa.grows (exponent ++ t)
  rw [List.append_assoc, List.append_assoc, Numeral.scan_eq, splitSign_mantissa hsign hmantissa hne,
    if_neg]
  · refine ⟨_, _, rfl, ?_⟩
    -- Without an exponent the mantissa may go on into the text after it; an exponent's mark stops it.
    by_cases hnil : exponent = []
    · subst hnil
      exact (Exponent.none.grows _).trans hrest
    · rw [hmantissa.stops (by rw [List.head?_append_of_ne_nil _ hnil]; exact hexponent.head)]
      exact hexponent.grows t
  · rintro ⟨hw, hf⟩
    rw [hw, List.prefix_nil] at hwhole
    rw [hf, List.prefix_nil] at hfraction
    exact hne (by rw [hwhole, hfraction]; rfl)

theorem scan_eq_some (h : Spells p n) : scan p = some (n, []) := by
  obtain @⟨sign, mantissa, exponent, n, hsign, hmantissa, hne, hexponent⟩ := h
  rw [Numeral.scan_eq, splitSign_mantissa hsign hmantissa hne, hmantissa.stops hexponent.head,
    hexponent.stops, if_neg fun hnil => hne (List.append_eq_nil_iff.2 hnil)]

end Spells

theorem exists_spells {n : Numeral} {rest : List Char} (h : scan cs = some (n, rest)) :
    ∃ p, Spells p n ∧ cs = p ++ rest := by
  obtain ⟨sign, hsign, hcs⟩ := exists_sign cs
  obtain ⟨mantissa, hmantissa, hds⟩ := exists_mantissa (splitSign cs).2
  obtain ⟨exponent, hexponent, hes⟩ := exists_exponent (splitMantissa (splitSign cs).2).2.2
  rw [scan_eq] at h
  split at h
  · cases h
  · next hne =>
    cases h
    refine ⟨_, .mk hsign hmantissa (fun hnil => hne (List.append_eq_nil_iff.1 hnil)) hexponent, ?_⟩
    rw [List.append_assoc, List.append_assoc, ← hes, ← hds, ← hcs]

theorem not_isBlank_of_isDigit (hds : ∀ d ∈ ds, d.isDigit = true) : ∀ d ∈ ds, Text.isBlank d = false :=
  fun d hd => Address.isBlank_eq_false (.inr (hds d hd))

theorem Sign.not_isBlank {sign : List Char} {negative : Bool} (h : Sign sign negative) :
    ∀ c ∈ sign, Text.isBlank c = false := by
  cases h with
  | none => exact List.forall_mem_nil _
  | plus => exact List.forall_mem_singleton.2 (by decide)
  | minus => exact List.forall_mem_singleton.2 (by decide)

theorem Mantissa.not_isBlank (h : Mantissa mantissa whole fraction) :
    ∀ c ∈ mantissa, Text.isBlank c = false := by
  cases h with
  | whole hds => exact not_isBlank_of_isDigit hds
  | point hds hes =>
    exact List.forall_mem_append.2 ⟨not_isBlank_of_isDigit hds,
      List.forall_mem_cons.2 ⟨by decide, not_isBlank_of_isDigit hes⟩⟩

theorem Exponent.not_isBlank (h : Exponent exponent x) : ∀ c ∈ exponent, Text.isBlank c = false := by
  cases h with
  | none => exact fun c hc => nomatch hc
  | marked hmark hsign _ hds =>
    refine List.forall_mem_cons.2 ⟨?_, List.forall_mem_append.2
      ⟨hsign.not_isBlank, not_isBlank_of_isDigit hds⟩⟩
    rcases hmark with rfl | rfl
    · decide
    · decide

theorem Spells.not_isBlank {p : List Char} {n : Numeral} (h : Spells p n) :
    ∀ c ∈ p, Text.isBlank c = false := by
  obtain ⟨hsign, hmantissa, -, hexponent⟩ := h
  exact List.forall_mem_append.2 ⟨hsign.not_isBlank,
    List.forall_mem_append.2 ⟨hmantissa.not_isBlank, hexponent.not_isBlank⟩⟩

theorem Spells.scan_append_blanks {p gap : List Char} {n : Numeral} (h : Spells p n)
    (hgap : ∀ c ∈ gap, Text.isBlank c = true) : ∃ m, scan (p ++ gap) = some (m, gap) := by
  obtain ⟨m, rest, hscan, u, rfl⟩ := h.scan_append gap
  obtain ⟨q, hq, happend⟩ := exists_spells hscan
  rw [← List.append_assoc] at happend
  obtain rfl := List.append_cancel_right happend
  cases u with
  | nil => exact ⟨m, hscan⟩
  | cons c u =>
    have hblank := hgap c List.mem_cons_self
    rw [hq.not_isBlank c (List.mem_append_right p List.mem_cons_self)] at hblank
    cases hblank

theorem exists_isLongest {n : Numeral} {rest : List Char} (h : scan cs = some (n, rest)) :
    ∃ p, Spells p n ∧ cs = p ++ rest ∧ IsLongest p cs := by
  obtain ⟨p, hp, rfl⟩ := exists_spells h
  refine ⟨p, hp, rfl, List.prefix_append p rest, ⟨n, hp⟩, ?_⟩
  rintro q ⟨t, ht⟩ ⟨m, hq⟩
  obtain ⟨m', rest', hscan, hrest⟩ := hq.scan_append t
  rw [ht, h] at hscan
  cases hscan
  have hlength := congrArg List.length ht
  have hle := hrest.length_le
  rw [List.length_append, List.length_append] at hlength
  omega

theorem scan_eq_none_iff : scan cs = none ↔ ∀ p, p <+: cs → ¬IsNumeral p := by
  constructor
  · rintro h p ⟨t, rfl⟩ ⟨n, hp⟩
    obtain ⟨m, rest, hscan, -⟩ := hp.scan_append t
    rw [h] at hscan
    cases hscan
  · intro h
    cases hscan : scan cs with
    | none => rfl
    | some r =>
      obtain ⟨p, hp, rfl⟩ := exists_spells hscan
      exact absurd ⟨_, hp⟩ (h p (List.prefix_append p r.2))

theorem IsLongest.unique {p q : List Char} (hp : IsLongest p cs) (hq : IsLongest q cs) : p = q := by
  obtain ⟨hp, hpn, hpmax⟩ := hp
  obtain ⟨hq, hqn, hqmax⟩ := hq
  have hle := hqmax p hp hpn
  exact (List.prefix_of_prefix_length_le hp hq hle).eq_of_length
    (Nat.le_antisymm hle (hpmax q hq hqn))

theorem head_of_mem_names {name : List Char} (h : name.map Char.toLower ∈ names) :
    ∀ c ∈ name.head?, c ≠ '+' ∧ c ≠ '-' := by
  intro c hc
  obtain ⟨cs, rfl⟩ := List.head?_eq_some_iff.1 hc
  have hlower : c.toLower ∈ names.flatMap fun name => name.head?.toList :=
    List.mem_flatMap.2 ⟨_, h, by simp⟩
  constructor
  · rintro rfl
    exact absurd hlower (by decide)
  · rintro rfl
    exact absurd hlower (by decide)

end Numeral

namespace Binary64

open Numeral (Spells IsNumeral IsLongest IsName)

variable {cs : List Char} {x : Binary64}

theorem isSome_ofName?_iff {negative : Bool} {name : List Char} :
    (ofName? negative name).isSome = true ↔ name.map Char.toLower ∈ Numeral.names := by
  simp only [ofName?, Numeral.names, List.mem_cons, List.not_mem_nil, or_false, ← String.toList_inj,
    String.toList_ofList]
  split
  · next h => exact iff_of_true rfl (or_assoc.1 (.inl h))
  · next h =>
    rw [not_or] at h
    split
    · next hnan => exact iff_of_true rfl (.inr (.inr hnan))
    · next hnan => exact iff_of_false Bool.false_ne_true fun hname => hname.elim h.1 (Or.rec h.2 hnan)

theorem isFinite_of_ofName? {negative : Bool} {name : List Char} (h : ofName? negative name = some x) :
    x.isFinite = false := by
  rw [ofName?] at h
  split at h
  · cases h
    rfl
  · split at h <;> cases h
    rfl

theorem read?_of_spells {n : Numeral} (h : Spells cs n) : read? cs = some n.value := by
  rw [read?, h.scan_eq_some]

theorem read?_of_scan {p rest : List Char} {n : Numeral} (h : Numeral.scan cs = some (n, rest))
    (hcs : cs = p ++ rest) : read? p = some n.value := by
  obtain ⟨q, hq, happend⟩ := Numeral.exists_spells h
  rw [List.append_cancel_right (hcs.symm.trans happend)]
  exact read?_of_spells hq

theorem read?_eq_some {x : Binary64} (h : read? cs = some x) :
    (∃ n, Spells cs n ∧ n.value = x) ∨ (IsName cs ∧ x.isFinite = false) := by
  rw [read?] at h
  split at h
  · next n hscan =>
    obtain ⟨p, hp, rfl⟩ := Numeral.exists_spells hscan
    rw [List.append_nil]
    exact .inl ⟨n, hp, Option.some.inj h⟩
  · obtain ⟨sign, hsign, hcs⟩ := Numeral.exists_sign cs
    refine .inr ⟨?_, isFinite_of_ofName? h⟩
    rw [hcs]
    exact .mk hsign (isSome_ofName?_iff.1 (Option.isSome_of_eq_some h))

theorem isSome_read?_iff : (read? cs).isSome = true ↔ IsNumeral cs ∨ IsName cs := by
  constructor
  · intro h
    obtain ⟨x, hx⟩ := Option.isSome_iff_exists.1 h
    exact (read?_eq_some hx).imp (fun ⟨n, hn, _⟩ => ⟨n, hn⟩) And.left
  · rintro (⟨n, hn⟩ | @⟨sign, name, negative, hsign, hname⟩)
    · rw [read?_of_spells hn]
      rfl
    · rw [read?, hsign.splitSign_append (Numeral.head_of_mem_names hname)]
      split
      · rfl
      · exact isSome_ofName?_iff.2 hname

theorem leadingOfText?_eq_none_iff {s : String} :
    leadingOfText? s = none ↔ ∀ p, p <+: Text.dropBlanks s.toList → ¬IsNumeral p := by
  rw [leadingOfText?, Option.map_eq_none_iff, Numeral.scan_eq_none_iff]

theorem leadingOfText?_eq_some_iff {s : String} : leadingOfText? s = some x ↔
    ∃ p, IsLongest p (Text.dropBlanks s.toList) ∧ read? p = some x := by
  rw [leadingOfText?]
  constructor
  · intro h
    obtain ⟨⟨n, rest⟩, hscan, rfl⟩ := Option.map_eq_some_iff.1 h
    obtain ⟨p, hp, -, hlongest⟩ := Numeral.exists_isLongest hscan
    exact ⟨p, hlongest, read?_of_spells hp⟩
  · rintro ⟨p, hlongest, hread⟩
    cases hscan : Numeral.scan (Text.dropBlanks s.toList) with
    | none => exact absurd hlongest.2.1 (Numeral.scan_eq_none_iff.1 hscan p hlongest.1)
    | some r =>
      obtain ⟨q, hq, -, hlongest'⟩ := Numeral.exists_isLongest hscan
      obtain rfl := hlongest.unique hlongest'
      exact (read?_of_spells hq).symm.trans hread

end Binary64

end Spreadsheet
