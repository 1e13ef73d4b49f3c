import Spreadsheet.Proofs.PlainNumeral
import Spreadsheet.Proofs.Success

namespace Spreadsheet

namespace Token

inductive Mark : Char → Token → Prop
  | plus : Mark '+' .plus
  | minus : Mark '-' .minus
  | star : Mark '*' .star
  | slash : Mark '/' .slash
  | opening : Mark '(' .opening
  | closing : Mark ')' .closing
  | colon : Mark ':' .colon
  | comma : Mark ',' .comma

def doubleQuotes (s : List Char) : List Char :=
  s.flatMap fun c => if c = '"' then ['"', '"'] else [c]

def IsWord (w : List Char) : Prop :=
  ∃ c cs, w = c :: cs ∧ isWordStart c = true ∧ ∀ d ∈ cs, isWordPart d = true

inductive Spells : List Char → Token → Prop
  | mark {c : Char} {t : Token} : Mark c t → Spells [c] t
  | quoted (s : List Char) : Spells ('"' :: doubleQuotes s ++ ['"']) (.text (String.ofList s))
  | numeral {w : List Char} {n : Binary64} : Numeral.Plain w n → Spells w (.number n)
  | address {w : List Char} {a : Address} :
      IsWord w → Address.parseList? w = some a → Spells w (.address a)
  | name {w : List Char} : IsWord w → (∀ c ∈ w, c.isDigit = false) →
      Spells w (.name (String.ofList (w.map Char.toUpper)))

inductive Kind
  | mark
  | quoted
  | numeral
  | word

def kind : Token → Kind
  | .number _ => .numeral
  | .text _ => .quoted
  | .address _ | .name _ => .word
  | .plus | .minus | .star | .slash | .opening | .closing | .colon | .comma => .mark

/-- A lexeme of the first kind has to be kept apart from one of the second that begins with `c`. -/
def Kind.Merges : Kind → Kind → Char → Prop
  | .word, .word, _ | .numeral, .numeral, _ | .quoted, .quoted, _ => True
  | .word, .numeral, c => c.isDigit = true
  | _, _, _ => False

def Kind.goesOn : Kind → Char → Bool
  | .mark, _ => false
  | .quoted, c => c == '"'
  | .numeral, c => isNumeralPart c
  | .word, c => isWordPart c

theorem isWordStart_iff {c : Char} : isWordStart c = true ↔
    (65 ≤ c.toNat ∧ c.toNat ≤ 90) ∨ (97 ≤ c.toNat ∧ c.toNat ≤ 122) ∨ c.toNat = 95 := by
  rw [isWordStart, Bool.or_eq_true, beq_iff_eq, Address.isAlpha_iff, ← Char.toNat_inj, or_assoc]
  rfl

theorem isWordPart_iff {c : Char} :
    isWordPart c = true ↔ isWordStart c = true ∨ c.isDigit = true := by
  rw [isWordPart, isWordStart, Char.isAlphanum, Bool.or_eq_true, Bool.or_eq_true, Bool.or_eq_true,
    or_right_comm]

theorem ofSymbol?_eq_some_iff {c : Char} {t : Token} : ofSymbol? c = some t ↔ Mark c t := by
  constructor
  · intro h
    rw [ofSymbol?.eq_def] at h
    split at h <;> cases h <;> constructor
  · intro h
    cases h <;> rfl

theorem doubleQuotes_cons_quote (s : List Char) :
    doubleQuotes ('"' :: s) = '"' :: '"' :: doubleQuotes s := rfl

theorem doubleQuotes_cons {c : Char} (hc : c ≠ '"') (s : List Char) :
    doubleQuotes (c :: s) = c :: doubleQuotes s := by
  rw [doubleQuotes, List.flatMap_cons, if_neg hc]
  rfl

theorem splitQuoted_quote {rest : List Char} (h : rest.head? ≠ some '"') :
    splitQuoted ('"' :: rest) = some ([], rest) := by
  rw [splitQuoted]
  rintro cs rfl
  exact h rfl

theorem splitQuoted_of_ne {c : Char} (hc : c ≠ '"') (cs : List Char) :
    splitQuoted (c :: cs) = (splitQuoted cs).map fun (s, rest) => (c :: s, rest) := by
  rw [splitQuoted]
  · rintro - rfl
    exact absurd rfl hc
  · exact hc

theorem splitQuoted_doubleQuotes (s : List Char) {rest : List Char} (h : rest.head? ≠ some '"') :
    splitQuoted (doubleQuotes s ++ '"' :: rest) = some (s, rest) := by
  induction s with
  | nil => exact splitQuoted_quote h
  | cons c s ih =>
    by_cases hc : c = '"'
    · subst hc
      rw [doubleQuotes_cons_quote, List.cons_append, List.cons_append, splitQuoted, ih]
      rfl
    · rw [doubleQuotes_cons hc, List.cons_append, splitQuoted_of_ne hc, ih]
      rfl

theorem splitQuoted_eq_some_iff {cs s rest : List Char} : splitQuoted cs = some (s, rest) ↔
    cs = doubleQuotes s ++ '"' :: rest ∧ rest.head? ≠ some '"' := by
  constructor
  · intro h
    fun_induction splitQuoted cs generalizing s with
    | case1 => cases h
    | case2 cs ih =>
      obtain ⟨⟨t, u⟩, ht, he⟩ := Option.map_eq_some_iff.1 h
      cases he
      obtain ⟨rfl, hrest⟩ := ih ht
      exact ⟨rfl, hrest⟩
    | case3 cs hcs =>
      cases h
      refine ⟨rfl, fun hhead => ?_⟩
      obtain ⟨us, rfl⟩ := List.head?_eq_some_iff.1 hhead
      exact hcs us rfl
    | case4 c cs _ hc ih =>
      obtain ⟨⟨t, u⟩, ht, he⟩ := Option.map_eq_some_iff.1 h
      cases he
      obtain ⟨rfl, hrest⟩ := ih ht
      rw [doubleQuotes_cons hc]
      exact ⟨rfl, hrest⟩
  · rintro ⟨rfl, hrest⟩
    exact splitQuoted_doubleQuotes s hrest

theorem exists_isDigit_of_parseList? {w : List Char} {a : Address}
    (h : Address.parseList? w = some a) : ∃ c ∈ w, c.isDigit = true := by
  obtain ⟨ls, ds, rfl, -, hds, -, hrow⟩ := Address.parseList?_eq_some_iff.1 h
  cases ds with
  | nil => cases hrow
  | cons d ds => exact ⟨d, by simp, hds d List.mem_cons_self⟩

theorem ofWord_eq_ok_iff {w : List Char} {t : Token} (hw : IsWord w) :
    ofWord w = .ok t ↔ Spells w t ∧ t.kind = .word := by
  constructor
  · intro h
    rw [ofWord] at h
    split at h
    · next a ha =>
      cases h
      exact ⟨.address hw ha, rfl⟩
    · split at h
      · cases h
      · next hdigit =>
        cases h
        exact ⟨.name hw (by simpa using hdigit), rfl⟩
  · rintro ⟨h, hkind⟩
    cases h with
    | mark hm => cases hm <;> cases hkind
    | quoted s => cases hkind
    | numeral hn => cases hkind
    | address _ ha => rw [ofWord, ha]
    | name _ hdigit =>
      have hnone : Address.parseList? w = none := by
        by_contra hsome
        obtain ⟨a, ha⟩ := Option.ne_none_iff_exists'.1 hsome
        obtain ⟨c, hc, hd⟩ := exists_isDigit_of_parseList? ha
        rw [hdigit c hc] at hd
        cases hd
      have hany : ¬w.any Char.isDigit = true := by simpa using hdigit
      simp only [ofWord, hnone, if_neg hany]

theorem ofNumeral_eq_ok_iff {w : List Char} {t : Token} (hne : w ≠ [])
    (hw : ∀ c ∈ w, isNumeralPart c = true) :
    ofNumeral w = .ok t ↔ Spells w t ∧ t.kind = .numeral := by
  constructor
  · intro h
    rw [ofNumeral] at h
    split at h
    · next n hn =>
      cases h
      exact ⟨.numeral ((Binary64.read?_eq_some_iff hne hw).1 hn), rfl⟩
    · cases h
  · rintro ⟨h, hkind⟩
    cases h with
    | mark hm => cases hm <;> cases hkind
    | quoted s => cases hkind
    | numeral hn => rw [ofNumeral, (Binary64.read?_eq_some_iff hne hw).2 hn]
    | address => cases hkind
    | name => cases hkind

theorem Mark.kind {c : Char} {t : Token} (h : Mark c t) : t.kind = .mark := by
  cases h <;> rfl

theorem Mark.not_isBlank {c : Char} {t : Token} (h : Mark c t) : Text.isBlank c = false := by
  cases h <;> decide

theorem ofSymbol?_eq_none {c : Char} (h : isWordPart c = true ∨ isNumeralPart c = true ∨ c = '"') :
    ofSymbol? c = none := by
  by_contra hsome
  obtain ⟨t, ht⟩ := Option.ne_none_iff_exists'.1 hsome
  cases ofSymbol?_eq_some_iff.1 ht <;> simp +decide at h

theorem ne_quote {c : Char} (h : isWordPart c = true ∨ isNumeralPart c = true) : c ≠ '"' := by
  rintro rfl
  simp +decide at h

theorem not_isWordStart {c : Char} (h : isNumeralPart c = true) : ¬isWordStart c = true := by
  rw [isNumeralPart_iff, Address.isDigit_iff, ← Char.toNat_inj] at h
  have hpoint : '.'.toNat = 46 := rfl
  rw [isWordStart_iff]
  omega

theorem exists_of_next {c : Char} {cs rest : List Char} {t : Token} (h : next c cs = .ok (t, rest)) :
    ∃ w, Spells w t ∧ c :: cs = w ++ rest ∧ ∀ d ∈ rest.head?, t.kind.goesOn d = false := by
  rw [next] at h
  split at h
  next u hu =>
    cases h
    have hmark := ofSymbol?_eq_some_iff.1 hu
    rw [hmark.kind]
    exact ⟨[c], .mark hmark, rfl, fun _ _ => rfl⟩
  split at h
  next hc =>
    split at h
    · next s us hs =>
      cases h
      obtain ⟨rfl, hrest⟩ := splitQuoted_eq_some_iff.1 hs
      refine ⟨_, .quoted s, by simp [hc], fun d hd => ?_⟩
      change (d == '"') = false
      rw [beq_eq_false_iff_ne]
      rintro rfl
      exact hrest hd
    · cases h
  split at h
  next hc =>
    obtain ⟨u, hu, he⟩ := exists_of_map_eq_ok h
    cases he
    have hword : IsWord (c :: cs.takeWhile isWordPart) :=
      ⟨c, _, rfl, hc, fun d hd => List.mem_takeWhile_imp hd⟩
    obtain ⟨hspells, hkind⟩ := (ofWord_eq_ok_iff hword).1 hu
    rw [hkind]
    exact ⟨_, hspells, by simp, not_of_mem_head?_dropWhile⟩
  split at h
  next hc =>
    obtain ⟨u, hu, he⟩ := exists_of_map_eq_ok h
    cases he
    have hrun : ∀ d ∈ c :: cs.takeWhile isNumeralPart, isNumeralPart d = true := by
      intro d hd
      rcases List.mem_cons.1 hd with rfl | hd
      · exact hc
      · exact List.mem_takeWhile_imp hd
    obtain ⟨hspells, hkind⟩ := (ofNumeral_eq_ok_iff (List.cons_ne_nil _ _) hrun).1 hu
    rw [hkind]
    exact ⟨_, hspells, by simp, not_of_mem_head?_dropWhile⟩
  · cases h

theorem next_of_isWord {w rest : List Char} {t : Token} (hw : IsWord w) (h : ofWord w = .ok t)
    (hrest : ∀ d ∈ rest.head?, isWordPart d = false) :
    ∃ c cs, w = c :: cs ∧ next c (cs ++ rest) = .ok (t, rest) := by
  obtain ⟨c, cs, rfl, hc, hcs⟩ := hw
  obtain ⟨htake, hdrop⟩ := span_append hcs hrest
  have hpart := isWordPart_iff.2 (.inl hc)
  refine ⟨c, cs, rfl, ?_⟩
  simp only [next, ofSymbol?_eq_none (.inl hpart), if_neg (ne_quote (.inl hpart)), if_pos hc, htake,
    hdrop, h]
  rfl

theorem next_of_plain {w rest : List Char} {n : Binary64} (h : Numeral.Plain w n)
    (hrest : ∀ d ∈ rest.head?, isNumeralPart d = false) :
    ∃ c cs, w = c :: cs ∧ next c (cs ++ rest) = .ok (.number n, rest) := by
  have hrun := h.isNumeralPart_of_mem
  have hread := (ofNumeral_eq_ok_iff h.ne_nil hrun).2 ⟨.numeral h, rfl⟩
  cases w with
  | nil => exact absurd rfl h.ne_nil
  | cons c cs =>
    have hc := hrun c List.mem_cons_self
    obtain ⟨htake, hdrop⟩ := span_append (fun d hd => hrun d (List.mem_cons_of_mem c hd)) hrest
    refine ⟨c, cs, rfl, ?_⟩
    simp only [next, ofSymbol?_eq_none (.inr (.inl hc)), if_neg (ne_quote (.inr hc)),
      if_neg (not_isWordStart hc), if_pos hc, htake, hdrop, hread]
    rfl

theorem next_of_spells {w rest : List Char} {t : Token} (h : Spells w t)
    (hrest : ∀ d ∈ rest.head?, t.kind.goesOn d = false) :
    ∃ c cs, w = c :: cs ∧ next c (cs ++ rest) = .ok (t, rest) := by
  cases h with
  | mark hm =>
    refine ⟨_, [], rfl, ?_⟩
    simp only [next, ofSymbol?_eq_some_iff.2 hm, List.nil_append]
  | quoted s =>
    have hhead : rest.head? ≠ some '"' := fun hhead => nomatch hrest _ hhead
    refine ⟨'"', doubleQuotes s ++ ['"'], rfl, ?_⟩
    simp only [next, ofSymbol?_eq_none (.inr (.inr rfl)), if_true, List.append_assoc,
      List.singleton_append, splitQuoted_doubleQuotes s hhead]
  | numeral hn => exact next_of_plain hn hrest
  | address hw ha => exact next_of_isWord hw ((ofWord_eq_ok_iff hw).2 ⟨.address hw ha, rfl⟩) hrest
  | name hw hdigit => exact next_of_isWord hw ((ofWord_eq_ok_iff hw).2 ⟨.name hw hdigit, rfl⟩) hrest

def Kind.Begins : Kind → Char → Prop
  | .mark, c => ∃ t, Mark c t
  | .quoted, c => c = '"'
  | .numeral, c => isNumeralPart c = true
  | .word, c => isWordStart c = true

theorem Spells.exists_cons {w : List Char} {t : Token} (h : Spells w t) :
    ∃ c cs, w = c :: cs ∧ t.kind.Begins c := by
  cases h with
  | @mark c _ hm => exact ⟨c, [], rfl, hm.kind ▸ ⟨_, hm⟩⟩
  | quoted s => exact ⟨'"', _, rfl, rfl⟩
  | numeral hn =>
    cases w with
    | nil => exact absurd rfl hn.ne_nil
    | cons c cs => exact ⟨c, cs, rfl, hn.isNumeralPart_of_mem c List.mem_cons_self⟩
  | address hw _ | name hw _ =>
    obtain ⟨c, cs, rfl, hc, -⟩ := hw
    exact ⟨c, cs, rfl, hc⟩

theorem Spells.isNumeralPart_of_mem {w : List Char} {t : Token} (h : Spells w t)
    (hkind : t.kind = .numeral) : ∀ c ∈ w, isNumeralPart c = true := by
  cases h with
  | mark hm => cases hm <;> cases hkind
  | numeral hn => exact hn.isNumeralPart_of_mem
  | quoted | address | name => cases hkind

theorem Kind.Begins.not_isBlank {k : Kind} {c : Char} (h : k.Begins c) : Text.isBlank c = false := by
  by_contra hblank
  have hc := Text.toNat_of_isBlank (Bool.not_eq_false _ ▸ hblank)
  cases k with
  | mark =>
    obtain ⟨t, hm⟩ := h
    exact hblank hm.not_isBlank
  | quoted =>
    cases h
    exact absurd hc (by decide)
  | numeral =>
    have hpart := isNumeralPart_iff.1 h
    rw [Address.isDigit_iff, ← Char.toNat_inj] at hpart
    have hpoint : '.'.toNat = 46 := rfl
    omega
  | word =>
    have hstart := isWordStart_iff.1 h
    omega

theorem Kind.goesOn_eq_false_of_isBlank {k : Kind} {c : Char} (h : Text.isBlank c = true) :
    k.goesOn c = false := by
  by_contra hgoes
  rw [Bool.not_eq_false] at hgoes
  have hword : ¬isWordStart c = true := fun hc => by
    rw [Kind.Begins.not_isBlank (k := .word) hc] at h
    cases h
  have hnumeral : ¬isNumeralPart c = true := fun hc => by
    rw [Kind.Begins.not_isBlank (k := .numeral) hc] at h
    cases h
  cases k with
  | mark => cases hgoes
  | quoted =>
    rw [beq_iff_eq.1 hgoes] at h
    cases h
  | numeral => exact hnumeral hgoes
  | word =>
    rcases isWordPart_iff.1 hgoes with hc | hc
    · exact hword hc
    · exact hnumeral (isNumeralPart_iff.2 (.inl hc))

theorem Kind.goesOn_iff_merges {k k' : Kind} {c : Char} (h : k'.Begins c) :
    k.goesOn c = true ↔ k.Merges k' c := by
  cases k' with
  | mark =>
    obtain ⟨t, hm⟩ := h
    refine iff_of_false (fun hgoes => ?_) (by cases k <;> exact id)
    cases k <;> cases hm <;> cases hgoes
  | quoted =>
    cases h
    cases k with
    | quoted => exact iff_of_true rfl trivial
    | mark | numeral | word => exact iff_of_false Bool.false_ne_true id
  | numeral =>
    have hquote := ne_quote (.inr h)
    cases k with
    | mark => exact iff_of_false Bool.false_ne_true id
    | quoted => exact iff_of_false (fun hc => hquote (beq_iff_eq.1 hc)) id
    | numeral => exact iff_of_true h trivial
    | word => exact isWordPart_iff.trans (or_iff_right (not_isWordStart h))
  | word =>
    have hpart := isWordPart_iff.2 (.inl h)
    cases k with
    | mark => exact iff_of_false Bool.false_ne_true id
    | quoted => exact iff_of_false (fun hc => ne_quote (.inl hpart) (beq_iff_eq.1 hc)) id
    | numeral => exact iff_of_false (fun hc => not_isWordStart hc h) id
    | word => exact iff_of_true hpart trivial

end Token

end Spreadsheet
