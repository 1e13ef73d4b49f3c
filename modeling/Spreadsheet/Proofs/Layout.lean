import Spreadsheet.Proofs.AddressText
import Spreadsheet.Proofs.Lexeme

namespace Spreadsheet

structure Lexeme where
  chars : List Char
  token : Token
  spells : Token.Spells chars token

/-- Two lexemes that have to be kept apart: two words, a word and a number that begins with a digit, two
numbers, or two quoted texts. -/
def Lexeme.Merges (l m : Lexeme) : Prop :=
  ∃ c ∈ m.chars.head?, l.token.kind.Merges m.token.kind c

inductive Layout : List Char → List Lexeme → Prop
  | blanks {gap : List Char} : (∀ c ∈ gap, Text.isBlank c = true) → Layout gap []
  | cons {gap rest : List Char} {l : Lexeme} {ls : List Lexeme} :
      (∀ c ∈ gap, Text.isBlank c = true) → Layout rest ls →
      (∀ m ∈ ls.head?, l.Merges m → ∃ c ∈ rest.head?, Text.isBlank c = true) →
      Layout (gap ++ l.chars ++ rest) (l :: ls)

namespace Lexeme

theorem exists_cons (l : Lexeme) : ∃ c cs, l.chars = c :: cs ∧ l.token.kind.Begins c :=
  l.spells.exists_cons

theorem merges_iff {l m : Lexeme} :
    l.Merges m ↔ ∃ c ∈ m.chars.head?, l.token.kind.goesOn c = true := by
  obtain ⟨c, cs, hm, hc⟩ := m.exists_cons
  simp only [Merges, hm, List.head?_cons, Option.mem_some_iff, exists_eq_left',
    Token.Kind.goesOn_iff_merges hc]

end Lexeme

namespace Layout

open Token (Kind)

variable {rest : List Char} {l m : Lexeme} {ls : List Lexeme}

theorem head_eq (h : Layout rest ls) {c : Char} (hc : c ∈ rest.head?) :
    Text.isBlank c = true ∨ ∃ m ∈ ls.head?, c ∈ m.chars.head? := by
  cases h with
  | blanks hgap => exact .inl (hgap c (List.mem_of_mem_head? hc))
  | @cons gap rest m ls hgap _ _ =>
    cases gap with
    | nil =>
      obtain ⟨d, ds, hm, -⟩ := m.exists_cons
      rw [List.nil_append, hm, List.cons_append, List.head?_cons] at hc
      exact .inr ⟨m, rfl, by rwa [hm, List.head?_cons]⟩
    | cons d gap =>
      rw [List.cons_append, List.cons_append, List.head?_cons, Option.mem_some_iff] at hc
      exact .inl (hc ▸ hgap d List.mem_cons_self)

theorem exists_head (h : Layout rest (m :: ls)) : ∃ c, c ∈ rest.head? := by
  cases h with
  | @cons gap rest _ _ _ _ _ =>
    obtain ⟨d, ds, hm, -⟩ := m.exists_cons
    cases gap with
    | nil => exact ⟨d, by rw [List.nil_append, hm]; rfl⟩
    | cons c gap => exact ⟨c, rfl⟩

theorem apart_iff (h : Layout rest ls) :
    (∀ m ∈ ls.head?, l.Merges m → ∃ c ∈ rest.head?, Text.isBlank c = true) ↔
      ∀ d ∈ rest.head?, l.token.kind.goesOn d = false := by
  constructor
  · intro hapart d hd
    rcases h.head_eq hd with hblank | ⟨m, hm, hdm⟩
    · exact Kind.goesOn_eq_false_of_isBlank hblank
    · by_contra hgoes
      rw [Bool.not_eq_false] at hgoes
      obtain ⟨c, hc, hblank⟩ := hapart m hm (Lexeme.merges_iff.2 ⟨d, hdm, hgoes⟩)
      rw [Option.mem_unique hc hd] at hblank
      rw [Kind.goesOn_eq_false_of_isBlank hblank] at hgoes
      cases hgoes
  · intro hstop m hm hmerges
    cases ls with
    | nil => cases hm
    | cons m' ls =>
      cases hm
      obtain ⟨d, hd⟩ := h.exists_head
      refine ⟨d, hd, (h.head_eq hd).resolve_right ?_⟩
      rintro ⟨_, ⟨⟩, hdm⟩
      obtain ⟨c, hc, hgoes⟩ := Lexeme.merges_iff.1 hmerges
      rw [Option.mem_unique hc hdm, hstop d hd] at hgoes
      cases hgoes

theorem blank (h : Layout rest ls) {c : Char} (hc : Text.isBlank c = true) :
    Layout (c :: rest) ls := by
  have hgap {gap : List Char} (hgap : ∀ d ∈ gap, Text.isBlank d = true) :
      ∀ d ∈ c :: gap, Text.isBlank d = true := by
    intro d hd
    rcases List.mem_cons.1 hd with rfl | hd
    · exact hc
    · exact hgap d hd
  cases h with
  | blanks h => exact .blanks (hgap h)
  | cons h hrest hapart => exact .cons (hgap h) hrest hapart

end Layout

namespace Token

theorem tokens_blanks {gap : List Char} (hgap : ∀ c ∈ gap, Text.isBlank c = true) (cs : List Char) :
    tokens (gap ++ cs) = tokens cs := by
  induction gap with
  | nil => rfl
  | cons c gap ih =>
    rw [List.cons_append, tokens, if_pos (hgap c List.mem_cons_self)]
    exact ih fun d hd => hgap d (List.mem_cons_of_mem c hd)

theorem tokens_of_next {c : Char} {cs rest : List Char} {t : Token} (hc : Text.isBlank c = false)
    (h : next c cs = .ok (t, rest)) : tokens (c :: cs) = (tokens rest).map (t :: ·) := by
  rw [tokens, if_neg (by rw [hc]; exact Bool.false_ne_true)]
  split
  · next e he => rw [h] at he; cases he
  · next u us hu => rw [h] at hu; cases hu; rfl

theorem tokens_append {l : Lexeme} {rest : List Char}
    (hrest : ∀ d ∈ rest.head?, l.token.kind.goesOn d = false) :
    tokens (l.chars ++ rest) = (tokens rest).map (l.token :: ·) := by
  obtain ⟨c, cs, hl, hnext⟩ := next_of_spells l.spells hrest
  obtain ⟨_, _, hl', hc⟩ := l.exists_cons
  cases hl.symm.trans hl'
  rw [hl, List.cons_append, tokens_of_next hc.not_isBlank hnext]

theorem tokens_of_layout {cs : List Char} {ls : List Lexeme} (h : Layout cs ls) :
    tokens cs = .ok (ls.map Lexeme.token) := by
  induction h with
  | @blanks gap hgap =>
    have hnil := tokens_blanks hgap []
    rwa [List.append_nil, tokens] at hnil
  | @cons gap rest l ls hgap hrest hapart ih =>
    rw [List.append_assoc, tokens_blanks hgap, tokens_append (hrest.apart_iff.1 hapart), ih]
    rfl

theorem exists_layout {cs : List Char} {ts : List Token} (h : tokens cs = .ok ts) :
    ∃ ls, Layout cs ls ∧ ls.map Lexeme.token = ts := by
  fun_induction tokens cs generalizing ts with
  | case1 =>
    cases h
    exact ⟨[], .blanks (by simp), rfl⟩
  | case2 c cs hc ih =>
    obtain ⟨ls, hls, hts⟩ := ih h
    exact ⟨ls, hls.blank hc, hts⟩
  | case3 c cs _ e he => cases h
  | case4 c cs _ t rest hnext _ ih =>
    obtain ⟨us, hus, rfl⟩ := exists_of_map_eq_ok h
    obtain ⟨ls, hls, hts⟩ := ih hus
    obtain ⟨w, hw, hcs, hstop⟩ := exists_of_next hnext
    have hapart := (hls.apart_iff (l := ⟨w, t, hw⟩)).2 hstop
    refine ⟨⟨w, t, hw⟩ :: ls, ?_, congrArg (t :: ·) hts⟩
    rw [hcs]
    exact .cons (List.forall_mem_nil _) hls hapart

theorem tokens_eq_ok_iff {cs : List Char} {ts : List Token} :
    tokens cs = .ok ts ↔ ∃ ls, Layout cs ls ∧ ls.map Lexeme.token = ts := by
  constructor
  · exact exists_layout
  · rintro ⟨ls, hls, rfl⟩
    exact tokens_of_layout hls

end Token

namespace Address

theorem le_ofDigitChars (n : Nat) (ds : List Char) : n ≤ Nat.ofDigitChars 10 ds n := by
  induction ds generalizing n with
  | nil => exact Nat.le_refl n
  | cons d ds ih =>
    rw [Nat.ofDigitChars_cons]
    exact Nat.le_trans (by omega) (ih _)

theorem eq_nil_of_parseList?_append {w v : List Char} {a : Address} (h : parseList? w = some a)
    (h' : parseList? (w ++ v) = some a) : v = [] := by
  obtain ⟨ls, ds, rfl, hls, hds, -, hrow⟩ := parseList?_eq_some_iff.1 h
  obtain ⟨hne, -, hvalue, -⟩ := rowOfDigits?_eq_some_iff.1 hrow
  obtain ⟨-, hrow'⟩ := of_parseList?_eq_some h'
  have hcapital : ∀ c ∈ ls.map Char.toUpper, isCapital c = true := by
    intro c hc
    obtain ⟨l, hl, rfl⟩ := List.mem_map.1 hc
    exact isCapital_toUpper_iff.2 (hls l hl)
  have hdrop : ((ls ++ ds ++ v).map Char.toUpper).dropWhile isCapital =
      ds ++ v.map Char.toUpper := by
    cases ds with
    | nil => exact absurd rfl hne
    | cons d ds =>
      have hd := isDigit_iff.1 (hds d List.mem_cons_self)
      have hd' : ¬isCapital d = true := by
        rw [isCapital_iff]
        omega
      rw [List.append_assoc, List.map_append, List.dropWhile_append_of_pos hcapital, List.map_append,
        map_toUpper_of_isDigit hds, List.cons_append, List.dropWhile_cons_of_neg hd']
  rw [hdrop] at hrow'
  obtain ⟨-, -, hvalue', -⟩ := rowOfDigits?_eq_some_iff.1 hrow'
  rw [← ofDigitChars_eq_positional] at hvalue hvalue'
  rw [Nat.ofDigitChars_append, hvalue] at hvalue'
  cases v with
  | nil => rfl
  | cons c v =>
    have hle := le_ofDigitChars (10 * (a.row + 1) + (c.toUpper.toNat - '0'.toNat)) (v.map Char.toUpper)
    rw [List.map_cons, Nat.ofDigitChars_cons] at hvalue'
    omega

end Address

namespace Token

theorem Spells.eq_nil_of_append {w v : List Char} {t : Token} (h : Spells w t)
    (h' : Spells (w ++ v) t) (hkind : t.kind ≠ .numeral) : v = [] := by
  generalize hu : w ++ v = u at h'
  have hlength := congrArg List.length hu
  rw [List.length_append] at hlength
  cases h with
  | mark hm =>
    cases h' with
    | mark => exact List.length_eq_zero_iff.1 (Nat.add_left_cancel hlength)
    | _ => cases hm
  | quoted s =>
    generalize ht : Token.text (String.ofList s) = t at h'
    cases h' with
    | quoted s' =>
      cases String.ofList_injective (Token.text.inj ht)
      exact List.length_eq_zero_iff.1 (Nat.add_eq_left.1 hlength)
    | mark hm => cases hm <;> cases ht
    | _ => cases ht
  | numeral hn => exact absurd rfl hkind
  | address hw ha =>
    cases h' with
    | address _ ha' =>
      subst hu
      exact Address.eq_nil_of_parseList?_append ha ha'
    | mark hm => cases hm
  | name hw hdigit =>
    generalize ht : Token.name (String.ofList (w.map Char.toUpper)) = t at h'
    cases h' with
    | name =>
      have hsame := congrArg List.length (String.ofList_injective (Token.name.inj ht))
      rw [List.length_map, List.length_map, ← hlength] at hsame
      exact List.length_eq_zero_iff.1 (Nat.add_eq_left.1 hsame.symm)
    | mark hm => cases hm <;> cases ht
    | _ => cases ht

theorem exists_of_tokens_eq_ok_cons {c : Char} {cs : List Char} {t : Token} {ts : List Token}
    (hc : Text.isBlank c = false) (h : tokens (c :: cs) = .ok (t :: ts)) :
    ∃ rest, next c cs = .ok (t, rest) ∧ tokens rest = .ok ts := by
  rw [tokens, if_neg (by rw [hc]; exact Bool.false_ne_true)] at h
  split at h
  · cases h
  · next u rest hnext =>
    obtain ⟨us, hus, he⟩ := exists_of_map_eq_ok h
    cases he
    exact ⟨rest, hnext, hus⟩

end Token

namespace Lexeme

variable {l m : Lexeme}

theorem eq_chars_of_read {w rest : List Char} (hw : Token.Spells w l.token)
    (htext : l.chars ++ m.chars = w ++ rest) (hkind : l.token.kind ≠ .numeral) : rest = m.chars := by
-- The lexeme that is read ends before the first one does, or after it.
  rcases List.append_eq_append_iff.1 htext with ⟨v, rfl, hv⟩ | ⟨v, hv, rfl⟩
  · rw [hv, l.spells.eq_nil_of_append hw hkind, List.nil_append]
  · have hl := l.spells
    rw [hv] at hl
    rw [hw.eq_nil_of_append hl hkind, List.nil_append]

theorem Merges.tokens_ne (h : l.Merges m) :
    Token.tokens (l.chars ++ m.chars) ≠ .ok [l.token, m.token] := by
  intro htokens
  obtain ⟨c, cs, hl, hc⟩ := l.exists_cons
  rw [hl, List.cons_append] at htokens
  obtain ⟨rest, hnext, hrest⟩ := Token.exists_of_tokens_eq_ok_cons hc.not_isBlank htokens
  obtain ⟨w, hw, htext, hstop⟩ := Token.exists_of_next hnext
  rw [← List.cons_append, ← hl] at htext
  by_cases hkind : l.token.kind = .numeral
  · -- The run of both numerals is taken whole, so that no second token is left.
    have hkind' : m.token.kind = .numeral := by
      obtain ⟨d, -, hmerges⟩ := h
      rw [hkind] at hmerges
      cases hm : m.token.kind <;> rw [hm] at hmerges <;> first | rfl | cases hmerges
    cases rest with
    | nil => rw [Token.tokens] at hrest; cases hrest
    | cons d rest =>
      have hd : Token.isNumeralPart d = true := by
        rcases List.mem_append.1 (htext ▸ List.mem_append_right w List.mem_cons_self) with hd | hd
        · exact l.spells.isNumeralPart_of_mem hkind d hd
        · exact m.spells.isNumeralPart_of_mem hkind' d hd
      have hstop' := hstop d rfl
      rw [hkind] at hstop'
      exact absurd hd (Bool.eq_false_iff.1 hstop')
  · obtain ⟨d, hd, hgoes⟩ := merges_iff.1 h
    rw [eq_chars_of_read hw htext hkind] at hstop
    rw [hstop d hd] at hgoes
    cases hgoes

end Lexeme

namespace Token

/-- A text has tokens just if it is a sequence of lexemes with blanks around them, and it has those of the
lexemes. Where a blank has to stand between two of them, the two are not read without it. -/
theorem tokens_exact :
    (∀ cs ts, tokens cs = .ok ts ↔ ∃ ls, Layout cs ls ∧ ls.map Lexeme.token = ts) ∧
    ∀ l m : Lexeme, l.Merges m → tokens (l.chars ++ m.chars) ≠ .ok [l.token, m.token] :=
  ⟨fun _ _ => tokens_eq_ok_iff, fun _ _ => Lexeme.Merges.tokens_ne⟩

end Token

namespace Lexeme

def columnA : Lexeme where
  chars := ['A']
  token := .name "A"
  spells := .name ⟨'A', [], rfl, rfl, List.forall_mem_nil _⟩ (List.forall_mem_singleton.2 rfl)

def oneAndAHalf : Lexeme where
  chars := ['1', '.', '5']
  token := .number (.ofDigits ['1'] ['5'])
  spells := .numeral <| @Numeral.Plain.point ['1'] ['5'] (by decide)
    (List.forall_mem_cons.2 ⟨rfl, List.forall_mem_singleton.2 rfl⟩)

end Lexeme

namespace Token

open Lexeme (columnA oneAndAHalf)

theorem tokens_exact_column_number :
    columnA.Merges oneAndAHalf ∧
    tokens ['A', '1', '.', '5'] ≠ .ok [columnA.token, oneAndAHalf.token] ∧
    tokens ['A', ' ', '1', '.', '5'] = .ok [columnA.token, oneAndAHalf.token] := by
  have hmerges : columnA.Merges oneAndAHalf := ⟨'1', rfl, rfl⟩
  have hblank : ∀ c ∈ [' '], Text.isBlank c = true := List.forall_mem_singleton.2 rfl
  have hlast : Layout ([' '] ++ oneAndAHalf.chars ++ []) [oneAndAHalf] :=
    .cons hblank (.blanks (List.forall_mem_nil _)) fun m hm => nomatch hm
  have hboth : Layout ([] ++ columnA.chars ++ ([' '] ++ oneAndAHalf.chars ++ []))
      [columnA, oneAndAHalf] :=
    .cons (List.forall_mem_nil _) hlast fun _ _ _ => ⟨' ', rfl, by decide⟩
  exact ⟨hmerges, tokens_exact.2 _ _ hmerges, (tokens_exact.1 _ _).2 ⟨_, hboth, rfl⟩⟩

end Token

end Spreadsheet
