import Spreadsheet.Proofs.Layout
import Spreadsheet.Proofs.Parser.Sound
import Spreadsheet.Proofs.Reference

namespace Spreadsheet

namespace Text

theorem exists_trimList (cs : List Char) : ∃ gap gap', cs = gap ++ trimList cs ++ gap' ∧
    (∀ c ∈ gap, isBlank c = true) ∧ ∀ c ∈ gap', isBlank c = true := by
  have hfront : cs.takeWhile isBlank ++ dropBlanks cs = cs := List.takeWhile_append_dropWhile
  obtain ⟨gap', hend, hgap'⟩ := exists_dropBlanksEnd (dropBlanks cs)
  refine ⟨cs.takeWhile isBlank, gap', ?_, fun c hc => List.mem_takeWhile_imp hc, hgap'⟩
  rw [List.append_assoc, trimList, ← hend, hfront]

theorem trimList_append {gap w gap' : List Char} (hgap : ∀ c ∈ gap, isBlank c = true)
    (hgap' : ∀ c ∈ gap', isBlank c = true) (hne : w ≠ []) (hw : ∀ c ∈ w, isBlank c = false) :
    trimList (gap ++ w ++ gap') = w := by
  have hhead : ∀ c ∈ (w ++ gap').head?, isBlank c = false := by
    intro c hc
    rw [List.head?_append_of_ne_nil w hne] at hc
    exact hw c (List.mem_of_mem_head? hc)
  have hlast : ∀ c ∈ w.reverse.head?, isBlank c = false := by
    intro c hc
    exact hw c (List.mem_reverse.1 (List.mem_of_mem_head? hc))
  have hgap'' : ∀ c ∈ gap'.reverse, isBlank c = true :=
    fun c hc => hgap' c (List.mem_reverse.1 hc)
  rw [trimList, dropBlanks, List.append_assoc, (span_append hgap hhead).2, dropBlanksEnd,
    List.reverse_append, (span_append hgap'' hlast).2, List.reverse_reverse]

end Text

namespace Address

theorem isWord_of_parseList? {w : List Char} {a : Address} (h : parseList? w = some a) :
    Token.IsWord w := by
  obtain ⟨ls, ds, rfl, hls, hds, hcol, -⟩ := parseList?_eq_some_iff.1 h
  cases ls with
  | nil => cases hcol
  | cons c ls =>
    have hstart : ∀ c, c.isAlpha = true → Token.isWordStart c = true := by
      intro c hc
      rw [Token.isWordStart, hc, Bool.true_or]
    refine ⟨c, ls ++ ds, rfl, hstart c (hls c List.mem_cons_self), fun d hd => ?_⟩
    rw [Token.isWordPart_iff]
    rcases List.mem_append.1 hd with hd | hd
    · exact .inl (hstart d (hls d (List.mem_cons_of_mem c hd)))
    · exact .inr (hds d hd)

theorem parseList?_trimList_iff {cs : List Char} {a : Address} :
    parseList? (Text.trimList cs) = some a ↔ ∃ gap w gap', cs = gap ++ w ++ gap' ∧
      (∀ c ∈ gap, Text.isBlank c = true) ∧ (∀ c ∈ gap', Text.isBlank c = true) ∧
      parseList? w = some a := by
  constructor
  · intro h
    obtain ⟨gap, gap', hcs, hgap, hgap'⟩ := Text.exists_trimList cs
    exact ⟨gap, _, gap', hcs, hgap, hgap', h⟩
  · rintro ⟨gap, w, gap', rfl, hgap, hgap', h⟩
    have hne : w ≠ [] := by
      obtain ⟨c, cs, rfl, -⟩ := isWord_of_parseList? h
      exact List.cons_ne_nil c cs
    rwa [Text.trimList_append hgap hgap' hne (not_isBlank_of_parseList? h)]

theorem ofSymbol?_eq_none {cs : List Char} {a : Address}
    (h : parseList? (Text.trimList cs) = some a) : ∀ c ∈ cs, Token.ofSymbol? c = none := by
  have hblank : ∀ c, Text.isBlank c = true → Token.ofSymbol? c = none := by
    intro c hc
    by_contra hsome
    obtain ⟨t, ht⟩ := Option.ne_none_iff_exists'.1 hsome
    rw [(Token.ofSymbol?_eq_some_iff.1 ht).not_isBlank] at hc
    cases hc
  obtain ⟨gap, w, gap', rfl, hgap, hgap', hw⟩ := parseList?_trimList_iff.1 h
  obtain ⟨d, ds, rfl, hd, hds⟩ := isWord_of_parseList? hw
  intro c hc
  simp only [List.mem_append, List.mem_cons] at hc
  rcases hc with (hc | rfl | hc) | hc
  · exact hblank c (hgap c hc)
  · exact Token.ofSymbol?_eq_none (.inl (Token.isWordPart_iff.2 (.inl hd)))
  · exact Token.ofSymbol?_eq_none (.inl (hds c hc))
  · exact hblank c (hgap' c hc)

end Address

namespace Token

theorem exists_spells_of_tokens {cs : List Char} {t : Token} {ts : List Token}
    (h : tokens cs = .ok (t :: ts)) : ∃ gap w rest, cs = gap ++ w ++ rest ∧
      (∀ c ∈ gap, Text.isBlank c = true) ∧ Spells w t ∧ tokens rest = .ok ts := by
  obtain ⟨ls, hls, hts⟩ := exists_layout h
  cases hls with
  | blanks => cases hts
  | @cons gap rest l ls hgap hrest _ =>
    cases hts
    exact ⟨gap, l.chars, rest, rfl, hgap, l.spells, tokens_of_layout hrest⟩

theorem isBlank_of_tokens_eq_nil {cs : List Char} (h : tokens cs = .ok []) :
    ∀ c ∈ cs, Text.isBlank c = true := by
  obtain ⟨ls, hls, hts⟩ := exists_layout h
  cases hls with
  | blanks hgap => exact hgap
  | cons => cases hts

theorem Spells.eq_of_mark {c : Char} {w : List Char} {t : Token} (h : Spells w t) (hm : Mark c t) :
    w = [c] := by
  cases h with
  | mark hm' => cases hm <;> cases hm' <;> rfl
  | _ => cases hm

theorem Spells.parseList?_eq {w : List Char} {a : Address} (h : Spells w (.address a)) :
    Address.parseList? w = some a := by
  cases h with
  | mark hm => cases hm
  | address _ ha => exact ha

theorem mem_of_mark {c : Char} {cs : List Char} {t : Token} {ts : List Token} (hm : Mark c t)
    (h : tokens cs = .ok ts) (ht : t ∈ ts) : c ∈ cs := by
  induction ts generalizing cs with
  | nil => cases ht
  | cons u ts ih =>
    obtain ⟨gap, w, rest, rfl, -, hw, hrest⟩ := exists_spells_of_tokens h
    rcases List.mem_cons.1 ht with rfl | ht
    · rw [hw.eq_of_mark hm]
      simp
    · exact List.mem_append_right _ (ih hrest ht)

theorem tokens_trimmed {cs rest : List Char} {a : Address}
    (h : Address.parseList? (Text.trimList cs) = some a)
    (hrest : ∀ c ∈ rest.head?, isWordPart c = false) :
    tokens (cs ++ rest) = (tokens rest).map (.address a :: ·) := by
  obtain ⟨gap, w, gap', rfl, hgap, hgap', hw⟩ := Address.parseList?_trimList_iff.1 h
  have hstop : ∀ c ∈ (gap' ++ rest).head?, isWordPart c = false := by
    cases gap' with
    | nil => exact hrest
    | cons d gap' =>
      rintro c ⟨⟩
      exact Kind.goesOn_eq_false_of_isBlank (k := .word) (hgap' d List.mem_cons_self)
  have hread := tokens_append (l := ⟨w, .address a, .address (Address.isWord_of_parseList? hw) hw⟩) hstop
  rw [List.append_assoc, List.append_assoc, tokens_blanks hgap, hread, tokens_blanks hgap']

theorem tokens_eq_address_iff {cs : List Char} {a : Address} :
    tokens cs = .ok [.address a] ↔ Address.parseList? (Text.trimList cs) = some a := by
  constructor
  · intro h
    obtain ⟨gap, w, rest, rfl, hgap, hw, hrest⟩ := exists_spells_of_tokens h
    exact Address.parseList?_trimList_iff.2
      ⟨gap, w, rest, rfl, hgap, isBlank_of_tokens_eq_nil hrest, hw.parseList?_eq⟩
  · intro h
    have hread : tokens (cs ++ []) = (tokens []).map (.address a :: ·) := tokens_trimmed h nofun
    rwa [List.append_nil, tokens] at hread

theorem tokens_eq_range_iff {cs : List Char} {a b : Address} :
    tokens cs = .ok [.address a, .colon, .address b] ↔ ∃ us vs, cs = us ++ ':' :: vs ∧
      Address.parseList? (Text.trimList us) = some a ∧
      Address.parseList? (Text.trimList vs) = some b := by
  constructor
  · intro h
    obtain ⟨gap, w, rest, rfl, hgap, hw, hrest⟩ := exists_spells_of_tokens h
    obtain ⟨gap', m, vs, rfl, hgap', hm, hvs⟩ := exists_spells_of_tokens hrest
    rw [hm.eq_of_mark .colon]
    refine ⟨gap ++ w ++ gap', vs, by simp, ?_, tokens_eq_address_iff.1 hvs⟩
    exact Address.parseList?_trimList_iff.2 ⟨gap, w, gap', rfl, hgap, hgap', hw.parseList?_eq⟩
  · rintro ⟨us, vs, rfl, ha, hb⟩
    have hcolon : tokens (':' :: vs) = (tokens vs).map (.colon :: ·) :=
      tokens_append (l := ⟨[':'], .colon, .mark .colon⟩) fun _ _ => rfl
    rw [tokens_trimmed ha (by rintro c ⟨⟩; rfl), hcolon, tokens_eq_address_iff.2 hb]
    rfl

end Token

namespace Range

theorem parse?_eq_some_iff {s : String} {r : Range} : parse? s = some r ↔
    ∃ us vs, s.toList = us ++ ':' :: vs ∧ Address.parseList? (Text.trimList us) = some r.start ∧
      Address.parseList? (Text.trimList vs) = some r.stop := by
  constructor
  · intro h
    have hsplit := @List.takeWhile_append_dropWhile _ (· != ':') s.toList
    simp only [parse?, Option.bind_eq_bind, Option.bind_eq_some_iff] at h
    obtain ⟨a, ha, h⟩ := h
    split at h
    · cases h
    next c vs hvs =>
      obtain ⟨b, hb, h⟩ := Option.bind_eq_some_iff.1 h
      cases h
      have hcolon : (c != ':') = false := not_of_mem_head?_dropWhile c (by rw [hvs]; rfl)
      rw [bne_eq_false_iff_eq] at hcolon
      subst hcolon
      exact ⟨_, vs, by rw [← hvs, hsplit], ha, hb⟩
  · rintro ⟨us, vs, hs, ha, hb⟩
    refine parse?_of_toList hs (fun c hc => ?_) ha hb
    rw [bne_iff_ne]
    rintro rfl
    cases Address.ofSymbol?_eq_none ha ':' hc

end Range

namespace Grammar

/-- The tree is no reference, or the tokens are just the reference. -/
def Bare (ts : List Token) : Expr → Prop
  | .cell a => ts = [.address a]
  | .range r => ts = [.address r.start, .colon, .address r.stop]
  | _ => True

theorem Derives.bare {ts : List Token} {e : Expr} {n d : Nat} (h : Derives (.chain .sum) ts e n d)
    (hplus : .plus ∉ ts) (hopening : .opening ∉ ts) : Bare ts e := by
  cases h with
  | joinSum => trivial
  | sum h =>
  cases h with
  | joinProduct => trivial
  | product h =>
  cases h with
  | minus => trivial
  | plus => exact absurd List.mem_cons_self hplus
  | unsigned h =>
  cases h with
  | parens => exact absurd List.mem_cons_self hopening
  | cell | range => exact rfl
  | _ => trivial

end Grammar

namespace Expr

open Grammar

def Traced (cs : List Char) : Prop :=
  ∀ c ∈ cs, c ≠ '(' ∧ c ≠ ')' ∧ c ≠ '+'

theorem parse_of_primary {cs : List Char} {ts : List Token} {e : Expr}
    (hts : Token.tokens cs = .ok ts) (h : Derives .primary ts e 0 0) : parse cs = .ok e :=
  parse_eq_ok_iff.2 ⟨ts, hts, ofTokens_eq_ok h.of_primary (Nat.zero_le _) (Nat.zero_le _)⟩

theorem exists_bare {cs : List Char} {e : Expr} (h : parse cs = .ok e) (htraced : Traced cs) :
    ∃ ts, Token.tokens cs = .ok ts ∧ Bare ts e := by
  obtain ⟨ts, hts, he⟩ := parse_eq_ok_iff.1 h
  obtain ⟨n, d, hderives, -⟩ := derives_of_ofTokens_eq_ok he
  refine ⟨ts, hts, hderives.bare (fun hplus => ?_) fun hopening => ?_⟩
  · exact (htraced '+' (Token.mem_of_mark .plus hts hplus)).2.2 rfl
  · exact (htraced '(' (Token.mem_of_mark .opening hts hopening)).1 rfl

theorem traced_of_address {cs : List Char} {a : Address}
    (h : Address.parseList? (Text.trimList cs) = some a) : Traced cs := by
  intro c hc
  have hsymbol := Address.ofSymbol?_eq_none h c hc
  refine ⟨?_, ?_, ?_⟩ <;> rintro rfl <;> cases hsymbol

theorem traced_append {us vs : List Char} (hus : Traced us) (hvs : Traced vs) :
    Traced (us ++ ':' :: vs) := by
  intro c hc
  rcases List.mem_append.1 hc with hc | hc
  · exact hus c hc
  rcases List.mem_cons.1 hc with rfl | hc
  · decide
  · exact hvs c hc

/-- A text is a range, or an address with blanks around it, just if it is a formula of that range or
address without parentheses and plus signs. -/
theorem parse_reference_iff :
    (∀ t r, Range.parse? t = some r ↔ parse t.toList = .ok (.range r) ∧ Traced t.toList) ∧
    ∀ t a, Address.parseTrimmed? t = some a ↔ parse t.toList = .ok (.cell a) ∧ Traced t.toList := by
  refine ⟨fun t r => ⟨fun h => ?_, ?_⟩, fun t a => ⟨fun h => ?_, ?_⟩⟩
  · have hsplit := Range.parse?_eq_some_iff.1 h
    refine ⟨parse_of_primary (Token.tokens_eq_range_iff.2 hsplit) (.range r.start r.stop), ?_⟩
    obtain ⟨us, vs, ht, ha, hb⟩ := hsplit
    rw [ht]
    exact traced_append (traced_of_address ha) (traced_of_address hb)
  · rintro ⟨h, htraced⟩
    obtain ⟨ts, hts, rfl⟩ := exists_bare h htraced
    exact Range.parse?_eq_some_iff.2 (Token.tokens_eq_range_iff.1 hts)
  · exact ⟨parse_of_primary (Token.tokens_eq_address_iff.2 h) (.cell a), traced_of_address h⟩
  · rintro ⟨h, htraced⟩
    obtain ⟨ts, hts, rfl⟩ := exists_bare h htraced
    exact Token.tokens_eq_address_iff.1 hts

end Expr

end Spreadsheet
