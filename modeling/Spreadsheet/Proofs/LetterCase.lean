import Spreadsheet.Proofs.Lexeme
import Spreadsheet.Proofs.Parser.Sound
import Spreadsheet.Proofs.Reference

namespace Spreadsheet

namespace Expr

mutual

def mapTexts (f : String → String) : Expr → Expr
  | .number n => .number n
  | .text s => .text (f s)
  | .cell a => .cell a
  | .range r => .range r
  | .call g args => .call g (argMapTexts f args)
  | .neg e => .neg (mapTexts f e)
  | .binary op l r => .binary op (mapTexts f l) (mapTexts f r)

def argMapTexts (f : String → String) : List Expr → List Expr
  | [] => []
  | e :: es => mapTexts f e :: argMapTexts f es

end

end Expr

namespace Token

def mapText (f : String → String) : Token → Token
  | .text s => .text (f s)
  | t => t

variable {f : String → String}

theorem eq_of_mapText_eq {t u : Token} (h : t.mapText f = u) (hu : u.kind ≠ .quoted) : t = u := by
  cases t with
  | text s => exact absurd (h ▸ rfl) hu
  | _ => exact h

theorem exists_of_mapText_eq_text {t : Token} {s : String} (h : t.mapText f = .text s) :
    ∃ r, t = .text r ∧ f r = s := by
  cases t with
  | text r => exact ⟨r, rfl, Token.text.inj h⟩
  | _ => cases h

theorem exists_of_map_eq_cons {t : Token} {ts us : List Token} (ht : t.kind ≠ .quoted)
    (h : ts.map (mapText f) = t :: us) : ∃ vs, ts = t :: vs ∧ vs.map (mapText f) = us := by
  obtain ⟨u, vs, rfl, hu, hvs⟩ := List.map_eq_cons_iff.1 h
  exact ⟨vs, congrArg (· :: vs) (eq_of_mapText_eq hu ht), hvs⟩

theorem exists_of_map_eq_append_cons {t : Token} {ts us vs : List Token} (ht : t.kind ≠ .quoted)
    (h : ts.map (mapText f) = us ++ t :: vs) :
    ∃ ls rs, ts = ls ++ t :: rs ∧ ls.map (mapText f) = us ∧ rs.map (mapText f) = vs := by
  obtain ⟨ls, ws, rfl, hls, hws⟩ := List.map_eq_append_iff.1 h
  obtain ⟨rs, rfl, hrs⟩ := exists_of_map_eq_cons ht hws
  exact ⟨ls, rs, rfl, hls, hrs⟩

theorem exists_of_map_eq_concat {t : Token} {ts us : List Token} (ht : t.kind ≠ .quoted)
    (h : ts.map (mapText f) = us ++ [t]) : ∃ ls, ts = ls ++ [t] ∧ ls.map (mapText f) = us := by
  obtain ⟨ls, rs, rfl, hls, hrs⟩ := exists_of_map_eq_append_cons ht h
  rw [List.map_eq_nil_iff.1 hrs]
  exact ⟨ls, rfl, hls⟩

end Token

namespace Grammar

open Spreadsheet.Parser (Level)

def Symbol.mapTexts (f : String → String) : (s : Symbol) → s.Tree → s.Tree
  | .arguments => Expr.argMapTexts f
  | .chain _ | .signed | .primary => Expr.mapTexts f

variable {f : String → String}

theorem Joins.kind {level : Level} {t : Token} {op : Operator} (h : Joins level t op) :
    t.kind ≠ .quoted := by
  cases h <;> exact Token.Kind.noConfusion

theorem Joins.mapText {level : Level} {t : Token} {op : Operator} (h : Joins level t op) :
    Joins level (t.mapText f) op := by
  cases h <;> constructor

theorem Derives.mapTexts {s : Symbol} {ts : List Token} {e : s.Tree} {n d : Nat}
    (h : Derives s ts e n d) : Derives s (ts.map (Token.mapText f)) (s.mapTexts f e) n d := by
  induction h with
  | sum _ ih => exact .sum ih
  | product _ ih => exact .product ih
  | joinSum hj _ _ ihl ihr =>
    rw [List.map_append]
    exact .joinSum hj.mapText ihl ihr
  | joinProduct hj _ _ ihl ihr =>
    rw [List.map_append]
    exact .joinProduct hj.mapText ihl ihr
  | unsigned _ ih => exact .unsigned ih
  | plus _ ih => exact .plus ih
  | minus _ ih => exact .minus ih
  | number x => exact .number x
  | text x => exact .text (f x)
  | cell a => exact .cell a
  | range a b => exact .range a b
  | callEmpty g => exact .callEmpty g
  | call _ ih =>
    rw [List.map_append]
    exact .call ih
  | parens _ ih =>
    rw [List.map_append]
    exact .parens ih
  | argument _ ih => exact .argument ih
  | comma _ _ ihe ihes =>
    rw [List.map_append]
    exact .comma ihe ihes

theorem Derives.exists_of_map {s : Symbol} {ts us : List Token} {e : s.Tree} {n d : Nat}
    (h : Derives s us e n d) (hus : ts.map (Token.mapText f) = us) :
    ∃ e', Derives s ts e' n d ∧ s.mapTexts f e' = e := by
  induction h generalizing ts with
  | sum _ ih =>
    obtain ⟨e, he, rfl⟩ := ih hus
    exact ⟨e, .sum he, rfl⟩
  | product _ ih =>
    obtain ⟨e, he, rfl⟩ := ih hus
    exact ⟨e, .product he, rfl⟩
  | joinSum hj _ _ ihl ihr =>
    obtain ⟨ls, rs, rfl, hls, hrs⟩ := Token.exists_of_map_eq_append_cons hj.kind hus
    obtain ⟨l, hl, rfl⟩ := ihl hls
    obtain ⟨r, hr, rfl⟩ := ihr hrs
    exact ⟨.binary _ l r, .joinSum hj hl hr, rfl⟩
  | joinProduct hj _ _ ihl ihr =>
    obtain ⟨ls, rs, rfl, hls, hrs⟩ := Token.exists_of_map_eq_append_cons hj.kind hus
    obtain ⟨l, hl, rfl⟩ := ihl hls
    obtain ⟨r, hr, rfl⟩ := ihr hrs
    exact ⟨.binary _ l r, .joinProduct hj hl hr, rfl⟩
  | unsigned _ ih =>
    obtain ⟨e, he, rfl⟩ := ih hus
    exact ⟨e, .unsigned he, rfl⟩
  | plus _ ih =>
    obtain ⟨vs, rfl, hvs⟩ := Token.exists_of_map_eq_cons Token.Kind.noConfusion hus
    obtain ⟨e, he, rfl⟩ := ih hvs
    exact ⟨e, .plus he, rfl⟩
  | minus _ ih =>
    obtain ⟨vs, rfl, hvs⟩ := Token.exists_of_map_eq_cons Token.Kind.noConfusion hus
    obtain ⟨e, he, rfl⟩ := ih hvs
    exact ⟨.neg e, .minus he, rfl⟩
  | number x =>
    obtain ⟨t, rfl, ht⟩ := List.map_eq_singleton_iff.1 hus
    rw [Token.eq_of_mapText_eq ht Token.Kind.noConfusion]
    exact ⟨_, .number x, rfl⟩
  | text x =>
    obtain ⟨t, rfl, ht⟩ := List.map_eq_singleton_iff.1 hus
    obtain ⟨r, rfl, rfl⟩ := Token.exists_of_mapText_eq_text ht
    exact ⟨_, .text r, rfl⟩
  | cell a =>
    obtain ⟨t, rfl, ht⟩ := List.map_eq_singleton_iff.1 hus
    rw [Token.eq_of_mapText_eq ht Token.Kind.noConfusion]
    exact ⟨_, .cell a, rfl⟩
  | range a b =>
    obtain ⟨vs, rfl, hvs⟩ := Token.exists_of_map_eq_cons Token.Kind.noConfusion hus
    obtain ⟨ws, rfl, hws⟩ := Token.exists_of_map_eq_cons Token.Kind.noConfusion hvs
    obtain ⟨t, rfl, ht⟩ := List.map_eq_singleton_iff.1 hws
    rw [Token.eq_of_mapText_eq ht Token.Kind.noConfusion]
    exact ⟨_, .range a b, rfl⟩
  | callEmpty g =>
    obtain ⟨vs, rfl, hvs⟩ := Token.exists_of_map_eq_cons Token.Kind.noConfusion hus
    obtain ⟨ws, rfl, hws⟩ := Token.exists_of_map_eq_cons Token.Kind.noConfusion hvs
    obtain ⟨t, rfl, ht⟩ := List.map_eq_singleton_iff.1 hws
    rw [Token.eq_of_mapText_eq ht Token.Kind.noConfusion]
    exact ⟨_, .callEmpty g, rfl⟩
  | call _ ih =>
    obtain ⟨vs, rfl, hvs⟩ := Token.exists_of_map_eq_cons Token.Kind.noConfusion hus
    obtain ⟨ws, rfl, hws⟩ := Token.exists_of_map_eq_cons Token.Kind.noConfusion hvs
    obtain ⟨as, rfl, has⟩ := Token.exists_of_map_eq_concat Token.Kind.noConfusion hws
    obtain ⟨es, hes, rfl⟩ := ih has
    exact ⟨.call _ es, .call hes, rfl⟩
  | parens _ ih =>
    obtain ⟨vs, rfl, hvs⟩ := Token.exists_of_map_eq_cons Token.Kind.noConfusion hus
    obtain ⟨ws, rfl, hws⟩ := Token.exists_of_map_eq_concat Token.Kind.noConfusion hvs
    obtain ⟨e, he, rfl⟩ := ih hws
    exact ⟨e, .parens he, rfl⟩
  | argument _ ih =>
    obtain ⟨e, he, rfl⟩ := ih hus
    exact ⟨[e], .argument he, rfl⟩
  | comma _ _ ihe ihes =>
    obtain ⟨ls, rs, rfl, hls, hrs⟩ := Token.exists_of_map_eq_append_cons Token.Kind.noConfusion hus
    obtain ⟨e, he, rfl⟩ := ihe hls
    obtain ⟨es, hes, rfl⟩ := ihes hrs
    exact ⟨e :: es, .comma he hes, rfl⟩

end Grammar

namespace Token

theorem toUpper_eq_or (c : Char) :
    c.toUpper = c ∨ isWordStart c = true ∧ isWordStart c.toUpper = true := by
  by_cases h : 97 ≤ c.toNat ∧ c.toNat ≤ 122
  · right
    rw [isWordStart_iff, isWordStart_iff, Address.toNat_toUpper, if_pos h]
    omega
  · exact .inl (Char.toNat_inj.1 (Address.toNat_toUpper.trans (if_neg h)))

theorem isWordStart_toUpper (c : Char) : isWordStart c.toUpper = isWordStart c := by
  rcases toUpper_eq_or c with h | ⟨h, hupper⟩
  · rw [h]
  · rw [h, hupper]

theorem isDigit_toUpper (c : Char) : c.toUpper.isDigit = c.isDigit :=
  Bool.eq_iff_iff.2 Address.isDigit_toUpper_iff

theorem isWordPart_toUpper (c : Char) : isWordPart c.toUpper = isWordPart c := by
  rw [Bool.eq_iff_iff, isWordPart_iff, isWordPart_iff, isWordStart_toUpper, isDigit_toUpper]

theorem toUpper_of_isNumeralPart {c : Char} (h : isNumeralPart c = true) : c.toUpper = c :=
  (toUpper_eq_or c).resolve_right fun hc => not_isWordStart h hc.1

theorem isNumeralPart_toUpper (c : Char) : isNumeralPart c.toUpper = isNumeralPart c := by
  rcases toUpper_eq_or c with h | ⟨h, hupper⟩
  · rw [h]
  · rw [Bool.eq_iff_iff]
    exact iff_of_false (fun hc => not_isWordStart hc hupper) fun hc => not_isWordStart hc h

theorem toUpper_eq_quote_iff {c : Char} : c.toUpper = '"' ↔ c = '"' := by
  rcases toUpper_eq_or c with h | ⟨h, hupper⟩
  · rw [h]
  · exact iff_of_false (ne_quote (.inl (isWordPart_iff.2 (.inl hupper))))
      (ne_quote (.inl (isWordPart_iff.2 (.inl h))))

theorem ofSymbol?_toUpper (c : Char) : ofSymbol? c.toUpper = ofSymbol? c := by
  rcases toUpper_eq_or c with h | ⟨h, hupper⟩
  · rw [h]
  · rw [ofSymbol?_eq_none (.inl (isWordPart_iff.2 (.inl h))),
      ofSymbol?_eq_none (.inl (isWordPart_iff.2 (.inl hupper)))]

theorem splitQuoted_map_toUpper (cs : List Char) : splitQuoted (cs.map Char.toUpper) =
    (splitQuoted cs).map (Prod.map (List.map Char.toUpper) (List.map Char.toUpper)) := by
  fun_induction splitQuoted cs with
  | case1 => rfl
  | case2 cs ih =>
    rw [List.map_cons, List.map_cons, toUpper_eq_quote_iff.2 rfl, splitQuoted, ih, Option.map_map,
      Option.map_map]
    rfl
  | case3 cs hcs =>
    rw [List.map_cons, toUpper_eq_quote_iff.2 rfl, splitQuoted_quote]
    · rfl
    · cases cs with
      | nil => simp
      | cons c cs =>
        intro hc
        have hc' := toUpper_eq_quote_iff.1 (Option.some.inj hc)
        exact hcs cs (congrArg (· :: cs) hc')
  | case4 c cs _ hc ih =>
    have hc' : c.toUpper ≠ '"' := fun h => hc (toUpper_eq_quote_iff.1 h)
    rw [List.map_cons, splitQuoted_of_ne hc', ih, Option.map_map, Option.map_map]
    rfl

theorem ofWord_map_toUpper (w : List Char) :
    (ofWord (w.map Char.toUpper)).toOption = (ofWord w).toOption := by
  have hdigit : (w.map Char.toUpper).any Char.isDigit = w.any Char.isDigit := by
    rw [List.any_map, show Char.isDigit ∘ Char.toUpper = Char.isDigit from funext isDigit_toUpper]
  have hupper : (w.map Char.toUpper).map Char.toUpper = w.map Char.toUpper := by
    rw [List.map_map]
    exact List.map_congr_left fun c _ => Address.toUpper_toUpper c
  rw [ofWord, ofWord, Address.parseList?_map_toUpper, hdigit, hupper]
  cases Address.parseList? w with
  | some a => rfl
  | none => cases w.any Char.isDigit <;> rfl

theorem map_toUpper_of_isNumeralPart {w : List Char} (h : ∀ c ∈ w, isNumeralPart c = true) :
    w.map Char.toUpper = w :=
  (List.map_congr_left fun c hc => toUpper_of_isNumeralPart (h c hc)).trans (List.map_id w)

theorem ofWord_mapText (f : String → String) (w : List Char) :
    (ofWord w).map (mapText f) = ofWord w := by
  rw [ofWord]
  split
  · rfl
  · split <;> rfl

theorem ofNumeral_mapText (f : String → String) (w : List Char) :
    (ofNumeral w).map (mapText f) = ofNumeral w := by
  rw [ofNumeral]
  split <;> rfl

theorem toOption_run {f : String → String} {x y : Except SyntaxError Token} (rest : List Char)
    (h : x.toOption = y.toOption) (hy : y.map (mapText f) = y) :
    (x.map (·, rest.map Char.toUpper)).toOption =
      (y.map (·, rest)).toOption.map (Prod.map (mapText f) (List.map Char.toUpper)) := by
  rw [toOption_map, toOption_map, h, Option.map_map]
  cases y with
  | error e => rfl
  | ok t =>
    have ht : t.mapText f = t := Except.ok.inj hy
    exact congrArg (fun u => some (u, rest.map Char.toUpper)) ht.symm

theorem next_toUpper (c : Char) (cs : List Char) :
    (next c.toUpper (cs.map Char.toUpper)).toOption =
      (next c cs).toOption.map (Prod.map (mapText String.toUpper) (List.map Char.toUpper)) := by
  simp only [next, ofSymbol?_toUpper, toUpper_eq_quote_iff, isWordStart_toUpper, isNumeralPart_toUpper]
  cases hsymbol : ofSymbol? c with
  | some t => cases ofSymbol?_eq_some_iff.1 hsymbol <;> rfl
  | none =>
  dsimp only
  split
  · rw [splitQuoted_map_toUpper]
    cases splitQuoted cs with
    | none => rfl
    | some p =>
      have htext : String.ofList (p.1.map Char.toUpper) = (String.ofList p.1).toUpper := by
        rw [← String.toList_inj, String.toUpper, String.toList_map, String.toList_ofList,
          String.toList_ofList]
      exact congrArg (fun s => some (Token.text s, p.2.map Char.toUpper)) htext
  split
  · have hpart : isWordPart ∘ Char.toUpper = isWordPart := funext isWordPart_toUpper
    rw [List.takeWhile_map, List.dropWhile_map, hpart, ← List.map_cons]
    exact toOption_run _ (ofWord_map_toUpper _) (ofWord_mapText _ _)
  split
  next hc =>
    have hrun : ∀ d ∈ c :: cs.takeWhile isNumeralPart, isNumeralPart d = true := by
      intro d hd
      rcases List.mem_cons.1 hd with rfl | hd
      · exact hc
      · exact List.mem_takeWhile_imp hd
    have hpart : isNumeralPart ∘ Char.toUpper = isNumeralPart := funext isNumeralPart_toUpper
    rw [List.takeWhile_map, List.dropWhile_map, hpart, ← List.map_cons, map_toUpper_of_isNumeralPart hrun]
    exact toOption_run _ rfl (ofNumeral_mapText _ _)
  · rfl

theorem toOption_tokens_cons (c : Char) (cs : List Char) : (tokens (c :: cs)).toOption =
    if Text.isBlank c then (tokens cs).toOption
    else (next c cs).toOption.bind fun p => (tokens p.2).toOption.map (p.1 :: ·) := by
  rw [tokens]
  split
  · rfl
  split
  next h => rw [h]; rfl
  next h => simp only [h, toOption_map]; rfl

theorem tokens_map_toUpper (cs : List Char) : (tokens (cs.map Char.toUpper)).toOption =
    (tokens cs).toOption.map (List.map (mapText String.toUpper)) := by
  induction hn : cs.length using Nat.strong_induction_on generalizing cs with
  | h n ih =>
  cases cs with
  | nil =>
    rw [List.map_nil, tokens]
    rfl
  | cons c cs =>
    subst hn
    rw [List.map_cons, toOption_tokens_cons, toOption_tokens_cons, Text.isBlank_toUpper, next_toUpper]
    split
    · exact ih _ (Nat.lt_succ_self _) cs rfl
    cases hnext : next c cs with
    | error e => rfl
    | ok p =>
      have hlt : p.2.length < (c :: cs).length := Nat.lt_succ_of_le (length_of_next hnext)
      change (tokens (p.2.map Char.toUpper)).toOption.map _ = ((tokens p.2).toOption.map _).map _
      rw [ih _ hlt p.2 rfl, Option.map_map, Option.map_map]
      rfl

end Token

namespace Expr

variable {f : String → String}

theorem toOption_ofTokens_map (f : String → String) (ts : List Token) :
    (ofTokens (ts.map (Token.mapText f))).toOption = (ofTokens ts).toOption.map (mapTexts f) := by
  ext e
  simp only [Option.map_eq_some_iff, toOption_eq_some_iff, ofTokens_eq_ok_iff]
  constructor
  · rintro ⟨n, d, h, hn, hd⟩
    obtain ⟨e', he', rfl⟩ := h.exists_of_map rfl
    exact ⟨e', ⟨n, d, he', hn, hd⟩, rfl⟩
  · rintro ⟨e', ⟨n, d, h, hn, hd⟩, rfl⟩
    exact ⟨n, d, h.mapTexts, hn, hd⟩

theorem toOption_parse (body : List Char) :
    (parse body).toOption = (Token.tokens body).toOption.bind fun ts => (ofTokens ts).toOption := by
  rw [parse]
  cases Token.tokens body <;> rfl

/-- A text is a formula just if its capitals are one, and these then stand for the same tree with its
texts in capitals. -/
theorem parse_capitals (body : List Char) : (parse (body.map Char.toUpper)).toOption =
    (parse body).toOption.map (mapTexts String.toUpper) := by
  rw [toOption_parse, toOption_parse, Token.tokens_map_toUpper, Option.bind_map, Option.map_bind]
  exact congrArg _ (funext fun ts => toOption_ofTokens_map _ ts)

end Expr

end Spreadsheet
