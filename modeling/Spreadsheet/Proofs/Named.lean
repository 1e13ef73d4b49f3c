import Spreadsheet.Proofs.AddressText
import Spreadsheet.Proofs.Parser.Sound
import Spreadsheet.Proofs.Success

namespace Spreadsheet

structure Address.Numbered (a : Address) : Prop where
  col : a.col < limit
  row : a.row < limit

structure Range.Numbered (r : Range) : Prop where
  start : r.start.Numbered
  stop : r.stop.Numbered

theorem Address.numbered_of_parseList? {cs : List Char} {a : Address}
    (h : parseList? cs = some a) : a.Numbered := by
  obtain ⟨hcol, hrow⟩ := of_parseList?_eq_some h
  exact ⟨(columnOfLetters?_eq_some_iff.1 hcol).1, (rowOfDigits?_eq_some_iff.1 hrow).2.2.2⟩

theorem Range.numbered_of_parse? {s : String} {r : Range} (h : parse? s = some r) : r.Numbered := by
  simp only [parse?, Option.bind_eq_bind, Option.bind_eq_some_iff] at h
  obtain ⟨a, ha, h⟩ := h
  split at h
  · cases h
  · simp only [Option.bind_eq_some_iff, Option.pure_def, Option.some.injEq] at h
    obtain ⟨b, hb, rfl⟩ := h
    exact ⟨Address.numbered_of_parseList? ha, Address.numbered_of_parseList? hb⟩

namespace Range.Numbered

variable {r : Range}

theorem maxRow (h : r.Numbered) : r.maxRow < Address.limit :=
  Nat.max_lt.2 ⟨h.start.row, h.stop.row⟩

theorem maxCol (h : r.Numbered) : r.maxCol < Address.limit :=
  Nat.max_lt.2 ⟨h.start.col, h.stop.col⟩

end Range.Numbered

namespace Token

theorem ofSymbol?_ne_address (c : Char) (a : Address) : ofSymbol? c ≠ some (.address a) := by
  intro h
  rw [ofSymbol?.eq_def] at h
  split at h <;> cases h

theorem numbered_of_ofWord {word : List Char} {a : Address} (h : ofWord word = .ok (.address a)) :
    a.Numbered := by
  rw [ofWord] at h
  split at h
  next b hb =>
    cases h
    exact Address.numbered_of_parseList? hb
  · split at h <;> cases h

theorem numbered_of_next {c : Char} {cs rest : List Char} {a : Address}
    (h : next c cs = .ok (.address a, rest)) : a.Numbered := by
  rw [next] at h
  split at h
  next t ht =>
    cases h
    exact absurd ht (ofSymbol?_ne_address c a)
  · split at h
    · split at h <;> cases h
    split at h
    · obtain ⟨t, hword, ht⟩ := exists_of_map_eq_ok h
      cases ht
      exact numbered_of_ofWord hword
    split at h
    · obtain ⟨t, hnumeral, ht⟩ := exists_of_map_eq_ok h
      cases ht
      rw [ofNumeral] at hnumeral
      split at hnumeral <;> cases hnumeral
    · cases h

theorem numbered_of_mem_tokens {cs : List Char} {ts : List Token} {a : Address}
    (h : tokens cs = .ok ts) (ha : .address a ∈ ts) : a.Numbered := by
  fun_induction tokens cs generalizing ts with
  | case1 =>
    cases h
    cases ha
  | case2 c cs _ ih => exact ih h ha
  | case3 c cs _ e he => cases h
  | case4 c cs _ t rest hnext _ ih =>
    obtain ⟨us, hus, rfl⟩ := exists_of_map_eq_ok h
    rcases List.mem_cons.1 ha with rfl | ha
    · exact numbered_of_next hnext
    · exact ih hus ha

end Token

namespace Expr

mutual

def ranges : Expr → List Range
  | .number _ | .text _ => []
  | .cell a => [.single a]
  | .range r => [r]
  | .call _ args => argRanges args
  | .neg e => ranges e
  | .binary _ l r => ranges l ++ ranges r

def argRanges : List Expr → List Range
  | [] => []
  | e :: es => ranges e ++ argRanges es

end

end Expr

namespace Grammar

def Symbol.ranges : (s : Symbol) → s.Tree → List Range
  | .arguments => Expr.argRanges
  | .chain _ | .signed | .primary => Expr.ranges

def Corners (ts : List Token) (r : Range) : Prop :=
  .address r.start ∈ ts ∧ .address r.stop ∈ ts

theorem Corners.mono {ts us : List Token} {r : Range} (h : Corners ts r) (hsub : ts ⊆ us) :
    Corners us r :=
  ⟨hsub h.1, hsub h.2⟩

theorem corners_append {ts us : List Token} {t : Token} {rs ss : List Range}
    (hts : ∀ r ∈ rs, Corners ts r) (hus : ∀ r ∈ ss, Corners us r) :
    ∀ r ∈ rs ++ ss, Corners (ts ++ t :: us) r := by
  intro r hr
  rcases List.mem_append.1 hr with hr | hr
  · exact (hts r hr).mono (List.subset_append_left _ _)
  · exact (hus r hr).mono fun u hu => List.mem_append_right _ (List.mem_cons_of_mem _ hu)

theorem Derives.corners {s : Symbol} {ts : List Token} {e : s.Tree} {n d : Nat}
    (h : Derives s ts e n d) : ∀ r ∈ s.ranges e, Corners ts r := by
  induction h with
  | sum _ ih | product _ ih | unsigned _ ih => exact ih
  | joinSum _ _ _ ihl ihr | joinProduct _ _ _ ihl ihr => exact corners_append ihl ihr
  | plus _ ih | minus _ ih => exact fun r hr => (ih r hr).mono (List.subset_cons_self _ _)
  | number | text | callEmpty => exact fun r hr => absurd hr List.not_mem_nil
  | cell a =>
    intro r hr
    rw [List.mem_singleton.1 hr]
    exact ⟨List.mem_cons_self, List.mem_cons_self⟩
  | range a b =>
    intro r hr
    rw [List.mem_singleton.1 hr]
    exact ⟨List.mem_cons_self, List.mem_cons_of_mem _ (List.mem_cons_of_mem _ List.mem_cons_self)⟩
  | call _ ih =>
    intro r hr
    exact (ih r hr).mono (List.subset_cons_of_subset _
      (List.subset_cons_of_subset _ (List.subset_append_left _ _)))
  | parens _ ih =>
    intro r hr
    exact (ih r hr).mono (List.subset_cons_of_subset _ (List.subset_append_left _ _))
  | argument _ ih =>
    intro r hr
    exact ih r (by simpa [Symbol.ranges, Expr.argRanges] using hr)
  | comma _ _ ihe ihes => exact corners_append ihe ihes

end Grammar

/-- The range is in some formula, or some text reads as it. -/
inductive Range.Named : Range → Prop
  | formula {body : List Char} {e : Expr} {r : Range} :
      Expr.parse body = .ok e → r ∈ e.ranges → Named r
  | text {s : String} {r : Range} : Range.parse? s = some r → Named r

theorem Expr.numbered_of_parse {body : List Char} {e : Expr} {r : Range}
    (h : parse body = .ok e) (hr : r ∈ e.ranges) : r.Numbered := by
  obtain ⟨ts, hts, he⟩ := parse_eq_ok_iff.1 h
  obtain ⟨n, d, hderives, -⟩ := derives_of_ofTokens_eq_ok he
  obtain ⟨hstart, hstop⟩ := hderives.corners r hr
  exact ⟨Token.numbered_of_mem_tokens hts hstart, Token.numbered_of_mem_tokens hts hstop⟩

theorem Range.Named.numbered {r : Range} (h : r.Named) : r.Numbered := by
  cases h with
  | formula hparse hr => exact Expr.numbered_of_parse hparse hr
  | text hparse => exact numbered_of_parse? hparse

end Spreadsheet
