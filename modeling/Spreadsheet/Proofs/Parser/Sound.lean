import Spreadsheet.Proofs.Parser.Complete

namespace Spreadsheet

namespace Parser

open Grammar

def Reads (limits : Limits) {α : Type} {bound : Nat} (derives : List Token → α → Nat → Nat → Prop)
    (depth operators : Nat) (ts : List Token) (p : Parsed α bound) : Prop :=
  ∃ us n d, ts = us ++ p.rest ∧ derives us p.value n d ∧ p.operators = operators + n ∧
    (depth ≤ limits.depth → depth + d ≤ limits.depth) ∧
    (operators ≤ limits.operators → p.operators ≤ limits.operators)

structure Sound (limits : Limits) (total bound : Nat) : Prop where
  chain {level : Level} {depth operators : Nat} {ts : List Token} {p : Parsed Expr ts.length} :
    ts.length < bound → chain limits total level depth operators ts = .ok p →
    Reads limits (Derives (.chain level)) depth operators ts p
  chainTail {level : Level} {depth operators m k : Nat} {left : Expr} {ls ts : List Token}
    {p : Parsed Expr (ts.length + 1)} : ts.length < bound →
    chainTail limits total level depth operators left ts = .ok p →
    Derives (.chain level) ls left m k →
    Reads limits (fun us e n d => Derives (.chain level) (ls ++ us) e (m + n) (max k d))
      depth operators ts p
  signed {depth operators : Nat} {ts : List Token} {p : Parsed Expr ts.length} :
    ts.length < bound → signed limits total depth operators ts = .ok p →
    Reads limits (Derives .signed) depth operators ts p
  someArguments {depth operators : Nat} {ts : List Token} {p : Parsed (List Expr) ts.length} :
    ts.length < bound → someArguments limits total depth operators ts = .ok p →
    Reads limits (fun us es n d => ∃ vs, us = vs ++ [.closing] ∧ Derives .arguments vs es n d)
      depth operators ts p

variable {limits : Limits} {total bound : Nat} {level : Level} {depth operators : Nat}
  {ts : List Token}

theorem Sound.operand {p : Parsed Expr ts.length} (ih : Sound limits total bound)
    (hts : ts.length < bound) (h : operand limits total level depth operators ts = .ok p) :
    Reads limits (Operand level) depth operators ts p := by
  cases level with
  | sum =>
    rw [operand_sum] at h
    exact ih.chain hts h
  | product =>
    rw [operand_product] at h
    exact ih.signed hts h

theorem eq_append_of_eq_append {us vs ws mid rest : List Token} (h : us = vs ++ mid)
    (h' : mid = ws ++ rest) : us = vs ++ ws ++ rest := by
  rw [h, h', List.append_assoc]

theorem Sound.reads_chainTail {left : Expr} {ls : List Token} {m k : Nat}
    {p : Parsed Expr (ts.length + 1)} (ih : Sound limits total ts.length)
    (h : Parser.chainTail limits total level depth operators left ts = .ok p)
    (hl : Derives (.chain level) ls left m k) :
    Reads limits (fun us e n d => Derives (.chain level) (ls ++ us) e (m + n) (max k d))
      depth operators ts p := by
  have hstop : Derives (.chain level) (ls ++ []) left (m + 0) (max k 0) := by
    simpa using hl
  rw [Parser.chainTail.eq_def] at h
  split at h
  · cases h
    exact ⟨[], 0, 0, rfl, hstop, rfl, id, id⟩
  next t us =>
  split at h
  · cases h
    exact ⟨[], 0, 0, rfl, hstop, rfl, id, id⟩
  next op hop =>
  split at h
  · cases h
  next q hq =>
  have hshort := q.shorter
  dsimp only at h
  split at h
  next hlt =>
    split at h
    · cases h
    next r hr =>
    cases h
    obtain ⟨vs, n, d, hts, hvs, hn, hd, hlim⟩ := ih.operand (by simp) hq
    have hjoin := Operand.join hvs (operator?_eq_some_iff.1 hop) hl
    obtain ⟨ws, n', d', hws, hall, hn', hd', hlim'⟩ :=
      ih.chainTail (Nat.lt_succ_of_lt hshort) hr hjoin
    refine ⟨t :: vs ++ ws, n + 1 + n', max d d', ?_, ?_, ?_, by omega, by intro; apply hlim'; omega⟩
    · exact congrArg (t :: ·) (eq_append_of_eq_append hts hws)
    · have hassoc : ls ++ (t :: vs ++ ws) = ls ++ t :: vs ++ ws := by simp
      dsimp only
      rw [hassoc, ← Nat.add_assoc, ← Nat.add_assoc, ← Nat.max_assoc]
      exact hall
    · change r.operators = _
      omega
  · cases h

theorem Sound.reads_chain {p : Parsed Expr ts.length} (ih : Sound limits total ts.length)
    (hoperand : ∀ {q}, Parser.operand limits total level depth operators ts = .ok q →
      Reads limits (Operand level) depth operators ts q)
    (h : Parser.chain limits total level depth operators ts = .ok p) :
    Reads limits (Derives (.chain level)) depth operators ts p := by
  rw [Parser.chain] at h
  split at h
  · cases h
  next q hq =>
  split at h
  · cases h
  next r hr =>
  cases h
  obtain ⟨us, n, d, hts, hus, hn, hd, hlim⟩ := hoperand hq
  obtain ⟨vs, m, k, hvs, hall, hm, hk, hlim'⟩ := ih.chainTail q.shorter hr hus.chain
  refine ⟨us ++ vs, n + m, max d k, eq_append_of_eq_append hts hvs, hall, ?_, by omega,
    fun hop => hlim' (hlim hop)⟩
  change r.operators = _
  omega

theorem Sound.reads_arguments {p : Parsed (List Expr) ts.length}
    (ih : Sound limits total bound) (hts : ts.length < bound)
    (h : arguments limits total depth operators ts = .ok p) :
    Reads limits (fun us es n d => us = [.closing] ∧ es = [] ∧ n = 0 ∧ d = 0 ∨
      ∃ vs, us = vs ++ [.closing] ∧ Derives .arguments vs es n d) depth operators ts p := by
  rw [arguments.eq_def] at h
  split at h
  next us =>
    cases h
    exact ⟨[.closing], 0, 0, rfl, .inl ⟨rfl, rfl, rfl, rfl⟩, rfl, id, id⟩
  · obtain ⟨us, n, d, hus, hes, hn, hd, hlim⟩ := ih.someArguments hts h
    exact ⟨us, n, d, hus, .inr hes, hn, hd, hlim⟩

theorem Sound.reads_primary {p : Parsed Expr ts.length} (ih : Sound limits total ts.length)
    (h : primary limits total depth operators ts = .ok p) :
    Reads limits (Derives .primary) depth operators ts p := by
  rw [primary.eq_def] at h
  split at h
  next x us =>
    cases h
    exact ⟨[.number x], 0, 0, rfl, .number x, rfl, id, id⟩
  next x us =>
    cases h
    exact ⟨[.text x], 0, 0, rfl, .text x, rfl, id, id⟩
  next a b us =>
    cases h
    exact ⟨[.address a, .colon, .address b], 0, 0, rfl, .range a b, rfl, id, id⟩
  · cases h
  next a us _ _ =>
    cases h
    exact ⟨[.address a], 0, 0, rfl, .cell a, rfl, id, id⟩
  next f us =>
    split at h
    next hlt =>
      split at h
      · cases h
      next q hq =>
      cases h
      have hshort : us.length < (.name f :: .opening :: us : List Token).length :=
        Nat.lt_succ_of_lt (Nat.lt_succ_self _)
      obtain ⟨vs, n, d, hts, hvs, hn, hd, hlim⟩ := ih.reads_arguments hshort hq
      refine ⟨.name f :: .opening :: vs, n, d + 1, congrArg (.name f :: .opening :: ·) hts, ?_, hn,
        by omega, hlim⟩
      rcases hvs with ⟨rfl, hes, rfl, rfl⟩ | ⟨us', rfl, hes⟩
      · rw [Parsed.map, hes]
        exact .callEmpty f
      · exact .call hes
    · cases h
  · cases h
  next us =>
    split at h
    next hlt =>
      split at h
      · cases h
      next e n vs hshort hq =>
        cases h
        obtain ⟨us', m, d, hts, hus, hn, hd, hlim⟩ := ih.chain (by simp) hq
        refine ⟨.opening :: us' ++ [.closing], m, d + 1, ?_, .parens hus, hn, by omega, hlim⟩
        rw [List.cons_append, List.cons_append, List.append_assoc]
        exact congrArg (.opening :: ·) hts
      · cases h
    · cases h
  · cases h

theorem Sound.reads_signed {p : Parsed Expr ts.length} (ih : Sound limits total ts.length)
    (h : Parser.signed limits total depth operators ts = .ok p) :
    Reads limits (Derives .signed) depth operators ts p := by
  rw [Parser.signed.eq_def] at h
  split at h
  next us =>
    split at h
    next hlt =>
      split at h
      · cases h
      next q hq =>
      cases h
      obtain ⟨vs, n, d, hts, hvs, hn, hd, hlim⟩ := ih.signed (by simp) hq
      exact ⟨.plus :: vs, n, d + 1, congrArg (.plus :: ·) hts, .plus hvs, hn, by omega, hlim⟩
    · cases h
  next us =>
    split at h
    next hlt =>
      split at h
      · cases h
      next q hq =>
      cases h
      obtain ⟨vs, n, d, hts, hvs, hn, hd, hlim⟩ := ih.signed (by simp) hq
      exact ⟨.minus :: vs, n, d + 1, congrArg (.minus :: ·) hts, .minus hvs, hn, by omega, hlim⟩
    · cases h
  · obtain ⟨us, n, d, hts, hus, hn, hd, hlim⟩ := ih.reads_primary h
    exact ⟨us, n, d, hts, .unsigned hus, hn, hd, hlim⟩

theorem Sound.reads_someArguments {p : Parsed (List Expr) ts.length}
    (ih : Sound limits total ts.length)
    (hchain : ∀ {q}, Parser.chain limits total .sum depth operators ts = .ok q →
      Reads limits (Derives (.chain .sum)) depth operators ts q)
    (h : Parser.someArguments limits total depth operators ts = .ok p) :
    Reads limits (fun us es n d => ∃ vs, us = vs ++ [.closing] ∧ Derives .arguments vs es n d)
      depth operators ts p := by
  rw [Parser.someArguments] at h
  split at h
  · cases h
  next e n us hshort hq =>
    cases h
    obtain ⟨vs, m, d, hts, hvs, hn, hd, hlim⟩ := hchain hq
    refine ⟨vs ++ [.closing], m, d, ?_, ⟨vs, rfl, .argument hvs⟩, hn, hd, hlim⟩
    rw [List.append_assoc]
    exact hts
  next e n us hshort hq =>
    split at h
    · cases h
    next r hr =>
    cases h
    obtain ⟨vs, m, d, hts, hvs, hn, hd, hlim⟩ := hchain hq
    obtain ⟨ws, m', k, hus, ⟨ws', hws, hes⟩, hn', hk, hlim'⟩ :=
      ih.someArguments (by simp at hshort; omega) hr
    refine ⟨vs ++ .comma :: ws, m + m', max d k, ?_, ⟨vs ++ .comma :: ws', ?_, .comma hvs hes⟩, ?_,
      by omega, fun hop => hlim' (hlim hop)⟩
    · exact eq_append_of_eq_append hts (congrArg (.comma :: ·) hus)
    · rw [hws, List.append_assoc, List.cons_append]
    · change r.operators = _
      dsimp only at hn
      omega
  · cases h

theorem Sound.mono {bound' : Nat} (h : Sound limits total bound) (hle : bound' ≤ bound) :
    Sound limits total bound' where
  chain hts := h.chain (Nat.lt_of_lt_of_le hts hle)
  chainTail hts := h.chainTail (Nat.lt_of_lt_of_le hts hle)
  signed hts := h.signed (Nat.lt_of_lt_of_le hts hle)
  someArguments hts := h.someArguments (Nat.lt_of_lt_of_le hts hle)

theorem Sound.reads_operand {p : Parsed Expr ts.length} (ih : Sound limits total ts.length)
    (h : Parser.operand limits total level depth operators ts = .ok p) :
    Reads limits (Operand level) depth operators ts p := by
  cases level with
  | sum =>
    rw [operand_sum] at h
    refine ih.reads_chain (fun hq => ?_) h
    rw [operand_product] at hq
    exact ih.reads_signed hq
  | product =>
    rw [operand_product] at h
    exact ih.reads_signed h

theorem sound (limits : Limits) (total bound : Nat) : Sound limits total bound := by
-- Induction on the number of tokens. For one number the steps follow in the order of their calls, since a
-- chain and its first operand are read from the same tokens.
  induction bound with
  | zero => constructor <;> exact fun hts => absurd hts (Nat.not_lt_zero _)
  | succ bound ih =>
    constructor
    case chain =>
      intro level depth operators ts p hts h
      have ih := ih.mono (Nat.le_of_lt_succ hts)
      exact ih.reads_chain ih.reads_operand h
    case chainTail =>
      intro level depth operators m k left ls ts p hts h hl
      exact (ih.mono (Nat.le_of_lt_succ hts)).reads_chainTail h hl
    case signed =>
      intro depth operators ts p hts h
      exact (ih.mono (Nat.le_of_lt_succ hts)).reads_signed h
    case someArguments =>
      intro depth operators ts p hts h
      have ih := ih.mono (Nat.le_of_lt_succ hts)
      exact ih.reads_someArguments (ih.reads_chain ih.reads_operand) h

theorem yields_of_derives (limits : Limits) (total : Nat) {ts : List Token} {e : Expr} {n d : Nat}
    (h : Derives (.chain .sum) ts e n d) (hn : n ≤ limits.operators) (hd : d ≤ limits.depth) :
    Yields (chain limits total .sum 0 0 ts) e n [] := by
  have hstop : Yields (chain limits total .sum 0 0 (ts ++ [])) e (0 + n) [] := by
    apply (complete h).stop _ _ (follows_nil _) (stops_nil _)
    · rwa [Nat.zero_add]
    · rwa [Nat.zero_add]
  rwa [List.append_nil, Nat.zero_add] at hstop

end Parser

namespace Grammar

open Spreadsheet.Parser

theorem Derives.unique {ts : List Token} {e e' : Expr} {n n' d d' : Nat}
    (h : Derives (.chain .sum) ts e n d) (h' : Derives (.chain .sum) ts e' n' d') :
    e = e' ∧ n = n' := by
  obtain ⟨_, hp⟩ := yields_of_derives ⟨max d d', max n n'⟩ 0 h
    (Nat.le_max_left _ _) (Nat.le_max_left _ _)
  obtain ⟨_, hp'⟩ := yields_of_derives ⟨max d d', max n n'⟩ 0 h'
    (Nat.le_max_right _ _) (Nat.le_max_right _ _)
  cases hp.symm.trans hp'
  exact ⟨rfl, rfl⟩

end Grammar

namespace Expr

open Grammar Spreadsheet.Parser

theorem derives_of_ofTokens_eq_ok {ts : List Token} {e : Expr} (h : ofTokens ts = .ok e) :
    ∃ n d, Derives (.chain .sum) ts e n d ∧ n ≤ 1024 ∧ d ≤ 128 := by
  rw [ofTokens] at h
  split at h
  · cases h
  split at h
  · cases h
  next p hp =>
  split at h
  next hrest =>
    cases h
    obtain ⟨us, n, d, hts, hus, hn, hd, hlim⟩ :=
      (sound .formula ts.length (ts.length + 1)).chain (Nat.lt_succ_self _) hp
    rw [hrest, List.append_nil] at hts
    have hn' : p.operators ≤ 1024 := hlim (Nat.zero_le _)
    have hd' : 0 + d ≤ 128 := hd (Nat.zero_le _)
    rw [hn, Nat.zero_add] at hn'
    rw [Nat.zero_add] at hd'
    exact ⟨n, d, hts ▸ hus, hn', hd'⟩
  · cases h

theorem ofTokens_eq_ok {ts : List Token} {e : Expr} {n d : Nat}
    (h : Derives (.chain .sum) ts e n d) (hn : n ≤ 1024) (hd : d ≤ 128) : ofTokens ts = .ok e := by
  obtain ⟨t, us, hts, -⟩ := h.exists_cons
  have hne : ts ≠ [] := by
    rw [hts]
    exact List.cons_ne_nil t us
  obtain ⟨hshort, hchain⟩ := yields_of_derives .formula ts.length h hn hd
  rw [ofTokens, if_neg hne, hchain]
  rfl

theorem ofTokens_eq_ok_iff {ts : List Token} {e : Expr} :
    ofTokens ts = .ok e ↔ ∃ n d, Derives (.chain .sum) ts e n d ∧ n ≤ 1024 ∧ d ≤ 128 := by
  constructor
  · exact derives_of_ofTokens_eq_ok
  · rintro ⟨n, d, h, hn, hd⟩
    exact ofTokens_eq_ok h hn hd

theorem parse_eq_ok_iff {cs : List Char} {e : Expr} :
    parse cs = .ok e ↔ ∃ ts, Token.tokens cs = .ok ts ∧ ofTokens ts = .ok e := by
  rw [parse]
  cases Token.tokens cs with
  | error e => simp
  | ok ts => simp

/-- A text is a formula just if its tokens derive a sum within the limits, and it then stands for the
tree of that sum. No list of tokens derives two trees. -/
theorem parse_exact :
    (∀ body e, parse body = .ok e ↔
      ∃ ts, Token.tokens body = .ok ts ∧ ∃ n d, Derives (.chain .sum) ts e n d ∧ n ≤ 1024 ∧ d ≤ 128) ∧
    (∀ ts e, ofTokens ts = .ok e ↔ ∃ n d, Derives (.chain .sum) ts e n d ∧ n ≤ 1024 ∧ d ≤ 128) ∧
    ∀ ts e e' n n' d d', Derives (.chain .sum) ts e n d → Derives (.chain .sum) ts e' n' d' →
      e = e' ∧ n = n' := by
  refine ⟨?_, fun ts e => ofTokens_eq_ok_iff, fun ts e e' n n' d d' h h' => h.unique h'⟩
  intro body e
  rw [parse]
  constructor
  · intro h
    split at h
    · cases h
    next ts hts => exact ⟨ts, hts, ofTokens_eq_ok_iff.1 h⟩
  · rintro ⟨ts, hts, h⟩
    rw [hts]
    exact ofTokens_eq_ok_iff.2 h

theorem parse_exact_minus_minus :
    ofTokens [.address ⟨1, 1⟩, .minus, .address ⟨2, 1⟩, .minus, .address ⟨3, 1⟩] =
      .ok (.binary .sub (.binary .sub (.cell ⟨1, 1⟩) (.cell ⟨2, 1⟩)) (.cell ⟨3, 1⟩)) ∧
    ¬∃ n d, Derives (.chain .sum)
      [.address ⟨1, 1⟩, .minus, .address ⟨2, 1⟩, .minus, .address ⟨3, 1⟩]
      (.binary .sub (.cell ⟨1, 1⟩) (.binary .sub (.cell ⟨2, 1⟩) (.cell ⟨3, 1⟩))) n d := by
  have hcell (a : Address) : Derives (.chain .product) [.address a] (.cell a) 0 0 :=
    .product (.unsigned (.cell a))
  have hpair := Derives.joinSum .minus (.sum (hcell ⟨1, 1⟩)) (hcell ⟨2, 1⟩)
  have hall := Derives.joinSum .minus hpair (hcell ⟨3, 1⟩)
  constructor
  · exact (parse_exact.2.1 _ _).2 ⟨2, 0, hall, by decide, by decide⟩
  · rintro ⟨n, d, h⟩
    cases (parse_exact.2.2 _ _ _ _ _ _ _ hall h).1

end Expr

end Spreadsheet
