import Spreadsheet.Proofs.Grammar

namespace Spreadsheet

namespace Parser

open Grammar

variable {limits : Limits} {total : Nat} {t : Token}

theorem operator?_eq_some_iff {level : Level} {t : Token} {op : Operator} :
    level.operator? t = some op ↔ Joins level t op := by
  constructor
  · intro h
    cases level <;> cases t <;> cases h <;> constructor
  · intro h
    cases h <;> rfl

def Yields {α : Type} {bound : Nat} (r : Except SyntaxError (Parsed α bound)) (v : α)
    (operators : Nat) (rest : List Token) : Prop :=
  ∃ h, r = .ok ⟨v, operators, rest, h⟩

def Stops (level : Level) (ts : List Token) : Prop :=
  ∀ t us op, ts = t :: us → ¬Joins level t op

theorem stops_nil (level : Level) : Stops level [] := by
  intro t us op hts
  cases hts

theorem not_joins_of_ends {level : Level} {op : Operator} (h : t = .closing ∨ t = .comma) :
    ¬Joins level t op := by
  rcases h with rfl | rfl <;> rintro ⟨⟩

theorem stops_of_ends (level : Level) (h : t = .closing ∨ t = .comma) (ts : List Token) :
    Stops level (t :: ts) := by
  rintro _ _ op ⟨⟩
  exact not_joins_of_ends h

section Steps

variable {level : Level} {op : Operator} {l r e : Expr} {depth operators n m : Nat}
  {ts us rest : List Token}

theorem Yields.chain (ho : Yields (operand limits total level depth operators ts) l n us)
    (ht : Yields (chainTail limits total level depth n l us) e m rest) :
    Yields (chain limits total level depth operators ts) e m rest := by
  obtain ⟨h₁, ho⟩ := ho
  obtain ⟨h₂, ht⟩ := ht
  rw [Parser.chain, ho]
  simp only [ht]
  exact ⟨_, rfl⟩

theorem Yields.join (hj : Joins level t op)
    (ho : Yields (operand limits total level depth operators ts) r n us)
    (hn : n < limits.operators)
    (ht : Yields (chainTail limits total level depth (n + 1) (.binary op l r) us) e m rest) :
    Yields (chainTail limits total level depth operators l (t :: ts)) e m rest := by
  obtain ⟨h₁, ho⟩ := ho
  obtain ⟨h₂, ht⟩ := ht
  rw [chainTail]
  simp only [operator?_eq_some_iff.2 hj, ho, if_pos hn, ht]
  exact ⟨_, rfl⟩

theorem Yields.stop (h : Stops level rest) :
    Yields (chainTail limits total level depth operators e rest) e operators rest := by
  cases rest with
  | nil =>
    rw [chainTail]
    exact ⟨_, rfl⟩
  | cons t us =>
    cases hop : level.operator? t with
    | none =>
      rw [chainTail]
      simp only [hop]
      exact ⟨_, rfl⟩
    | some op => exact absurd (operator?_eq_some_iff.1 hop) (h t us op rfl)

theorem operand_sum : operand limits total .sum depth operators ts =
    chain limits total .product depth operators ts := by
  rw [operand]

theorem operand_product : operand limits total .product depth operators ts =
    signed limits total depth operators ts := by
  rw [operand]

theorem Yields.sign {r : Expr} (hsign : t = .plus ∧ r = e ∨ t = .minus ∧ r = .neg e)
    (hd : depth < limits.depth) (h : Yields (signed limits total (depth + 1) operators ts) e n rest) :
    Yields (signed limits total depth operators (t :: ts)) r n rest := by
  obtain ⟨h₁, h⟩ := h
  rcases hsign with ⟨rfl, rfl⟩ | ⟨rfl, rfl⟩
  all_goals
    rw [signed]
    simp only [if_pos hd, h]
    exact ⟨_, rfl⟩

theorem signed_of_ne (hp : ∀ us, ts ≠ .plus :: us) (hm : ∀ us, ts ≠ .minus :: us) :
    signed limits total depth operators ts = primary limits total depth operators ts := by
  rw [signed]
  · exact hp
  · exact hm

theorem Yields.cell {a : Address} (h : ∀ us, rest ≠ .colon :: us) :
    Yields (primary limits total depth operators (.address a :: rest)) (.cell a) operators rest := by
  rw [primary]
  · exact ⟨_, rfl⟩
  · intro b us hus
    exact h _ hus
  · exact h

theorem Yields.parens (hd : depth < limits.depth)
    (h : Yields (Parser.chain limits total .sum (depth + 1) operators ts) e n (.closing :: rest)) :
    Yields (primary limits total depth operators (.opening :: ts)) e n rest := by
  obtain ⟨h₁, h⟩ := h
  rw [primary]
  simp only [if_pos hd, h]
  exact ⟨_, rfl⟩

theorem Yields.callEmpty {f : String} (hd : depth < limits.depth) :
    Yields (primary limits total depth operators (.name f :: .opening :: .closing :: rest))
      (.call f []) operators rest := by
  rw [primary]
  simp only [if_pos hd, arguments]
  exact ⟨_, rfl⟩

theorem Yields.call {f : String} {es : List Expr} (hd : depth < limits.depth)
    (hc : ∀ us, ts ≠ .closing :: us)
    (h : Yields (someArguments limits total (depth + 1) operators ts) es n rest) :
    Yields (primary limits total depth operators (.name f :: .opening :: ts)) (.call f es) n rest := by
  obtain ⟨h₁, h⟩ := h
  rw [primary]
  simp only [if_pos hd]
  rw [arguments, h]
  · exact ⟨_, rfl⟩
  · exact hc

theorem Yields.argument
    (h : Yields (Parser.chain limits total .sum depth operators ts) e n (.closing :: rest)) :
    Yields (someArguments limits total depth operators ts) [e] n rest := by
  obtain ⟨h₁, h⟩ := h
  rw [someArguments, h]
  exact ⟨_, rfl⟩

theorem Yields.comma {es : List Expr}
    (he : Yields (Parser.chain limits total .sum depth operators ts) e n (.comma :: us))
    (hes : Yields (someArguments limits total depth n us) es m rest) :
    Yields (someArguments limits total depth operators ts) (e :: es) m rest := by
  obtain ⟨h₁, he⟩ := he
  obtain ⟨h₂, hes⟩ := hes
  rw [someArguments, he]
  simp only [hes]
  exact ⟨_, rfl⟩

end Steps

def Follows (level : Level) (ts : List Token) : Prop :=
  ∀ t us, ts = t :: us → t ≠ .colon ∧ (level = .sum → ∀ op, ¬Joins .product t op)

theorem follows_nil (level : Level) : Follows level [] := by
  intro t us hts
  cases hts

theorem follows_of_ends (level : Level) {t : Token} (h : t = .closing ∨ t = .comma) (ts : List Token) :
    Follows level (t :: ts) := by
  rintro _ _ ⟨⟩
  refine ⟨?_, fun _ _ => not_joins_of_ends h⟩
  rcases h with rfl | rfl <;> exact Token.noConfusion

theorem follows_of_joins {level : Level} {t : Token} {op : Operator} (h : Joins level t op)
    (ts : List Token) : Follows level (t :: ts) := by
  intro u us hts
  cases hts
  constructor
  · cases h <;> exact Token.noConfusion
  · intro hlevel op' hj
    cases hlevel
    cases h <;> cases hj

theorem Follows.product {ts : List Token} (h : Follows .sum ts) : Follows .product ts :=
  fun t us hts => ⟨(h t us hts).1, Level.noConfusion⟩

/-- How the tokens of a symbol are read when others follow. In a chain the reading goes on behind them. -/
def Complete (limits : Limits) (total : Nat) :
    (s : Symbol) → List Token → s.Tree → Nat → Nat → Prop
  | .chain level, ts, e, n, d => ∀ depth operators rest e' m rest', depth + d ≤ limits.depth →
      operators + n ≤ limits.operators → Follows level rest →
      Yields (chainTail limits total level depth (operators + n) e rest) e' m rest' →
      Yields (chain limits total level depth operators (ts ++ rest)) e' m rest'
  | .signed, ts, e, n, d => ∀ depth operators rest, depth + d ≤ limits.depth →
      operators + n ≤ limits.operators → Follows .product rest →
      Yields (signed limits total depth operators (ts ++ rest)) e (operators + n) rest
  | .primary, ts, e, n, d => ∀ depth operators rest, depth + d ≤ limits.depth →
      operators + n ≤ limits.operators → Follows .product rest →
      Yields (primary limits total depth operators (ts ++ rest)) e (operators + n) rest
  | .arguments, ts, es, n, d => ∀ depth operators rest, depth + d ≤ limits.depth →
      operators + n ≤ limits.operators →
      Yields (someArguments limits total depth operators (ts ++ .closing :: rest)) es
        (operators + n) rest

theorem Complete.stop {level : Level} {ts rest : List Token} {e : Expr} {n d depth operators : Nat}
    (h : Complete limits total (.chain level) ts e n d) (hd : depth + d ≤ limits.depth)
    (hn : operators + n ≤ limits.operators) (hf : Follows level rest)
    (hrest : Stops level rest) :
    Yields (chain limits total level depth operators (ts ++ rest)) e (operators + n) rest :=
  h depth operators rest _ _ _ hd hn hf (Yields.stop hrest)

def CompleteOperand (limits : Limits) (total : Nat) (level : Level) (ts : List Token) (e : Expr)
    (n d : Nat) : Prop :=
  ∀ depth operators rest, depth + d ≤ limits.depth → operators + n ≤ limits.operators →
    Follows level rest →
    Yields (operand limits total level depth operators (ts ++ rest)) e (operators + n) rest

section Chains

variable {level : Level} {t : Token} {op : Operator} {ts us : List Token} {e l r : Expr}
  {n m d k : Nat}

theorem Complete.operand_sum (h : Complete limits total (.chain .product) ts e n d) :
    CompleteOperand limits total .sum ts e n d := by
  intro depth operators rest hd hn hf
  rw [Parser.operand_sum]
  exact h.stop hd hn hf.product fun t us op hts => (hf t us hts).2 rfl op

theorem Complete.operand_product (h : Complete limits total .signed ts e n d) :
    CompleteOperand limits total .product ts e n d := by
  intro depth operators rest hd hn hf
  rw [Parser.operand_product]
  exact h depth operators rest hd hn hf

theorem CompleteOperand.chain (h : CompleteOperand limits total level ts e n d) :
    Complete limits total (.chain level) ts e n d := by
  intro depth operators rest e' m rest' hd hn hf htail
  exact (h depth operators rest hd hn hf).chain htail

theorem Complete.join (hl : Complete limits total (.chain level) ts l n d) (hj : Joins level t op)
    (hr : CompleteOperand limits total level us r m k) :
    Complete limits total (.chain level) (ts ++ t :: us) (.binary op l r) (n + m + 1) (max d k) := by
  intro depth operators rest e' m' rest' hd hn hf htail
  rw [List.append_assoc]
  apply hl depth operators _ e' m' rest' (by omega) (by omega) (follows_of_joins hj _)
  apply Yields.join hj (hr depth _ rest (by omega) (by omega) hf) (by omega)
  simpa only [Nat.add_assoc] using htail

end Chains

theorem complete {s : Symbol} {ts : List Token} {e : s.Tree} {n d : Nat} (h : Derives s ts e n d) :
    Complete limits total s ts e n d := by
  induction h with
  | sum _ ih => exact ih.operand_sum.chain
  | product _ ih => exact ih.operand_product.chain
  | joinSum hj _ _ ihl ihr => exact ihl.join hj ihr.operand_sum
  | joinProduct hj _ _ ihl ihr => exact ihl.join hj ihr.operand_product
  | unsigned hp ih =>
    intro depth operators rest hd hn hf
    rw [signed_of_ne]
    · exact ih depth operators rest hd hn hf
    · intro us hus
      cases hp <;> cases hus
    · intro us hus
      cases hp <;> cases hus
  | plus _ ih =>
    intro depth operators rest hd hn hf
    exact Yields.sign (.inl ⟨rfl, rfl⟩) (by omega) (ih (depth + 1) operators rest (by omega) hn hf)
  | minus _ ih =>
    intro depth operators rest hd hn hf
    exact Yields.sign (.inr ⟨rfl, rfl⟩) (by omega) (ih (depth + 1) operators rest (by omega) hn hf)
  | number x =>
    intro depth operators rest _ _ _
    simp only [List.cons_append, List.nil_append, Nat.add_zero]
    rw [primary]
    exact ⟨_, rfl⟩
  | text x =>
    intro depth operators rest _ _ _
    simp only [List.cons_append, List.nil_append, Nat.add_zero]
    rw [primary]
    exact ⟨_, rfl⟩
  | cell a =>
    intro depth operators rest _ _ hf
    exact Yields.cell fun us hus => (hf _ _ hus).1 rfl
  | range a b =>
    intro depth operators rest _ _ _
    simp only [List.cons_append, List.nil_append, Nat.add_zero]
    rw [primary]
    exact ⟨_, rfl⟩
  | callEmpty f =>
    intro depth operators rest hd _ _
    exact Yields.callEmpty (by omega)
  | call hes ih =>
    intro depth operators rest hd hn _
    rw [List.append_assoc]
    refine Yields.call (by omega) ?_ (ih (depth + 1) operators rest (by omega) hn)
    obtain ⟨t, us, rfl, ht⟩ := hes.exists_cons
    rintro vs ⟨⟩
    exact ht rfl
  | parens _ ih =>
    intro depth operators rest hd hn _
    rw [List.append_assoc]
    exact Yields.parens (by omega)
      (ih.stop (by omega) hn (follows_of_ends _ (.inl rfl) _) (stops_of_ends _ (.inl rfl) _))
  | argument _ ih =>
    intro depth operators rest hd hn
    exact Yields.argument (ih.stop hd hn (follows_of_ends _ (.inl rfl) _) (stops_of_ends _ (.inl rfl) _))
  | comma _ _ ihe ihes =>
    intro depth operators rest hd hn
    rw [List.append_assoc, List.cons_append]
    rw [← Nat.add_assoc]
    exact Yields.comma
      (ihe.stop (by omega) (by omega) (follows_of_ends _ (.inr rfl) _) (stops_of_ends _ (.inr rfl) _))
      (ihes depth _ rest (by omega) (by omega))

end Parser

end Spreadsheet
