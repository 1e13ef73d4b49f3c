import Spreadsheet.Formula.Parser

/-! The grammar of formulas, without a parser. `Derives s ts e n d` says that the tokens `ts` are an
`s` that stands for `e`, holds `n` binary operators and opens at most `d` signs, parentheses and calls
within each other. -/

namespace Spreadsheet

namespace Grammar

open Spreadsheet.Parser (Level)

inductive Joins : Level → Token → Operator → Prop
  | plus : Joins .sum .plus .add
  | minus : Joins .sum .minus .sub
  | star : Joins .product .star .mul
  | slash : Joins .product .slash .div

inductive Symbol
  | chain (level : Level)
  | signed
  | primary
  | arguments

abbrev Symbol.Tree : Symbol → Type
  | .arguments => List Expr
  | .chain _ | .signed | .primary => Expr

inductive Derives : (s : Symbol) → List Token → s.Tree → Nat → Nat → Prop
  | sum {ts e n d} : Derives (.chain .product) ts e n d → Derives (.chain .sum) ts e n d
  | product {ts e n d} : Derives .signed ts e n d → Derives (.chain .product) ts e n d
  | joinSum {t op ts us l r n m d k} : Joins .sum t op → Derives (.chain .sum) ts l n d →
      Derives (.chain .product) us r m k →
      Derives (.chain .sum) (ts ++ t :: us) (.binary op l r) (n + m + 1) (max d k)
  | joinProduct {t op ts us l r n m d k} : Joins .product t op →
      Derives (.chain .product) ts l n d → Derives .signed us r m k →
      Derives (.chain .product) (ts ++ t :: us) (.binary op l r) (n + m + 1) (max d k)
  | unsigned {ts e n d} : Derives .primary ts e n d → Derives .signed ts e n d
  | plus {ts e n d} : Derives .signed ts e n d → Derives .signed (.plus :: ts) e n (d + 1)
  | minus {ts e n d} : Derives .signed ts e n d → Derives .signed (.minus :: ts) (.neg e) n (d + 1)
  | number (x : Binary64) : Derives .primary [.number x] (.number x) 0 0
  | text (s : String) : Derives .primary [.text s] (.text s) 0 0
  | cell (a : Address) : Derives .primary [.address a] (.cell a) 0 0
  | range (a b : Address) : Derives .primary [.address a, .colon, .address b] (.range ⟨a, b⟩) 0 0
  | callEmpty (f : String) : Derives .primary [.name f, .opening, .closing] (.call f []) 0 1
  | call {f ts es n d} : Derives .arguments ts es n d →
      Derives .primary (.name f :: .opening :: ts ++ [.closing]) (.call f es) n (d + 1)
  | parens {ts e n d} : Derives (.chain .sum) ts e n d →
      Derives .primary (.opening :: ts ++ [.closing]) e n (d + 1)
  | argument {ts e n d} : Derives (.chain .sum) ts e n d → Derives .arguments ts [e] n d
  | comma {ts us e es n m d k} : Derives (.chain .sum) ts e n d → Derives .arguments us es m k →
      Derives .arguments (ts ++ .comma :: us) (e :: es) (n + m) (max d k)

theorem Derives.of_primary {ts : List Token} {e : Expr} {n d : Nat} (h : Derives .primary ts e n d) :
    Derives (.chain .sum) ts e n d :=
  .sum (.product (.unsigned h))

def Operand : Level → List Token → Expr → Nat → Nat → Prop
  | .sum => Derives (.chain .product)
  | .product => Derives .signed

theorem Operand.chain {level : Level} {ts : List Token} {e : Expr} {n d : Nat}
    (h : Operand level ts e n d) : Derives (.chain level) ts e n d := by
  cases level with
  | sum => exact .sum h
  | product => exact .product h

theorem Operand.join {level : Level} {t : Token} {op : Operator} {ts us : List Token} {l r : Expr}
    {n m d k : Nat} (hr : Operand level us r m k) (hj : Joins level t op)
    (hl : Derives (.chain level) ts l n d) :
    Derives (.chain level) (ts ++ t :: us) (.binary op l r) (n + m + 1) (max d k) := by
  cases level with
  | sum => exact .joinSum hj hl hr
  | product => exact .joinProduct hj hl hr

theorem Derives.exists_cons {s : Symbol} {ts : List Token} {e : s.Tree} {n d : Nat}
    (h : Derives s ts e n d) : ∃ t us, ts = t :: us ∧ t ≠ .closing := by
  induction h with
  | sum _ ih => exact ih
  | product _ ih => exact ih
  | joinSum _ _ _ ih _ =>
    obtain ⟨t, us, rfl, ht⟩ := ih
    exact ⟨t, _, rfl, ht⟩
  | joinProduct _ _ _ ih _ =>
    obtain ⟨t, us, rfl, ht⟩ := ih
    exact ⟨t, _, rfl, ht⟩
  | unsigned _ ih => exact ih
  | argument _ ih => exact ih
  | comma _ _ ih _ =>
    obtain ⟨t, us, rfl, ht⟩ := ih
    exact ⟨t, _, rfl, ht⟩
  | _ => exact ⟨_, _, rfl, Token.noConfusion⟩

end Grammar

end Spreadsheet
