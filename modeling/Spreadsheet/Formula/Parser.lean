import Spreadsheet.Formula.Expr
import Spreadsheet.Formula.Token

/-! From tokens to trees, by recursive descent. Sums are chains of products and products chains of
signed operands, both folded to the left. A colon between two addresses makes a range, whatever
follows. Every step returns the tokens it leaves, fewer than it was given, which bounds the recursion;
`depth` counts the signs, parentheses and calls that are open, and the operators are counted over the
whole formula. -/

namespace Spreadsheet

namespace Parser

structure Limits where
  depth : Nat
  operators : Nat

def Limits.formula : Limits := ⟨128, 1024⟩

/-- A value read from a list of tokens, with the operators counted so far and the tokens that are
left, fewer than `bound`. -/
structure Parsed (α : Type) (bound : Nat) where
  value : α
  operators : Nat
  rest : List Token
  shorter : rest.length < bound

def Parsed.map {α β : Type} {m n : Nat} (f : α → β) (p : Parsed α m) (h : m ≤ n) : Parsed β n :=
  ⟨f p.value, p.operators, p.rest, Nat.lt_of_lt_of_le p.shorter h⟩

inductive Level
  | product
  | sum
  deriving DecidableEq

def Level.rank : Level → Nat
  | .product => 0
  | .sum => 1

def Level.operator? : Level → Token → Option Operator
  | .sum, .plus => some .add
  | .sum, .minus => some .sub
  | .product, .star => some .mul
  | .product, .slash => some .div
  | _, _ => none

def unexpected (total : Nat) (ts : List Token) : SyntaxError :=
  if ts = [] then .unexpectedEnd else .unexpectedToken (total - ts.length)

variable (limits : Limits) (total : Nat)

mutual

def chain (level : Level) (depth operators : Nat) (ts : List Token) :
    Except SyntaxError (Parsed Expr ts.length) :=
  match operand level depth operators ts with
  | .error e => .error e
  | .ok p =>
    have := p.shorter
    match chainTail level depth p.operators p.value p.rest with
    | .error e => .error e
    | .ok q => .ok (q.map id (by omega))
  termination_by 8 * ts.length + 2 * level.rank + 3

def chainTail (level : Level) (depth operators : Nat) (left : Expr) (ts : List Token) :
    Except SyntaxError (Parsed Expr (ts.length + 1)) :=
  match ts with
  | [] => .ok ⟨left, operators, [], by simp⟩
  | t :: us =>
    match level.operator? t with
    | none => .ok ⟨left, operators, t :: us, by simp⟩
    | some op =>
      match operand level depth operators us with
      | .error e => .error e
      | .ok p =>
        have := p.shorter
        if p.operators < limits.operators then
          match chainTail level depth (p.operators + 1) (.binary op left p.value) p.rest with
          | .error e => .error e
          | .ok q => .ok (q.map id (by simp only [List.length_cons]; omega))
        else .error .tooManyOperators
  termination_by 8 * ts.length
  decreasing_by
    all_goals (cases level <;> simp only [List.length_cons, Level.rank] <;> omega)

def operand (level : Level) (depth operators : Nat) (ts : List Token) :
    Except SyntaxError (Parsed Expr ts.length) :=
  match level with
  | .sum => chain .product depth operators ts
  | .product => signed depth operators ts
  termination_by 8 * ts.length + 2 * level.rank + 2
  decreasing_by all_goals simp [Level.rank]

def signed (depth operators : Nat) (ts : List Token) :
    Except SyntaxError (Parsed Expr ts.length) :=
  match ts with
  | .plus :: us =>
    if depth < limits.depth then
      match signed (depth + 1) operators us with
      | .error e => .error e
      | .ok p => .ok (p.map id (by simp))
    else .error .tooDeep
  | .minus :: us =>
    if depth < limits.depth then
      match signed (depth + 1) operators us with
      | .error e => .error e
      | .ok p => .ok (p.map .neg (by simp))
    else .error .tooDeep
  | ts => primary depth operators ts
  termination_by 8 * ts.length + 1

def primary (depth operators : Nat) (ts : List Token) :
    Except SyntaxError (Parsed Expr ts.length) :=
  match ts with
  | .number n :: us => .ok ⟨.number n, operators, us, by simp⟩
  | .text s :: us => .ok ⟨.text s, operators, us, by simp⟩
  | .address a :: .colon :: .address b :: us =>
    .ok ⟨.range ⟨a, b⟩, operators, us, by simp only [List.length_cons]; omega⟩
  | .address _ :: .colon :: us => .error (unexpected total us)
  | .address a :: us => .ok ⟨.cell a, operators, us, by simp⟩
  | .name f :: .opening :: us =>
    if depth < limits.depth then
      match arguments (depth + 1) operators us with
      | .error e => .error e
      | .ok p => .ok (p.map (.call f) (by simp only [List.length_cons]; omega))
    else .error .tooDeep
  | .name f :: _ => .error (.unknownName f)
  | .opening :: us =>
    if depth < limits.depth then
      match chain .sum (depth + 1) operators us with
      | .error e => .error e
      | .ok ⟨e, n, .closing :: vs, h⟩ =>
        .ok ⟨e, n, vs, by simp only [List.length_cons] at h ⊢; omega⟩
      | .ok p => .error (unexpected total p.rest)
    else .error .tooDeep
  | ts => .error (unexpected total ts)
  termination_by 8 * ts.length
  decreasing_by all_goals (simp only [List.length_cons, Level.rank]; omega)

def arguments (depth operators : Nat) (ts : List Token) :
    Except SyntaxError (Parsed (List Expr) ts.length) :=
  match ts with
  | .closing :: us => .ok ⟨[], operators, us, by simp⟩
  | ts => someArguments depth operators ts
  termination_by 8 * ts.length + 7

def someArguments (depth operators : Nat) (ts : List Token) :
    Except SyntaxError (Parsed (List Expr) ts.length) :=
  match chain .sum depth operators ts with
  | .error e => .error e
  | .ok ⟨e, n, .closing :: us, h⟩ =>
    .ok ⟨[e], n, us, by simp only [List.length_cons] at h; omega⟩
  | .ok ⟨e, n, .comma :: us, h⟩ =>
    have : us.length < ts.length := by simp only [List.length_cons] at h; omega
    match someArguments depth n us with
    | .error e => .error e
    | .ok p => .ok (p.map (e :: ·) (by omega))
  | .ok p => .error (unexpected total p.rest)
  termination_by 8 * ts.length + 6
  decreasing_by
    · simp [Level.rank]
    · omega

end

end Parser

namespace Expr

def ofTokens (ts : List Token) : Except SyntaxError Expr :=
  if ts = [] then .error .empty
  else match Parser.chain .formula ts.length .sum 0 0 ts with
    | .error e => .error e
    | .ok p => if p.rest = [] then .ok p.value else .error (Parser.unexpected ts.length p.rest)

def parse (body : List Char) : Except SyntaxError Expr :=
  match Token.tokens body with
  | .error e => .error e
  | .ok ts => ofTokens ts

end Expr

end Spreadsheet
