import Spreadsheet.Proofs.Layout
import Spreadsheet.Proofs.Parser.Sound
import Spreadsheet.Proofs.Success
import Spreadsheet.Proofs.Tree

namespace Spreadsheet

namespace Expr

def isBinary : Expr → Bool
  | .binary .. => true
  | _ => false

def nests : Expr → Bool
  | .neg _ | .call .. => true
  | _ => false

theorem Path.length_le {e : Expr} {path : List Expr} (h : e.Path path) :
    path.length ≤ path.countP isBinary + path.countP nests + 1 := by
  induction h with
  | leaf => exact Nat.le_add_left _ _
  | @step e part path hpart _ ih =>
    rw [List.length_cons, List.countP_cons, List.countP_cons]
    cases e with
    | neg | call | binary =>
      simp only [isBinary, nests, if_true, if_false, Bool.false_eq_true]
      omega
    | _ => cases hpart

def Nested (d : Nat) (e : Expr) : Prop :=
  ∀ path, e.Path path → path.countP nests ≤ d

theorem Nested.mono {d k : Nat} {e : Expr} (h : e.Nested d) (hle : d ≤ k) : e.Nested k :=
  fun path hpath => Nat.le_trans (h path hpath) hle

theorem Nested.of_parts {d : Nat} {e : Expr} (h : ∀ part ∈ e.parts, part.Nested d) :
    e.Nested (d + if e.nests then 1 else 0) := by
  intro path hpath
  cases hpath with
  | leaf =>
    rw [List.countP_singleton]
    exact Nat.le_add_left _ _
  | step hpart hpath =>
    rw [List.countP_cons]
    exact Nat.add_le_add_right (h _ hpart _ hpath) _

/-- A function by recursion, told by what it does with its calls of itself, run with no more than `n` of
its calls open at once. -/
def within {α : Type} (step : (Expr → Option α) → Expr → Option α) : Nat → Expr → Option α
  | 0 => fun _ => none
  | n + 1 => step (within step n)

def ByParts {α : Type} (step : (Expr → Option α) → Expr → Option α) (f : Expr → α) : Prop :=
  ∀ self e, (∀ part ∈ e.parts, self part = some (f part)) → step self e = some (f e)

theorem ByParts.within_eq {α : Type} {step : (Expr → Option α) → Expr → Option α} {f : Expr → α}
    (h : ByParts step f) {n : Nat} {e : Expr} (hn : e.height ≤ n) : within step n e = some (f e) := by
  induction n generalizing e with
  | zero =>
    rw [height_eq] at hn
    exact absurd hn (Nat.not_succ_le_zero _)
  | succ n ih =>
    apply h
    intro part hpart
    exact ih (Nat.le_of_lt_succ (Nat.lt_of_lt_of_le (height_lt_of_mem_parts hpart) hn))

def evalStep (g : Grid) (resolve : Address → Binary64) (self : Expr → Option (Except Failure Scalar)) :
    Expr → Option (Except Failure Scalar)
  | .number n => some (.ok (.number n))
  | .text s => some (.ok (.text s))
  | .cell a => some (.ok (.number (resolve a)))
  | .range r => some (.error (.fault (.bareRange r)))
  | .neg e => do return ((← self e).bind Scalar.toNumber).map fun n => .number (-n)
  | .binary op l r => do
    let left := (← self l).bind Scalar.toNumber
    let right := (← self r).bind Scalar.toNumber
    return (Failure.both left right).map fun (x, y) => .number (op.apply x y)
  | .call f args => match Function.ofName? f with
    | some f => do return f.call g (← args.mapM fun e => do return ⟨e, ← self e⟩)
    | none => some (.error (.fault (.unknownFunction f)))

def referencesStep (g : Grid) (self : Expr → Option (List Address)) : Expr → Option (List Address)
  | .number _ | .text _ => some []
  | .cell a => some [a]
  | .range r => some (g.cellsIn r)
  | .neg e => self e
  | .binary _ l r => do return (← self l) ++ (← self r)
  | .call _ args => do return (← args.mapM self).flatten

def readsStep (a : Address) (self : Expr → Option Bool) : Expr → Option Bool
  | .number _ | .text _ => some false
  | .cell b => some (b == a)
  | .range r => some (r.contains a)
  | .neg e => self e
  | .binary _ l r => do return (← self l) || (← self r)
  | .call _ args => do return (← args.mapM self).any id

theorem byParts_eval (g : Grid) (resolve : Address → Binary64) :
    ByParts (evalStep g resolve) (eval g resolve) := by
  intro self e h
  cases e with
  | call f args =>
    have hargs : (args.mapM fun e => return ⟨e, ← self e⟩) = some (evalArgs g resolve args) := by
      rw [evalArgs_eq_map]
      apply mapM_eq_pure_map
      intro e he
      rw [h e he]
      rfl
    rw [evalStep, eval, hargs]
    cases Function.ofName? f <;> rfl
  | neg e => simp [evalStep, eval, h e (by simp [parts])]
  | binary op l r => simp [evalStep, eval, h l (by simp [parts]), h r (by simp [parts])]
  | _ => rfl

theorem byParts_references (g : Grid) : ByParts (referencesStep g) (references g) := by
  intro self e h
  cases e with
  | call f args =>
    have hargs : args.mapM self = some (args.map (references g)) := mapM_eq_pure_map h
    rw [referencesStep, references, hargs, argReferences_eq_flatMap, List.flatMap_def]
    rfl
  | neg e => exact h e List.mem_cons_self
  | binary op l r =>
    simp [referencesStep, references, h l (by simp [parts]), h r (by simp [parts])]
  | _ => rfl

theorem byParts_reads (a : Address) : ByParts (readsStep a) (reads a) := by
  intro self e h
  cases e with
  | call f args =>
    have hargs : args.mapM self = some (args.map (reads a)) := mapM_eq_pure_map h
    have hany : (args.map (reads a)).any id = args.any (reads a) := List.any_map
    rw [readsStep, reads, hargs, argReads_eq_any, ← hany]
    rfl
  | neg e => exact h e List.mem_cons_self
  | binary op l r => simp [readsStep, reads, h l (by simp [parts]), h r (by simp [parts])]
  | _ => rfl

end Expr

namespace Grammar

open Spreadsheet.Expr

theorem Derives.countP_isBinary {s : Symbol} {ts : List Token} {e : s.Tree} {n d : Nat}
    (h : Derives s ts e n d) : (argNodes (s.trees e)).countP isBinary = n := by
  induction h with
  | sum _ ih | product _ ih | unsigned _ ih | plus _ ih | parens _ ih | argument _ ih => exact ih
  | joinSum _ _ _ ihl ihr | joinProduct _ _ _ ihl ihr =>
    simp_all [Symbol.trees, argNodes, nodes, isBinary, List.countP_cons]
  | minus _ ih | call _ ih => simp_all [Symbol.trees, argNodes, nodes, isBinary]
  | number | text | cell | range | callEmpty => rfl
  | comma _ _ ihl ihr => simp_all [Symbol.trees, argNodes]

theorem Derives.nested {s : Symbol} {ts : List Token} {e : s.Tree} {n d : Nat}
    (h : Derives s ts e n d) : ∀ t ∈ s.trees e, t.Nested d := by
  induction h with
  | sum _ ih | product _ ih | unsigned _ ih | argument _ ih => exact ih
  | @joinSum _ op _ _ l r _ _ d k _ _ _ ihl ihr | @joinProduct _ op _ _ l r _ _ d k _ _ _ ihl ihr =>
-- Operators do not nest: each of their operands keeps to the greater of the two depths.
    have hparts : ∀ part ∈ [l, r], Nested (max d k) part := by
      rw [List.forall_mem_cons, List.forall_mem_singleton]
      exact ⟨(ihl l List.mem_cons_self).mono (Nat.le_max_left d k),
        (ihr r List.mem_cons_self).mono (Nat.le_max_right d k)⟩
    exact List.forall_mem_singleton.2 (Nested.of_parts (e := .binary op l r) hparts)
  | plus _ ih | parens _ ih => exact fun t ht => (ih t ht).mono (Nat.le_succ _)
  | @minus _ e _ _ _ ih => exact List.forall_mem_singleton.2 (Nested.of_parts (e := .neg e) ih)
  | @call f _ es _ _ _ ih => exact List.forall_mem_singleton.2 (Nested.of_parts (e := .call f es) ih)
  | number x => exact List.forall_mem_singleton.2 (Nested.of_parts (e := .number x) nofun)
  | text s => exact List.forall_mem_singleton.2 (Nested.of_parts (e := .text s) nofun)
  | cell a => exact List.forall_mem_singleton.2 (Nested.of_parts (e := .cell a) nofun)
  | range a b => exact List.forall_mem_singleton.2 (Nested.of_parts (e := .range ⟨a, b⟩) nofun)
  | callEmpty f => exact List.forall_mem_singleton.2 (Nested.of_parts (e := .call f []) nofun)
  | comma _ _ ihl ihr =>
    intro t ht
    rcases List.mem_cons.1 ht with rfl | ht
    · exact (ihl t List.mem_cons_self).mono (Nat.le_max_left _ _)
    · exact (ihr t ht).mono (Nat.le_max_right _ _)

end Grammar

namespace Expr

open Grammar

/-- A formula, however long, has at most 1024 operators, and on no path from its root to a leaf more than
128 signs and calls. It is at most 1153 nodes high, and neither its value nor the cells that it reads take
more than that many open calls. -/
theorem depth_of_parse (body : List Char) (e : Expr) (h : parse body = .ok e) :
    e.nodes.countP isBinary ≤ 1024 ∧
    (∀ path, e.Path path → path.countP nests ≤ 128 ∧ path.length ≤ e.height) ∧ e.height ≤ 1153 ∧
    (∀ g resolve, within (evalStep g resolve) 1153 e = some (e.eval g resolve)) ∧
    (∀ g, within (referencesStep g) 1153 e = some (e.references g)) ∧
    ∀ a, within (readsStep a) 1153 e = some (e.reads a) := by
  obtain ⟨ts, -, hts⟩ := parse_eq_ok_iff.1 h
  obtain ⟨n, d, hderives, hn, hd⟩ := derives_of_ofTokens_eq_ok hts
  have hoperators : e.nodes.countP isBinary ≤ 1024 := by
    have hcount := hderives.countP_isBinary
    simp only [Symbol.trees, argNodes, List.append_nil] at hcount
    rwa [hcount]
  have hnests : e.Nested 128 := (hderives.nested e List.mem_cons_self).mono hd
  have hheight : e.height ≤ 1153 := by
    obtain ⟨path, hpath, hlength⟩ := e.exists_path
    have hbinary := hpath.sublist_nodes.countP_le (p := isBinary)
    have hnested := hnests path hpath
    have := hpath.length_le
    omega
  exact ⟨hoperators, fun path hpath => ⟨hnests path hpath, hpath.length_le_height⟩, hheight,
    fun g resolve => (byParts_eval g resolve).within_eq hheight,
    fun g => (byParts_references g).within_eq hheight, fun a => (byParts_reads a).within_eq hheight⟩

def tower (n : Nat) : Nat → Expr
  | 0 => Expr.neg^[n] (.cell ⟨0, 0⟩)
  | m + 1 => .binary .add (tower n m) (.cell ⟨0, 0⟩)

def towerText (n m : Nat) : List Char :=
  List.replicate n '-' ++ 'A' :: '1' :: (List.replicate m ['+', 'A', '1']).flatten

def towerTokens (n m : Nat) : List Token :=
  List.replicate n .minus ++ .address ⟨0, 0⟩ :: (List.replicate m [.plus, .address ⟨0, 0⟩]).flatten

theorem tokens_cell {rest : List Char} (hrest : ∀ c ∈ rest.head?, Token.isWordPart c = false) :
    Token.tokens ('A' :: '1' :: rest) = (Token.tokens rest).map (.address ⟨0, 0⟩ :: ·) := by
  have hword : Token.IsWord ['A', '1'] := ⟨'A', ['1'], rfl, rfl, List.forall_mem_singleton.2 rfl⟩
  have hplace : Address.parseList? ['A', '1'] = some ⟨0, 0⟩ := by decide +kernel
  exact Token.tokens_append (l := ⟨['A', '1'], .address ⟨0, 0⟩, .address hword hplace⟩) hrest

theorem tokens_towerText (n m : Nat) : Token.tokens (towerText n m) = .ok (towerTokens n m) := by
  have hmark {c : Char} {t : Token} (h : Token.Mark c t) (cs : List Char) :
      Token.tokens (c :: cs) = (Token.tokens cs).map (t :: ·) :=
    Token.tokens_append (l := ⟨[c], t, .mark h⟩) (by cases h <;> exact fun _ _ => rfl)
  induction n with
  | zero =>
    induction m with
    | zero =>
      rw [towerText, List.replicate_zero, List.nil_append, tokens_cell (by simp), List.replicate_zero,
        List.flatten_nil, Token.tokens]
      rfl
    | succ m ih =>
      have hcells : towerText 0 (m + 1) = 'A' :: '1' :: '+' :: towerText 0 m := rfl
      have hhead : ∀ c ∈ ('+' :: towerText 0 m).head?, Token.isWordPart c = false := by
        rintro c ⟨⟩
        rfl
      rw [hcells, tokens_cell hhead, hmark .plus, ih]
      rfl
  | succ n ih =>
    have hsign : towerText (n + 1) m = '-' :: towerText n m := rfl
    rw [hsign, hmark .minus, ih]
    rfl

theorem derives_tower (n m : Nat) : Derives (.chain .sum) (towerTokens n m) (tower n m) m n := by
  induction m with
  | zero =>
    have hsigns : Derives .signed (List.replicate n .minus ++ [.address ⟨0, 0⟩])
        (Expr.neg^[n] (.cell ⟨0, 0⟩)) 0 n := by
      induction n with
      | zero => exact .unsigned (.cell _)
      | succ n ih =>
        rw [Function.iterate_succ_apply']
        exact .minus ih
    exact .sum (.product hsigns)
  | succ m ih =>
    have hsum := Derives.joinSum .plus ih (.product (.unsigned (.cell ⟨0, 0⟩)))
    rw [Nat.max_zero] at hsum
    have htokens : towerTokens n (m + 1) = towerTokens n m ++ [.plus, .address ⟨0, 0⟩] := by
      simp [towerTokens, List.replicate_succ']
    rw [htokens]
    exact hsum

theorem height_tower (n m : Nat) : (tower n m).height = n + m + 1 := by
  induction m with
  | zero =>
    rw [tower]
    induction n with
    | zero => rfl
    | succ n ih => rw [Function.iterate_succ_apply', height, ih]
  | succ m ih =>
    rw [tower, height, ih, height, Nat.max_eq_left (Nat.le_add_left _ _)]
    rfl

/-- No smaller bounds would do. -/
theorem depth_of_parse_tower : ∃ e, parse (towerText 128 1024) = .ok e ∧ e.height = 1153 ∧
    (e.nodes.countP isBinary ≤ 1024 ∧ ∀ path, e.Path path → path.countP nests ≤ 128) ∧
    ∀ g resolve, within (evalStep g resolve) 1153 e = some (e.eval g resolve) := by
  have hparse : parse (towerText 128 1024) = .ok (tower 128 1024) :=
    parse_eq_ok_iff.2 ⟨_, tokens_towerText 128 1024,
      ofTokens_eq_ok (derives_tower 128 1024) (Nat.le_refl _) (Nat.le_refl _)⟩
  obtain ⟨hoperators, hpath, -, heval, -⟩ := depth_of_parse _ _ hparse
  exact ⟨_, hparse, height_tower 128 1024, ⟨hoperators, fun path h => (hpath path h).1⟩, heval⟩

end Expr

end Spreadsheet
