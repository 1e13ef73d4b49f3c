import Spreadsheet.Proofs.Parser.Sound
import Spreadsheet.Proofs.Rectangle
import Spreadsheet.Proofs.Tree

namespace Spreadsheet

namespace Expr

def listed (g : Grid) : Expr → List Address
  | .cell a => [a]
  | .range r => r.cells.filter g.inBounds
  | _ => []

def names (a : Address) : Expr → Bool
  | .cell b => b == a
  | .range r => r.contains a
  | _ => false

variable {g : Grid} {a : Address}

theorem references_eq_append (g : Grid) (e : Expr) :
    e.references g = e.listed g ++ e.parts.flatMap (references g) := by
  cases e with
  | range r => simp [references, listed, parts, g.cellsIn_eq_filter]
  | call f args => simp [references, listed, parts, argReferences_eq_flatMap]
  | _ => simp [references, listed, parts]

theorem reads_eq_or (a : Address) (e : Expr) : e.reads a = (e.names a || e.parts.any (reads a)) := by
  cases e with
  | call f args => simp [reads, names, parts, argReads_eq_any]
  | _ => simp [reads, names, parts]

theorem references_eq_flatMap (g : Grid) (e : Expr) :
    e.references g = e.nodes.flatMap (listed g) := by
  induction e using induction_parts with
  | h e ih =>
  have hparts : e.parts.flatMap (references g) = e.parts.flatMap fun e => e.nodes.flatMap (listed g) :=
    List.flatMap_congr ih
  rw [references_eq_append, nodes_eq, List.flatMap_cons, argNodes_eq_flatMap, List.flatMap_assoc, hparts]

theorem reads_iff {e : Expr} : e.reads a = true ↔ ∃ node ∈ e.nodes, node.names a = true := by
  induction e using induction_parts with
  | h e ih =>
  rw [reads_eq_or, Bool.or_eq_true, List.any_eq_true, nodes_eq, argNodes_eq_flatMap]
  simp only [List.mem_cons, exists_eq_or_imp]
  apply or_congr_right
  constructor
  · rintro ⟨part, hpart, hreads⟩
    obtain ⟨node, hnode, hnames⟩ := (ih part hpart).1 hreads
    exact ⟨node, List.mem_flatMap.2 ⟨part, hpart, hnode⟩, hnames⟩
  · rintro ⟨node, hnode, hnames⟩
    obtain ⟨part, hpart, hnode⟩ := List.mem_flatMap.1 hnode
    exact ⟨part, hpart, (ih part hpart).2 ⟨node, hnode, hnames⟩⟩

theorem mem_listed_iff {e : Expr} :
    a ∈ e.listed g ↔ e.names a = true ∧ (g.inBounds a = true ∨ e = .cell a) := by
  cases e with
  | cell b =>
    rw [listed, names, List.mem_singleton, beq_iff_eq, cell.injEq]
    exact ⟨fun h => ⟨h.symm, .inr h.symm⟩, fun h => h.1.symm⟩
  | range r => simp [listed, names, Range.mem_cells]
  | _ => simp [listed, names]

theorem mem_references_iff {e : Expr} :
    a ∈ e.references g ↔ e.reads a = true ∧ (g.inBounds a = true ∨ .cell a ∈ e.nodes) := by
  rw [references_eq_flatMap, reads_iff, List.mem_flatMap]
  constructor
  · rintro ⟨node, hnode, ha⟩
    obtain ⟨hnames, hbounds | rfl⟩ := mem_listed_iff.1 ha
    · exact ⟨⟨node, hnode, hnames⟩, .inl hbounds⟩
    · exact ⟨⟨_, hnode, hnames⟩, .inr hnode⟩
  · rintro ⟨⟨node, hnode, hnames⟩, hbounds | hcell⟩
    · exact ⟨node, hnode, mem_listed_iff.2 ⟨hnames, .inl hbounds⟩⟩
    · exact ⟨_, hcell, List.mem_singleton.2 rfl⟩

def written : Expr → List Address
  | .cell a => [a]
  | .range r => [r.start, r.stop]
  | _ => []

end Expr

def Token.address? : Token → Option Address
  | .address a => some a
  | _ => none

namespace Grammar

open Spreadsheet.Expr

theorem Joins.address?_eq_none {level : Parser.Level} {t : Token} {op : Operator}
    (h : Joins level t op) : t.address? = none := by
  cases h <;> rfl

theorem Derives.written {s : Symbol} {ts : List Token} {e : s.Tree} {n d : Nat}
    (h : Derives s ts e n d) :
    (argNodes (s.trees e)).flatMap Expr.written = ts.filterMap Token.address? := by
  induction h with
  | sum _ ih | product _ ih | unsigned _ ih | argument _ ih => exact ih
  | number | text | cell | range | callEmpty => rfl
  | joinSum hj _ _ ihl ihr | joinProduct hj _ _ ihl ihr =>
    simp_all [Symbol.trees, argNodes, nodes, Expr.written, hj.address?_eq_none]
  | plus _ ih | minus _ ih | parens _ ih | call _ ih | comma _ _ ihl ihr =>
    simp_all [Symbol.trees, argNodes, nodes, Expr.written, Token.address?, List.filterMap_cons]

end Grammar

namespace Expr

open Grammar

/-- The list of the cells that a formula reads goes through its nodes from left to right, which is the
order of its text, and through a range row by row. It holds the cells that are asked for, but for those
off the grid that only ranges name. -/
theorem references_exact (e : Expr) (g : Grid) :
    (∀ a, a ∈ e.references g ↔
      e.reads a = true ∧ (g.inBounds a = true ∨ .cell a ∈ e.nodes)) ∧
    e.references g = e.nodes.flatMap (listed g) ∧
    (∀ r, (listed g (.range r)).Pairwise Address.Before ∧
      ∀ a, a ∈ listed g (.range r) ↔ r.contains a = true ∧ g.inBounds a = true) ∧
    ∀ body, parse body = .ok e → ∃ ts, Token.tokens body = .ok ts ∧
      e.nodes.flatMap written = ts.filterMap Token.address? := by
  refine ⟨fun a => mem_references_iff, e.references_eq_flatMap g, fun r => ⟨?_, fun a => ?_⟩, ?_⟩
  · exact r.pairwise_cells.filter _
  · rw [listed, List.mem_filter, Range.mem_cells]
  · intro body h
    obtain ⟨ts, hts, he⟩ := parse_eq_ok_iff.1 h
    obtain ⟨n, d, hderives, -⟩ := derives_of_ofTokens_eq_ok he
    have hwritten := hderives.written
    simp only [Symbol.trees, argNodes, List.append_nil] at hwritten
    exact ⟨ts, hts, hwritten⟩

def sprawl : Expr :=
  .binary .add (.call "SUM" [.range ⟨⟨1, 2⟩, ⟨0, 0⟩⟩]) (.binary .mul (.cell ⟨25, 8⟩) (.cell ⟨0, 0⟩))

theorem parse_sprawl : parse "SUM(B3:A1)+Z9*A1".toList = .ok sprawl := by
  have hrange := Derives.argument (.of_primary (.range ⟨1, 2⟩ ⟨0, 0⟩))
  have hsum := Derives.of_primary (.call (f := "SUM") hrange)
  have hfar := Derives.product (.unsigned (.cell ⟨25, 8⟩))
  have hproduct := Derives.joinProduct .star hfar (.unsigned (.cell ⟨0, 0⟩))
  have hall := Derives.joinSum .plus hsum hproduct
  have htokens : Token.tokens "SUM(B3:A1)+Z9*A1".toList =
      .ok [.name "SUM", .opening, .address ⟨1, 2⟩, .colon, .address ⟨0, 0⟩, .closing, .plus,
        .address ⟨25, 8⟩, .star, .address ⟨0, 0⟩] := by
    decide +kernel
  rw [parse, htokens]
  exact ofTokens_eq_ok hall (by decide) (by decide)

theorem references_exact_sprawl :
    parse "SUM(B3:A1)+Z9*A1".toList = .ok sprawl ∧
    sprawl.references ⟨2, 2, fun _ => none⟩ =
      [⟨0, 0⟩, ⟨1, 0⟩, ⟨0, 1⟩, ⟨1, 1⟩, ⟨25, 8⟩, ⟨0, 0⟩] ∧
    ⟨0, 2⟩ ∉ sprawl.references ⟨2, 2, fun _ => none⟩ ∧ sprawl.reads ⟨0, 2⟩ = true ∧
    ∃ ts, Token.tokens "SUM(B3:A1)+Z9*A1".toList = .ok ts ∧
      ts.filterMap Token.address? = [⟨1, 2⟩, ⟨0, 0⟩, ⟨25, 8⟩, ⟨0, 0⟩] := by
  obtain ⟨hmem, hlist, -, horder⟩ := references_exact sprawl ⟨2, 2, fun _ => none⟩
  obtain ⟨ts, hts, hwritten⟩ := horder _ parse_sprawl
  refine ⟨parse_sprawl, hlist, ?_, rfl, ts, hts, hwritten.symm⟩
  rw [hmem]
  rintro ⟨-, hbounds | hcell⟩
  · cases hbounds
  · simp [sprawl, nodes, argNodes] at hcell

end Expr

end Spreadsheet
