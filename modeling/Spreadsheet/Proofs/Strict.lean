import Spreadsheet.Proofs.Dependency
import Spreadsheet.Proofs.Parser.Sound
import Spreadsheet.Sheet.Script

/-! Evaluation is strict. A function asks for the value of every argument that it does not take as a
range, also of one that it ignores then, so an expression has a value only if its parts have. -/

namespace Spreadsheet

theorem Failure.both_eq_ok {α β : Type} {x : Except Failure α} {y : Except Failure β} {p : α × β}
    (h : both x y = .ok p) : x = .ok p.1 ∧ y = .ok p.2 := by
  match x, y with
  | .ok a, .ok b => cases h; exact ⟨rfl, rfl⟩
  | .error (.fault _), _ => cases h
  | .error (.shown _), .error (.fault _) => cases h
  | .error (.shown _), .error (.shown _) => cases h
  | .error (.shown _), .ok _ => cases h
  | .ok _, .error (.fault _) => cases h
  | .ok _, .error (.shown _) => cases h

variable {g : Grid}

namespace Argument

variable {a : Argument} {function : String}

def Usable (a : Argument) : Prop :=
  (∃ r, a.range? = some r) ∨ ∃ v, a.value = .ok v

theorem usable_of_range {r : Range} (h : a.range function = .ok r) : a.Usable :=
  .inl ⟨r, range?_of_range h⟩

theorem usable_of_number {n : Binary64} (h : a.number = .ok n) : a.Usable := by
  obtain ⟨v, hv, -⟩ := exists_of_bind_eq_ok h
  exact .inr ⟨v, hv⟩

theorem usable_of_text {t : String} (h : a.text = .ok t) : a.Usable := by
  obtain ⟨v, hv, -⟩ := exists_of_map_eq_ok h
  exact .inr ⟨v, hv⟩

theorem usable_of_position {n : Nat} (h : a.position function = .ok n) : a.Usable := by
  obtain ⟨m, hm, -⟩ := exists_of_bind_eq_ok h
  exact usable_of_number hm

theorem usable_of_key {t : String} (h : a.key g = .ok t) : a.Usable := by
  rw [key] at h
  split at h
  · next c hc => exact .inl ⟨.single c, by simp only [range?, hc]⟩
  · cases h
  · exact usable_of_text h

theorem usable_of_numbers {ns : List Binary64} (h : a.numbers g = .ok ns) : a.Usable := by
  simp only [numbers] at h
  split at h
  · next r hr => exact .inl ⟨r, hr⟩
  · obtain ⟨n, hn, -⟩ := exists_of_map_eq_ok h
    exact usable_of_number hn

end Argument

namespace Function

variable {v : Scalar}

theorem usable_of_callAggregate {kind : Aggregate} {args : List Argument}
    (h : callAggregate g kind args = .ok v) : ∀ a ∈ args, a.Usable := by
  obtain ⟨-, h⟩ := of_ite_error_eq_ok h
  obtain ⟨values, hvalues, -⟩ := exists_of_bind_eq_ok h
  intro a ha
  obtain ⟨ns, hns⟩ := exists_of_mapM_eq_ok hvalues a ha
  exact Argument.usable_of_numbers hns

theorem usable_of_callSumIf {condition criterion : Argument} {summed : Option Argument}
    (h : callSumIf g condition criterion summed = .ok v) :
    condition.Usable ∧ criterion.Usable ∧ ∀ a ∈ summed, a.Usable := by
  obtain ⟨r, hr, h⟩ := exists_of_bind_eq_ok h
  obtain ⟨t, ht, h⟩ := exists_of_bind_eq_ok h
  refine ⟨Argument.usable_of_range hr, Argument.usable_of_text ht, ?_⟩
  rintro a ⟨⟩
  obtain ⟨r', hr', -⟩ := exists_of_bind_eq_ok h
  exact Argument.usable_of_range hr'

theorem usable_of_callVlookup {key table column : Argument} {approximate : Option Argument}
    (h : callVlookup g key table column approximate = .ok v) :
    key.Usable ∧ table.Usable ∧ column.Usable ∧ ∀ a ∈ approximate, a.Usable := by
  obtain ⟨k, hk, h⟩ := exists_of_bind_eq_ok h
  obtain ⟨r, hr, h⟩ := exists_of_bind_eq_ok h
  obtain ⟨n, hn, h⟩ := exists_of_bind_eq_ok h
  refine ⟨Argument.usable_of_key hk, Argument.usable_of_range hr, Argument.usable_of_position hn, ?_⟩
  rintro a ⟨⟩
  obtain ⟨t, ht, -⟩ := exists_of_bind_eq_ok h
  obtain ⟨t', ht', -⟩ := exists_of_map_eq_ok ht
  exact Argument.usable_of_text ht'

theorem usable_of_callIndex {range row : Argument} {column : Option Argument}
    (h : callIndex g range row column = .ok v) :
    range.Usable ∧ row.Usable ∧ ∀ a ∈ column, a.Usable := by
  obtain ⟨r, hr, h⟩ := exists_of_bind_eq_ok h
  obtain ⟨n, hn, h⟩ := exists_of_bind_eq_ok h
  refine ⟨Argument.usable_of_range hr, Argument.usable_of_position hn, ?_⟩
  rintro a ⟨⟩
  obtain ⟨m, hm, -⟩ := exists_of_bind_eq_ok h
  exact Argument.usable_of_position hm

theorem usable_of_callMatch {key range : Argument} {kind : Option Argument}
    (h : callMatch g key range kind = .ok v) :
    key.Usable ∧ range.Usable ∧ ∀ a ∈ kind, a.Usable := by
  obtain ⟨k, hk, h⟩ := exists_of_bind_eq_ok h
  obtain ⟨r, hr, h⟩ := exists_of_bind_eq_ok h
  refine ⟨Argument.usable_of_key hk, Argument.usable_of_range hr, ?_⟩
  rintro a ⟨⟩
  obtain ⟨n, hn, -⟩ := exists_of_bind_eq_ok h
  exact Argument.usable_of_number hn

theorem usable_of_call {f : Function} {args : List Argument} (h : f.call g args = .ok v) :
    ∀ a ∈ args, a.Usable := by
  simp only [call] at h
  split at h
  · exact usable_of_callAggregate h
  · simpa using usable_of_callSumIf h
  · simpa using usable_of_callSumIf h
  · cases h
  · simpa using usable_of_callVlookup h
  · simpa using usable_of_callVlookup h
  · cases h
  · simpa using usable_of_callIndex h
  · simpa using usable_of_callIndex h
  · cases h
  · simpa using usable_of_callMatch h
  · simpa using usable_of_callMatch h
  · cases h

end Function

namespace Expr

inductive PartOf (s : Expr) : Expr → Prop
  | self : PartOf s s
  | neg {e : Expr} (h : PartOf s e) : PartOf s (.neg e)
  | left {op : Operator} {l r : Expr} (h : PartOf s l) : PartOf s (.binary op l r)
  | right {op : Operator} {l r : Expr} (h : PartOf s r) : PartOf s (.binary op l r)
  | argument {f : String} {args : List Expr} {e : Expr} (he : e ∈ args) (h : PartOf s e) :
      PartOf s (.call f args)

variable {resolve : Address → Binary64} {s e : Expr}

theorem mem_evalArgs {es : List Expr} (h : e ∈ es) :
    ⟨e, e.eval g resolve⟩ ∈ evalArgs g resolve es := by
  induction h with
  | head es =>
    rw [evalArgs]
    exact List.mem_cons_self
  | tail e' _ ih =>
    rw [evalArgs]
    exact List.mem_cons_of_mem _ ih

theorem exists_value_of_partOf (h : s.PartOf e) (hs : ∀ r, s ≠ .range r)
    (he : ∃ v, e.eval g resolve = .ok v) : ∃ v, s.eval g resolve = .ok v := by
  induction h with
  | self => exact he
  | neg h ih =>
    obtain ⟨v, hv⟩ := he
    obtain ⟨n, hn, -⟩ := exists_of_map_eq_ok hv
    obtain ⟨w, hw, -⟩ := exists_of_bind_eq_ok hn
    exact ih ⟨w, hw⟩
  | left h ih =>
    obtain ⟨v, hv⟩ := he
    obtain ⟨p, hp, -⟩ := exists_of_map_eq_ok hv
    obtain ⟨w, hw, -⟩ := exists_of_bind_eq_ok (Failure.both_eq_ok hp).1
    exact ih ⟨w, hw⟩
  | right h ih =>
    obtain ⟨v, hv⟩ := he
    obtain ⟨p, hp, -⟩ := exists_of_map_eq_ok hv
    obtain ⟨w, hw, -⟩ := exists_of_bind_eq_ok (Failure.both_eq_ok hp).2
    exact ih ⟨w, hw⟩
  | @argument f args e hmem h ih =>
    obtain ⟨v, hv⟩ := he
    rw [eval] at hv
    split at hv
    · obtain ⟨r, hr⟩ | hvalue := Function.usable_of_call hv _ (mem_evalArgs hmem)
      · -- The argument is taken as a range: a range has no part but itself, a cell has a value.
        cases e with
        | range r =>
          cases h
          exact absurd rfl (hs r)
        | cell a => exact ih ⟨_, rfl⟩
        | _ => cases hr
      · exact ih hvalue
    · cases hv

end Expr

theorem Value.ofResult_error (failure : Failure) : ∃ e, Value.ofResult (.error failure) = .error e := by
  cases failure with
  | fault e => exact ⟨.error, rfl⟩
  | shown e => exact ⟨e, rfl⟩

theorem CellError.code_mem (e : CellError) : e.code ∈ ["#ERROR!", "#N/A", "#REF!"] := by
  cases e <;> decide

namespace Expr

/-- No failure is swallowed: if a part of an expression that is not a range has no value, then the
expression has none, and a formula that it is read from shows an error. -/
theorem failure_propagates (g : Grid) (resolve : Address → Binary64) {s e : Expr} (h : s.PartOf e)
    (hs : ∀ r, s ≠ .range r) (hfails : ∃ failure, s.eval g resolve = .error failure) :
    (∃ failure, e.eval g resolve = .error failure) ∧
    ∀ c body, c.formulaBody? = some body → parseBody body = .ok e →
      ∃ err, g.evaluateWith resolve c = .error err ∧
        (g.evaluateWith resolve c).display ∈ ["#ERROR!", "#N/A", "#REF!"] := by
  have he : ∃ failure, e.eval g resolve = .error failure := by
    by_contra hnone
    obtain ⟨failure, hfailure⟩ := hfails
    obtain ⟨v, hv⟩ := exists_value_of_partOf h hs (exists_eq_ok_of_not_error hnone)
    rw [hfailure] at hv
    cases hv
  refine ⟨he, fun c body hbody hparse => ?_⟩
  obtain ⟨failure, hfailure⟩ := he
  obtain ⟨err, herr⟩ := Value.ofResult_error failure
  have hvalue : g.evaluateWith resolve c = .error err := by
    simp only [Grid.evaluateWith, hbody, hparse, hfailure, herr]
  exact ⟨err, hvalue, by rw [hvalue]; exact err.code_mem⟩

end Expr

namespace Sheet

def bolts : Sheet :=
  (ofColumns "Stock" ["Item"]).run [.addRow, .setInput "A1" "BOLT"]

def search : Expr :=
  .call "VLOOKUP" [.text "NUT", .range ⟨⟨0, 0⟩, ⟨0, 0⟩⟩, .number 1]

def searchSum : Expr :=
  .call "SUM" [.cell ⟨0, 0⟩, search]

open Grammar in
theorem parseBody_searchSum :
    Expr.parseBody "SUM(A1,VLOOKUP(\"NUT\",A1:A1,1))" = .ok searchSum := by
  have hcolumn := Derives.argument (.of_primary (.number 1))
  have htable := Derives.comma (.of_primary (.range ⟨0, 0⟩ ⟨0, 0⟩)) hcolumn
  have hsearch := Derives.of_primary
    (.call (f := "VLOOKUP") (.comma (.of_primary (.text "NUT")) htable))
  have hsum := Derives.of_primary
    (.call (f := "SUM") (.comma (.of_primary (.cell ⟨0, 0⟩)) (.argument hsearch)))
  have htokens : Token.tokens
      (Text.upperCase (Text.trim "SUM(A1,VLOOKUP(\"NUT\",A1:A1,1))")).toList =
      .ok [.name "SUM", .opening, .address ⟨0, 0⟩, .comma, .name "VLOOKUP", .opening,
        .text "NUT", .comma, .address ⟨0, 0⟩, .colon, .address ⟨0, 0⟩, .comma, .number 1,
        .closing, .closing] := by
    decide +kernel
  rw [Expr.parseBody, Expr.parse, htokens]
  exact Expr.ofTokens_eq_ok hsum (by decide) (by decide)

theorem failure_propagates_search :
    search.PartOf searchSum ∧ (∀ r, search ≠ .range r) ∧
    search.eval bolts.grid bolts.grid.referenceValue = .error (.shown .notAvailable) ∧
    (∃ failure, searchSum.eval bolts.grid bolts.grid.referenceValue = .error failure) ∧
    ∃ err, bolts.grid.evaluateWith bolts.grid.referenceValue
      (.text "=SUM(A1,VLOOKUP(\"NUT\",A1:A1,1))") = .error err := by
  have hpart : search.PartOf searchSum := .argument (by simp) .self
  have hrange : ∀ r, search ≠ .range r := fun r => Expr.noConfusion
  have hfails : search.eval bolts.grid bolts.grid.referenceValue = .error (.shown .notAvailable) := by
    decide +kernel
  obtain ⟨hvalue, hshown⟩ :=
    Expr.failure_propagates bolts.grid bolts.grid.referenceValue hpart hrange ⟨_, hfails⟩
  obtain ⟨err, herr, -⟩ := hshown (.text "=SUM(A1,VLOOKUP(\"NUT\",A1:A1,1))") _
    (by decide +kernel) parseBody_searchSum
  exact ⟨hpart, hrange, hfails, hvalue, err, herr⟩

end Sheet

end Spreadsheet
