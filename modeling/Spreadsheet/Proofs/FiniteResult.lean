import Spreadsheet.Evaluate
import Spreadsheet.Proofs.Rounding
import Spreadsheet.Sheet.Script

namespace Spreadsheet

namespace Binary64

def Roundable : Binary64 → Prop
  | .finite _ u _ => 10000 * u < overflowThreshold
  | _ => False

theorem tenThousand_eq : (10000 : Binary64) = .finite false (10000 * one) (by decide +kernel) := by
  decide +kernel

theorem isFinite_mul_tenThousand {n : Binary64} : (n * 10000).isFinite = true ↔ n.Roundable := by
  rw [tenThousand_eq]
  cases n with
  | finite s u hu =>
    rw [isFinite_mul, Roundable, ← Nat.mul_assoc, Nat.mul_div_cancel _ one_pos, Nat.mul_comm]
  | infinite s =>
    have hpos : 10000 * one ≠ 0 := Nat.ne_of_gt (Nat.mul_pos (by decide) one_pos)
    change (mul (.infinite s) (.finite false (10000 * one) _)).isFinite = true ↔ _
    rw [mul, if_neg hpos]
    exact iff_of_false Bool.false_ne_true id
  | nan => exact iff_of_false Bool.false_ne_true id

theorem isFinite_round4 {n : Binary64} : n.round4.isFinite = true ↔ n.Roundable := by
  rw [← isFinite_mul_tenThousand, round4, tenThousand_eq,
    isFinite_roundScaled (Nat.le_mul_of_pos_left one (by decide))]

theorem round4_eq_infinite {s : Bool} {u : Nat} {hu : Representable u}
    (h : ¬(Binary64.finite s u hu).Roundable) : (Binary64.finite s u hu).round4 = .infinite s := by
  rw [← isFinite_mul_tenThousand, Bool.not_eq_true, tenThousand_eq] at h
  rw [mul_finite] at h
  rw [round4, roundScaled, tenThousand_eq, mul_finite, ofQuotient_eq_infinite h, half_eq]
  cases s <;> rfl

end Binary64

namespace Grid

def unrounded? (g : Grid) (resolve : Address → Binary64) (c : Content) : Option Binary64 := do
  let body ← c.formulaBody?
  let e ← (Expr.parseBody body).toOption
  match e.eval g resolve with
  | .ok (.number n) => some n
  | _ => none

variable {g : Grid} {resolve : Address → Binary64} {c : Content}

theorem evaluateWith_of_unrounded? {n : Binary64} (h : g.unrounded? resolve c = some n) :
    g.evaluateWith resolve c = if n.isFinite then .number n.round4 else .error .error := by
  simp only [unrounded?, Option.bind_eq_bind, Option.bind_eq_some_iff] at h
  obtain ⟨body, hbody, e, hparse, hnumber⟩ := h
  rw [evaluateWith, hbody]
  cases hp : Expr.parseBody body with
  | error err =>
    rw [hp] at hparse
    cases hparse
  | ok e' =>
    rw [hp] at hparse
    cases hparse
    simp only [hp]
    split at hnumber
    · next m heval =>
      cases hnumber
      rw [heval]
      rfl
    · cases hnumber

theorem exists_unrounded?_of_evaluateWith {v : Binary64} (hc : c.isFormula = true)
    (h : g.evaluateWith resolve c = .number v) : ∃ n, g.unrounded? resolve c = some n := by
  rw [Content.isFormula, Option.isSome_iff_exists] at hc
  obtain ⟨body, hbody⟩ := hc
  simp only [evaluateWith, hbody] at h
  cases hp : Expr.parseBody body with
  | error err =>
    rw [hp] at h
    cases h
  | ok e =>
    simp only [hp] at h
    cases heval : e.eval g resolve with
    | error failure =>
      rw [heval] at h
      cases failure <;> cases h
    | ok scalar =>
      rw [heval] at h
      cases scalar with
      | text s => cases h
      | number n => exact ⟨n, by simp [unrounded?, hbody, hp, heval, Except.toOption]⟩

/-- A formula shows no infinity and no `nan`, and an error in place of a result that is one, unless its
result is a finite number too large to be multiplied by ten thousand. Such a result shows as infinite. -/
theorem evaluateWith_isFinite (g : Grid) (resolve : Address → Binary64) (c : Content)
    (hc : c.isFormula = true) :
    (∀ v, g.evaluateWith resolve c = .number v →
      ∃ n, g.unrounded? resolve c = some n ∧ n.isFinite = true ∧
        (v.isFinite = true ↔ n.Roundable)) ∧
    (∀ n, g.unrounded? resolve c = some n → n.isFinite = false →
      g.evaluateWith resolve c = .error .error) ∧
    ∀ s u hu, g.unrounded? resolve c = some (.finite s u hu) →
      ¬(Binary64.finite s u hu).Roundable → g.evaluateWith resolve c = .number (.infinite s) := by
  refine ⟨fun v hv => ?_, fun n hn hinf => ?_, fun s u hu hn hlarge => ?_⟩
  · obtain ⟨n, hn⟩ := exists_unrounded?_of_evaluateWith hc hv
    rw [evaluateWith_of_unrounded? hn] at hv
    split at hv
    · next hfin =>
      cases hv
      exact ⟨n, hn, hfin, Binary64.isFinite_round4⟩
    · cases hv
  · rw [evaluateWith_of_unrounded? hn, hinf]
    rfl
  · rw [evaluateWith_of_unrounded? hn, Binary64.round4_eq_infinite hlarge]
    rfl

end Grid

namespace Sheet

def large : Sheet :=
  (ofColumns "Sheet" ["Amount"]).run [.addRow, .setInput "A1" "1e308"]

theorem large_infinite :
    large.grid.evaluateWith large.grid.referenceValue (.text "=A1") = .number (.infinite false) := by
  decide +kernel

theorem evaluateWith_isFinite_large :
    (Content.text "=A1").isFormula = true ∧
    ∃ n, large.grid.unrounded? large.grid.referenceValue (.text "=A1") = some n ∧
      n.isFinite = true ∧ ¬n.Roundable := by
  have hc : (Content.text "=A1").isFormula = true := by decide +kernel
  obtain ⟨n, hn, hfin, hround⟩ := (Grid.evaluateWith_isFinite _ _ _ hc).1 _ large_infinite
  exact ⟨hc, n, hn, hfin, fun h => absurd (hround.2 h) Bool.false_ne_true⟩

theorem evaluateWith_infinite :
    ¬∀ (g : Grid) (resolve : Address → Binary64) (c : Content), c.isFormula = true →
      ∀ v, g.evaluateWith resolve c = .number v → v.isFinite = true := by
  intro h
  have hfin := h large.grid large.grid.referenceValue (.text "=A1") (by decide +kernel) _
    large_infinite
  cases hfin

end Sheet

end Spreadsheet
