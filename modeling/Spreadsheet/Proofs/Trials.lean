import Mathlib.Logic.Function.Iterate
import Spreadsheet.Proofs.Seek

namespace Spreadsheet.Secant

variable {settings : Settings} {f : Binary64 → Binary64}

def FirstZero (settings : Settings) (f : Binary64 → Binary64) (point : Nat → Binary64) (n : Nat)
    (x : Binary64) : Prop :=
  ∃ k < n, point k = x ∧ isZero settings (f (point k)) = true ∧
    ∀ j < k, isZero settings (f (point j)) = false

theorem not_firstZero_zero {point : Nat → Binary64} {x : Binary64} :
    ¬FirstZero settings f point 0 x := by
  rintro ⟨k, hk, -⟩
  cases hk

theorem firstZero_succ_iff {point : Nat → Binary64} {n : Nat} {x : Binary64} :
    FirstZero settings f point (n + 1) x ↔
      if isZero settings (f (point 0)) then point 0 = x
      else FirstZero settings f (fun k => point (k + 1)) n x := by
  constructor
  · rintro ⟨k, hk, hx, hzero, hbefore⟩
    cases k with
    | zero => rwa [if_pos hzero]
    | succ k =>
      rw [if_neg (by simp [hbefore 0 (Nat.succ_pos k)])]
      exact ⟨k, Nat.lt_of_succ_lt_succ hk, hx, hzero,
        fun j hj => hbefore (j + 1) (Nat.succ_lt_succ hj)⟩
  · intro h
    split at h
    · next hzero => exact ⟨0, Nat.succ_pos n, h, hzero, fun j hj => by cases hj⟩
    · next hzero =>
      obtain ⟨k, hk, hx, hzeroAt, hbefore⟩ := h
      refine ⟨k + 1, Nat.succ_lt_succ hk, hx, hzeroAt, fun j hj => ?_⟩
      cases j with
      | zero => simpa using hzero
      | succ j => exact hbefore j (Nat.lt_of_succ_lt_succ hj)

theorem search_eq_ok_iff {n : Nat} {s : State} {x : Binary64} (hs : s.Fits f) :
    search settings f n s = .ok x ↔
      FirstZero settings f (fun k => ((next settings f)^[k] s).current) n x := by
  induction n generalizing s with
  | zero => exact iff_of_false (fun h => by cases h) not_firstZero_zero
  | succ n ih =>
    rw [search, hs, firstZero_succ_iff, Function.iterate_zero_apply]
    split
    · rw [Except.ok.injEq]
    · exact ih (fits_next s)

def trial (settings : Settings) (f : Binary64 → Binary64) (seed : Binary64) : Nat → Binary64
  | 0 => seed
  | k + 1 => ((next settings f)^[k] (start f seed)).current

theorem solve_eq_ok_iff {seed x : Binary64} :
    solve settings f seed = .ok x ↔
      FirstZero settings f (trial settings f seed) (settings.maxIterations + 1) x := by
  rw [solve, firstZero_succ_iff, trial]
  split
  · rw [Except.ok.injEq]
  · exact search_eq_ok_iff (fits_start seed)

end Spreadsheet.Secant
