import Spreadsheet.Proofs.Solution

namespace Spreadsheet

namespace Secant

variable {settings : Settings} {f : Binary64 → Binary64} {seed : Binary64}

/-- The points in the order in which they are tried. Each but the first is reached from the one before it
and from an older one, which stays the same over flat ground. -/
structure Trials (settings : Settings) (f : Binary64 → Binary64) (seed : Binary64)
    (point : Nat → Binary64) (older : Nat → Nat) : Prop where
  first : point 0 = seed
  second : point 1 = seed + if seed.abs < 0.1 then 0.1 else seed * 0.01
  older_second : older 1 = 0
  flat {k : Nat} (h : (f (point (k + 1)) - f (point (older (k + 1)))).abs < settings.minSlope) :
    point (k + 2) = point (k + 1) + 1 ∧ older (k + 2) = older (k + 1)
  steep {k : Nat} (h : ¬(f (point (k + 1)) - f (point (older (k + 1)))).abs < settings.minSlope) :
    point (k + 2) = point (k + 1) - f (point (k + 1)) * (point (k + 1) - point (older (k + 1))) /
        (f (point (k + 1)) - f (point (older (k + 1)))) ∧
      older (k + 2) = k + 1

def older (settings : Settings) (f : Binary64 → Binary64) (seed : Binary64) : Nat → Nat
  | 0 => 0
  | k + 1 =>
    if (f (trial settings f seed k) - f (trial settings f seed (older settings f seed k))).abs <
        settings.minSlope then older settings f seed k
    else k

theorem older_second : older settings f seed 1 = 0 := by
  rw [older, older, ite_self]

def recalled (settings : Settings) (f : Binary64 → Binary64) (seed : Binary64) (k : Nat) : State :=
  let previous := trial settings f seed (older settings f seed (k + 1))
  let current := trial settings f seed (k + 1)
  ⟨previous, f previous, current, f current⟩

theorem iterate_next_eq (k : Nat) :
    (next settings f)^[k] (start f seed) = recalled settings f seed k := by
  induction k with
  | zero =>
    rw [recalled, older_second]
    rfl
  | succ k ih =>
    have hpoint : trial settings f seed (k + 2) =
        (next settings f (recalled settings f seed k)).current := by
      rw [trial, Function.iterate_succ_apply', ih]
    have hrecalled : recalled settings f seed (k + 1) =
        ⟨trial settings f seed (older settings f seed (k + 2)),
          f (trial settings f seed (older settings f seed (k + 2))),
          trial settings f seed (k + 2), f (trial settings f seed (k + 2))⟩ := rfl
    rw [Function.iterate_succ_apply', ih, hrecalled, hpoint, next]
    split
    · next h =>
      have hflat : older settings f seed (k + 2) = older settings f seed (k + 1) := if_pos h
      rw [hflat]
      rfl
    · next h =>
      have hsteep : older settings f seed (k + 2) = k + 1 := if_neg h
      rw [hsteep]
      rfl

theorem trial_succ_succ (k : Nat) :
    trial settings f seed (k + 2) = (next settings f (recalled settings f seed k)).current := by
  rw [trial, Function.iterate_succ_apply', iterate_next_eq]

theorem trials (settings : Settings) (f : Binary64 → Binary64) (seed : Binary64) :
    Trials settings f seed (trial settings f seed) (older settings f seed) where
  first := rfl
  second := rfl
  older_second := older_second
  flat {k} h := by
    constructor
    · rw [trial_succ_succ, next]
      exact congrArg State.current (if_pos h)
    · rw [older, if_pos h]
  steep {k} h := by
    constructor
    · rw [trial_succ_succ, next]
      exact congrArg State.current (if_neg h)
    · rw [older, if_neg h]

theorem solve_eq_ok_of_le {more : Nat} {x : Binary64} (hmore : settings.maxIterations ≤ more)
    (h : solve settings f seed = .ok x) :
    solve { settings with maxIterations := more } f seed = .ok x := by
  obtain ⟨k, hk, hx, hzero, hbefore⟩ := solve_eq_ok_iff.1 h
  refine solve_eq_ok_iff.2 ⟨k, hk.trans_le (Nat.succ_le_succ hmore), ?_, ?_, ?_⟩
  · cases k <;> exact hx
  · cases k <;> exact hzero
  · intro j hj
    have hj := hbefore j hj
    cases j <;> exact hj

end Secant

namespace Table

variable {t : Table} {settings : Settings} {formula : Content} {goal x : Binary64}
  {changing : Address} {e : SeekError}

theorem solve_eq_ok_of_le {more : Nat} (hmore : settings.maxIterations ≤ more)
    (h : t.solve settings formula goal changing = .ok x) :
    t.solve { settings with maxIterations := more } formula goal changing = .ok x := by
  rw [solve] at h ⊢
  rw [Secant.solve_eq_ok_of_le hmore (eq_ok_of_mapError h)]
  rfl

theorem eq_noConvergence_of_solve (h : t.solve settings formula goal changing = .error e) :
    ∃ last, e = .noConvergence last := by
  obtain ⟨last, -, rfl⟩ := exists_of_mapError_eq_error h
  exact ⟨last, rfl⟩

def checked (t : Table) (target : String) (goal : Binary64) (changing : String) :
    Except SeekError (Content × Address) :=
  match Address.parse? target, Address.parse? changing with
  | some target, some changing =>
    let formula := (t.cell? target).getD .empty
    if !t.grid.inBounds target then .error .targetOutOfBounds
    else if !t.grid.inBounds changing then .error .changingOutOfBounds
    else if !formula.isFormula then .error .targetNotFormula
    else if ((t.cell? changing).map Content.isFormula).getD false then .error .changingIsFormula
    else if !goal.isFinite then .error .nonFiniteGoal
    else .ok (formula, changing)
  | _, _ => .error .invalidReference

theorem seek_eq_checked_bind (t : Table) (settings : Settings) (target : String) (goal : Binary64)
    (changing : String) :
    t.seek settings target goal changing =
      t.checked target goal changing >>= fun (formula, b) => t.solve settings formula goal b := by
  rw [seek, checked]
  cases Address.parse? target with
  | none => rfl
  | some a =>
    cases Address.parse? changing with
    | none => rfl
    | some b =>
      dsimp only
      split_ifs <;> rfl

theorem seek_eq_error_iff {target changing : String} (he : ∀ last, e ≠ .noConvergence last) :
    t.seek settings target goal changing = .error e ↔ t.checked target goal changing = .error e := by
  rw [seek_eq_checked_bind]
  constructor
  · intro h
    obtain h | ⟨p, -, hsolve⟩ := of_bind_eq_error h
    · exact h
    · obtain ⟨last, hlast⟩ := eq_noConvergence_of_solve hsolve
      exact absurd hlast (he last)
  · intro h
    rw [h]
    rfl

theorem seek_eq_ok_of_le {target changing : String} {more : Nat}
    (hmore : settings.maxIterations ≤ more) (h : t.seek settings target goal changing = .ok x) :
    t.seek { settings with maxIterations := more } target goal changing = .ok x := by
  rw [seek_eq_checked_bind] at h ⊢
  obtain ⟨p, hp, hsolve⟩ := exists_of_bind_eq_ok h
  rw [hp]
  exact solve_eq_ok_of_le hmore hsolve

/-- A goal seek that succeeds finds the same solution under a higher limit on the iterations, and one
that cannot start fails with the same error. The solution is the first of the points tried at which
the target comes near the goal. -/
theorem seek_persists (t : Table) (settings : Settings) (more : Nat)
    (hmore : settings.maxIterations ≤ more) (target : String) (goal : Binary64) (changing : String) :
    (∀ x, t.seek settings target goal changing = .ok x →
      t.seek { settings with maxIterations := more } target goal changing = .ok x) ∧
    (∀ e, (∀ last, e ≠ .noConvergence last) →
      (t.seek settings target goal changing = .error e ↔
        t.seek { settings with maxIterations := more } target goal changing = .error e)) ∧
    ∀ x, t.seek settings target goal changing = .ok x →
      ∃ a b formula, Address.parse? target = some a ∧ Address.parse? changing = some b ∧
        t.cell? a = some formula ∧
        ∃ point older, Secant.Trials settings (fun x => t.trialValue formula b x - goal) (t.seed b)
            point older ∧
          ∃ k ≤ settings.maxIterations, point k = x ∧
            (t.trialValue formula b (point k) - goal).abs < settings.epsilon ∧
            ∀ j < k, ¬(t.trialValue formula b (point j) - goal).abs < settings.epsilon := by
  refine ⟨fun x => seek_eq_ok_of_le hmore, fun e he => ?_, fun x h => ?_⟩
  · rw [seek_eq_error_iff he, seek_eq_error_iff he]
  · obtain ⟨a, b, formula, ha, hb, hcell, -, -, -, hsolve⟩ := seek_eq_ok h
    obtain ⟨k, hk, hx, hzero, hbefore⟩ := Secant.solve_eq_ok_iff.1 (eq_ok_of_mapError hsolve)
    exact ⟨a, b, formula, ha, hb, hcell, _, _, Secant.trials _ _ _, k, Nat.le_of_lt_succ hk, hx,
      of_decide_eq_true hzero, fun j hj => of_decide_eq_false (hbefore j hj)⟩

end Table

theorem Table.seek_persists_doubling :
    ({ maxIterations := 5 } : Settings).maxIterations ≤ 100 ∧
      (∃ x, Sheet.doubling.seek { maxIterations := 5 } "B1" 10 "A1" = .ok x ∧
        Sheet.doubling.seek {} "B1" 10 "A1" = .ok x) ∧
      Sheet.doubling.seek { maxIterations := 5 } "A1" 10 "B1" = .error .targetNotFormula ∧
      Sheet.doubling.seek {} "A1" 10 "B1" = .error .targetNotFormula := by
  have hmore : ({ maxIterations := 5 } : Settings).maxIterations ≤ 100 := by decide
  have hpersists := Table.seek_persists Sheet.doubling.toTable { maxIterations := 5 } 100 hmore
  refine ⟨hmore, ?_, ?_⟩
  · have hok : (Sheet.doubling.seek { maxIterations := 5 } "B1" 10 "A1").isOk = true := by
      decide +kernel
    cases h : Sheet.doubling.seek { maxIterations := 5 } "B1" 10 "A1" with
    | error e => simp [h, Except.isOk, Except.toBool] at hok
    | ok x => exact ⟨x, rfl, (hpersists "B1" 10 "A1").1 x h⟩
  · have h : Sheet.doubling.seek { maxIterations := 5 } "A1" 10 "B1" = .error .targetNotFormula := by
      decide +kernel
    exact ⟨h, ((hpersists "A1" 10 "B1").2.1 _ (fun last he => by cases he)).1 h⟩

end Spreadsheet
