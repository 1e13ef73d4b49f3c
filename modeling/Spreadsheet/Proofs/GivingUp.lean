import Mathlib.Data.List.Iterate
import Spreadsheet.Proofs.Iterations

namespace Spreadsheet

namespace Secant

section

variable {m : Type → Type} [Monad m] (settings : Settings) (f : Binary64 → m Binary64)

def nextM (s : State) : m State := do
  let slope := s.currentValue - s.previousValue
  if slope.abs < settings.minSlope then
    return { s with current := s.current + 1, currentValue := ← f (s.current + 1) }
  else
    let x := s.current - s.currentValue * (s.current - s.previous) / slope
    return ⟨s.current, s.currentValue, x, ← f x⟩

def searchM : Nat → State → m (Except Binary64 Binary64)
  | 0, s => return .error s.current
  | n + 1, s => do
    if isZero settings s.currentValue then return .ok s.current
    searchM n (← nextM settings f s)

def startM (seed y : Binary64) : m State := do
  let step := if seed.abs < 0.1 then 0.1 else seed * 0.01
  return ⟨seed, y, seed + step, ← f (seed + step)⟩

def solveM (seed : Binary64) : m (Except Binary64 Binary64) := do
  let y ← f seed
  if isZero settings y then return .ok seed
  searchM settings f settings.maxIterations (← startM f seed y)

end

/-- The function that notes every point at which it is asked for its value. -/
def noting (f : Binary64 → Binary64) (x : Binary64) : StateM (List Binary64) Binary64 := do
  modify (· ++ [x])
  return f x

variable {settings : Settings} {f : Binary64 → Binary64} {seed : Binary64}

theorem run_nextM (s : State) (asked : List Binary64) :
    (nextM settings (noting f) s).run asked =
      (next settings f s, asked ++ [(next settings f s).current]) := by
  rw [nextM, next]
  split <;> rfl

theorem run_searchM (settings : Settings) (f : Binary64 → Binary64) (n : Nat) (s : State)
    (asked : List Binary64) :
    ∃ k, (searchM settings (noting f) n s).run asked = (search settings f n s,
        asked ++ (List.iterate (next settings f) (next settings f s) k).map State.current) ∧
      ∀ x, search settings f n s = .error x → k = n := by
-- Induction on the steps that are left, for any points asked for before.
  induction n generalizing s asked with
  | zero => exact ⟨0, by rw [List.iterate, List.map_nil, List.append_nil]; rfl, fun _ _ => rfl⟩
  | succ n ih =>
    rw [searchM, search]
    split
    · refine ⟨0, ?_, fun _ h => by cases h⟩
      rw [List.iterate, List.map_nil, List.append_nil]
      rfl
    · obtain ⟨k, hrun, hk⟩ := ih (next settings f s) (asked ++ [(next settings f s).current])
      refine ⟨k + 1, ?_, fun x hx => by rw [hk x hx]⟩
      rw [StateT.run_bind, run_nextM]
      refine hrun.trans ?_
      rw [List.append_assoc]
      rfl

theorem map_trial (k : Nat) :
    (List.range (k + 1)).map (trial settings f seed) =
      seed :: (List.iterate (next settings f) (start f seed) k).map State.current := by
  rw [List.range_succ_eq_map, List.map_cons, List.map_map, ← List.range_map_iterate, List.map_map]
  rfl

theorem run_solveM (settings : Settings) (f : Binary64 → Binary64) (seed : Binary64) :
    ∃ k, (solveM settings (noting f) seed).run [] =
        (solve settings f seed, (List.range (k + 1)).map (trial settings f seed)) ∧
      ∀ x, solve settings f seed = .error x → k = settings.maxIterations + 1 := by
  have hrun : (solveM settings (noting f) seed).run [] = StateT.run
      (if isZero settings (f seed) then (pure (.ok seed) : StateM (List Binary64) _)
        else startM (noting f) seed (f seed) >>= searchM settings (noting f) settings.maxIterations)
      [seed] := rfl
  rw [hrun, solve]
  split
  · exact ⟨0, rfl, fun _ h => by cases h⟩
  · obtain ⟨k, hsearch, hk⟩ := run_searchM settings f settings.maxIterations (start f seed)
      [seed, (start f seed).current]
    refine ⟨k + 1, ?_, fun x hx => by rw [hk x hx]⟩
    rw [map_trial]
    exact hsearch

theorem search_eq_error_iff {n : Nat} {s : State} {x : Binary64} (hs : s.Fits f) :
    search settings f n s = .error x ↔ ((next settings f)^[n] s).current = x ∧
      ∀ j < n, isZero settings (f ((next settings f)^[j] s).current) = false := by
  induction n generalizing s with
  | zero => simp [search]
  | succ n ih =>
    rw [search, hs, Nat.forall_lt_succ_left, Function.iterate_zero_apply]
    split
    · next hzero => simp [hzero]
    · next hzero =>
      rw [ih (fits_next s)]
      simp [hzero]

theorem solve_eq_error_iff {x : Binary64} :
    solve settings f seed = .error x ↔
      trial settings f seed (settings.maxIterations + 1) = x ∧
        ∀ j < settings.maxIterations + 1, isZero settings (f (trial settings f seed j)) = false := by
  rw [solve, Nat.forall_lt_succ_left]
  split
  · next hzero => simp [trial, hzero]
  · next hzero =>
    rw [search_eq_error_iff (fits_start seed)]
    simp [trial, hzero]

theorem mem_run_solveM {x : Binary64} (h : solve settings f seed = .error x) :
    x ∈ ((solveM settings (noting f) seed).run []).2 := by
  obtain ⟨k, hrun, hk⟩ := run_solveM settings f seed
  rw [hrun, hk x h, ← (solve_eq_error_iff.1 h).1]
  exact List.mem_map_of_mem (List.mem_range.2 (Nat.lt_succ_self _))

theorem solve_more_eq_ok_iff {x : Binary64} (h : solve settings f seed = .error x) :
    solve { settings with maxIterations := settings.maxIterations + 1 } f seed = .ok x ↔
      isZero settings (f x) = true := by
  obtain ⟨rfl, hbefore⟩ := solve_eq_error_iff.1 h
  constructor
  · intro hok
    have hzero := isZero_of_solve hok
    exact hzero
  · exact fun hzero => solve_eq_ok_iff.2 ⟨_, Nat.lt_succ_self _, rfl, hzero, fun j hj => by
      have := hbefore j hj
      cases j <;> exact this⟩

end Secant

namespace Table

variable {t : Table} {settings : Settings} {formula : Content} {goal last : Binary64}
  {target changing : String}

theorem checked_eq_ok {b : Address} (h : t.checked target goal changing = .ok (formula, b)) :
    ∃ a, Address.parse? target = some a ∧ Address.parse? changing = some b ∧
      t.cell? a = some formula := by
  rw [checked] at h
  split at h
  · next a b ha hb =>
    obtain ⟨-, h⟩ := of_ite_error_eq_ok h
    obtain ⟨-, h⟩ := of_ite_error_eq_ok h
    obtain ⟨hformula, h⟩ := of_ite_error_eq_ok h
    obtain ⟨-, h⟩ := of_ite_error_eq_ok h
    obtain ⟨-, h⟩ := of_ite_error_eq_ok h
    cases h
    cases hcell : t.cell? a with
    | none => simp [hcell, Content.isFormula, Content.formulaBody?] at hformula
    | some c => exact ⟨a, ha, hb, hcell⟩
  · cases h

theorem checked_ne_noConvergence : t.checked target goal changing ≠ .error (.noConvergence last) := by
  rw [checked]
  split
  · dsimp only
    split_ifs <;> simp
  · simp

theorem exists_solve_of_seek_eq_noConvergence
    (h : t.seek settings target goal changing = .error (.noConvergence last)) :
    ∃ a b formula, Address.parse? target = some a ∧ Address.parse? changing = some b ∧
      t.cell? a = some formula ∧ t.checked target goal changing = .ok (formula, b) ∧
      Secant.solve settings (fun x => t.trialValue formula b x - goal) (t.seed b) = .error last := by
  rw [seek_eq_checked_bind] at h
  obtain h | ⟨⟨formula, b⟩, hchecked, hsolve⟩ := of_bind_eq_error h
  · exact absurd h checked_ne_noConvergence
  · obtain ⟨a, ha, hb, hcell⟩ := checked_eq_ok hchecked
    obtain ⟨x, hx, heq⟩ := exists_of_mapError_eq_error hsolve
    cases heq
    exact ⟨a, b, formula, ha, hb, hcell, hchecked, hx⟩

/-- A goal seek that gives up has asked for the value of the target at one point more than it has tested. If
that point brings the target near the goal, one more iteration returns it. -/
theorem seek_tests_all_but_last (t : Table) (settings : Settings) (target : String) (goal : Binary64)
    (changing : String) (last : Binary64)
    (h : t.seek settings target goal changing = .error (.noConvergence last)) :
    ∃ a b formula points, Address.parse? target = some a ∧ Address.parse? changing = some b ∧
      t.cell? a = some formula ∧
      (Secant.solveM settings (Secant.noting fun x => t.trialValue formula b x - goal)
        (t.seed b)).run [] = (.error last, points ++ [last]) ∧
      points.length = settings.maxIterations + 1 ∧
      (∀ x ∈ points, ¬(t.trialValue formula b x - goal).abs < settings.epsilon) ∧
      ((∀ x ∈ points ++ [last], ¬(t.trialValue formula b x - goal).abs < settings.epsilon) ↔
        ¬(t.trialValue formula b last - goal).abs < settings.epsilon) ∧
      (t.seek { settings with maxIterations := settings.maxIterations + 1 } target goal changing =
          .ok last ↔
        (t.trialValue formula b last - goal).abs < settings.epsilon) := by
  obtain ⟨a, b, formula, ha, hb, hcell, hchecked, hsolve⟩ := exists_solve_of_seek_eq_noConvergence h
  obtain ⟨k, hrun, hk⟩ := Secant.run_solveM settings (fun x => t.trialValue formula b x - goal)
    (t.seed b)
  obtain ⟨hlast, hbefore⟩ := Secant.solve_eq_error_iff.1 hsolve
  have htested : ∀ x ∈ (List.range (settings.maxIterations + 1)).map
      (t.trial settings formula goal b),
      ¬(t.trialValue formula b x - goal).abs < settings.epsilon := by
    intro x hx
    obtain ⟨j, hj, rfl⟩ := List.mem_map.1 hx
    exact of_decide_eq_false (hbefore j (List.mem_range.1 hj))
  refine ⟨a, b, formula, _, ha, hb, hcell, ?_, ?_, htested, ?_, ?_⟩
  · rw [hrun, hsolve, hk last hsolve, List.range_succ, List.map_append, List.map_singleton, hlast]
    rfl
  · rw [List.length_map, List.length_range]
  · rw [List.forall_mem_append, List.forall_mem_singleton]
    exact and_iff_right htested
  · rw [seek_eq_checked_bind, hchecked]
    refine Iff.trans ?_ ((Secant.solve_more_eq_ok_iff hsolve).trans decide_eq_true_iff)
    exact ⟨eq_ok_of_mapError, fun hok => congrArg (Except.mapError SeekError.noConvergence) hok⟩

end Table

namespace Sheet

theorem doubling_seek_once :
    doubling.seek { maxIterations := 1 } "B1" 10 "A1" =
        .error (.noConvergence 5.000000000000089) ∧
      Address.parse? "B1" = some ⟨1, 0⟩ ∧ Address.parse? "A1" = some ⟨0, 0⟩ ∧
      doubling.cell? ⟨1, 0⟩ = some (.text "=A1*2") ∧ (10 : Binary64).isFinite = true ∧
      (doubling.trialValue (.text "=A1*2") ⟨0, 0⟩ 5.000000000000089 - 10).abs < (0.001 : Binary64) := by
  decide +kernel

end Sheet

namespace Table

theorem seek_tests_all_but_last_doubling :
    Sheet.doubling.seek { maxIterations := 1 } "B1" 10 "A1" =
        .error (.noConvergence 5.000000000000089) ∧
      Sheet.doubling.seek { maxIterations := 2 } "B1" 10 "A1" = .ok 5.000000000000089 := by
  obtain ⟨hseek, htarget, hchanging, hformula, -, hnear⟩ := Sheet.doubling_seek_once
  obtain ⟨a, b, formula, points, ha, hb, hcell, -, -, -, -, hmore⟩ :=
    seek_tests_all_but_last Sheet.doubling.toTable { maxIterations := 1 } "B1" 10 "A1" _ hseek
  cases htarget.symm.trans ha
  cases hchanging.symm.trans hb
  cases hformula.symm.trans hcell
  exact ⟨hseek, hmore.2 hnear⟩

theorem seek_gives_up_at_solution :
    ¬∀ (t : Table) (settings : Settings) (target changing : String) (goal last : Binary64),
      goal.isFinite = true →
      t.seek settings target goal changing = .error (.noConvergence last) →
      ∀ b formula, Address.parse? changing = some b →
        (∃ a, Address.parse? target = some a ∧ t.cell? a = some formula) →
        ∀ x ∈ ((Secant.solveM settings (Secant.noting fun x => t.trialValue formula b x - goal)
          (t.seed b)).run []).2, ¬(t.trialValue formula b x - goal).abs < settings.epsilon := by
  intro h
  obtain ⟨hseek, htarget, hchanging, hformula, hfinite, hnear⟩ := Sheet.doubling_seek_once
  obtain ⟨a, b, formula, ha, hb, hcell, -, hsolve⟩ := exists_solve_of_seek_eq_noConvergence hseek
  refine h _ _ _ _ _ _ hfinite hseek b formula hb ⟨a, ha, hcell⟩ _ (Secant.mem_run_solveM hsolve) ?_
  cases htarget.symm.trans ha
  cases hchanging.symm.trans hb
  cases hformula.symm.trans hcell
  exact hnear

end Table

end Spreadsheet
