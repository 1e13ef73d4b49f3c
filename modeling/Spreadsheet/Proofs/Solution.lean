import Spreadsheet.Proofs.Rounding
import Spreadsheet.Proofs.Trials

namespace Spreadsheet

namespace Table

variable {t : Table} {settings : Settings} {formula : Content} {goal x : Binary64}
  {changing : Address}

def seed (t : Table) (changing : Address) : Binary64 :=
  ((t.cell? changing).bind Content.number?).getD 0

def trial (t : Table) (settings : Settings) (formula : Content) (goal : Binary64)
    (changing : Address) : Nat → Binary64 :=
  Secant.trial settings (fun x => t.trialValue formula changing x - goal) (t.seed changing)

theorem isFinite_seed : (t.seed changing).isFinite = true := by
  rw [seed]
  cases h : (t.cell? changing).bind Content.number? with
  | none => rw [Option.getD_none, Binary64.zero_eq]; rfl
  | some n =>
    obtain ⟨c, -, hn⟩ := Option.bind_eq_some_iff.1 h
    exact Content.isFinite_of_number? hn

theorem exists_trial_eq (h : t.solve settings formula goal changing = .ok x) :
    ∃ k ≤ settings.maxIterations, t.trial settings formula goal changing k = x := by
  simp only [solve] at h
  obtain ⟨k, hk, hx, -⟩ := Secant.solve_eq_ok_iff.1 (eq_ok_of_mapError h)
  exact ⟨k, Nat.le_of_lt_succ hk, hx⟩

end Table

theorem Value.exists_number?_of_near {v : Value} {goal epsilon : Binary64}
    (h : (v.number?.getD 0 - goal).abs < epsilon) (hgoal : ¬goal.abs < epsilon) :
    ∃ n, v.number? = some n ∧ (n - goal).abs < epsilon := by
  cases hv : v.number? with
  | none =>
    rw [hv, Option.getD_none, Binary64.abs_zero_sub] at h
    exact absurd h hgoal
  | some n => exact ⟨n, rfl, by rwa [hv] at h⟩

namespace Sheet

variable {s t : Sheet} {settings : Settings} {target changing : String} {goal x : Binary64}

theorem exists_solve_of_seekGoal (h : s.seekGoal settings target goal changing = .ok (t, x)) :
    ∃ a b formula, Address.parse? target = some a ∧ Address.parse? changing = some b ∧
      t.cell? a = some formula ∧ formula.isFormula = true ∧
      s.solve settings formula goal b = .ok x ∧
      ((t.evaluate a).number?.getD 0 - goal).abs < settings.epsilon := by
  obtain ⟨hx, b, hstore⟩ := seekGoal_eq_ok h
  obtain ⟨a, b', formula, ha, hb, hcell, hformula, hbounds, hchanging, hsolve⟩ :=
    Table.seek_eq_ok hx
  obtain ⟨hresolve, hset⟩ := setCellRef_eq_ok hstore
  rw [resolve_eq_ok hb hbounds] at hresolve
  cases hresolve
  have hkept := cell?_of_setCell_ne_formula hset hcell hformula hchanging
  refine ⟨a, b, formula, ha, hb, hkept, hformula, hsolve, ?_⟩
  have hzero := Table.isZero_of_solve hsolve
  obtain ⟨u, hu, rfl⟩ := setCell_eq_ok hset
  rw [Table.trialValue_eq hu] at hzero
  rw [evaluate_eq hkept]
  exact of_decide_eq_true hzero

/-- Once a goal seek has stored its solution, the target shows a number near the goal, if zero is not
near the goal itself. The solution is one of the numbers tried, and finite if it is the first. -/
theorem seekGoal_shows_number (s : Sheet) (settings : Settings) (target : String) (goal : Binary64)
    (changing : String) (t : Sheet) (x : Binary64)
    (h : s.seekGoal settings target goal changing = .ok (t, x)) :
    ∃ a b formula, Address.parse? target = some a ∧ Address.parse? changing = some b ∧
      t.cell? a = some formula ∧ formula.isFormula = true ∧
      (¬goal.abs < settings.epsilon →
        ∃ n, (t.evaluate a).number? = some n ∧ (n - goal).abs < settings.epsilon) ∧
      ∃ k ≤ settings.maxIterations, s.trial settings formula goal b k = x ∧
        (k = 0 → x.isFinite = true) := by
  obtain ⟨a, b, formula, ha, hb, hcell, hformula, hsolve, hnear⟩ := exists_solve_of_seekGoal h
  obtain ⟨k, hk, hx⟩ := Table.exists_trial_eq hsolve
  refine ⟨a, b, formula, ha, hb, hcell, hformula, Value.exists_number?_of_near hnear, k, hk, hx, ?_⟩
  rintro rfl
  rw [← hx]
  exact Table.isFinite_seed

theorem seekGoal_shows_number_doubling :
    ∃ t x, doubling.seekGoal {} "B1" 10 "A1" = .ok (t, x) ∧
      ∃ n, (t.evaluate ⟨1, 0⟩).number? = some n ∧ (n - 10).abs < ({} : Settings).epsilon := by
  have hok : (doubling.seekGoal {} "B1" 10 "A1").isOk = true := by decide +kernel
  cases h : doubling.seekGoal {} "B1" 10 "A1" with
  | error e => simp [h, Except.isOk, Except.toBool] at hok
  | ok r =>
    obtain ⟨a, b, formula, ha, -, -, -, hnumber, -⟩ :=
      seekGoal_shows_number doubling {} "B1" 10 "A1" r.1 r.2 h
    have hplace : Address.parse? "B1" = some ⟨1, 0⟩ := by decide +kernel
    rw [hplace] at ha
    cases ha
    exact ⟨r.1, r.2, rfl, hnumber (by decide +kernel)⟩

def hopeless : Sheet :=
  (ofColumns "Sheet" ["Part", "Ratio"]).run [.addRow, .setInput "A1" "1", .setInput "B1" "=A1/0"]

def far : Sheet :=
  (ofColumns "Sheet" ["Side", "Area"]).run
    [.addRow, .setInput "A1" "1e150", .setInput "B1" "=COUNT(A1)*(A1*A1+1)"]

/-- A goal of zero is met by an error, and by an infinite number in a cell that a formula then passes
over. -/
theorem seekGoal_meets_zero :
    (¬∀ (s t : Sheet) (settings : Settings) (target changing : String) (goal x : Binary64),
      s.seekGoal settings target goal changing = .ok (t, x) →
      ∀ a, Address.parse? target = some a → ∃ n, (t.evaluate a).number? = some n) ∧
    ¬∀ (s t : Sheet) (settings : Settings) (target changing : String) (goal x : Binary64),
      s.seekGoal settings target goal changing = .ok (t, x) → x.isFinite = true := by
  constructor
  · intro h
    have hseek : hopeless.seekGoal {} "B1" 0 "A1" =
        .ok (hopeless.edit (.setCell ⟨0, 0⟩ (.number 1)), 1) := by
      decide +kernel
    obtain ⟨n, hn⟩ := h _ _ _ _ _ _ _ hseek ⟨1, 0⟩ (by decide +kernel)
    have hnone : ((hopeless.edit (.setCell ⟨0, 0⟩ (.number 1))).evaluate ⟨1, 0⟩).number? = none := by
      decide +kernel
    rw [hnone] at hn
    cases hn
  · intro h
    have hseek : far.seekGoal {} "B1" 0 "A1" =
        .ok (far.edit (.setCell ⟨0, 0⟩ (.number (.infinite true))), .infinite true) := by
      decide +kernel
    cases h _ _ _ _ _ _ _ hseek

end Sheet

end Spreadsheet
