import Spreadsheet.Proofs.Address
import Spreadsheet.Proofs.Edit
import Spreadsheet.Sheet.Script

/-! Goal seek stores what it found and nothing else: the search returns only points that it has
tested, and every test was made on a shadow that shows what the sheet shows once the point is stored. -/

namespace Spreadsheet

namespace Secant

variable {settings : Settings} {f : Binary64 → Binary64}

def State.Fits (f : Binary64 → Binary64) (s : State) : Prop :=
  s.currentValue = f s.current

theorem fits_start (seed : Binary64) : (start f seed).Fits f := rfl

theorem fits_next (s : State) : (next settings f s).Fits f := by
  simp only [State.Fits, next]
  split <;> rfl

theorem isZero_of_search {n : Nat} {s : State} {x : Binary64} (hs : s.Fits f)
    (h : search settings f n s = .ok x) : isZero settings (f x) = true := by
  induction n generalizing s with
  | zero => cases h
  | succ n ih =>
    rw [search] at h
    split at h
    · next hzero =>
      cases h
      rwa [← hs]
    · exact ih (fits_next s) h

theorem isZero_of_solve {seed x : Binary64} (h : solve settings f seed = .ok x) :
    isZero settings (f x) = true := by
  rw [solve] at h
  split at h
  · next hzero => cases h; exact hzero
  · exact isZero_of_search (fits_start seed) h

end Secant

namespace Table

variable {t u : Table} {settings : Settings} {formula : Content} {goal x : Binary64}

theorem trialValue_eq {changing : Address} (h : t.set? changing (.number x) = some u) :
    t.trialValue formula changing x = ((u.grid.evaluate formula).number?).getD 0 := by
  obtain ⟨s, s', hs, hs', hindex, hcommit⟩ := Shadow.commit_set? h
  rw [trialValue, hs]
  simp only [hs', Option.getD_some]
  rw [Shadow.grid_eq_grid_commit hindex, hcommit]

theorem isZero_of_solve {changing : Address} (h : t.solve settings formula goal changing = .ok x) :
    Secant.isZero settings (t.trialValue formula changing x - goal) = true := by
  simp only [solve] at h
  exact Secant.isZero_of_solve (f := fun x => t.trialValue formula changing x - goal)
    (eq_ok_of_mapError h)

theorem seek_eq_ok {target changing : String} (h : t.seek settings target goal changing = .ok x) :
    ∃ a b formula, Address.parse? target = some a ∧ Address.parse? changing = some b ∧
      t.cell? a = some formula ∧ formula.isFormula = true ∧
      t.grid.inBounds b = true ∧ (∀ c, t.cell? b = some c → c.isFormula = false) ∧
      t.solve settings formula goal b = .ok x := by
  simp only [seek] at h
  split at h
  · next a b ha hb =>
    obtain ⟨-, h⟩ := of_ite_error_eq_ok h
    obtain ⟨hbounds, h⟩ := of_ite_error_eq_ok h
    obtain ⟨hformula, h⟩ := of_ite_error_eq_ok h
    obtain ⟨hchanging, h⟩ := of_ite_error_eq_ok h
    obtain ⟨-, h⟩ := of_ite_error_eq_ok h
    cases hcell : t.cell? a with
    | none => simp [hcell, Content.isFormula, Content.formulaBody?] at hformula
    | some formula =>
      rw [hcell, Option.getD_some] at h hformula
      refine ⟨a, b, formula, ha, hb, hcell, by simpa using hformula, by simpa using hbounds, ?_, h⟩
      intro c hc
      simpa [hc] using hchanging
  · cases h

end Table

namespace Sheet

variable {s t : Sheet} {settings : Settings} {target changing : String} {goal x : Binary64}

theorem resolve_eq_ok {reference : String} {a : Address} (h : Address.parse? reference = some a)
    (ha : s.grid.inBounds a = true) : s.resolve reference = .ok a :=
  resolve_eq_ok_iff.2 ⟨Address.parseTrimmed?_eq_some h, ha⟩

theorem exists_seekGoal_eq_ok (h : s.seek settings target goal changing = .ok x) :
    ∃ t, s.seekGoal settings target goal changing = .ok (t, x) := by
  obtain ⟨a, b, formula, -, hb, -, -, hbounds, -, -⟩ := Table.seek_eq_ok h
  obtain ⟨t, ht⟩ := exists_setCell_eq_ok hbounds (.number x)
  refine ⟨t, ?_⟩
  simp only [seekGoal, h, setCellRef, resolve_eq_ok hb hbounds, ht]
  rfl

theorem cell?_of_setCell_ne_formula {a b : Address} {formula content : Content}
    (ht : s.setCell b content = .ok t) (ha : s.cell? a = some formula)
    (hformula : formula.isFormula = true) (hb : ∀ c, s.cell? b = some c → c.isFormula = false) :
    t.cell? a = some formula := by
  rw [cell?_of_setCell ht, if_neg, ha]
  rintro ⟨hrow, hcol⟩
  have hsame : s.cell? a = s.cell? b := by simp [Table.cell?, hrow, hcol]
  rw [hb formula (hsame ▸ ha)] at hformula
  cases hformula

theorem evaluate_eq {a : Address} {formula : Content} (h : s.cell? a = some formula) :
    s.evaluate a = s.grid.evaluate formula := by
  simp [evaluate, h]

/-- A goal seek that fails leaves the sheet as it was. One that succeeds stores its solution in the
changing cell and nowhere else, and the formula of the target then shows the goal, within the
tolerance of the solver. -/
theorem seekGoal_atomic (s : Sheet) (settings : Settings) (target : String) (goal : Binary64)
    (changing : String) :
    (∀ e, s.seekGoal settings target goal changing = .error e →
      (∃ e', s.seek settings target goal changing = .error e') ∧
        s.edit (.seekGoal settings target goal changing) = s) ∧
    ∀ t x, s.seekGoal settings target goal changing = .ok (t, x) →
      s.edit (.seekGoal settings target goal changing) = t ∧
      ∃ a b key row formula,
        Address.parse? target = some a ∧ Address.parse? changing = some b ∧
        s.columns[b.col]? = some key ∧ s.rows[b.row]? = some row ∧
        t = { s with rows := s.rows.setIfInBounds b.row (row.insert key (.number x)) } ∧
        s.cell? a = some formula ∧ formula.isFormula = true ∧ t.cell? a = some formula ∧
        ((t.evaluate a).number?.getD 0 - goal).abs < settings.epsilon := by
  constructor
  · intro e he
    constructor
    · cases hx : s.seek settings target goal changing with
      | error e' => exact ⟨e', rfl⟩
      | ok x =>
        obtain ⟨t, ht⟩ := exists_seekGoal_eq_ok hx
        rw [ht] at he
        cases he
    · simp [edit, apply, he, Except.map]
  · intro t x ht
    refine ⟨by simp [edit, apply, ht, Except.map], ?_⟩
    obtain ⟨hx, b, hstore⟩ := seekGoal_eq_ok ht
    obtain ⟨a, b', formula, ha, hb, hcell, hformula, hbounds, hchanging, hsolve⟩ :=
      Table.seek_eq_ok hx
    obtain ⟨hresolve, hset⟩ := setCellRef_eq_ok hstore
    rw [resolve_eq_ok hb hbounds] at hresolve
    cases hresolve
    have hkept := cell?_of_setCell_ne_formula hset hcell hformula hchanging
    obtain ⟨u, hu, rfl⟩ := setCell_eq_ok hset
    have hzero := Table.isZero_of_solve hsolve
    rw [Table.trialValue_eq hu] at hzero
    obtain ⟨key, row, hkey, hrow, rfl⟩ := Table.set?_eq_some_iff.1 hu
    refine ⟨a, b, key, row, formula, ha, hb, hkey, hrow, rfl, hcell, hformula, hkept, ?_⟩
    rw [evaluate_eq hkept]
    exact of_decide_eq_true hzero

def doubling : Sheet :=
  (ofColumns "Sheet" ["Half", "Whole"]).run [.addRow, .setInput "A1" "1", .setInput "B1" "=A1*2"]

theorem seekGoal_atomic_doubling :
    (doubling.seekGoal {} "A1" 10 "B1" = .error (.seek .targetNotFormula) ∧
      doubling.edit (.seekGoal {} "A1" 10 "B1") = doubling) ∧
    ∃ t x, doubling.seekGoal {} "B1" 10 "A1" = .ok (t, x) ∧
      doubling.edit (.seekGoal {} "B1" 10 "A1") = t := by
  constructor
  · have h : doubling.seekGoal {} "A1" 10 "B1" = .error (.seek .targetNotFormula) := by
      decide +kernel
    exact ⟨h, ((seekGoal_atomic doubling {} "A1" 10 "B1").1 _ h).2⟩
  · have hok : (doubling.seekGoal {} "B1" 10 "A1").isOk = true := by decide +kernel
    cases h : doubling.seekGoal {} "B1" 10 "A1" with
    | error e => simp [h, Except.isOk, Except.toBool] at hok
    | ok r => exact ⟨r.1, r.2, rfl, ((seekGoal_atomic doubling {} "B1" 10 "A1").2 r.1 r.2 h).1⟩

end Sheet

end Spreadsheet
