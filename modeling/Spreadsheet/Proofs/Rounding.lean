import Mathlib.Tactic.Ring
import Spreadsheet.Number.Rounding

namespace Spreadsheet.Binary64

theorem nearest_ge (n d : Nat) : n / d ≤ nearest n d := by
  unfold nearest
  split <;> omega

theorem nearest_lt_iff {n d t : Nat} (hd : 0 < d) (ht : t % 2 = 0) :
    nearest n d < t ↔ 2 * n < (2 * t - 1) * d := by
  obtain ⟨q, r, hq, hr, hn⟩ : ∃ q r, n / d = q ∧ n % d = r ∧ n = q * d + r :=
    ⟨_, _, rfl, rfl, by rw [Nat.mul_comm, Nat.div_add_mod]⟩
  have hrd : r < d := hr ▸ Nat.mod_lt n hd
  rw [nearest, hq, hr]
  rcases Nat.lt_trichotomy (q + 1) t with h | h | h
  · have hmul : (2 * q + 2) * d ≤ (2 * t - 1) * d := Nat.mul_le_mul_right d (by omega)
    have hexpand : (2 * q + 2) * d = 2 * (q * d) + 2 * d := by ring
    constructor
    · intro; omega
    · intro; split <;> omega
-- Halfway below the even number, which the tie reaches.
  · subst h
    have hexpand : (2 * (q + 1) - 1) * d = 2 * (q * d) + d := by
      rw [show 2 * (q + 1) - 1 = 2 * q + 1 by omega]
      ring
    rw [hexpand]
    split <;> omega
  · have hmul : (2 * t - 1) * d ≤ (2 * q) * d := Nat.mul_le_mul_right d (by omega)
    have hexpand : 2 * q * d = 2 * (q * d) := by ring
    constructor
    · intro; split at * <;> omega
    · intro; omega

theorem nearest_add {k d r : Nat} (hd : 0 < d) (hr : 2 * r < d ∨ (2 * r = d ∧ k % 2 = 0)) :
    nearest (k * d + r) d = k := by
  have hlt : r < d := by omega
  have hquot : (k * d + r) / d = k := by
    rw [Nat.mul_comm, Nat.mul_add_div hd, Nat.div_eq_of_lt hlt, Nat.add_zero]
  have hrem : (k * d + r) % d = r := by
    rw [Nat.mul_comm, Nat.mul_add_mod, Nat.mod_eq_of_lt hlt]
  rw [nearest, hquot, hrem, if_pos hr]

theorem nearest_mul {k d : Nat} (hd : 0 < d) : nearest (k * d) d = k :=
  nearest_add (r := 0) hd (.inl hd)

theorem nearest_mul_mul {n d c : Nat} (hc : 0 < c) : nearest (n * c) (d * c) = nearest n d := by
  have hlt : 2 * (n % d * c) < d * c ↔ 2 * (n % d) < d := by
    rw [← Nat.mul_assoc, Nat.mul_lt_mul_right hc]
  have heq : 2 * (n % d * c) = d * c ↔ 2 * (n % d) = d := by
    rw [← Nat.mul_assoc, Nat.mul_left_inj (Nat.ne_of_gt hc)]
  simp only [nearest, Nat.mul_div_mul_right n d hc, Nat.mul_mod_mul_right, hlt, heq]

theorem roundUnits_mul_mul {n d c : Nat} (hc : 0 < c) : roundUnits (n * c) (d * c) = roundUnits n d := by
  have hexp : gridExponent (n * c) (d * c) = gridExponent n d := by
    rw [gridExponent, Nat.mul_div_mul_right n d hc, gridExponent]
  rw [roundUnits, hexp, Nat.mul_right_comm, nearest_mul_mul hc, roundUnits]

theorem roundUnits_of_dvd {u d : Nat} (h : Nat.pow 2 (u.log2 - 52) ∣ u) (hd : 0 < d) :
    roundUnits (u * d) d = u := by
  obtain ⟨k, hk⟩ := h
  have hexp : gridExponent (u * d) d = u.log2 - 52 := by
    rw [gridExponent, Nat.mul_div_cancel _ hd]
  have hunits : u * d = k * (d * Nat.pow 2 (u.log2 - 52)) := by
    rw [Nat.mul_left_comm, Nat.mul_comm k, ← hk, Nat.mul_comm]
  have hgrid : 0 < d * Nat.pow 2 (u.log2 - 52) := Nat.mul_pos hd (Nat.two_pow_pos _)
  rw [roundUnits, hexp, hunits, nearest_mul hgrid, Nat.mul_comm, ← hk]

theorem roundUnits_of_representable {u d : Nat} (h : Representable u) (hd : 0 < d) :
    roundUnits (u * d) d = u :=
  roundUnits_of_dvd h.1 hd

theorem ofQuotient_eq_finite_iff {s : Bool} {a b u : Nat} {hu : Representable u} :
    ofQuotient s a b = .finite s u hu ↔ roundUnits a b = u := by
  constructor
  · intro h
    rw [ofQuotient] at h
    split at h <;> cases h
    rfl
  · rintro rfl
    exact dif_pos hu.2

theorem ofQuotient_mul_mul {s : Bool} {n d c : Nat} (hc : 0 < c) :
    ofQuotient s (n * c) (d * c) = ofQuotient s n d := by
  simp only [ofQuotient, roundUnits_mul_mul hc]

theorem ofQuotient_of_representable {s : Bool} {u d : Nat} (h : Representable u) (hd : 0 < d) :
    ofQuotient s (u * d) d = .finite s u h :=
  ofQuotient_eq_finite_iff.2 (roundUnits_of_representable h hd)

theorem ofQuotient_one {s : Bool} {u : Nat} (h : Representable u) :
    ofQuotient s u 1 = .finite s u h := by
  simpa only [Nat.mul_one] using ofQuotient_of_representable h Nat.one_pos

theorem zero_eq : (0 : Binary64) = zero false := by
  decide +kernel

@[simp] theorem abs_zero_sub (x : Binary64) : (0 - x).abs = x.abs := by
  rw [zero_eq]
  cases x with
  | infinite s => rfl
  | nan => rfl
  | finite s u hu =>
    change (add (.finite false 0 representable_zero) (.finite (!s) u hu)).abs = .finite false u hu
    have hsum : signed false 0 + signed (!s) u = signed (!s) u := by simp [signed]
    have habs : (signed (!s) u).natAbs = u := by cases s <;> simp [signed]
    rw [add, hsum]
    split
    · next h0 =>
      rw [h0] at habs
      subst habs
      rfl
    · rw [habs, ofQuotient_one hu]
      rfl

theorem log2_eq_of_mem {q k : Nat} (hlo : 2 ^ k ≤ q) (hhi : q < 2 ^ (k + 1)) : q.log2 = k :=
  (Nat.log2_eq_iff (Nat.ne_of_gt (Nat.lt_of_lt_of_le (Nat.two_pow_pos k) hlo))).2 ⟨hlo, hhi⟩

theorem roundUnits_lt_of_lt {n d m : Nat} (h : n / d < 2 ^ (m + 53)) :
    roundUnits n d ≤ 2 ^ (m + 53) := by
  have hexp : gridExponent n d ≤ m := by
    rcases Nat.eq_zero_or_pos (n / d) with h0 | hpos
    · simp [gridExponent, h0]
    · have := (Nat.log2_lt (Nat.ne_of_gt hpos)).2 h
      unfold gridExponent
      omega
  calc roundUnits n d ≤ Nat.pow 2 53 * Nat.pow 2 (gridExponent n d) :=
        Nat.mul_le_mul_right _ (nearest_grid_le n d)
    _ = 2 ^ (53 + gridExponent n d) := (Nat.pow_add 2 53 _).symm
    _ ≤ 2 ^ (m + 53) := Nat.pow_le_pow_right (by decide) (by omega)

theorem le_roundUnits {n d : Nat} (h : 2 ^ 52 ≤ n / d) : 2 ^ (n / d).log2 ≤ roundUnits n d := by
  have hpos : n / d ≠ 0 := Nat.ne_of_gt (Nat.lt_of_lt_of_le (Nat.two_pow_pos _) h)
  have hlog : (n / d).log2 = 52 + gridExponent n d := by
    have := (Nat.le_log2 hpos).2 h
    unfold gridExponent
    omega
  have hquot : 2 ^ 52 ≤ n / (d * 2 ^ gridExponent n d) := by
    rw [← Nat.div_div_eq_div_mul, Nat.le_div_iff_mul_le (Nat.two_pow_pos _), ← Nat.pow_add, ← hlog]
    exact Nat.log2_self_le hpos
  calc 2 ^ (n / d).log2 = 2 ^ 52 * 2 ^ gridExponent n d := by rw [hlog, Nat.pow_add]
    _ ≤ roundUnits n d := Nat.mul_le_mul_right _ (Nat.le_trans hquot (nearest_ge _ _))

theorem nearest_grid_lt_iff {n d m : Nat} (hd : 0 < d) :
    nearest n (d * 2 ^ (m + 1)) < 2 ^ 53 ↔ n / d < 2 ^ (m + 54) - 2 ^ m := by
  obtain ⟨k, hk⟩ : ∃ k, 2 * 2 ^ 53 = k + 1 := ⟨2 * 2 ^ 53 - 1, rfl⟩
  have htop : 2 ^ (m + 54) - 2 ^ m = k * 2 ^ m := by
    rw [show m + 54 = 53 + 1 + m by omega, Nat.pow_add, Nat.pow_succ, Nat.mul_comm (2 ^ 53), hk,
      Nat.succ_mul, Nat.add_sub_cancel]
  have hgrid : k * (d * 2 ^ (m + 1)) = 2 * (k * 2 ^ m * d) := by
    rw [Nat.pow_succ]
    ring
  rw [nearest_lt_iff (Nat.mul_pos hd (Nat.two_pow_pos _)) (by decide), htop, hk,
    Nat.add_sub_cancel, hgrid, Nat.div_lt_iff_lt_mul hd]
  omega

theorem roundUnits_lt_pow_iff {n d p : Nat} (hd : 0 < d) (hp : 54 ≤ p) :
    roundUnits n d < 2 ^ p ↔ n / d < 2 ^ p - 2 ^ (p - 54) := by
  obtain ⟨m, rfl⟩ := Nat.exists_eq_add_of_le' hp
  rw [Nat.add_sub_cancel]
  have hm := Nat.two_pow_pos m
  have h53 : 2 ^ (m + 54) = 2 * 2 ^ (m + 53) := Nat.pow_succ'
  have hm53 : 2 ^ m ≤ 2 ^ (m + 53) := Nat.pow_le_pow_right (by decide) (by omega)
  rcases Nat.lt_or_ge (n / d) (2 ^ (m + 53)) with hsmall | hlarge
  · have := roundUnits_lt_of_lt hsmall
    generalize 2 ^ (m + 53) = p at *
    constructor <;> intro <;> omega
  rcases Nat.lt_or_ge (n / d) (2 ^ (m + 54)) with hbelow | habove
  · have hexp : gridExponent n d = m + 1 := by
      rw [gridExponent, log2_eq_of_mem hlarge hbelow]
      omega
    rw [← nearest_grid_lt_iff hd, roundUnits, hexp, show m + 54 = 53 + (m + 1) by omega,
      Nat.pow_add, Nat.pow_eq, Nat.mul_lt_mul_right (Nat.two_pow_pos _)]
  · have hlog : m + 54 ≤ (n / d).log2 := (Nat.le_log2 (by omega)).2 habove
    have hge : 2 ^ (m + 54) ≤ roundUnits n d :=
      calc 2 ^ (m + 54) ≤ 2 ^ (n / d).log2 := Nat.pow_le_pow_right (by decide) hlog
        _ ≤ roundUnits n d := le_roundUnits
            (Nat.le_trans (Nat.pow_le_pow_right (by decide) (by omega)) habove)
    generalize 2 ^ (m + 54) = p at *
    constructor <;> intro <;> omega

def margin : Nat :=
  Nat.pow 2 (overflowExponent - 54)

/-- Counts of units from here on are rounded to an infinity. -/
def overflowThreshold : Nat :=
  overflow - margin

theorem le_overflowExponent : 54 ≤ overflowExponent := by decide

theorem roundUnits_lt_overflow_iff {n d : Nat} (hd : 0 < d) :
    roundUnits n d < overflow ↔ n / d < overflowThreshold := by
  have hp := le_overflowExponent
  unfold overflowThreshold margin overflow
  generalize overflowExponent = p at *
  exact roundUnits_lt_pow_iff hd hp

theorem isFinite_ofQuotient {s : Bool} {n d : Nat} (hd : 0 < d) :
    (ofQuotient s n d).isFinite = true ↔ n / d < overflowThreshold := by
  rw [← roundUnits_lt_overflow_iff hd, ofQuotient]
  split
  · next h => exact iff_of_true rfl h
  · next h => exact iff_of_false Bool.false_ne_true h

theorem ofQuotient_eq_infinite {s : Bool} {n d : Nat} (h : (ofQuotient s n d).isFinite = false) :
    ofQuotient s n d = .infinite s := by
  unfold ofQuotient at *
  split
  · next hlt =>
    rw [dif_pos hlt] at h
    cases h
  · rfl

theorem add_pow_le_of_dvd {u m : Nat} (h : u < 2 ^ (m + 53)) (hdvd : 2 ^ (u.log2 - 52) ∣ u) :
    u + 2 ^ m ≤ 2 ^ (m + 53) := by
  rcases Nat.lt_or_ge u (2 ^ (m + 52)) with hsmall | hlarge
  · have h53 : 2 ^ (m + 53) = 2 * 2 ^ (m + 52) := Nat.pow_succ'
    have hm : 2 ^ m ≤ 2 ^ (m + 52) := Nat.pow_le_pow_right (by decide) (by omega)
    omega
  · rw [log2_eq_of_mem hlarge h, Nat.add_sub_cancel] at hdvd
    obtain ⟨k, rfl⟩ := hdvd
    rw [Nat.pow_add] at *
    have hk : k < 2 ^ 53 := Nat.lt_of_mul_lt_mul_left h
    calc 2 ^ m * k + 2 ^ m = 2 ^ m * (k + 1) := (Nat.mul_succ _ _).symm
      _ ≤ 2 ^ m * 2 ^ 53 := Nat.mul_le_mul_left _ hk

theorem Representable.add_lt {u v : Nat} (hu : Representable u)
    (hv : v < margin) : u + v < overflowThreshold := by
  obtain ⟨hdvd, hlt⟩ := hu
  have hp := le_overflowExponent
  unfold overflow at hlt
  unfold margin at hv
  unfold overflowThreshold margin overflow
  generalize overflowExponent = p at *
  obtain ⟨m, rfl⟩ := Nat.exists_eq_add_of_le' hp
  simp only [Nat.pow_eq, Nat.add_sub_cancel] at *
  have hle : u + 2 ^ (m + 1) ≤ 2 ^ (m + 54) := add_pow_le_of_dvd (m := m + 1) hlt hdvd
  have hstep : 2 ^ (m + 1) = 2 * 2 ^ m := Nat.pow_succ'
  omega

theorem pow_lt_margin {e : Nat} (h : e < overflowExponent - 54) : Nat.pow 2 e < margin := by
  unfold margin
  generalize overflowExponent - 54 = p at *
  exact Nat.pow_lt_pow_right (by decide) h

theorem one_lt_margin : one < margin := by
  unfold one
  exact pow_lt_margin (e := oneExponent) (by decide)

theorem half_lt_margin : Nat.pow 2 1073 < margin := by
  have hexp : 1073 < overflowExponent - 54 := by decide
  generalize 1073 = e at *
  exact pow_lt_margin hexp

theorem Representable.lt_threshold {u : Nat} (hu : Representable u) : u < overflowThreshold :=
  hu.add_lt (Nat.lt_of_le_of_lt (Nat.zero_le one) one_lt_margin)

theorem natAbs_signed_add_le (s t : Bool) (u v : Nat) :
    (signed s u + signed t v).natAbs ≤ u + v := by
  cases s <;> cases t <;> simp only [signed, if_true, if_false, Bool.false_eq_true] <;> omega

theorem isFinite_add_of_lt {x : Binary64} {t : Bool} {v : Nat} {hv : Representable v}
    (hx : x.isFinite = true) (hlt : v < margin) :
    (x + .finite t v hv).isFinite = true := by
  cases x with
  | infinite s => cases hx
  | nan => cases hx
  | finite s u hu =>
    change (add (.finite s u hu) (.finite t v hv)).isFinite = true
    rw [add]
    split
    · rfl
    · rw [isFinite_ofQuotient Nat.one_pos, Nat.div_one]
      exact Nat.lt_of_le_of_lt (natAbs_signed_add_le s t u v) (hu.add_lt hlt)

theorem isFinite_floor {x : Binary64} (hx : x.isFinite = true) : x.floor.isFinite = true := by
  match x with
  | .infinite s => cases hx
  | .nan => cases hx
  | .finite false u hu =>
    rw [floor, isFinite_ofQuotient Nat.one_pos, Nat.div_one]
    exact Nat.lt_of_le_of_lt (Nat.div_mul_le_self u one) hu.lt_threshold
  | .finite true u hu =>
    rw [floor, isFinite_ofQuotient Nat.one_pos, Nat.div_one]
    exact Nat.lt_of_le_of_lt (Nat.div_mul_le_self _ one)
      (hu.add_lt (Nat.lt_of_le_of_lt (Nat.sub_le one 1) one_lt_margin))

theorem mul_finite (s t : Bool) {u v : Nat} (hu : Representable u) (hv : Representable v) :
    Binary64.finite s u hu * .finite t v hv = ofQuotient (s != t) (u * v) one := by
  change mul (.finite s u hu) (.finite t v hv) = _
  rw [mul]

theorem isFinite_mul {s t : Bool} {u v : Nat} {hu : Representable u} {hv : Representable v} :
    (Binary64.finite s u hu * .finite t v hv).isFinite = true ↔ u * v / one < overflowThreshold := by
  rw [mul_finite, isFinite_ofQuotient one_pos]

theorem isFinite_div_of_le {x : Binary64} {t : Bool} {v : Nat} {hv : Representable v}
    (hx : x.isFinite = true) (hle : one ≤ v) : (x / .finite t v hv).isFinite = true := by
  have hpos : 0 < v := Nat.lt_of_lt_of_le one_pos hle
  cases x with
  | infinite s => cases hx
  | nan => cases hx
  | finite s u hu =>
    change (div (.finite s u hu) (.finite t v hv)).isFinite = true
    rw [div, if_pos (Nat.ne_of_gt hpos), isFinite_ofQuotient hpos]
    have hdiv : u * one / v ≤ u :=
      Nat.div_le_of_le_mul (by rw [Nat.mul_comm]; exact Nat.mul_le_mul_right u hle)
    exact Nat.lt_of_le_of_lt hdiv hu.lt_threshold

theorem half_eq : (0.5 : Binary64) = .finite false (Nat.pow 2 1073) (by decide +kernel) := by
  decide +kernel

theorem isFinite_roundScaled {n : Binary64} {v : Nat} {hv : Representable v} (hle : one ≤ v) :
    (roundScaled (.finite false v hv) n).isFinite = true ↔
      (n * .finite false v hv).isFinite = true := by
  rw [roundScaled]
  cases hmul : n * .finite false v hv with
  | finite s u hu =>
    have hhalf : (Binary64.finite s u hu + 0.5).isFinite = true := by
      rw [half_eq]
      exact isFinite_add_of_lt rfl half_lt_margin
    exact iff_of_true (isFinite_div_of_le (isFinite_floor hhalf) hle) rfl
  | infinite s => rw [half_eq]; exact iff_of_false Bool.false_ne_true Bool.false_ne_true
  | nan => rw [half_eq]; exact iff_of_false Bool.false_ne_true Bool.false_ne_true

end Spreadsheet.Binary64
