import Spreadsheet.Proofs.FiniteResult

namespace Spreadsheet.Binary64

theorem pow_mul_pow_lt_margin {e f : Nat} (h : e + f < overflowExponent - 54) :
    Nat.pow 2 e * Nat.pow 2 f < margin := by
  simpa only [Nat.pow_eq, Nat.pow_add] using pow_lt_margin h

theorem lt_threshold_of_lt_margin {u : Nat} (h : u < margin) : u < overflowThreshold :=
  Nat.zero_add u ▸ representable_zero.add_lt h

theorem representable_of_le_pow {m e : Nat} (hm : m ≤ Nat.pow 2 53)
    (he : 53 + e < overflowExponent - 54) : Representable (m * Nat.pow 2 e) := by
  have hmargin : m * Nat.pow 2 e < margin :=
    Nat.lt_of_le_of_lt (Nat.mul_le_mul_right _ hm) (pow_mul_pow_lt_margin he)
  exact representable_mul_pow hm
    (Nat.lt_of_lt_of_le (lt_threshold_of_lt_margin hmargin) (Nat.sub_le overflow margin))

theorem representable_mul_one {n : Nat} (hn : n ≤ Nat.pow 2 53) : Representable (n * one) := by
  unfold one
  exact representable_of_le_pow hn (by decide)

theorem ofNat_eq {n : Nat} (hn : n ≤ Nat.pow 2 53) :
    ofNat n = .finite false (n * one) (representable_mul_one hn) :=
  ofQuotient_one (representable_mul_one hn)

theorem ofNat_inj {m n : Nat} (hm : m ≤ Nat.pow 2 53) (hn : n ≤ Nat.pow 2 53) :
    ofNat m = ofNat n ↔ m = n := by
  rw [ofNat_eq hm, ofNat_eq hn, finite.injEq, Nat.mul_left_inj (Nat.ne_of_gt one_pos)]
  simp

theorem isFinite_ofNat {n : Nat} (hn : n ≤ Address.limit) : (ofNat n).isFinite = true := by
  have hmargin : Nat.pow 2 64 * one < margin := by
    unfold one
    exact pow_mul_pow_lt_margin (by decide)
  rw [ofNat, isFinite_ofQuotient Nat.one_pos, Nat.div_one]
  apply lt_threshold_of_lt_margin
  exact Nat.lt_of_le_of_lt (Nat.mul_le_mul_right one (Nat.le_trans hn (Nat.sub_le _ 1))) hmargin

theorem nearest_eq_iff {n d k : Nat} (hd : 0 < d) : nearest n d = k ↔
    (2 * (k * d) < 2 * n + d ∧ 2 * n < 2 * (k * d) + d) ∨
      (k % 2 = 0 ∧ (2 * (k * d) = 2 * n + d ∨ 2 * n = 2 * (k * d) + d)) := by
  obtain ⟨q, r, hq, hr, hn⟩ : ∃ q r, n / d = q ∧ n % d = r ∧ n = q * d + r :=
    ⟨_, _, rfl, rfl, by rw [Nat.mul_comm, Nat.div_add_mod]⟩
  have hrd : r < d := hr ▸ Nat.mod_lt n hd
  have hsucc : (q + 1) * d = q * d + d := Nat.succ_mul q d
  rw [nearest, hq, hr]
  rcases Nat.lt_trichotomy k q with hlt | rfl | hgt
  · have hle : (k + 1) * d ≤ q * d := Nat.mul_le_mul_right d hlt
    rw [Nat.succ_mul] at hle
    split <;> omega
  · split <;> omega
  · rcases Nat.lt_or_ge (q + 1) k with hfar | hnear
    · have hle : (q + 2) * d ≤ k * d := Nat.mul_le_mul_right d hfar
      have hexpand : (q + 2) * d = q * d + 2 * d := Nat.add_mul q 2 d
      split <;> omega
    · obtain rfl : k = q + 1 := by omega
      split <;> omega

theorem log2_le_log2 {m n : Nat} (h : m ≤ n) : m.log2 ≤ n.log2 := by
  rcases Nat.eq_zero_or_pos m with rfl | hpos
  · exact Nat.zero_le _
  · exact (Nat.le_log2 (by omega)).2 (Nat.le_trans (Nat.log2_self_le (Nat.ne_of_gt hpos)) h)

theorem log2_add_half {m h : Nat} (hm : m ≠ 0) :
    (m * 2 ^ (h + 1) + 2 ^ h).log2 = (m * 2 ^ (h + 1)).log2 := by
  have hpos : m * 2 ^ (h + 1) ≠ 0 := Nat.mul_ne_zero hm (Nat.ne_of_gt (Nat.two_pow_pos _))
  obtain ⟨k, hk⟩ : ∃ k, (m * 2 ^ (h + 1)).log2 = k + (h + 1) := by
    apply Nat.exists_eq_add_of_le'
    rw [Nat.le_log2 hpos]
    exact Nat.le_mul_of_pos_left _ (Nat.pos_of_ne_zero hm)
  have hlow : 2 ^ (k + (h + 1)) ≤ m * 2 ^ (h + 1) := hk ▸ Nat.log2_self_le hpos
  have hhigh : m * 2 ^ (h + 1) < 2 ^ (k + 1) * 2 ^ (h + 1) := by
    rw [← Nat.pow_add, Nat.add_right_comm, ← hk]
    exact Nat.lt_log2_self
  rw [hk]
  apply log2_eq_of_mem (Nat.le_trans hlow (Nat.le_add_right _ _))
  calc m * 2 ^ (h + 1) + 2 ^ h
      < m * 2 ^ (h + 1) + 2 ^ (h + 1) :=
        Nat.add_lt_add_left (Nat.pow_lt_pow_right (by decide) (Nat.lt_succ_self h)) _
    _ = (m + 1) * 2 ^ (h + 1) := (Nat.succ_mul _ _).symm
    _ ≤ 2 ^ (k + 1) * 2 ^ (h + 1) := Nat.mul_le_mul_right _ (Nat.lt_of_mul_lt_mul_right hhigh)
    _ = 2 ^ (k + (h + 1) + 1) := by rw [← Nat.pow_add, Nat.add_right_comm]

/-- Units of a number with the given sign once it has gone up by `v` of them. -/
def raised : Bool → Nat → Nat → Nat
  | false, u, v => u + v
  | true, u, v => u - v

/-- How many times `d` units go into units of the given sign, rounded down. -/
def floorDiv : Bool → Nat → Nat → Nat
  | false, u, d => u / d
  | true, u, d => (u + (d - 1)) / d

variable {s : Bool}

theorem raised_zero (u : Nat) : raised s u 0 = u := by
  cases s <;> rfl

theorem floorDiv_raised {m d r : Nat} (hr : r < d) (hle : s = true → r ≤ m * d) :
    floorDiv s (raised s (m * d) r) d = m := by
  have hup : ∀ r < d, (m * d + r) / d = m := fun r hr => by
    rw [Nat.mul_comm, Nat.mul_add_div (by omega), Nat.div_eq_of_lt hr, Nat.add_zero]
  cases s with
  | false => exact hup r hr
  | true =>
    have hsplit : m * d - r + (d - 1) = m * d + (d - 1 - r) := by
      have := hle rfl
      omega
    change (m * d - r + (d - 1)) / d = m
    rw [hsplit]
    exact hup _ (by omega)

theorem log2_raised_le {m h : Nat} (hm : m ≠ 0) :
    (raised s (m * 2 ^ (h + 1)) (2 ^ h)).log2 ≤ (m * 2 ^ (h + 1)).log2 := by
  cases s with
  | false => exact Nat.le_of_eq (log2_add_half hm)
  | true => exact log2_le_log2 (Nat.sub_le _ _)

/-- An even number of ones that goes up by half of one comes down to itself again, if it is rounded in
between on a grid that has it. -/
theorem floorDiv_nearest {m h e : Nat} (hpos : s = true → 0 < m) (hm : m % 2 = 0)
    (he : 2 ^ e ∣ m * 2 ^ (h + 1)) :
    floorDiv s (nearest (raised s (m * 2 ^ (h + 1)) (2 ^ h)) (2 ^ e) * 2 ^ e) (2 ^ (h + 1)) = m := by
  have hone : 2 ^ (h + 1) = 2 * 2 ^ h := Nat.pow_succ'
  have hhalf : 0 < 2 ^ h := Nat.two_pow_pos h
  have hle (hs : s = true) : 2 * 2 ^ h ≤ m * 2 ^ (h + 1) := hone ▸ Nat.le_mul_of_pos_left _ (hpos hs)
  have hraised : raised s (m * 2 ^ (h + 1)) (2 ^ h) = m * 2 ^ (h + 1) + 2 ^ h ∨
      2 * 2 ^ h ≤ m * 2 ^ (h + 1) ∧ raised s (m * 2 ^ (h + 1)) (2 ^ h) = m * 2 ^ (h + 1) - 2 ^ h := by
    cases s with
    | false => exact .inl rfl
    | true => exact .inr ⟨hle rfl, rfl⟩
  obtain ⟨k, hk⟩ := he
  rw [Nat.mul_comm (2 ^ e)] at hk
  -- The half is rounded off on a grid that is as coarse as the ones, and kept on a finer one.
  obtain ⟨r, hr, hround⟩ : ∃ r ≤ 2 ^ h,
      nearest (raised s (m * 2 ^ (h + 1)) (2 ^ h)) (2 ^ e) * 2 ^ e = raised s (m * 2 ^ (h + 1)) r := by
    rcases Nat.lt_trichotomy (h + 1) e with hcoarse | rfl | hfine
    · have hgrid : 2 * 2 ^ h < 2 ^ e := hone ▸ Nat.pow_lt_pow_right (by decide) hcoarse
      have hnear : nearest (raised s (m * 2 ^ (h + 1)) (2 ^ h)) (2 ^ e) = k :=
        (nearest_eq_iff (Nat.two_pow_pos e)).2 (.inl (by omega))
      exact ⟨0, Nat.zero_le _, by rw [hnear, raised_zero, hk]⟩
    · have hnear : nearest (raised s (m * 2 ^ (h + 1)) (2 ^ h)) (2 ^ (h + 1)) = m :=
        (nearest_eq_iff (Nat.two_pow_pos _)).2 (.inr ⟨hm, by omega⟩)
      exact ⟨0, Nat.zero_le _, by rw [hnear, raised_zero]⟩
    · have hunit : 2 ^ e ∣ m * 2 ^ (h + 1) := hk ▸ Nat.dvd_mul_left _ _
      have hpow : 2 ^ e ∣ 2 ^ h := Nat.pow_dvd_pow 2 (Nat.le_of_lt_succ hfine)
      obtain ⟨n, hn⟩ : 2 ^ e ∣ raised s (m * 2 ^ (h + 1)) (2 ^ h) := by
        cases s with
        | false => exact Nat.dvd_add hunit hpow
        | true => exact Nat.dvd_sub hunit hpow
      refine ⟨2 ^ h, Nat.le_refl _, ?_⟩
      rw [hn, Nat.mul_comm (2 ^ e), nearest_mul (Nat.two_pow_pos e)]
  rw [hround]
  exact floorDiv_raised (by omega) fun hs => by
    have := hle hs
    omega

theorem floorDiv_roundUnits {m h : Nat} (hpos : s = true → 0 < m) (hm : m % 2 = 0)
    (hdvd : 2 ^ ((m * 2 ^ (h + 1)).log2 - 52) ∣ m * 2 ^ (h + 1)) :
    floorDiv s (roundUnits (raised s (m * 2 ^ (h + 1)) (2 ^ h)) 1) (2 ^ (h + 1)) = m := by
  rw [roundUnits, Nat.one_mul, gridExponent, Nat.div_one]
  apply floorDiv_nearest hpos hm
  rcases Nat.eq_zero_or_pos m with rfl | hne
  · rw [Nat.zero_mul]
    exact Nat.dvd_zero _
  · exact Nat.dvd_trans (Nat.pow_dvd_pow 2 (Nat.sub_le_sub_right (log2_raised_le (Nat.ne_of_gt hne)) 52))
      hdvd

theorem add_finite {u v : Nat} (hu : Representable u) (hv : Representable v) (hpos : 0 < v)
    (hlt : s = true → v < u) :
    Binary64.finite s u hu + .finite false v hv = ofQuotient s (raised s u v) 1 := by
  change add (.finite s u hu) (.finite false v hv) = _
  cases s with
  | false =>
    have hsum : signed false u + signed false v = ((u + v : Nat) : Int) := by simp [signed]
    have hsign : decide (((u + v : Nat) : Int) < 0) = false := decide_eq_false (by omega)
    rw [add, hsum, if_neg (by omega), hsign, Int.natAbs_natCast, raised]
  | true =>
    have hlt := hlt rfl
    have hsum : signed true u + signed false v = -((u - v : Nat) : Int) := by
      simp only [signed, if_true, Bool.false_eq_true, if_false]
      omega
    have hsign : decide (-((u - v : Nat) : Int) < 0) = true := decide_eq_true (by omega)
    rw [add, hsum, if_neg (by omega), hsign, Int.natAbs_neg, Int.natAbs_natCast, raised]

theorem floor_ofQuotient {n : Nat} (hfinite : (ofQuotient s n 1).isFinite = true) :
    floor (ofQuotient s n 1) = ofQuotient s (floorDiv s (roundUnits n 1) one * one) 1 := by
  have hlt : roundUnits n 1 < overflow :=
    (roundUnits_lt_overflow_iff Nat.one_pos).2 ((isFinite_ofQuotient Nat.one_pos).1 hfinite)
  obtain ⟨hrep, heq⟩ : ∃ hrep, ofQuotient s n 1 = .finite s (roundUnits n 1) hrep :=
    ⟨_, dif_pos hlt⟩
  rw [heq]
  cases s with
  | false => rw [floor, floorDiv]
  | true => rw [floor, floorDiv]

theorem floor_half {m : Nat} (hpos : s = true → 0 < m) (hm : m % 2 = 0) (hrep : Representable (m * one)) :
    floor (.finite s (m * one) hrep + 0.5) = .finite s (m * one) hrep := by
  have hexp : oneExponent = 1073 + 1 := rfl
  have hround : floorDiv s (roundUnits (raised s (m * one) (Nat.pow 2 1073)) 1) one = m := by
    have hdvd := hrep.1
    unfold one at *
    rw [hexp] at *
    generalize 1073 = h at *
    exact floorDiv_roundUnits hpos hm hdvd
  have hhalf : 0 < Nat.pow 2 1073 ∧ Nat.pow 2 1073 < one := by
    unfold one
    rw [hexp]
    generalize 1073 = h
    exact ⟨Nat.two_pow_pos h, Nat.pow_lt_pow_right (by decide) (Nat.lt_succ_self h)⟩
  have hsum : Binary64.finite s (m * one) hrep + 0.5 =
      ofQuotient s (raised s (m * one) (Nat.pow 2 1073)) 1 := by
    rw [half_eq]
    exact add_finite _ _ hhalf.1 fun hs =>
      Nat.lt_of_lt_of_le hhalf.2 (Nat.le_mul_of_pos_left one (hpos hs))
  have hfinite : (ofQuotient s (raised s (m * one) (Nat.pow 2 1073)) 1).isFinite = true := by
    rw [← hsum, half_eq]
    exact isFinite_add_of_lt rfl half_lt_margin
  rw [hsum, floor_ofQuotient hfinite, hround, ofQuotient_one hrep]

/-- Up to this number ten thousand times a whole number is exact. -/
def exactPlaces : Nat :=
  Nat.pow 2 53 / 625

theorem representable_tenThousand_mul {n : Nat} (hn : n ≤ exactPlaces) :
    Representable (10000 * n * one) := by
  have hsmall : n * 625 ≤ Nat.pow 2 53 := (Nat.le_div_iff_mul_le (by decide)).1 hn
  have hsplit : 10000 * n * one = n * 625 * Nat.pow 2 (4 + oneExponent) := by
    unfold one
    simp only [Nat.pow_eq, Nat.pow_add]
    ring
  rw [hsplit]
  exact representable_of_le_pow hsmall (by decide)

theorem round4_ofNat {n : Nat} (hn : n ≤ exactPlaces) : (ofNat n).round4 = ofNat n := by
  have hrep := representable_tenThousand_mul hn
  have hmul : n * one * (10000 * one) = 10000 * n * one * one := by ring
  have hpos : 0 < 10000 * one := Nat.mul_pos (by decide) one_pos
  rw [ofNat_eq (Nat.le_trans hn (Nat.div_le_self _ _)), round4, roundScaled, tenThousand_eq,
    mul_finite, hmul, ofQuotient_of_representable hrep one_pos]
  change floor (.finite false (10000 * n * one) hrep + 0.5) / _ = _
  rw [floor_half (s := false) (fun hs => absurd hs Bool.false_ne_true) (by omega) hrep]
  change div (.finite false _ _) (.finite false _ _) = _
  rw [div, if_pos (Nat.ne_of_gt hpos), ← hmul]
  exact ofQuotient_of_representable _ hpos

end Spreadsheet.Binary64
