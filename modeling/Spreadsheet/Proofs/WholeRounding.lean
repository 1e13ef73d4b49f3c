import Spreadsheet.Document
import Spreadsheet.Proofs.Extremes
import Spreadsheet.Proofs.RangeText
import Spreadsheet.Proofs.Reference
import Spreadsheet.Proofs.WholeNumber

/-! Which whole numbers rounding to four places leaves alone. Ten thousand of them need not be exact, and
the quotient is the number again only as long as the error of the product is small beside its last place. -/

namespace Spreadsheet

namespace Binary64

theorem log2_mul_pow {m : Nat} (hm : m ≠ 0) (k : Nat) : (m * 2 ^ k).log2 = m.log2 + k := by
  apply log2_eq_of_mem
  · rw [Nat.pow_add]
    exact Nat.mul_le_mul_right _ (Nat.log2_self_le hm)
  · rw [Nat.add_right_comm, Nat.pow_add]
    exact (Nat.mul_lt_mul_right (Nat.two_pow_pos k)).2 Nat.lt_log2_self

theorem dvd_of_lt {m : Nat} (hm : m < 2 ^ 53) (k : Nat) : 2 ^ ((m * 2 ^ k).log2 - 52) ∣ m * 2 ^ k := by
  rcases Nat.eq_zero_or_pos m with rfl | hpos
  · rw [Nat.zero_mul]
    exact Nat.dvd_zero _
  · have hne := Nat.ne_of_gt hpos
    have hlog : m.log2 < 53 := (Nat.log2_lt hne).2 hm
    rw [log2_mul_pow hne]
    exact Nat.dvd_trans (Nat.pow_dvd_pow 2 (by omega)) (Nat.dvd_mul_left _ m)

theorem roundUnits_mul_pow (m k : Nat) : roundUnits (m * 2 ^ k) 1 = roundUnits m 1 * 2 ^ k := by
  rcases Nat.lt_or_ge m (2 ^ 53) with hsmall | hlarge
  · have hunit := roundUnits_of_dvd (dvd_of_lt hsmall k) Nat.one_pos
    have hone := roundUnits_of_dvd (dvd_of_lt hsmall 0) Nat.one_pos
    rw [Nat.mul_one] at hunit hone
    rw [Nat.pow_zero, Nat.mul_one] at hone
    rw [hunit, hone]
  · have hm : m ≠ 0 := by omega
    have hlog : 53 ≤ m.log2 := (Nat.le_log2 hm).2 hlarge
    have hexp : gridExponent (m * 2 ^ k) 1 = gridExponent m 1 + k := by
      simp only [gridExponent, Nat.div_one, log2_mul_pow hm]
      omega
    simp only [roundUnits, hexp, Nat.pow_eq, Nat.pow_add, Nat.one_mul, ← Nat.mul_assoc]
    rw [nearest_mul_mul (Nat.two_pow_pos k)]

def tenThousandfold (n : Nat) : Nat :=
  roundUnits (10000 * n) 1

/-- The product is off by less than ten thousand times half a unit in the last place of the number. -/
def PlacesFit (n : Nat) : Prop :=
  ((tenThousandfold n : Int) - (10000 * n : Nat)).natAbs * Nat.pow 2 53 < 10000 * Nat.pow 2 n.log2

instance (n : Nat) : Decidable (PlacesFit n) :=
  inferInstanceAs (Decidable (_ < _))

theorem log2_tenThousand_mul {n : Nat} (hn : n ≠ 0) : (10000 * n).log2 < n.log2 + 15 := by
  have hlt : n < 2 ^ (n.log2 + 1) := Nat.lt_log2_self
  rw [Nat.log2_lt (by omega)]
  calc 10000 * n < 2 ^ 14 * 2 ^ (n.log2 + 1) := by omega
    _ = 2 ^ (n.log2 + 15) := by rw [← Nat.pow_add, Nat.add_comm 14]

theorem pow_gridExponent_dvd {n : Nat} (hn : n ≠ 0) :
    2 ^ gridExponent (10000 * n) 1 ∣ 10000 * 2 ^ n.log2 := by
  have hlog := log2_tenThousand_mul hn
  have hsplit : 10000 * 2 ^ n.log2 = 625 * 2 ^ (n.log2 + 4) := by
    rw [Nat.pow_add]
    omega
  rw [gridExponent, Nat.div_one, hsplit]
  exact Nat.dvd_trans (Nat.pow_dvd_pow 2 (by omega)) (Nat.dvd_mul_left _ _)

theorem tenThousandfold_eq (n : Nat) : tenThousandfold n =
    nearest (10000 * n) (2 ^ gridExponent (10000 * n) 1) * 2 ^ gridExponent (10000 * n) 1 := by
  rw [tenThousandfold, roundUnits, Nat.one_mul, Nat.pow_eq]

theorem tenThousandfold_of_dvd {n : Nat} (h : 2 ^ gridExponent (10000 * n) 1 ∣ 10000 * n) :
    tenThousandfold n = 10000 * n := by
  rw [gridExponent, Nat.div_one] at h
  have hround := roundUnits_of_dvd h Nat.one_pos
  rwa [Nat.mul_one] at hround

theorem tenThousandfold_pow (m : Nat) : tenThousandfold (2 ^ m) = 10000 * 2 ^ m := by
  apply tenThousandfold_of_dvd
  have hdvd := pow_gridExponent_dvd (Nat.ne_of_gt (Nat.two_pow_pos m))
  rwa [Nat.log2_two_pow] at hdvd

theorem tenThousandfold_mem {n : Nat} (hn : n ≠ 0) :
    10000 * 2 ^ n.log2 ≤ tenThousandfold n ∧ tenThousandfold n ≤ 10000 * 2 ^ (n.log2 + 1) := by
  have hlow : 10000 * 2 ^ n.log2 ≤ 10000 * n := Nat.mul_le_mul_left _ (Nat.log2_self_le hn)
  have hhigh : 10000 * n < 10000 * 2 ^ (n.log2 + 1) :=
    (Nat.mul_lt_mul_left (by decide)).2 Nat.lt_log2_self
  obtain ⟨t, ht⟩ := pow_gridExponent_dvd hn
  have hpos := Nat.two_pow_pos (gridExponent (10000 * n) 1)
  rw [Nat.pow_succ, ← Nat.mul_assoc] at hhigh ⊢
  rw [tenThousandfold_eq]
  generalize 2 ^ gridExponent (10000 * n) 1 = grid at *
  rw [Nat.mul_comm grid] at ht
  rw [ht] at hlow hhigh ⊢
  rw [Nat.mul_right_comm t] at hhigh ⊢
  refine ⟨Nat.mul_le_mul_right _ (Nat.le_trans ?_ (nearest_ge _ _)),
    Nat.mul_le_mul_right _ (Nat.le_trans (nearest_le _ _) ?_)⟩
  · exact (Nat.le_div_iff_mul_le hpos).2 hlow
  · exact (Nat.div_lt_iff_lt_mul hpos).2 hhigh

theorem sixteen_dvd_tenThousandfold (n : Nat) : 16 ∣ tenThousandfold n := by
  rcases Nat.lt_or_ge (gridExponent (10000 * n) 1) 4 with hfine | hcoarse
  · have h16 : 2 ^ 4 ∣ 10000 * n := Nat.dvd_trans ⟨625, rfl⟩ (Nat.dvd_mul_right 10000 n)
    rw [tenThousandfold_of_dvd (Nat.dvd_trans (Nat.pow_dvd_pow 2 (Nat.le_of_lt hfine)) h16)]
    exact h16
  · rw [tenThousandfold_eq]
    exact Nat.dvd_trans (Nat.pow_dvd_pow 2 hcoarse) (Nat.dvd_mul_left _ _)

theorem log2_le_of_le_pow {n : Nat} (hn : n ≤ 2 ^ 53) : n.log2 ≤ 53 :=
  Nat.le_trans (log2_le_log2 hn) (Nat.le_of_eq Nat.log2_two_pow)

theorem representable_tenThousandfold {n : Nat} (hn : n ≤ 2 ^ 53) :
    Representable (tenThousandfold n * one) := by
  have hnearest := nearest_grid_le (10000 * n) 1
  have hexp : 53 + (gridExponent (10000 * n) 1 + oneExponent) < overflowExponent - 54 := by
    have hone : oneExponent = 1074 := rfl
    have htop : overflowExponent = 2098 := rfl
    have hlog : (10000 * n).log2 ≤ 67 := by
      have hle : (10000 * n).log2 ≤ (10000 * 2 ^ 53).log2 := log2_le_log2 (Nat.mul_le_mul_left _ hn)
      exact Nat.le_trans hle (by decide)
    rw [gridExponent, Nat.div_one]
    omega
  have hsplit : tenThousandfold n * one = nearest (10000 * n) (1 * Nat.pow 2 (gridExponent (10000 * n) 1)) *
      Nat.pow 2 (gridExponent (10000 * n) 1 + oneExponent) := by
    unfold one
    simp only [tenThousandfold, roundUnits, Nat.pow_eq, Nat.pow_add, Nat.mul_assoc]
  rw [hsplit]
  exact representable_of_le_pow hnearest hexp

theorem mul_tenThousand {s : Bool} {n : Nat} (hn : n ≤ 2 ^ 53) :
    Binary64.finite s (n * one) (representable_mul_one hn) * 10000 =
      .finite s (tenThousandfold n * one) (representable_tenThousandfold hn) := by
  have hproduct : n * one * (10000 * one) = 10000 * n * one * one := by ring
  have hround : roundUnits (n * one * (10000 * one)) one = tenThousandfold n * one := by
    have hscaled := roundUnits_mul_mul (n := 10000 * n * one) (d := 1) one_pos
    rw [Nat.one_mul] at hscaled
    rw [hproduct, hscaled]
    unfold one
    generalize oneExponent = h
    exact roundUnits_mul_pow (10000 * n) h
  rw [tenThousand_eq, mul_finite, Bool.bne_false]
  exact ofQuotient_eq_finite_iff.2 hround

theorem floor_tenThousandfold {s : Bool} {n : Nat} (hpos : 0 < n)
    (hrep : Representable (tenThousandfold n * one)) :
    floor (.finite s (tenThousandfold n * one) hrep + 0.5) =
      .finite s (tenThousandfold n * one) hrep := by
  have heven : tenThousandfold n % 2 = 0 := by
    have := sixteen_dvd_tenThousandfold n
    omega
  have hlow := (tenThousandfold_mem (Nat.ne_of_gt hpos)).1
  have hpow := Nat.two_pow_pos n.log2
  exact floor_half (fun _ => by omega) heven hrep

theorem round4_finite {s : Bool} {n : Nat} (hpos : 0 < n) (hn : n ≤ 2 ^ 53) :
    (Binary64.finite s (n * one) (representable_mul_one hn)).round4 =
      ofQuotient s (tenThousandfold n * one) 10000 := by
  have hdivisor : 10000 * one ≠ 0 := Nat.ne_of_gt (Nat.mul_pos (by decide) one_pos)
  rw [round4, roundScaled, mul_tenThousand hn, floor_tenThousandfold hpos, tenThousand_eq]
  change div (.finite s _ _) (.finite false _ _) = _
  rw [div, if_pos hdivisor, Bool.bne_false, ofQuotient, ofQuotient]
  simp only [roundUnits_mul_mul one_pos]

theorem placesFit_iff {n w : Nat} (hw : w * 2 ^ n.log2 = 2 ^ 53) : PlacesFit n ↔
    10000 * n * w < tenThousandfold n * w + 10000 ∧ tenThousandfold n * w < 10000 * n * w + 10000 := by
  have hpow := Nat.two_pow_pos n.log2
  have hscale : ((tenThousandfold n : Int) - (10000 * n : Nat)).natAbs * w =
      ((tenThousandfold n * w : Nat) - (10000 * n * w : Nat) : Int).natAbs := by
    rw [Int.natCast_mul _ w, Int.natCast_mul _ w, ← Int.sub_mul, Int.natAbs_mul, Int.natAbs_natCast]
  rw [PlacesFit, Nat.pow_eq, Nat.pow_eq, ← hw, ← Nat.mul_assoc, Nat.mul_lt_mul_right hpow, hscale]
  omega

theorem tenThousandfold_not_halfway {n w : Nat} (hn : n ≠ 0) (hle : n ≤ 2 ^ 53)
    (hw : w * 2 ^ n.log2 = 2 ^ 53) :
    10000 * n * w ≠ tenThousandfold n * w + 10000 ∧ tenThousandfold n * w ≠ 10000 * n * w + 10000 := by
  rcases Nat.eq_or_lt_of_le hle with rfl | hlt
  · rw [tenThousandfold_pow]
    omega
-- Both sides without the ten thousand are multiples of 32, which ten thousand is not.
  · obtain ⟨v, rfl⟩ : 2 ∣ w := by
      have hlog : n.log2 < 53 := (Nat.log2_lt hn).2 hlt
      obtain ⟨j, hj⟩ := Nat.exists_eq_add_of_lt hlog
      have hcancel : w * 2 ^ n.log2 = 2 ^ (j + 1) * 2 ^ n.log2 := by
        rw [hw, ← Nat.pow_add]
        congr 1
        omega
      rw [Nat.mul_right_cancel (Nat.two_pow_pos _) hcancel]
      exact Nat.pow_dvd_pow 2 (Nat.le_add_left 1 j)
    obtain ⟨t, ht⟩ := sixteen_dvd_tenThousandfold n
    have hp : tenThousandfold n * (2 * v) = 32 * (t * v) := by rw [ht]; ring
    have hq : 10000 * n * (2 * v) = 32 * (625 * n * v) := by ring
    omega

theorem gridExponent_tenThousandfold {n h : Nat} (hn : n ≠ 0)
    (htop : tenThousandfold n < 10000 * 2 ^ (n.log2 + 1)) :
    gridExponent (tenThousandfold n * 2 ^ h) 10000 = n.log2 + h - 52 := by
  have hlow := (tenThousandfold_mem hn).1
  have hlog : (tenThousandfold n * 2 ^ h / 10000).log2 = n.log2 + h := by
    apply log2_eq_of_mem
    · rw [Nat.le_div_iff_mul_le (by decide), Nat.mul_comm, Nat.pow_add, ← Nat.mul_assoc]
      exact Nat.mul_le_mul_right _ hlow
    · rw [Nat.div_lt_iff_lt_mul (by decide), Nat.add_right_comm, Nat.mul_comm _ 10000, Nat.pow_add,
        ← Nat.mul_assoc]
      exact (Nat.mul_lt_mul_right (Nat.two_pow_pos h)).2 htop
  rw [gridExponent, hlog]

theorem roundUnits_quotient_iff {n h w : Nat} (hpos : 0 < n) (hn : n ≤ 2 ^ 53) (hh : 52 ≤ h)
    (hw : w * 2 ^ n.log2 = 2 ^ 53) (hdvd : 2 ^ (n.log2 + h - 52) ∣ n * 2 ^ h)
    (htop : tenThousandfold n < 10000 * 2 ^ (n.log2 + 1)) :
    roundUnits (tenThousandfold n * 2 ^ h) 10000 = n * 2 ^ h ↔ PlacesFit n := by
  have hne := Nat.ne_of_gt hpos
  have hgrid := Nat.two_pow_pos (n.log2 + h - 52)
  have hhalf : w * 2 ^ (n.log2 + h - 52) = 2 * 2 ^ h := by
    have hcancel : w * 2 ^ (n.log2 + h - 52) * 2 ^ 52 = 2 * 2 ^ h * 2 ^ 52 := by
      rw [Nat.mul_assoc, ← Nat.pow_add, Nat.sub_add_cancel (by omega), Nat.pow_add, ← Nat.mul_assoc, hw]
      ring
    exact Nat.mul_right_cancel (Nat.two_pow_pos _) hcancel
  rw [roundUnits, gridExponent_tenThousandfold hne htop, Nat.pow_eq]
  generalize 2 ^ (n.log2 + h - 52) = grid at *
  obtain ⟨k, hk⟩ := hdvd
  have hnumber : 2 * (k * (10000 * grid)) = 10000 * n * w * grid := by
    calc 2 * (k * (10000 * grid)) = 10000 * (2 * (grid * k)) := by ring
      _ = 10000 * n * (2 * 2 ^ h) := by rw [← hk]; ring
      _ = 10000 * n * w * grid := by rw [← hhalf]; ring
  have hproduct : 2 * (tenThousandfold n * 2 ^ h) = tenThousandfold n * w * grid := by
    rw [Nat.mul_left_comm, ← hhalf, Nat.mul_assoc]
  rw [hk, Nat.mul_comm grid, Nat.mul_left_inj (Nat.ne_of_gt hgrid),
    nearest_eq_iff (Nat.mul_pos (by decide) hgrid), hnumber, hproduct, ← Nat.add_mul, ← Nat.add_mul,
    Nat.mul_lt_mul_right hgrid, Nat.mul_lt_mul_right hgrid, Nat.mul_left_inj (Nat.ne_of_gt hgrid),
    Nat.mul_left_inj (Nat.ne_of_gt hgrid), placesFit_iff hw]
  have hties := tenThousandfold_not_halfway hne hn hw
  simp only [hties.1, hties.2, or_self, and_false, or_false]

theorem roundUnits_tenThousandfold_iff {n : Nat} (hpos : 0 < n) (hn : n ≤ 2 ^ 53) :
    roundUnits (tenThousandfold n * one) 10000 = n * one ↔ PlacesFit n := by
  have hne := Nat.ne_of_gt hpos
  have hw : 2 ^ (53 - n.log2) * 2 ^ n.log2 = 2 ^ 53 := by
    rw [← Nat.pow_add, Nat.sub_add_cancel (log2_le_of_le_pow hn)]
  have hdvd := (representable_mul_one hn).1
  have hone : 52 ≤ oneExponent := by decide
  unfold one at *
  generalize oneExponent = h at *
  rw [Nat.pow_eq, Nat.pow_eq, log2_mul_pow hne] at hdvd
  rw [Nat.pow_eq]
  rcases Nat.eq_or_lt_of_le (tenThousandfold_mem hne).2 with htop | htop
-- The product is rounded up to ten thousand times the next power of two, where the grid changes.
  · have hlt : n < 2 ^ (n.log2 + 1) := Nat.lt_log2_self
    have hround : roundUnits (tenThousandfold n * 2 ^ h) 10000 = 2 ^ (n.log2 + 1) * 2 ^ h := by
      have hone := dvd_of_lt (m := 1) (by decide) (n.log2 + 1 + h)
      rw [Nat.one_mul, Nat.pow_add] at hone
      have hproduct : tenThousandfold n * 2 ^ h = 2 ^ (n.log2 + 1) * 2 ^ h * 10000 := by
        rw [htop]
        ring
      rw [hproduct]
      exact roundUnits_of_dvd hone (by decide)
    rw [hround, Nat.mul_left_inj (Nat.ne_of_gt (Nat.two_pow_pos h)), placesFit_iff hw, htop]
    refine iff_of_false (Nat.ne_of_gt hlt) fun hfit => ?_
    have hstep : 10000 * (n + 1) * 2 ^ (53 - n.log2) ≤
        10000 * 2 ^ (n.log2 + 1) * 2 ^ (53 - n.log2) :=
      Nat.mul_le_mul_right _ (Nat.mul_le_mul_left _ hlt)
    have hexpand : 10000 * (n + 1) * 2 ^ (53 - n.log2) =
        10000 * n * 2 ^ (53 - n.log2) + 10000 * 2 ^ (53 - n.log2) := by ring
    have hw1 := Nat.two_pow_pos (53 - n.log2)
    omega
  · exact roundUnits_quotient_iff hpos hn hone hw hdvd htop

theorem ofInt_eq {n : Int} (hn : n.natAbs ≤ 2 ^ 53) :
    ofInt n = .finite (n < 0) (n.natAbs * one) (representable_mul_one hn) :=
  ofQuotient_one (representable_mul_one hn)

theorem round4_ofInt_eq_iff {n : Int} (hn : n.natAbs ≤ 2 ^ 53) :
    (ofInt n).round4 = ofInt n ↔ PlacesFit n.natAbs := by
  rcases Nat.eq_zero_or_pos n.natAbs with hzero | hpos
  · rw [Int.natAbs_eq_zero.1 hzero]
    decide +kernel
  · rw [ofInt_eq hn, round4_finite hpos hn, ofQuotient_eq_finite_iff,
      roundUnits_tenThousandfold_iff hpos hn]

theorem placesFit_of_le {n : Nat} (hn : n ≤ exactPlaces) : PlacesFit n := by
  have hle : n ≤ 2 ^ 53 := Nat.le_trans hn (Nat.div_le_self _ _)
  rcases Nat.eq_zero_or_pos n with rfl | hpos
  · decide +kernel
  · have hround : (ofNat n).round4 = ofNat n := round4_ofNat hn
    rwa [ofNat_eq hle, round4_finite hpos hle, ofQuotient_eq_finite_iff,
      roundUnits_tenThousandfold_iff hpos hle] at hround

end Binary64

namespace Expr

theorem parseBody_reference {t : String} {a : Address} (h : Address.parseTrimmed? t = some a) :
    parseBody t = .ok (.cell a) := by
  have hkey : Address.parseTrimmed? (Sheet.watchKey t) = some a :=
    (Sheet.parseTrimmed?_watchKey (Address.toNat_lt_of_parseList? h)).trans h
  exact parse_of_primary (Token.tokens_eq_address_iff.2 hkey) (.cell a)

end Expr

namespace Grid

variable {g : Grid} {resolve : Address → Binary64} {c : Content}

theorem unrounded?_reference {t : String} {a : Address} (h : Address.parseTrimmed? t = some a) :
    g.unrounded? resolve (.text ("=" ++ t)) = some (resolve a) := by
  have hbody : (Content.text ("=" ++ t)).formulaBody? = some t := by
    simp [Content.formulaBody?]
  simp [unrounded?, hbody, Expr.parseBody_reference h, Except.toOption, Expr.eval]

theorem referenceValue_of_cell {a : Address} {x : Binary64} (h : g.cell a = some (.number x))
    (hx : x.isFinite = true) : g.referenceValue a = x := by
  simp [referenceValue, leadingNumber?, h, Content.leadingNumber?, hx]

theorem evaluateWith_of_whole {n : Int} (hn : n.natAbs ≤ 2 ^ 53) {m : Binary64}
    (h : g.unrounded? resolve c = some m) (hm : m.same (.ofInt n) = true) :
    g.evaluateWith resolve c = .number (Binary64.ofInt n).round4 := by
  have hfinite : m.isFinite = true := by
    rw [Binary64.isFinite_eq_of_same hm, Binary64.ofInt_eq hn, Binary64.isFinite]
  rw [evaluateWith_of_unrounded? h, if_pos hfinite, Binary64.round4_eq_of_same hm]

/-- A whole number that is exact is left alone by rounding to four places, and shown as it is by a formula
that comes to it, if and only if its product with ten thousand is rounded by less than ten thousand times
half a unit in its last place. All numbers up to `exactPlaces` are such. -/
theorem whole_results_kept_iff (n : Int) (hn : n.natAbs ≤ 2 ^ 53) :
    ((Binary64.ofInt n).round4 = .ofInt n ↔ Binary64.PlacesFit n.natAbs) ∧
    (∀ (g : Grid) resolve c m, g.unrounded? resolve c = some m → m.same (.ofInt n) = true →
      (g.evaluateWith resolve c = .number (.ofInt n) ↔ Binary64.PlacesFit n.natAbs)) ∧
    (∀ (g : Grid) reference a, Address.parseTrimmed? reference = some a →
      g.cell a = some (.number (.ofInt n)) →
      (g.evaluate (.text ("=" ++ reference)) = .number (.ofInt n) ↔ Binary64.PlacesFit n.natAbs)) ∧
    (n.natAbs ≤ Binary64.exactPlaces → Binary64.PlacesFit n.natAbs) := by
  have hround := Binary64.round4_ofInt_eq_iff hn
  have hshown : ∀ (g : Grid) resolve c m, g.unrounded? resolve c = some m → m.same (.ofInt n) = true →
      (g.evaluateWith resolve c = .number (.ofInt n) ↔ Binary64.PlacesFit n.natAbs) := by
    intro g resolve c m h hm
    rw [evaluateWith_of_whole hn h hm, Value.number.injEq, hround]
  refine ⟨hround, hshown, fun g reference a href hcell => ?_, Binary64.placesFit_of_le⟩
  have hfinite : (Binary64.ofInt n).isFinite = true := by rw [Binary64.ofInt_eq hn, Binary64.isFinite]
  have hvalue : g.unrounded? g.referenceValue (.text ("=" ++ reference)) = some (.ofInt n) := by
    rw [unrounded?_reference href, referenceValue_of_cell hcell hfinite]
  refine hshown g _ _ _ hvalue ?_
  rw [Binary64.ofInt_eq hn]
  exact decide_eq_true rfl

theorem whole_results_kept_iff_largest :
    ((2 ^ 53 - 1 : Int).natAbs ≤ 2 ^ 53 ∧ (Binary64.ofInt (2 ^ 53 - 1)).round4 ≠ .ofInt (2 ^ 53 - 1)) ∧
    (2 ^ 53 : Int).natAbs ≤ 2 ^ 53 ∧ (Binary64.ofInt (2 ^ 53)).round4 = .ofInt (2 ^ 53) := by
  have hodd : (2 ^ 53 - 1 : Int).natAbs ≤ 2 ^ 53 := by decide
  have hlast : (2 ^ 53 : Int).natAbs ≤ 2 ^ 53 := by decide
  exact ⟨⟨hodd, mt (whole_results_kept_iff (2 ^ 53 - 1) hodd).1.1 (by decide +kernel)⟩, hlast,
    (whole_results_kept_iff (2 ^ 53) hlast).1.2 (by decide +kernel)⟩

end Grid

namespace Sheet

def counted : Sheet :=
  (ofColumns "Sheet" ["Count"]).run [.addRow, .setInput "A1" "14411518807587"]

theorem whole_results_changed :
    (¬∀ n : Int, n.natAbs ≤ 2 ^ 53 → (Binary64.ofInt n).round4 = .ofInt n) ∧
    ¬∀ (s : Sheet) (n : Int), n.natAbs ≤ 2 ^ 53 → s.cell? ⟨0, 0⟩ = some (.number (.ofInt n)) →
      s.evaluateInput "=A1" = .number (.ofInt n) := by
  constructor
  · intro h
    exact absurd (h (2 ^ 53 - 1) (by decide)) (by decide +kernel)
  · intro h
    have hshown : counted.evaluateInput "=A1" = .number 14411518807587.002 := by decide +kernel
    rw [h counted 14411518807587 (by decide) (by decide +kernel)] at hshown
    exact absurd hshown (by decide +kernel)

end Sheet

end Spreadsheet
