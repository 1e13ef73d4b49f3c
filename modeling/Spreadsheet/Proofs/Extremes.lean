import Mathlib.Order.Bounds.Basic
import Spreadsheet.Function
import Spreadsheet.Proofs.Rounding

namespace Spreadsheet

namespace Binary64

variable {x y z n : Binary64} {ns : List Binary64}

theorem le_iff : x ≤ y ↔ ∃ a b, x.position = some a ∧ y.position = some b ∧ a ≤ b := by
  change le x y = true ↔ _
  rw [le]
  cases x.position <;> cases y.position <;> simp

theorem lt_iff : lt x y = true ↔ ∃ a b, x.position = some a ∧ y.position = some b ∧ a < b := by
  rw [lt]
  cases x.position <;> cases y.position <;> simp

theorem same_iff : x.same y = true ↔ ∃ a, x.position = some a ∧ y.position = some a := by
  rw [same]
  cases x.position <;> cases y.position <;> simp [eq_comm]

theorem exists_position (h : x ≠ .nan) : ∃ a, x.position = some a := by
  cases x with
  | finite s u hu => exact ⟨_, rfl⟩
  | infinite s => exact ⟨_, rfl⟩
  | nan => exact absurd rfl h

theorem isNaN_eq_false (h : x ≠ .nan) : x.isNaN = false := by
  cases x with
  | finite s u hu => rfl
  | infinite s => rfl
  | nan => exact absurd rfl h

theorem ne_nan_of_isFinite (h : n.isFinite = true) : n ≠ .nan := by
  rintro rfl
  cases h

protected theorem le_refl (h : x ≠ .nan) : x ≤ x := by
  obtain ⟨a, ha⟩ := exists_position h
  exact le_iff.2 ⟨a, a, ha, ha, Int.le_refl a⟩

protected theorem le_trans (hxy : x ≤ y) (hyz : y ≤ z) : x ≤ z := by
  obtain ⟨a, b, ha, hb, hab⟩ := le_iff.1 hxy
  obtain ⟨b', c, hb', hc, hbc⟩ := le_iff.1 hyz
  rw [hb] at hb'
  cases hb'
  exact le_iff.2 ⟨a, c, ha, hc, Int.le_trans hab hbc⟩

protected theorem le_of_lt (h : lt x y = true) : x ≤ y := by
  obtain ⟨a, b, ha, hb, hab⟩ := lt_iff.1 h
  exact le_iff.2 ⟨a, b, ha, hb, Int.le_of_lt hab⟩

protected theorem le_of_not_lt (hx : x ≠ .nan) (hy : y ≠ .nan) (h : ¬lt y x = true) : x ≤ y := by
  obtain ⟨a, ha⟩ := exists_position hx
  obtain ⟨b, hb⟩ := exists_position hy
  refine le_iff.2 ⟨a, b, ha, hb, ?_⟩
  rw [← Int.not_lt]
  exact fun hba => h (lt_iff.2 ⟨b, a, hb, ha, hba⟩)

theorem same_of_le_of_le (hxy : x ≤ y) (hyx : y ≤ x) : x.same y = true := by
  obtain ⟨a, b, ha, hb, hab⟩ := le_iff.1 hxy
  obtain ⟨b', a', hb', ha', hba⟩ := le_iff.1 hyx
  rw [ha] at ha'
  rw [hb] at hb'
  cases ha'
  cases hb'
  cases Int.le_antisymm hab hba
  exact same_iff.2 ⟨a, ha, hb⟩

theorem same_of_isLeast {s : Set Binary64} (hx : IsLeast s x) (hy : IsLeast s y) :
    x.same y = true :=
  same_of_le_of_le (hx.2 hy.1) (hy.2 hx.1)

theorem same_of_isGreatest {s : Set Binary64} (hx : IsGreatest s x) (hy : IsGreatest s y) :
    x.same y = true :=
  same_of_le_of_le (hy.2 hx.1) (hx.2 hy.1)

/-- The operation gives one of two numbers, and of these none that is not as good as the other. -/
structure Chooses (better : Binary64 → Binary64 → Prop) (f : Binary64 → Binary64 → Binary64) :
    Prop where
  eq_or_eq : ∀ x y, f x y = x ∨ f x y = y
  bounds : ∀ {x y}, x ≠ .nan → y ≠ .nan → better (f x y) x ∧ better (f x y) y
  trans : ∀ {x y z}, better x y → better y z → better x z

theorem chooses_ite {better : Binary64 → Binary64 → Prop} {before : Binary64 → Binary64 → Bool}
    (hbefore : ∀ {x y}, before y x = true → better y x)
    (hnot : ∀ {x y}, x ≠ .nan → y ≠ .nan → ¬before y x = true → better x y)
    (htrans : ∀ {x y z}, better x y → better y z → better x z) :
    Chooses better fun x y => if x.isNaN || before y x then y else x where
  eq_or_eq x y := (ite_eq_or_eq _ y x).symm
  bounds {x y} hx hy := by
    have hrefl {x} (hx : x ≠ .nan) : better x x := by
      by_cases h : before x x = true
      · exact hbefore h
      · exact hnot hx hx h
    rw [isNaN_eq_false hx, Bool.false_or]
    split
    · next h => exact ⟨hbefore h, hrefl hy⟩
    · next h => exact ⟨hrefl hx, hnot hx hy h⟩
  trans := htrans

theorem chooses_least : Chooses (· ≤ ·) least :=
  chooses_ite Binary64.le_of_lt Binary64.le_of_not_lt Binary64.le_trans

theorem chooses_greatest : Chooses (fun x y => y ≤ x) greatest :=
  chooses_ite Binary64.le_of_lt (fun hx hy => Binary64.le_of_not_lt hy hx)
    fun hxy hyz => Binary64.le_trans hyz hxy

namespace Chooses

variable {better : Binary64 → Binary64 → Prop} {f : Binary64 → Binary64 → Binary64}

theorem foldl_mem (h : Chooses better f) (n : Binary64) (ns : List Binary64) :
    ns.foldl f n ∈ n :: ns := by
  induction ns generalizing n with
  | nil => exact List.mem_singleton_self n
  | cons m ns ih =>
    rw [List.foldl_cons]
    rcases List.mem_cons.1 (ih (f n m)) with hhead | htail
    · rw [hhead]
      rcases h.eq_or_eq n m with hn | hm
      · rw [hn]
        exact List.mem_cons_self
      · rw [hm]
        exact List.mem_cons_of_mem n List.mem_cons_self
    · exact List.mem_cons_of_mem n (List.mem_cons_of_mem m htail)

theorem refl (h : Chooses better f) (hn : n ≠ .nan) : better n n := by
  have hchosen : f n n = n := (h.eq_or_eq n n).elim id id
  have hbound := (h.bounds hn hn).1
  rwa [hchosen] at hbound

theorem foldl_better (h : Chooses better f) (hns : ∀ m ∈ n :: ns, m ≠ .nan) :
    ∀ m ∈ n :: ns, better (ns.foldl f n) m := by
  induction ns generalizing n with
  | nil =>
    rw [List.forall_mem_singleton] at hns ⊢
    exact h.refl hns
  | cons m ns ih =>
    rw [List.forall_mem_cons, List.forall_mem_cons] at hns
    obtain ⟨hn, hm, hns⟩ := hns
    have hchosen : f n m ≠ .nan := by
      rcases h.eq_or_eq n m with heq | heq <;> rwa [heq]
    obtain ⟨hhead, htail⟩ := List.forall_mem_cons.1 (ih (List.forall_mem_cons.2 ⟨hchosen, hns⟩))
    rw [List.foldl_cons, List.forall_mem_cons, List.forall_mem_cons]
    exact ⟨h.trans hhead (h.bounds hn hm).1, h.trans hhead (h.bounds hn hm).2, htail⟩

theorem best_foldl (h : Chooses better f) (hns : ∀ m ∈ n :: ns, m ≠ .nan) :
    ns.foldl f n ∈ n :: ns ∧ ∀ m ∈ n :: ns, better (ns.foldl f n) m :=
  ⟨h.foldl_mem n ns, h.foldl_better hns⟩

theorem best_foldl_of_worst (h : Chooses better f) {worst : Binary64} (hnan : worst ≠ .nan)
    (hworst : ∀ m, m.isFinite = true → ¬better worst m) (hne : ns ≠ [])
    (hns : ∀ m ∈ ns, m.isFinite = true) :
    ns.foldl f worst ∈ ns ∧ ∀ m ∈ ns, better (ns.foldl f worst) m := by
  cases ns with
  | nil => exact absurd rfl hne
  | cons n ns =>
    have hfinite := hns n List.mem_cons_self
    have hchosen : f worst n = n := by
      refine (h.eq_or_eq worst n).resolve_left fun heq => hworst n hfinite ?_
      exact heq ▸ (h.bounds hnan (ne_nan_of_isFinite hfinite)).2
    rw [List.foldl_cons, hchosen]
    exact h.best_foldl fun m hm => ne_nan_of_isFinite (hns m hm)

end Chooses

theorem signed_eq_signed_iff {s t : Bool} {u v : Nat} :
    signed s u = signed t v ↔ (s = t ∧ u = v) ∨ (u = 0 ∧ v = 0) := by
  cases s <;> cases t <;>
    simp only [signed, if_true, if_false, Bool.false_eq_true, reduceCtorEq, true_and, false_and,
      false_or] <;>
    omega

theorem signed_between {s : Bool} {u : Nat} (hu : Representable u) :
    signed true overflow < signed s u ∧ signed s u < signed false overflow := by
  have hlt := hu.2
  cases s <;> simp only [signed, if_true, if_false, Bool.false_eq_true] <;> omega

theorem not_infinite_le (h : n.isFinite = true) : ¬.infinite false ≤ n ∧ ¬n ≤ .infinite true := by
  cases n with
  | finite s u hu =>
    obtain ⟨hlow, hhigh⟩ := signed_between (s := s) hu
    simp only [le_iff, position, Option.some.injEq]
    constructor
    · rintro ⟨_, _, rfl, rfl, hle⟩
      exact absurd hhigh (Int.not_lt.2 hle)
    · rintro ⟨_, _, rfl, rfl, hle⟩
      exact absurd hlow (Int.not_lt.2 hle)
  | infinite s => cases h
  | nan => cases h

theorem eq_or_zeros_of_same (h : x.same y = true) :
    x = y ∨ ∃ s t, x = zero s ∧ y = zero t := by
  obtain ⟨a, hx, hy⟩ := same_iff.1 h
  have hpos := overflow_pos
  match x, y with
  | .nan, _ => cases hx
  | .infinite _, .nan | .finite .., .nan => cases hy
  | .infinite s, .infinite t =>
    rw [← hy, position, position, Option.some.injEq, signed_eq_signed_iff] at hx
    rcases hx with ⟨rfl, -⟩ | ⟨hzero, -⟩
    · exact .inl rfl
    · omega
  | .infinite s, .finite t v hv =>
    rw [← hy, position, position, Option.some.injEq, signed_eq_signed_iff] at hx
    have hlt := hv.2
    omega
  | .finite s u hu, .infinite t =>
    rw [← hy, position, position, Option.some.injEq, signed_eq_signed_iff] at hx
    have hlt := hu.2
    omega
  | .finite s u hu, .finite t v hv =>
    rw [← hy, position, position, Option.some.injEq, signed_eq_signed_iff] at hx
    rcases hx with ⟨rfl, rfl⟩ | ⟨rfl, rfl⟩
    · exact .inl rfl
    · exact .inr ⟨s, t, rfl, rfl⟩

theorem round4_eq_of_same (h : x.same y = true) : x.round4 = y.round4 := by
  obtain rfl | ⟨s, t, rfl, rfl⟩ := eq_or_zeros_of_same h
  · rfl
  · have hzero : ∀ s, (zero s).round4 = (zero false).round4 := by decide +kernel
    rw [hzero s, hzero t]

theorem isFinite_eq_of_same (h : x.same y = true) : x.isFinite = y.isFinite := by
  obtain rfl | ⟨s, t, rfl, rfl⟩ := eq_or_zeros_of_same h <;> rfl

end Binary64

namespace Aggregate

variable {ns : List Binary64}

theorem isLeast_apply_min (hne : ns ≠ []) (hns : ∀ n ∈ ns, n.isFinite = true) :
    IsLeast {n | n ∈ ns} (Aggregate.min.apply ns) := by
  rw [apply, if_neg hne]
  exact Binary64.chooses_least.best_foldl_of_worst Binary64.noConfusion
    (fun _ hm => (Binary64.not_infinite_le hm).1) hne hns

theorem isGreatest_apply_max (hne : ns ≠ []) (hns : ∀ n ∈ ns, n.isFinite = true) :
    IsGreatest {n | n ∈ ns} (Aggregate.max.apply ns) := by
  rw [apply, if_neg hne]
  exact Binary64.chooses_greatest.best_foldl_of_worst Binary64.noConfusion
    (fun _ hm => (Binary64.not_infinite_le hm).2) hne hns

theorem apply_count (ns : List Binary64) : Aggregate.count.apply ns = .ofNat ns.length := by
  rw [apply]
  split
  · next h =>
    rw [h, List.length_nil]
    rfl
  · rfl

theorem apply_nil (kind : Aggregate) : kind.apply [] = 0 :=
  if_pos rfl

theorem same_apply_of_perm {ms : List Binary64} (h : ms.Perm ns) (hns : ∀ n ∈ ns, n.isFinite = true) :
    (Aggregate.min.apply ms).same (Aggregate.min.apply ns) = true ∧
      (Aggregate.max.apply ms).same (Aggregate.max.apply ns) = true := by
  by_cases hne : ns = []
  · subst hne
    rw [h.eq_nil, apply_nil, apply_nil, Binary64.zero_eq]
    exact ⟨rfl, rfl⟩
  · have hms : ms ≠ [] := fun hms => hne (h.symm.trans (hms ▸ .refl _)).eq_nil
    have hmem : {n | n ∈ ms} = {n | n ∈ ns} := Set.ext fun n => h.mem_iff
    have hfinite : ∀ n ∈ ms, n.isFinite = true := fun n hn => hns n (h.mem_iff.1 hn)
    exact ⟨Binary64.same_of_isLeast (isLeast_apply_min hms hfinite) (hmem ▸ isLeast_apply_min hne hns),
      Binary64.same_of_isGreatest (isGreatest_apply_max hms hfinite)
        (hmem ▸ isGreatest_apply_max hne hns)⟩

end Aggregate

end Spreadsheet
