import Mathlib.Data.List.Basic
import Spreadsheet.Proofs.Address
import Spreadsheet.Text.UpperCase

namespace Spreadsheet.Text

namespace CaseRun

variable {r q : CaseRun} {n : Nat}

def point (n : Nat) : CaseRun := ⟨n, n, 1, 0⟩

def image (r : CaseRun) : CaseRun :=
  ⟨(r.first + r.shift).toNat, (r.last + r.shift).toNat, r.step, 0⟩

def comb (step : Nat) : Nat → Nat
  | 0 => 0
  | count + 1 => comb step count <<< step ||| 1

/-- The characters of a run as the bits of a number, with which the kernel computes fast. -/
def bits (r : CaseRun) : Nat :=
  comb r.step ((r.last - r.first) / r.step + 1) <<< r.first

theorem covers_iff :
    r.covers n = true ↔ r.first ≤ n ∧ n ≤ r.last ∧ (n - r.first) % r.step = 0 := by
  simp [covers, and_assoc]

theorem covers_point : (point n).covers n = true :=
  covers_iff.2 ⟨Nat.le_refl n, Nat.le_refl n, Nat.mod_one _⟩

theorem image_covers (h : r.covers n = true) (hr : 0 ≤ r.first + r.shift) :
    r.image.covers (n + r.shift).toNat = true := by
  obtain ⟨hfirst, hlast, hstep⟩ := covers_iff.1 h
  have hshift : (n + r.shift).toNat - (r.first + r.shift).toNat = n - r.first := by omega
  refine covers_iff.2 ⟨?_, ?_, ?_⟩
  · simp only [image]
    omega
  · simp only [image]
    omega
  · simpa only [image, hshift] using hstep

theorem testBit_comb (step : Nat) {count i : Nat} (h : i < count) :
    (comb step count).testBit (i * step) = true := by
  induction count generalizing i with
  | zero => omega
  | succ count ih =>
    rw [comb, Nat.testBit_or, Nat.testBit_shiftLeft]
    cases i with
    | zero => simp
    | succ i => simp [Nat.succ_mul, ih (Nat.lt_of_succ_lt_succ h)]

theorem testBit_bits (h : r.covers n = true) : r.bits.testBit n = true := by
  obtain ⟨hfirst, hlast, hstep⟩ := covers_iff.1 h
  have hplace : (n - r.first) / r.step * r.step = n - r.first :=
    Nat.div_mul_cancel (Nat.dvd_of_mod_eq_zero hstep)
  have hcount : (n - r.first) / r.step < (r.last - r.first) / r.step + 1 :=
    Nat.lt_succ_of_le (Nat.div_le_div_right (Nat.sub_le_sub_right hlast _))
  have hcomb := testBit_comb r.step hcount
  rw [hplace] at hcomb
  rw [bits, Nat.testBit_shiftLeft, hcomb, Bool.and_true]
  exact decide_eq_true hfirst

def allBits (rs : List CaseRun) : Nat :=
  rs.foldr (fun r m => r.bits ||| m) 0

theorem testBit_allBits {rs : List CaseRun} (hr : r ∈ rs) (h : r.covers n = true) :
    (allBits rs).testBit n = true := by
  induction rs with
  | nil => cases hr
  | cons p ps ih =>
    rw [allBits, List.foldr_cons, Nat.testBit_or, Bool.or_eq_true]
    rcases List.mem_cons.1 hr with rfl | hr
    · exact .inl (testBit_bits h)
    · exact .inr (ih hr)

theorem not_covers_of_allBits {rs qs : List CaseRun} (h : allBits rs &&& allBits qs = 0)
    (hr : r ∈ rs) (hn : r.covers n = true) : ∀ q ∈ qs, ¬q.covers n = true := by
  intro q hq hqn
  have hboth : (allBits rs &&& allBits qs).testBit n = true := by
    rw [Nat.testBit_and, testBit_allBits hr hn, testBit_allBits hq hqn]
    rfl
  rw [h, Nat.zero_testBit] at hboth
  cases hboth

end CaseRun

variable {c d : Char}

def asciiRun : CaseRun := ⟨97, 122, 1, -32⟩

def shortRuns : List CaseRun := asciiRun :: caseRuns

def longRuns : List CaseRun := longCapitals.map fun p => CaseRun.point p.1

def blankRuns : List CaseRun := blankRanges.map fun p => ⟨p.1, p.2, 1, 0⟩

def capitalRuns : List CaseRun :=
  shortRuns.map CaseRun.image ++ longCapitals.flatMap fun p => p.2.map CaseRun.point

/-- What the tables are checked for, in one evaluation: blanks and the characters of capitals have no other
capital, these are no blanks, and they are characters. -/
theorem tables_checked :
    (∀ qs ∈ [shortRuns, longRuns],
      CaseRun.allBits (blankRuns ++ capitalRuns) &&& CaseRun.allBits qs = 0) ∧
    CaseRun.allBits capitalRuns &&& CaseRun.allBits blankRuns = 0 ∧
    (∀ r ∈ capitalRuns, r.last < 0xD800 ∨ (0xDFFF < r.first ∧ r.last < 0x110000)) ∧
    ∀ r ∈ shortRuns, 0 ≤ r.first + r.shift := by
  decide +kernel

theorem isBlank_iff : isBlank c = true ↔ ∃ q ∈ blankRuns, q.covers c.toNat = true := by
  simp [isBlank, blankRuns, CaseRun.covers, Nat.mod_one]

theorem capital_ne_nil (c : Char) : capital c ≠ [] := by
  have hlong : ∀ p ∈ longCapitals, p.2 ≠ [] := by decide
  unfold capital
  split
  · simp
  · split
    · simp
    · split
      · next cs h => simpa using hlong _ (List.mem_of_find?_eq_some h)
      · simp

theorem capital_eq_self (hshort : ∀ q ∈ shortRuns, ¬q.covers c.toNat = true)
    (hlong : ∀ q ∈ longRuns, ¬q.covers c.toNat = true) : capital c = [c] := by
  obtain ⟨hascii, hruns⟩ := List.forall_mem_cons.1 hshort
  rw [CaseRun.covers_iff] at hascii
  rw [capital]
  split
  · have hlower : ¬(97 ≤ c.toNat ∧ c.toNat ≤ 122) := fun h => hascii ⟨h.1, h.2, Nat.mod_one _⟩
    rw [Char.toNat_inj.1 (Address.toNat_toUpper.trans (if_neg hlower))]
  · have hlong' : longCapitals.find? (·.1 == c.toNat) = none := by
      refine List.find?_eq_none.2 fun p hp heq => ?_
      refine hlong (CaseRun.point p.1) (List.mem_map_of_mem hp) ?_
      rw [← beq_iff_eq.1 heq]
      exact CaseRun.covers_point
    rw [List.find?_eq_none.2 hruns, hlong']

theorem capital_of_covers {r : CaseRun} (hr : r ∈ blankRuns ++ capitalRuns)
    (h : r.covers c.toNat = true) : capital c = [c] := by
  have hapart : ∀ qs ∈ [shortRuns, longRuns], ∀ q ∈ qs, ¬q.covers c.toNat = true :=
    fun qs hqs => CaseRun.not_covers_of_allBits (tables_checked.1 qs hqs) hr h
  exact capital_eq_self (hapart _ (by simp)) (hapart _ (by simp))

theorem toNat_ofNat_of_covers {r : CaseRun} (hr : r ∈ capitalRuns) {n : Nat}
    (h : r.covers n = true) : (Char.ofNat n).toNat = n := by
  obtain ⟨hfirst, hlast, -⟩ := CaseRun.covers_iff.1 h
  have hvalid : n.isValidChar := by
    rcases tables_checked.2.2.1 r hr with hr | hr
    · exact .inl (by omega)
    · exact .inr (by omega)
  rw [Char.ofNat, dif_pos hvalid]
  rfl

theorem exists_covers_short {r : CaseRun} (hr : r ∈ shortRuns) (h : r.covers c.toNat = true) :
    ∃ q ∈ capitalRuns, q.covers (Char.ofNat (c.toNat + r.shift).toNat).toNat = true := by
  have hmem : r.image ∈ capitalRuns := List.mem_append_left _ (List.mem_map_of_mem hr)
  have himage := CaseRun.image_covers h (tables_checked.2.2.2 r hr)
  refine ⟨_, hmem, ?_⟩
  rwa [toNat_ofNat_of_covers hmem himage]

theorem exists_covers_long {p : Nat × List Nat} (hp : p ∈ longCapitals) {n : Nat} (hn : n ∈ p.2) :
    ∃ q ∈ capitalRuns, q.covers (Char.ofNat n).toNat = true := by
  have hmem : CaseRun.point n ∈ capitalRuns :=
    List.mem_append_right _ (List.mem_flatMap.2 ⟨p, hp, List.mem_map_of_mem hn⟩)
  refine ⟨_, hmem, ?_⟩
  rw [toNat_ofNat_of_covers hmem CaseRun.covers_point]
  exact CaseRun.covers_point

theorem capital_cases (c : Char) :
    capital c = [c] ∨ ∀ d ∈ capital c, ∃ q ∈ capitalRuns, q.covers d.toNat = true := by
  rw [capital]
  split
-- ASCII letters have their capital from `Char.toUpper`, the others from the tables.
  · by_cases hlower : 97 ≤ c.toNat ∧ c.toNat ≤ 122
    · right
      have hmem : asciiRun ∈ shortRuns := List.mem_cons_self
      have hcovers : asciiRun.covers c.toNat = true :=
        CaseRun.covers_iff.2 ⟨hlower.1, hlower.2, Nat.mod_one _⟩
      have hupper : c.toUpper = Char.ofNat (c.toNat + asciiRun.shift).toNat := by
        rw [← Char.ofNat_toNat c.toUpper, Address.toNat_toUpper, if_pos hlower]
        simp only [asciiRun]
        congr 1
        omega
      rw [hupper, List.forall_mem_singleton]
      exact exists_covers_short hmem hcovers
    · left
      rw [Char.toNat_inj.1 (Address.toNat_toUpper.trans (if_neg hlower))]
  · split
    · next run hrun =>
      right
      have hmem : run ∈ shortRuns := List.mem_cons_of_mem _ (List.mem_of_find?_eq_some hrun)
      have hcovers := List.find?_some hrun
      rw [List.forall_mem_singleton]
      exact exists_covers_short hmem hcovers
    · split
      · next cs hlong =>
        right
        intro d hd
        obtain ⟨n, hn, rfl⟩ := List.mem_map.1 hd
        exact exists_covers_long (List.mem_of_find?_eq_some hlong) hn
      · exact .inl rfl

theorem capital_of_mem_capital (h : d ∈ capital c) : capital d = [d] := by
  rcases capital_cases c with hself | hcapitals
  · rw [hself, List.mem_singleton] at h
    rw [h, hself]
  · obtain ⟨q, hq, hd⟩ := hcapitals d h
    exact capital_of_covers (List.mem_append_right _ hq) hd

theorem isBlank_of_mem_capital (hc : isBlank c = false) (h : d ∈ capital c) : isBlank d = false := by
  rcases capital_cases c with hself | hcapitals
  · rw [hself, List.mem_singleton] at h
    rwa [h]
  · obtain ⟨r, hr, hd⟩ := hcapitals d h
    rw [← Bool.not_eq_true, isBlank_iff]
    rintro ⟨q, hq, hqd⟩
    exact CaseRun.not_covers_of_allBits tables_checked.2.1 hr hd q hq hqd

theorem capital_of_isBlank (h : isBlank c = true) : capital c = [c] := by
  obtain ⟨r, hr, hc⟩ := isBlank_iff.1 h
  exact capital_of_covers (List.mem_append_left _ hr) hc

theorem upperCase_upperCase (s : String) : upperCase (upperCase s) = upperCase s := by
  rw [upperCase, upperCase, String.toList_ofList, List.flatMap_assoc]
  refine congrArg String.ofList (List.flatMap_congr fun c _ => ?_)
  calc (capital c).flatMap capital
      = (capital c).flatMap fun d => [d] := List.flatMap_congr fun d hd => capital_of_mem_capital hd
    _ = capital c := List.flatMap_singleton' _

section Trim

variable {f : Char → List Char}

structure KeepsBlanks (f : Char → List Char) : Prop where
  blank : ∀ c, isBlank c = true → f c = [c]
  ne_nil : ∀ c, f c ≠ []
  not_blank : ∀ c, isBlank c = false → ∀ d ∈ f c, isBlank d = false

theorem dropBlanks_flatMap (hf : KeepsBlanks f) (cs : List Char) :
    dropBlanks (cs.flatMap f) = (dropBlanks cs).flatMap f := by
  induction cs with
  | nil => rfl
  | cons c cs ih =>
    rw [List.flatMap_cons]
    cases hc : isBlank c with
    | true => simpa [dropBlanks, hf.blank c hc, hc] using ih
    | false =>
      obtain ⟨d, ds, hd⟩ := List.exists_cons_of_ne_nil (hf.ne_nil c)
      have hblank : isBlank d = false := hf.not_blank c hc d (by simp [hd])
      simp [dropBlanks, hc, hd, hblank]

theorem dropBlanksEnd_flatMap (hf : KeepsBlanks f) (cs : List Char) :
    dropBlanksEnd (cs.flatMap f) = (dropBlanksEnd cs).flatMap f := by
  have hreverse : KeepsBlanks (List.reverse ∘ f) :=
    ⟨fun c hc => by simp [hf.blank c hc], fun c => by simp [hf.ne_nil c],
      fun c hc d hd => hf.not_blank c hc d (List.mem_reverse.1 hd)⟩
  have hdrop := dropBlanks_flatMap hreverse cs.reverse
  calc dropBlanksEnd (cs.flatMap f)
      = (dropBlanks (cs.reverse.flatMap (List.reverse ∘ f))).reverse := by
        rw [← List.reverse_flatMap]
        rfl
    _ = ((dropBlanks cs.reverse).flatMap (List.reverse ∘ f)).reverse := by rw [hdrop]
    _ = (dropBlanksEnd cs).flatMap f := by
        rw [List.reverse_flatMap]
        simp [Function.comp_def, dropBlanksEnd, dropBlanks]

theorem keepsBlanks_capital : KeepsBlanks capital :=
  ⟨fun _ => capital_of_isBlank, capital_ne_nil, fun _ hc _ => isBlank_of_mem_capital hc⟩

end Trim

theorem trim_upperCase (s : String) : trim (upperCase s) = upperCase (trim s) := by
  rw [trim, upperCase, upperCase, trim, String.toList_ofList, String.toList_ofList, trimList, trimList,
    dropBlanks_flatMap keepsBlanks_capital, dropBlanksEnd_flatMap keepsBlanks_capital]

end Spreadsheet.Text
