import Mathlib.Data.List.DropRight
import Spreadsheet.Proofs.Capitals
import Spreadsheet.Proofs.Seek
import Spreadsheet.Sheet.Watch

/-! How the text of a reference is read. Resolving trims it and reads letters of either case. A watch
list keeps it in the capitals of all of Unicode, some of which are letters of an address where the text
had none; and goal seek reads it with its blanks. -/

namespace Spreadsheet

namespace Text

theorem dropBlanks_dropBlanksEnd {cs : List Char} (h : dropBlanks cs = cs) :
    dropBlanks (dropBlanksEnd cs) = dropBlanksEnd cs := by
  obtain ⟨ds, hds⟩ := List.rdropWhile_prefix isBlank cs
  change dropBlanksEnd cs ++ ds = cs at hds
  cases hcs : dropBlanksEnd cs with
  | nil => rfl
  | cons c rest =>
    rw [hcs, List.cons_append] at hds
    rw [dropBlanks, List.dropWhile_eq_self_iff, ← hds] at h
    exact List.dropWhile_cons_of_neg (h (by simp))

theorem trimList_trimList (cs : List Char) : trimList (trimList cs) = trimList cs := by
  have hfront : dropBlanks (dropBlanks cs) = dropBlanks cs := List.dropWhile_idempotent isBlank cs
  rw [trimList, trimList, dropBlanks_dropBlanksEnd hfront]
  exact List.rdropWhile_idempotent isBlank (dropBlanks cs)

theorem trim_trim (s : String) : trim (trim s) = trim s := by
  rw [trim, trim, String.toList_ofList, trimList_trimList]

theorem isBlank_toUpper (c : Char) : isBlank c.toUpper = isBlank c := by
  by_cases h : 97 ≤ c.toNat ∧ c.toNat ≤ 122
  · have hlower : c.isAlpha = true := Address.isAlpha_iff.2 (.inr h)
    have hupper : c.toUpper.isAlpha = true := by
      rw [Address.isAlpha_iff, Address.toNat_toUpper, if_pos h]
      omega
    rw [Address.isBlank_eq_false (.inl hlower), Address.isBlank_eq_false (.inl hupper)]
  · rw [Char.toNat_inj.1 (Address.toNat_toUpper.trans (if_neg h))]

theorem trimList_map_toUpper (cs : List Char) :
    trimList (cs.map Char.toUpper) = (trimList cs).map Char.toUpper := by
  have hblank : isBlank ∘ Char.toUpper = isBlank := funext isBlank_toUpper
  simp only [trimList, dropBlanks, dropBlanksEnd, List.dropWhile_map, hblank, ← List.map_reverse]

theorem upperCase_eq_empty_iff {s : String} : upperCase s = "" ↔ s = "" := by
  rw [upperCase, String.ofList_eq_empty_iff, List.flatMap_eq_nil_iff, ← String.toList_eq_nil_iff,
    List.eq_nil_iff_forall_not_mem]
  exact forall₂_congr fun c _ => iff_false_intro (capital_ne_nil c)

theorem toList_upperCase_of_ascii {s : String} (h : ∀ c ∈ s.toList, c.toNat < 0x80) :
    (upperCase s).toList = s.toList.map Char.toUpper := by
  rw [upperCase, String.toList_ofList, ← List.flatMap_pure_eq_map]
  exact List.flatMap_congr fun c hc => if_pos (h c hc)

end Text

namespace Address

variable {s : String} {cs : List Char} {a : Address}

theorem toUpper_toUpper (c : Char) : c.toUpper.toUpper = c.toUpper := by
  apply Char.toNat_inj.1
  rw [toNat_toUpper, if_neg]
  rw [toNat_toUpper]
  split <;> omega

theorem parseList?_map_toUpper (cs : List Char) : parseList? (cs.map Char.toUpper) = parseList? cs := by
  have hmap : (cs.map Char.toUpper).map Char.toUpper = cs.map Char.toUpper := by
    rw [List.map_map]
    exact List.map_congr_left fun c _ => toUpper_toUpper c
  simp only [parseList?, hmap]

theorem toNat_lt_of_parseList? (h : parseList? cs = some a) : ∀ c ∈ cs, c.toNat < 0x80 := by
  obtain ⟨ls, ds, rfl, hls, hds, -, -⟩ := parseList?_eq_some_iff.1 h
  intro c hc
  rcases List.mem_append.1 hc with hc | hc
  · have hc' := isAlpha_iff.1 (hls c hc)
    omega
  · have hc' := isDigit_iff.1 (hds c hc)
    omega

theorem parse?_eq_some_iff_trim : parse? s = some a ↔ parseTrimmed? s = some a ∧ Text.trim s = s := by
  constructor
  · intro h
    refine ⟨parseTrimmed?_eq_some h, ?_⟩
    rw [Text.trim, Text.trimList_eq_self (not_isBlank_of_parseList? h), String.ofList_toList]
  · rintro ⟨h, htrim⟩
    rw [Text.trim, ← String.toList_inj, String.toList_ofList] at htrim
    rwa [parseTrimmed?, htrim] at h

theorem parse?_eq_none_iff : parse? s = none ↔ parseTrimmed? s = none ∨ Text.trim s ≠ s := by
  rw [← not_iff_not, not_or, not_not, ← ne_eq, ← ne_eq, Option.ne_none_iff_exists',
    Option.ne_none_iff_exists']
  simp only [parse?_eq_some_iff_trim, exists_and_right]

end Address

namespace Table

variable {t : Table} {settings : Settings} {target changing : String} {goal : Binary64}

theorem seek_eq_invalidReference_iff :
    t.seek settings target goal changing = .error .invalidReference ↔
      Address.parse? target = none ∨ Address.parse? changing = none := by
  simp only [seek]
  split
  · next a b ha hb =>
    have hsolve : ∀ formula, t.solve settings formula goal b ≠ .error .invalidReference := by
      intro formula
      simp only [solve]
      cases Secant.solve settings _ _ <;> simp [Except.mapError]
    rw [ha, hb]
    repeat' split
    all_goals simp [hsolve]
  · next h =>
    cases ha : Address.parse? target with
    | none => simp
    | some a =>
      cases hb : Address.parse? changing with
      | none => simp
      | some b => exact (h a b ha hb).elim

end Table

namespace Sheet

variable {s : Sheet} {settings : Settings} {target changing reference : String} {goal : Binary64}

theorem resolve_eq_invalidReference_iff :
    s.resolve reference = .error (.invalidReference reference) ↔
      Address.parseTrimmed? reference = none := by
  rw [resolve]
  split
  · simp [*]
  · split <;> simp [*]

theorem seekGoal_eq_invalidReference_iff :
    s.seekGoal settings target goal changing = .error (.seek .invalidReference) ↔
      Address.parse? target = none ∨ Address.parse? changing = none := by
  rw [← @Table.seek_eq_invalidReference_iff s.toTable settings target changing goal]
  cases h : s.seek settings target goal changing with
  | error e => simp [seekGoal, h]
  | ok x =>
    obtain ⟨t, ht⟩ := exists_seekGoal_eq_ok h
    simp [ht]

def shownAt (s : Sheet) (reference : String) : Value :=
  match s.evaluateRef reference with
  | .ok v => v
  | .error _ => .error .reference

theorem watchEntry_value (s : Sheet) (reference : String) :
    (s.watchEntry reference).value = s.shownAt reference := by
  simp only [watchEntry, shownAt, evaluateRef]
  cases s.resolve reference <;> rfl

theorem shownAt_of_resolve_eq_error {e : SheetError} (h : s.resolve reference = .error e) :
    s.shownAt reference = .error .reference := by
  simp [shownAt, evaluateRef, h, Except.map]

theorem shownAt_of_resolve_eq_ok {a : Address} (h : s.resolve reference = .ok a) :
    s.shownAt reference = s.evaluate a := by
  simp [shownAt, evaluateRef, h, Except.map]

theorem shownAt_eq_of_parse {reference' : String}
    (h : Address.parseTrimmed? reference = Address.parseTrimmed? reference') :
    s.shownAt reference = s.shownAt reference' := by
  simp only [shownAt, evaluateRef, resolve, h]
  cases Address.parseTrimmed? reference' with
  | none => rfl
  | some a => rfl

theorem parseTrimmed?_watchKey (h : ∀ c ∈ Text.trimList reference.toList, c.toNat < 0x80) :
    Address.parseTrimmed? (watchKey reference) = Address.parseTrimmed? reference := by
  have hascii : ∀ c ∈ (Text.trim reference).toList, c.toNat < 0x80 := by
    rwa [Text.trim, String.toList_ofList]
  rw [Address.parseTrimmed?, watchKey, Text.toList_upperCase_of_ascii hascii,
    Text.trimList_map_toUpper, Address.parseList?_map_toUpper, Text.trim, String.toList_ofList,
    Text.trimList_trimList, Address.parseTrimmed?]

/-- The text is no reference, and yet its capitals are one, to a cell that shows something else than
that. -/
def Misread (s : Sheet) (reference : String) : Prop :=
  Address.parseTrimmed? reference = none ∧
    ∃ a, s.resolve (watchKey reference) = .ok a ∧ s.evaluate a ≠ .error .reference

theorem shownAt_watchKey_eq_iff :
    s.shownAt (watchKey reference) = s.shownAt reference ↔ ¬s.Misread reference := by
  cases h : Address.parseTrimmed? reference with
  | some a =>
    have hkey := parseTrimmed?_watchKey (Address.toNat_lt_of_parseList? h)
    simp [Misread, h, shownAt_eq_of_parse hkey]
  | none =>
    rw [shownAt_of_resolve_eq_error (resolve_eq_invalidReference_iff.2 h)]
    cases hkey : s.resolve (watchKey reference) with
    | error e => simp [Misread, hkey, shownAt_of_resolve_eq_error hkey]
    | ok a => simp [Misread, h, hkey, shownAt_of_resolve_eq_ok hkey]

theorem exists_of_misread (h : s.Misread reference) :
    ∃ c ∈ Text.trimList reference.toList, 0x80 ≤ c.toNat := by
  obtain ⟨hnone, a, ha, -⟩ := h
  by_contra hascii
  have hkey : Address.parseTrimmed? (watchKey reference) = none := by
    rw [parseTrimmed?_watchKey fun c hc => ?_, hnone]
    by_contra hc'
    exact hascii ⟨c, hc, by omega⟩
  rw [resolve_eq_invalidReference_iff.2 hkey] at ha
  cases ha

theorem exists_addWatch?_eq_some (hempty : s.watched = #[]) (h : Text.trim reference ≠ "") :
    ∃ t, s.addWatch? reference = some t ∧ t.watchEntries = [s.watchEntry (watchKey reference)] := by
  have hkey : watchKey reference ≠ "" := mt Text.upperCase_eq_empty_iff.1 h
  simp only [addWatch?]
  generalize watchKey reference = key at hkey ⊢
  exact ⟨{ s with watched := #[key] }, by simp [hkey, hempty], rfl⟩

/-- Every operation reads a reference as `resolve` does, but for two kinds of texts: a watch list takes a
misread text for another cell, and a goal seek finds a text invalid that `resolve` trims. -/
theorem references_read_alike_iff (s : Sheet) {r : String} (hr : Text.trim r ≠ "") :
    (s.watched = #[] → ∃ t e, s.addWatch? r = some t ∧ t.watchEntries = [e] ∧
      (e.value = s.shownAt r ↔ ¬s.Misread r)) ∧
    (s.Misread r → ∃ c ∈ Text.trimList r.toList, 0x80 ≤ c.toNat) ∧
    ∀ settings goal other b, s.resolve other = .ok b →
      ∀ target changing, (target = r ∧ changing = other) ∨ (target = other ∧ changing = r) →
        ((s.seekGoal settings target goal changing = .error (.seek .invalidReference) ↔
            s.resolve r = .error (.invalidReference r)) ↔
          s.resolve r = .error (.invalidReference r) ∨ (Text.trim r = r ∧ Text.trim other = other)) := by
  refine ⟨fun hempty => ?_, exists_of_misread, fun settings goal other b hother target changing h => ?_⟩
  · obtain ⟨t, ht, hentries⟩ := exists_addWatch?_eq_some hempty hr
    refine ⟨t, _, ht, hentries, ?_⟩
    rw [watchEntry_value, shownAt_watchKey_eq_iff]
  · have hvalid : Address.parseTrimmed? other ≠ none := by
      intro hnone
      rw [resolve_eq_invalidReference_iff.2 hnone] at hother
      cases hother
    have hseek : s.seekGoal settings target goal changing = .error (.seek .invalidReference) ↔
        Address.parse? r = none ∨ Address.parse? other = none := by
      obtain ⟨rfl, rfl⟩ | ⟨rfl, rfl⟩ := h
      · exact seekGoal_eq_invalidReference_iff
      · exact seekGoal_eq_invalidReference_iff.trans or_comm
    rw [hseek, resolve_eq_invalidReference_iff, Address.parse?_eq_none_iff, Address.parse?_eq_none_iff]
    by_cases hnone : Address.parseTrimmed? r = none
    · simp [hnone]
    · simp [hnone, hvalid]

def wide : Sheet :=
  (ofColumns "Wide" ["A", "B", "C", "D", "E", "F", "G", "H", "I"]).run
    [.addRow, .setInput "B1" "=A1*2", .setInput "I1" "5"]

theorem references_read_alike_wide :
    Text.trim "i1" ≠ "" ∧
    (∃ t e, wide.addWatch? "i1" = some t ∧ t.watchEntries = [e] ∧ e.value = wide.shownAt "i1") ∧
    (wide.seekGoal {} "B1" 10 "i1" = .error (.seek .invalidReference) ↔
      wide.resolve "i1" = .error (.invalidReference "i1")) := by
  have hne : Text.trim "i1" ≠ "" := by decide
  obtain ⟨hwatch, hascii, hseek⟩ := references_read_alike_iff wide hne
  obtain ⟨t, e, ht, he, hvalue⟩ := hwatch (by decide +kernel)
  have hchars : Text.trimList "i1".toList = ['i', '1'] := by decide
  have hread : ¬wide.Misread "i1" := by
    intro h
    obtain ⟨c, hc, hle⟩ := hascii h
    rw [hchars, List.mem_pair] at hc
    obtain rfl | rfl := hc
    all_goals exact absurd hle (by decide)
  have hother : wide.resolve "B1" = .ok ⟨1, 0⟩ := by decide +kernel
  have htrim : Text.trim "i1" = "i1" ∧ Text.trim "B1" = "B1" := by decide +kernel
  exact ⟨hne, ⟨t, e, ht, he, hvalue.2 hread⟩,
    (hseek {} 10 "B1" _ hother "B1" "i1" (.inr ⟨rfl, rfl⟩)).2 (.inr htrim)⟩

/-- The capital of a dotless `i` is `I`, so a watch list shows the cell of a text that is no reference.
And a goal seek does not find a cell whose reference has a blank before it. -/
theorem references_read_apart :
    (Text.trim "ı1" ≠ "" ∧ wide.watched = #[] ∧
      wide.evaluateRef "ı1" = .error (.invalidReference "ı1") ∧
      (wide.addWatch? "ı1").map (·.watchEntries.map (·.value)) = some [.number 5]) ∧
    Text.trim " B1" ≠ "" ∧ wide.resolve "A1" = .ok ⟨0, 0⟩ ∧ wide.resolve " B1" = .ok ⟨1, 0⟩ ∧
      wide.seekGoal {} " B1" 10 "A1" = .error (.seek .invalidReference) := by
  decide +kernel

end Sheet

end Spreadsheet
