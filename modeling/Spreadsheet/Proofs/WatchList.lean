import Mathlib.Data.List.Dedup
import Spreadsheet.Proofs.CellWrite
import Spreadsheet.Proofs.Reference
import Spreadsheet.Proofs.RepeatedNames

namespace Spreadsheet

namespace Edit

def Watches : Edit → Prop
  | .addWatch _ | .removeWatch _ => True
  | _ => False

def added? (s : Sheet) : Edit → Option String
  | .addWatch reference => (s.addWatch? reference).map fun _ => Sheet.watchKey reference
  | _ => none

end Edit

namespace Sheet

variable {s t : Sheet} {es : List Edit} {e : Edit} {reference key : String}

def added (s : Sheet) : List Edit → List String
  | [] => []
  | e :: es => (e.added? s).toList ++ (s.edit e).added es

theorem added_concat (s : Sheet) (es : List Edit) (e : Edit) :
    s.added (es ++ [e]) = s.added es ++ (e.added? (s.run es)).toList := by
  induction es generalizing s with
  | nil => simp [added, run]
  | cons d es ih => simp [added, ih, run]

theorem watchKey_watchKey (reference : String) :
    watchKey (watchKey reference) = watchKey reference := by
  calc watchKey (watchKey reference)
      = Text.upperCase (Text.upperCase (Text.trim (Text.trim reference))) := by
        rw [watchKey, watchKey, Text.trim_upperCase]
    _ = watchKey reference := by rw [Text.upperCase_upperCase, Text.trim_trim, watchKey]

theorem addWatch?_eq_some (h : s.addWatch? reference = some t) :
    (watchKey reference ≠ "" ∧ watchKey reference ∉ s.watched) ∧
      t = { s with watched := s.watched.push (watchKey reference) } := by
  simp only [addWatch?] at h
  split at h
  · cases h
  · next hnew => exact ⟨not_or.1 hnew, by cases h; rfl⟩

theorem exists_of_added?_eq_some (h : e.added? s = some key) :
    ∃ reference t, s.addWatch? reference = some t ∧ watchKey reference = key := by
  unfold Edit.added? at h
  split at h
  · next r =>
    obtain ⟨t, ht, hkey⟩ := Option.map_eq_some_iff.1 h
    exact ⟨r, t, ht, hkey⟩
  · cases h

theorem removeWatch?_eq_some (h : s.removeWatch? reference = some t) :
    watchKey reference ∈ s.watched ∧
      t = { s with watched := s.watched.filter (· != watchKey reference) } := by
  simp only [removeWatch?] at h
  split at h
  · next hmem => exact ⟨hmem, by cases h; rfl⟩
  · cases h

theorem watched_setCellRef {content : Content} {a : Address}
    (h : s.setCellRef reference content = .ok (t, a)) : t.watched = s.watched :=
  (sameShape_setCell (setCellRef_eq_ok h).2).watched

theorem watched_of_apply {reply : Reply} (he : ¬e.Watches) (h : s.apply e = .ok (t, reply)) :
    t.watched = s.watched := by
  cases e with
  | addRow => cases h; rfl
  | insertRow index =>
    obtain ⟨u, hu, heq⟩ := exists_of_map_eq_ok h
    cases heq
    obtain ⟨-, rfl⟩ := insertRow_eq_ok hu
    rfl
  | deleteRow index =>
    obtain ⟨u, hu, heq⟩ := exists_of_map_eq_ok h
    cases heq
    obtain ⟨-, rfl⟩ := deleteRow_eq_ok hu
    rfl
  | addColumn name =>
    obtain ⟨u, hu, heq⟩ := exists_of_map_eq_ok h
    cases heq
    obtain ⟨-, rfl⟩ := addColumn_eq_ok hu
    rfl
  | insertColumn after => cases h; rfl
  | renameColumn old new =>
    obtain ⟨u, hu, heq⟩ := exists_of_map_eq_ok h
    cases heq
    obtain ⟨-, -, rfl⟩ | ⟨-, -, -, -, -, rfl⟩ := renameColumn_eq_ok hu
    all_goals rfl
  | deleteColumn name =>
    obtain ⟨u, hu, heq⟩ := exists_of_map_eq_ok h
    cases heq
    obtain ⟨-, -, -, -, rfl⟩ := deleteColumn_eq_ok hu
    rfl
  | setCell a content =>
    obtain ⟨u, hu, heq⟩ := exists_of_map_eq_ok h
    cases heq
    exact (sameShape_setCell hu).watched
  | setCellRef reference content =>
    obtain ⟨⟨u, a⟩, hu, heq⟩ := exists_of_map_eq_ok h
    cases heq
    exact watched_setCellRef hu
  | setInput reference input =>
    obtain ⟨⟨u, a⟩, hu, heq⟩ := exists_of_map_eq_ok h
    cases heq
    exact watched_setCellRef hu
  | clearRange r => cases h; exact (sameShape_clearRange s r).watched
  | seekGoal settings target goal changing =>
    obtain ⟨⟨u, x⟩, hu, heq⟩ := exists_of_map_eq_ok h
    cases heq
    obtain ⟨-, a, ha⟩ := seekGoal_eq_ok hu
    exact watched_setCellRef ha
  | normalize => cases h; rfl
  | addWatch reference => exact absurd trivial he
  | removeWatch reference => exact absurd trivial he

theorem watched_edit (s : Sheet) (he : ¬e.Watches) : (s.edit e).watched = s.watched := by
  rw [edit]
  split
  · next t reply ht => exact watched_of_apply he ht
  · rfl

theorem dedup_concat (l : List String) (a : String) :
    (l ++ [a]).dedup = l.dedup.filter (· ≠ a) ++ [a] := by
  induction l with
  | nil => simp
  | cons b l ih =>
    rw [List.cons_append]
    by_cases hba : b = a
    · rw [List.dedup_cons_of_mem (by simp [hba]), ih]
      by_cases hb : b ∈ l
      · rw [List.dedup_cons_of_mem hb]
      · rw [List.dedup_cons_of_notMem hb, List.filter_cons_of_neg (by simpa using hba)]
    · by_cases hb : b ∈ l
      · rw [List.dedup_cons_of_mem (by simp [hb]), List.dedup_cons_of_mem hb, ih]
      · rw [List.dedup_cons_of_notMem (by simp [hb, hba]), List.dedup_cons_of_notMem hb, ih,
          List.filter_cons_of_pos (by simpa using hba), List.cons_append]

/-- What is left of a history of additions stands in the order of the last additions: of equal references
`dedup` keeps the last. -/
def InOrder (s : Sheet) (history : List String) : Prop :=
  s.watched.toList = history.dedup.filter (· ∈ s.watched)

variable {history : List String}

theorem InOrder.push (h : s.InOrder history) (hkey : key ∉ s.watched) :
    { s with watched := s.watched.push key }.InOrder (history ++ [key]) := by
  have hkept : ∀ w ∈ history.dedup, (decide (w ∈ s.watched.push key) && decide (w ≠ key)) =
      decide (w ∈ s.watched) := by
    intro w _
    by_cases hw : w = key
    · simp [hw, hkey]
    · simp [hw]
  rw [InOrder, Array.toList_push, dedup_concat, List.filter_append, List.filter_filter,
    List.filter_congr hkept, ← h, List.filter_cons_of_pos (by simp), List.filter_nil]

theorem InOrder.filter (h : s.InOrder history) (p : String → Bool) :
    { s with watched := s.watched.filter p }.InOrder history := by
  rw [InOrder, Array.toList_filter, h, List.filter_filter]
  refine List.filter_congr fun w _ => ?_
  simp [Bool.and_comm]

theorem InOrder.of_watched_eq (h : s.InOrder history) (ht : t.watched = s.watched) :
    t.InOrder history := by
  rwa [InOrder, ht]

theorem InOrder.edit (h : s.InOrder history) (e : Edit) :
    (s.edit e).InOrder (history ++ (e.added? s).toList) := by
  cases e with
  | addWatch reference =>
    simp only [Sheet.edit, apply, Edit.added?]
    cases hadd : s.addWatch? reference with
    | none => simpa using h
    | some t =>
      obtain ⟨⟨-, hkey⟩, rfl⟩ := addWatch?_eq_some hadd
      exact h.push hkey
  | removeWatch reference =>
    simp only [Sheet.edit, apply, Edit.added?, Option.toList_none, List.append_nil]
    cases hremove : s.removeWatch? reference with
    | none => exact h
    | some t =>
      obtain ⟨-, rfl⟩ := removeWatch?_eq_some hremove
      exact h.filter _
  | _ => simpa [Edit.added?] using h.of_watched_eq (watched_edit s id)

theorem inOrder_run (hs : s.watched = #[]) (es : List Edit) : (s.run es).InOrder (s.added es) := by
  induction es using List.reverseRecOn with
  | nil => simp [InOrder, run, added, hs]
  | append_singleton es e ih =>
    rw [run_concat, added_concat]
    exact ih.edit e

theorem watchKey_of_mem_added {w : String} (h : w ∈ s.added es) : watchKey w = w ∧ w ≠ "" := by
  induction es generalizing s with
  | nil => cases h
  | cons e es ih =>
    rcases List.mem_append.1 h with hw | hw
    · obtain ⟨reference, t, ht, rfl⟩ := exists_of_added?_eq_some (Option.mem_toList.1 hw)
      exact ⟨watchKey_watchKey reference, (addWatch?_eq_some ht).1.1⟩
    · exact ih hw

structure WatchesOrderedSet (s : Sheet) (history : List String) : Prop where
  nodup : s.watched.toList.Nodup
  not_empty : "" ∉ s.watched
  inOrder : s.InOrder history
  add : ∀ r, s.apply (.addWatch r) = .ok
    (if watchKey r ≠ "" ∧ watchKey r ∉ s.watched then
      ({ s with watched := s.watched.push (watchKey r) }, .changed true)
    else (s, .changed false))
  remove : ∀ r, s.apply (.removeWatch r) = .ok
    (if watchKey r ∈ s.watched then
      ({ s with watched := s.watched.erase (watchKey r) }, .changed true)
    else (s, .changed false))
  remove_added : ∀ r t, s.apply (.addWatch r) = .ok (t, .changed true) →
    t.apply (.removeWatch r) = .ok (s, .changed true)
  remove_entry : ∀ w ∈ s.watched,
    s.apply (.removeWatch w) = .ok ({ s with watched := s.watched.erase w }, .changed true)
  other : ∀ e : Edit, ¬e.Watches → (s.edit e).watched = s.watched

theorem apply_addWatch (s : Sheet) (r : String) : s.apply (.addWatch r) = .ok
    (if watchKey r ≠ "" ∧ watchKey r ∉ s.watched then
      ({ s with watched := s.watched.push (watchKey r) }, .changed true)
    else (s, .changed false)) := by
  rw [apply, addWatch?]
  by_cases h : watchKey r = "" ∨ watchKey r ∈ s.watched
  · rw [if_pos h, if_neg fun hnew => not_or.2 hnew h]
  · rw [if_neg h, if_pos (not_or.1 h)]

theorem filter_bne_eq_erase {xs : Array String} (h : xs.toList.Nodup) (w : String) :
    xs.filter (· != w) = xs.erase w := by
  obtain ⟨ws⟩ := xs
  have herase : ws.erase w = ws.filter (· != w) := h.erase_eq_filter w
  simp [herase]

theorem apply_removeWatch (h : s.watched.toList.Nodup) (r : String) : s.apply (.removeWatch r) = .ok
    (if watchKey r ∈ s.watched then
      ({ s with watched := s.watched.erase (watchKey r) }, .changed true)
    else (s, .changed false)) := by
  rw [apply, removeWatch?, filter_bne_eq_erase h]
  by_cases hmem : watchKey r ∈ s.watched
  · rw [if_pos hmem, if_pos hmem]
  · rw [if_neg hmem, if_neg hmem]

theorem erase_push {xs : Array String} {w : String} (h : w ∉ xs) : (xs.push w).erase w = xs := by
  obtain ⟨ws⟩ := xs
  have herase : (ws ++ [w]).erase w = ws := by
    rw [List.erase_append_right [w] (by simpa using h), List.erase_cons_head, List.append_nil]
  simp [herase]

/-- Through any run of edits of a sheet that watches nothing to begin with, the watch list is an ordered set. -/
theorem watchesOrderedSet_run (s : Sheet) (hs : s.watched = #[]) (es : List Edit) :
    (s.run es).WatchesOrderedSet (s.added es) := by
  have horder := inOrder_run hs es
  have hkey : ∀ w ∈ (s.run es).watched, watchKey w = w ∧ w ≠ "" := by
    intro w hw
    rw [← Array.mem_toList_iff, horder, List.mem_filter, List.mem_dedup] at hw
    exact watchKey_of_mem_added hw.1
  have hnodup : (s.run es).watched.toList.Nodup := by
    rw [horder]
    exact (List.nodup_dedup _).filter _
  generalize s.run es = u at *
  have hremove := apply_removeWatch hnodup
  refine ⟨hnodup, fun h => (hkey "" h).2 rfl, horder, apply_addWatch u, hremove, fun r t ht => ?_,
    fun w hw => ?_, fun e he => watched_edit u he⟩
  · rw [apply_addWatch] at ht
    split at ht
    · next hnew =>
      cases ht
      have hpush : (u.watched.push (watchKey r)).toList.Nodup := by
        rw [Array.toList_push, ← List.concat_eq_append]
        exact hnodup.concat (mt Array.mem_toList_iff.1 hnew.2)
      rw [apply_removeWatch hpush, if_pos Array.mem_push_self, erase_push hnew.2]
    · cases ht
  · rw [hremove, (hkey w hw).1, if_pos hw]

def watchEdits : List Edit :=
  [.addWatch "ı1", .addWatch "A1", .addWatch " i1 ", .removeWatch "i1", .addRow, .addWatch "I1"]

theorem watchesOrderedSet_run_watchEdits :
    (ofColumns "Sheet" ["A"]).watched = #[] ∧
    ((ofColumns "Sheet" ["A"]).run watchEdits).WatchesOrderedSet ["I1", "A1", "I1"] ∧
    ((ofColumns "Sheet" ["A"]).run watchEdits).watched = #["A1", "I1"] := by
  have hempty : (ofColumns "Sheet" ["A"]).watched = #[] := rfl
  have hadded : (ofColumns "Sheet" ["A"]).added watchEdits = ["I1", "A1", "I1"] := by decide +kernel
  have h := watchesOrderedSet_run _ hempty watchEdits
  rw [hadded] at h
  exact ⟨hempty, h, by decide +kernel⟩

end Sheet

end Spreadsheet
