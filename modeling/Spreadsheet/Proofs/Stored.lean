import Mathlib.Data.List.Forall2
import Spreadsheet.Sheet.Document

namespace Spreadsheet

namespace Document

variable {fields fields' : List (String × Document)}

theorem lookup_eq_some_iff_mem (h : (fields.map Prod.fst).Nodup) (key : String) (d : Document) :
    fields.lookup key = some d ↔ (key, d) ∈ fields := by
  induction fields with
  | nil => simp
  | cons field fields ih =>
    obtain ⟨key', d'⟩ := field
    rw [List.map_cons, List.nodup_cons] at h
    by_cases hkey : key = key'
    · subst hkey
      have hne : (key, d) ∉ fields := fun hmem => h.1 (List.mem_map.2 ⟨_, hmem, rfl⟩)
      simp [hne, eq_comm]
    · simp [List.lookup_cons, beq_eq_false_iff_ne.2 hkey, hkey, ih h.2]

theorem lookup_eq_of_perm (hperm : fields.Perm fields') (h : (fields'.map Prod.fst).Nodup)
    (key : String) : fields.lookup key = fields'.lookup key := by
  have hkeys : (fields.map Prod.fst).Nodup := (hperm.map Prod.fst).nodup_iff.2 h
  ext d
  rw [lookup_eq_some_iff_mem hkeys, lookup_eq_some_iff_mem h, hperm.mem_iff]

@[simp] theorem texts?_list (texts : List String) : (list (texts.map text)).texts? = some texts := by
  simp only [texts?, list?, Option.bind_some, List.mapM_map]
  exact List.mapM_pure.trans (congrArg some texts.map_id)

end Document

namespace Content

def stored : Content → Content
  | .number n => if n.isFinite then .number n else .empty
  | c => c

@[simp] theorem ofDocument?_toDocument (c : Content) : ofDocument? c.toDocument = some c.stored := by
  cases c with
  | empty => rfl
  | number n => by_cases h : n.isFinite <;> simp [toDocument, stored, ofDocument?, h]
  | text s => rfl

@[simp] theorem stored_eq_text_iff {c : Content} {s : String} : c.stored = .text s ↔ c = .text s := by
  cases c with
  | empty => rfl
  | number n => by_cases h : n.isFinite <;> simp [stored, h]
  | text s => rfl

theorem stored_eq_self_iff {c : Content} :
    c.stored = c ↔ ∀ n, c = .number n → n.isFinite = true := by
  cases c with
  | number n => by_cases h : n.isFinite <;> simp [stored, h]
  | _ => simp [stored]

end Content

namespace Row

/-- A document with a field for each entry of a row, in any order. -/
inductive Written (row : Row) : Document → Prop
  | fields {cells : List (String × Content)} : cells.Perm row.toList →
      Written row (.fields (cells.map fun (key, content) => (key, content.toDocument)))

variable (row : Row)

theorem written_toDocument : row.Written row.toDocument :=
  .fields (.refl _)

def stored : Row :=
  row.map fun _ content => content.stored

theorem ofList_eq_of_perm {row : Row} {cells : List (String × Content)} (h : cells.Perm row.toList) :
    Std.ExtTreeMap.ofList cells = row := by
-- The keys are distinct, so it does not matter which entry is added first.
  have hkeys : cells.Pairwise fun a b => ¬compare a.1 b.1 = .eq :=
    (h.pairwise_iff fun hne => mt Std.OrientedCmp.eq_symm hne).2 Std.ExtTreeMap.distinct_keys_toList
  apply Std.ExtTreeMap.ext_getElem?
  intro key
  cases hc : row[key]? with
  | some content =>
    have hmem : (key, content) ∈ cells :=
      h.mem_iff.2 (Std.ExtTreeMap.mem_toList_iff_getElem?_eq_some.2 hc)
    exact Std.ExtTreeMap.getElem?_ofList_of_mem Std.ReflCmp.compare_self hkeys hmem
  | none =>
    apply Std.ExtTreeMap.getElem?_ofList_of_contains_eq_false
    simp only [List.contains_eq_mem, List.mem_map, decide_eq_false_iff_not]
    rintro ⟨⟨_, content⟩, hmem, rfl⟩
    have hsome := Std.ExtTreeMap.mem_toList_iff_getElem?_eq_some.1 (h.mem_iff.1 hmem)
    rw [hc] at hsome
    cases hsome

theorem ofDocument?_of_written {row : Row} {d : Document} (h : row.Written d) :
    ofDocument? d = some row.stored := by
  cases h with
  | @fields cells hperm =>
    have hstored : (cells.map fun p => (p.1, p.2.stored)).Perm row.stored.toList := by
      rw [stored, Std.ExtTreeMap.toList_map]
      exact hperm.map _
    have hread : (cells.map fun p => (p.1, p.2.toDocument)).mapM
          (fun p => return (p.1, ← Content.ofDocument? p.2)) =
        some (cells.map fun p => (p.1, p.2.stored)) := by
      simp only [List.mapM_map, Function.comp_def, Content.ofDocument?_toDocument]
      exact List.mapM_pure
    calc ofDocument? (.fields (cells.map fun p => (p.1, p.2.toDocument)))
        = some ((cells.map fun p => (p.1, p.2.stored)).foldl (fun row p => row.insert p.1 p.2) ∅) := by
          simp only [ofDocument?, Document.fields?, Option.bind_eq_bind, Option.bind_some] at hread ⊢
          rw [hread, Option.bind_some, Option.pure_def]
      _ = some row.stored := by rw [← Std.ExtTreeMap.ofList_eq_foldl, ofList_eq_of_perm hstored]

theorem mapM_of_written {rows : List Row} {ds : List Document} (h : List.Forall₂ Written rows ds) :
    ds.mapM ofDocument? = some (rows.map stored) := by
  induction h with
  | nil => rfl
  | cons hrow _ ih => simp [List.mapM_cons, ofDocument?_of_written hrow, ih]

theorem getElem?_stored (key : String) : row.stored[key]? = row[key]?.map Content.stored :=
  Std.ExtTreeMap.getElem?_map

end Row

def Table.content? (t : Table) (row : Nat) (key : String) : Option Content :=
  t.rows[row]?.bind (·[key]?)

theorem Table.rows_eq_of_content? {t t' : Table} (hsize : t.rows.size = t'.rows.size)
    (h : ∀ row key, t.content? row key = t'.content? row key) : t.rows = t'.rows := by
  refine Array.ext hsize fun row hrow hrow' => Std.ExtTreeMap.ext_getElem? fun {key} => ?_
  simpa [content?, hrow, hrow'] using h row key

namespace Sheet

variable (s : Sheet)

def fieldsAround (rows : List Document) : List (String × Document) :=
  [("name", .text s.name), ("columns", .list (s.columns.toList.map .text)), ("rows", .list rows)] ++
    if s.watched.isEmpty then [] else [("watchedCells", .list (s.watched.toList.map .text))]

inductive Written : Document → Prop
  | fields {rows : List Document} {items : List (String × Document)} :
      List.Forall₂ Row.Written s.rows.toList rows → items.Perm (s.fieldsAround rows) →
      Written (.fields items)

theorem written_toDocument : s.Written s.toDocument := by
  have hrows : List.Forall₂ Row.Written s.rows.toList (s.rows.toList.map Row.toDocument) := by
    rw [List.forall₂_map_right_iff, List.forall₂_same]
    exact fun row _ => row.written_toDocument
  exact .fields hrows (.refl _)

def FiniteNumbers : Prop :=
  ∀ row key n, s.content? row key = some (.number n) → n.isFinite = true

def stored : Sheet :=
  { s with rows := s.rows.map Row.stored }

theorem content?_stored (row : Nat) (key : String) :
    s.stored.content? row key = (s.content? row key).map Content.stored := by
  simp only [Table.content?, stored, Array.getElem?_map]
  cases s.rows[row]? with
  | none => rfl
  | some r => exact r.getElem?_stored key

theorem stored_eq_self_iff : s.stored = s ↔ s.FiniteNumbers := by
  constructor
  · intro h row key n hc
    have hn := s.content?_stored row key
    rw [h, hc, Option.map_some, Option.some.injEq, eq_comm, Content.stored_eq_self_iff] at hn
    exact hn n rfl
  · intro h
    have hrows : s.stored.rows = s.rows := by
      refine Table.rows_eq_of_content? (by simp [stored]) fun row key => ?_
      rw [content?_stored]
      cases hc : s.content? row key with
      | none => rfl
      | some c => exact congrArg some (Content.stored_eq_self_iff.2 fun n hn => h row key n (hn ▸ hc))
    calc s.stored = { s with rows := s.stored.rows } := rfl
      _ = s := by rw [hrows]

variable {s} {rows : List Document} {items : List (String × Document)}

theorem lookup_eq_of_perm (h : items.Perm (s.fieldsAround rows)) (key : String) :
    items.lookup key = (s.fieldsAround rows).lookup key := by
  refine Document.lookup_eq_of_perm h ?_ key
  unfold fieldsAround
  split <;> simp

theorem lookup_watched : (s.fieldsAround rows).lookup "watchedCells" =
    if s.watched.isEmpty then none else some (.list (s.watched.toList.map .text)) := by
  unfold fieldsAround
  split <;> rfl

theorem ofDocument?_of_written {d : Document} (h : s.Written d) : ofDocument? d = some s.stored := by
  cases h with
  | @fields rows items hrows hitems =>
    have hname : items.lookup "name" = some (.text s.name) := lookup_eq_of_perm hitems _
    have hcolumns : items.lookup "columns" = some (.list (s.columns.toList.map .text)) :=
      lookup_eq_of_perm hitems _
    have hlist : items.lookup "rows" = some (.list rows) := lookup_eq_of_perm hitems _
    have hwatched := (lookup_eq_of_perm hitems "watchedCells").trans lookup_watched
    have hstored := Row.mapM_of_written hrows
    simp only [ofDocument?, hname, hcolumns, hlist, hwatched, Option.bind_eq_bind, Option.bind_some]
    -- An empty watch list has no field, which reads as the empty list again.
    split
    · next hempty =>
      simp [ofParts?, Document.list?, Document.text?, hstored, stored, Array.isEmpty_iff.1 hempty,
        ← List.map_toArray]
    · simp [ofParts?, Document.list?, Document.text?, hstored, stored, ← List.map_toArray]

/-- A sheet comes back equal just when all its numbers are finite, and loses nothing else in any case. -/
theorem written_is_read_back (s : Sheet) :
    s.Written s.toDocument ∧
    ∀ d, s.Written d →
      (Sheet.ofDocument? d = some s ↔ s.FiniteNumbers) ∧
      (d.fields?.bind (·.lookup "watchedCells") = none ↔ s.watched = #[]) ∧
      ∃ t, Sheet.ofDocument? d = some t ∧
        t.name = s.name ∧ t.columns = s.columns ∧ t.watched = s.watched ∧
        t.rows.size = s.rows.size ∧
        ∀ row key, t.content? row key = (s.content? row key).map Content.stored ∧
          (∀ text, t.content? row key = some (.text text) ↔ s.content? row key = some (.text text)) ∧
          (s.content? row key = some .empty → t.content? row key = some .empty) := by
  refine ⟨s.written_toDocument, fun d hd => ?_⟩
  have hread := ofDocument?_of_written hd
  refine ⟨?_, ?_, s.stored, hread, rfl, rfl, rfl, Array.size_map, fun row key => ?_⟩
  · rw [hread, Option.some.injEq, stored_eq_self_iff]
  · cases hd with
    | fields _ hitems =>
      simp [Document.fields?, lookup_eq_of_perm hitems, lookup_watched]
  · have hstored := s.content?_stored row key
    refine ⟨hstored, fun text => ?_, fun hempty => ?_⟩
    · simp [hstored]
    · rw [hstored, hempty]
      rfl

def oddments : Sheet where
  columns := #["Item", "Item"]
  rows := #[((∅ : Row).insert "Item" (.text "1200")).insert "Spare" (.number (.zero true)),
    (∅ : Row).insert "" (.text "=A1*2"), ∅]
  name := ""
  watched := #[]

theorem written_is_read_back_oddments :
    oddments.Written oddments.toDocument ∧ Sheet.ofDocument? oddments.toDocument = some oddments := by
  have hfinite : oddments.FiniteNumbers := by
    intro row key n h
    obtain ⟨r, hr, hc⟩ := Option.bind_eq_some_iff.1 h
    have hmem : r ∈ oddments.rows := Array.mem_of_getElem? hr
    simp only [oddments, List.mem_toArray, List.mem_cons, List.not_mem_nil, or_false] at hmem
    obtain rfl | rfl | rfl := hmem
    all_goals simp only [Std.ExtTreeMap.getElem?_insert, Std.ExtTreeMap.getElem?_empty] at hc
    · split at hc
      · cases hc
        rfl
      · split at hc <;> cases hc
    · split at hc <;> cases hc
    · cases hc
  have hwritten := (written_is_read_back oddments).1
  exact ⟨hwritten, ((written_is_read_back oddments).2 _ hwritten).1.2 hfinite⟩

end Sheet

end Spreadsheet
