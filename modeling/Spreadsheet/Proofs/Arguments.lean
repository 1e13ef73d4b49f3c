import Mathlib.Data.List.Induction
import Spreadsheet.CommandLine.Options
import Spreadsheet.Proofs.PlainNumeral

namespace Spreadsheet

namespace Text

variable {separator : Char} {cs : List Char}

theorem splitList_eq (separator : Char) (cs : List Char) :
    splitList separator cs = cs.splitOn separator := by
  induction cs with
  | nil => rfl
  | cons c cs ih =>
    rw [splitList, List.splitOn_cons_eq_if_modifyHead, ih]
    by_cases hc : c = separator
    · rw [if_pos hc, if_pos (beq_iff_eq.2 hc)]
    · rw [if_neg hc, if_neg (mt beq_iff_eq.1 hc)]
      cases hpieces : cs.splitOn separator with
      | nil => exact absurd hpieces (List.splitOn_ne_nil separator cs)
      | cons piece pieces => rfl

theorem not_mem_of_mem_splitList {piece : List Char} (h : piece ∈ splitList separator cs) :
    separator ∉ piece := by
  induction cs generalizing piece with
  | nil =>
    rw [List.mem_singleton.1 h]
    exact List.not_mem_nil
  | cons c cs ih =>
    rw [splitList] at h
    split at h
    · rcases List.mem_cons.1 h with rfl | h
      · exact List.not_mem_nil
      · exact ih h
    · next hc =>
      have hcons : ∀ {p}, separator ∉ p → separator ∉ c :: p := fun hp hmem =>
        (List.mem_cons.1 hmem).elim (fun h => hc h.symm) hp
      split at h
      · rw [List.mem_singleton.1 h]
        exact hcons List.not_mem_nil
      · next piece' pieces heq =>
        rw [heq] at ih
        rcases List.mem_cons.1 h with rfl | h
        · exact hcons (ih List.mem_cons_self)
        · exact ih (List.mem_cons_of_mem _ h)

theorem splitList_eq_iff {pieces : List (List Char)} : splitList separator cs = pieces ↔
    pieces ≠ [] ∧ (∀ piece ∈ pieces, separator ∉ piece) ∧ [separator].intercalate pieces = cs := by
  constructor
  · rintro rfl
    refine ⟨?_, fun piece h => not_mem_of_mem_splitList h, ?_⟩
    · rw [splitList_eq]
      exact List.splitOn_ne_nil separator cs
    · rw [splitList_eq]
      exact List.intercalate_splitOn separator
  · rintro ⟨hne, hpieces, rfl⟩
    rw [splitList_eq]
    exact List.splitOn_intercalate separator hpieces hne

theorem splitFirst?_eq_some_iff {before after : List Char} :
    splitFirst? separator cs = some (before, after) ↔
      separator ∉ before ∧ cs = before ++ separator :: after := by
  constructor
  · intro h
    rw [splitFirst?] at h
    split at h
    · cases h
    · next c rest hrest =>
      cases h
      have hc : c = separator := by
        have hstop : ∀ d ∈ (cs.dropWhile (· != separator)).head?, (d != separator) = false :=
          not_of_mem_head?_dropWhile
        simpa [hrest] using hstop
      subst hc
      refine ⟨fun hmem => ?_, ?_⟩
      · simpa using List.mem_takeWhile_imp hmem
      · rw [← hrest, List.takeWhile_append_dropWhile]
  · rintro ⟨hbefore, rfl⟩
    have hother : ∀ c ∈ before, (c != separator) = true := fun c hc =>
      bne_iff_ne.2 fun heq => hbefore (heq ▸ hc)
    have hstop : ∀ c ∈ (separator :: after).head?, (c != separator) = false := by simp
    obtain ⟨htake, hdrop⟩ := span_append hother hstop
    rw [splitFirst?, hdrop, htake]

end Text

namespace CommandLine

namespace Group

inductive Spells : List String → Group → Prop
  | help {flag : String} (h : flag = "-h" ∨ flag = "--help") : Spells [flag] .help
  | noConfig : Spells ["--no-config"] .noConfig
  | columns {pieces : List String} (hne : pieces ≠ []) (hcomma : ∀ p ∈ pieces, ',' ∉ p.toList)
      (hblank : ∀ p ∈ pieces, Text.trim p ≠ "") :
      Spells ["--columns", ",".intercalate pieces] (.columns (pieces.map Text.trim))
  | assign {reference : String} (h : '=' ∉ reference.toList) (value : String) :
      Spells ["--set", reference ++ "=" ++ value] (.assign (Text.trim reference) value)
  | command {flag : String} (h : flag = "-c" ∨ flag = "--command") (formula : String) :
      Spells [flag, formula] (.command formula)
  | config (path : String) : Spells ["--config", path] (.config path)
  | seek (target changing : String) {value : String} {goal : Binary64}
      (h : Binary64.ofText? value = some goal) :
      Spells ["--goal-seek", target, value, changing] (.seek ⟨target, goal, changing⟩)

theorem columns?_eq_ok_iff {list : String} {g : Group} : columns? list = .ok g ↔
    ∃ pieces : List String, pieces ≠ [] ∧ (∀ p ∈ pieces, ',' ∉ p.toList) ∧
      (∀ p ∈ pieces, Text.trim p ≠ "") ∧ list = ",".intercalate pieces ∧
      g = .columns (pieces.map Text.trim) := by
  have hlist : ∀ pieces : List String, list = ",".intercalate pieces ↔
      [','].intercalate (pieces.map String.toList) = list.toList := fun pieces => by
    rw [← String.toList_inj, String.toList_intercalate, eq_comm]
    rfl
  have hblank : ∀ p : String, Text.trim p = "" ↔ Text.trimList p.toList = [] := fun p =>
    String.ofList_eq_empty_iff
  constructor
  · intro h
    obtain ⟨hne, hcomma, hcat⟩ := Text.splitList_eq_iff.1 (Eq.refl (Text.splitList ',' list.toList))
    rw [columns?] at h
    split at h
    · cases h
    · next hnames =>
      cases h
      have htrim : Text.trim ∘ String.ofList = String.ofList ∘ Text.trimList := by
        funext cs
        simp [Text.trim]
      refine ⟨(Text.splitList ',' list.toList).map String.ofList, by simpa using hne, ?_, ?_, ?_, ?_⟩
      · simpa using hcomma
      · intro p hp heq
        obtain ⟨cs, hcs, rfl⟩ := List.mem_map.1 hp
        rw [hblank, String.toList_ofList] at heq
        exact hnames (List.mem_map.2 ⟨cs, hcs, heq⟩)
      · rw [hlist, List.map_map]
        simpa using hcat
      · rw [List.map_map, List.map_map, htrim]
  · rintro ⟨pieces, hne, hcomma, hnames, hcat, rfl⟩
    have hsplit : Text.splitList ',' list.toList = pieces.map String.toList :=
      Text.splitList_eq_iff.2 ⟨by simpa using hne, by simpa using hcomma, (hlist pieces).1 hcat⟩
    have hkept : [] ∉ (pieces.map String.toList).map Text.trimList := by
      simpa [hblank] using hnames
    rw [columns?, hsplit, if_neg hkept, List.map_map, List.map_map]
    rfl

theorem assign?_eq_ok_iff {argument : String} {g : Group} : assign? argument = .ok g ↔
    ∃ reference value, '=' ∉ reference.toList ∧ argument = reference ++ "=" ++ value ∧
      g = .assign (Text.trim reference) value := by
  constructor
  · intro h
    rw [assign?] at h
    split at h
    · next reference value hsplit =>
      cases h
      obtain ⟨hbefore, hcat⟩ := Text.splitFirst?_eq_some_iff.1 hsplit
      refine ⟨String.ofList reference, String.ofList value, by simpa using hbefore, ?_, by simp [Text.trim]⟩
      rw [← String.toList_inj, hcat]
      simp
    · cases h
  · rintro ⟨reference, value, hbefore, rfl, rfl⟩
    have hsplit : Text.splitFirst? '=' (reference ++ "=" ++ value).toList =
        some (reference.toList, value.toList) :=
      Text.splitFirst?_eq_some_iff.2 ⟨hbefore, by simp⟩
    rw [assign?, hsplit]
    simp [Text.trim]

theorem spells_of_next {argument : String} {rest left : List String} {g : Group}
    (h : next argument rest = .ok (g, left)) :
    ∃ values, rest = values ++ left ∧ Spells (argument :: values) g := by
  unfold next at h
  split at h
  · cases h
    exact ⟨[], rfl, .help (.inl rfl)⟩
  · cases h
    exact ⟨[], rfl, .help (.inr rfl)⟩
  · cases h
    exact ⟨[], rfl, .noConfig⟩
  · next list rest =>
    cases hg : columns? list with
    | error e => simp [hg] at h
    | ok g =>
      simp only [hg, Except.ok.injEq, Prod.mk.injEq] at h
      obtain ⟨rfl, rfl⟩ := h
      obtain ⟨pieces, hne, hcomma, hnames, rfl, rfl⟩ := columns?_eq_ok_iff.1 hg
      exact ⟨[_], rfl, .columns hne hcomma hnames⟩
  · next assignment rest =>
    cases hg : assign? assignment with
    | error e => simp [hg] at h
    | ok g =>
      simp only [hg, Except.ok.injEq, Prod.mk.injEq] at h
      obtain ⟨rfl, rfl⟩ := h
      obtain ⟨reference, value, hbefore, rfl, rfl⟩ := assign?_eq_ok_iff.1 hg
      exact ⟨[_], rfl, .assign hbefore value⟩
  · cases h
    exact ⟨[_], rfl, .command (.inl rfl) _⟩
  · cases h
    exact ⟨[_], rfl, .command (.inr rfl) _⟩
  · cases h
    exact ⟨[_], rfl, .config _⟩
  · split at h
    · cases h
    · next hgoal =>
      cases h
      exact ⟨[_, _, _], rfl, .seek _ _ hgoal⟩
    · cases h
  · cases h
  · split at h <;> cases h

theorem next_of_spells {argument : String} {values left : List String} {g : Group}
    (h : Spells (argument :: values) g) : next argument (values ++ left) = .ok (g, left) := by
  cases h with
  | help h => rcases h with rfl | rfl <;> rfl
  | noConfig => rfl
  | columns hne hcomma hnames =>
    have hg := columns?_eq_ok_iff.2 ⟨_, hne, hcomma, hnames, rfl, rfl⟩
    simp [next, hg]
  | assign hbefore value =>
    have hg := assign?_eq_ok_iff.2 ⟨_, value, hbefore, rfl, rfl⟩
    simp [next, hg]
  | command h formula => rcases h with rfl | rfl <;> rfl
  | config path => rfl
  | seek target changing hgoal => simp [next, hgoal]

theorem Spells.exists_eq_cons {args : List String} {g : Group} (h : Spells args g) :
    ∃ argument values, args = argument :: values := by
  cases h <;> exact ⟨_, _, rfl⟩

def Spelled (args : List String) (gs : List Group) : Prop :=
  ∃ parts : List (List String), args = parts.flatten ∧ List.Forall₂ Spells parts gs

theorem Spelled.nil : Spelled [] [] :=
  ⟨[], rfl, .nil⟩

theorem Spelled.cons {part args : List String} {g : Group} {gs : List Group} (h : Spells part g)
    (hs : Spelled args gs) : Spelled (part ++ args) (g :: gs) := by
  obtain ⟨parts, rfl, hparts⟩ := hs
  exact ⟨part :: parts, rfl, .cons h hparts⟩

theorem Spelled.exists_spells {args : List String} {gs : List Group} {g : Group} (h : Spelled args gs)
    (hg : g ∈ gs) : ∃ part, Spells part g := by
  obtain ⟨parts, -, hparts⟩ := h
  induction hparts with
  | nil => exact absurd hg List.not_mem_nil
  | cons hpart _ ih =>
    rcases List.mem_cons.1 hg with rfl | hg
    · exact ⟨_, hpart⟩
    · exact ih hg

theorem ofArguments_cons (argument : String) (rest : List String) : ofArguments (argument :: rest) =
    (next argument rest).bind fun p => (ofArguments p.2).map (p.1 :: ·) := by
  rw [ofArguments]
  split <;> next hnext => simp only [hnext, Except.bind]

theorem ofArguments_append_of_spells {part : List String} {g : Group} (h : Spells part g)
    (args : List String) : ofArguments (part ++ args) = (ofArguments args).map (g :: ·) := by
  obtain ⟨argument, values, rfl⟩ := h.exists_eq_cons
  rw [List.cons_append, ofArguments_cons, next_of_spells h]
  rfl

theorem ofArguments_append_of_spelled {args : List String} {gs : List Group} (h : Spelled args gs)
    (rest : List String) : ofArguments (args ++ rest) = (ofArguments rest).map (gs ++ ·) := by
  obtain ⟨parts, rfl, hparts⟩ := h
  induction hparts with
  | nil => cases h : ofArguments rest <;> simp [h, Except.map]
  | cons hpart _ ih =>
    rw [List.flatten_cons, List.append_assoc, ofArguments_append_of_spells hpart, ih]
    cases ofArguments rest <;> rfl

theorem ofArguments_of_spelled {args : List String} {gs : List Group} (h : Spelled args gs) :
    ofArguments args = .ok gs := by
  have happ := ofArguments_append_of_spelled h []
  rw [List.append_nil, ofArguments] at happ
  rw [happ, Except.map, List.append_nil]

theorem spelled_of_ofArguments {args : List String} {gs : List Group} (h : ofArguments args = .ok gs) :
    Spelled args gs := by
  fun_induction ofArguments args generalizing gs with
  | case1 =>
    cases h
    exact .nil
  | case2 argument rest e he => cases h
  | case3 argument rest g left hnext _ ih =>
    cases hleft : ofArguments left with
    | error e => rw [hleft] at h; cases h
    | ok gs =>
      rw [hleft] at h
      cases h
      obtain ⟨values, rfl, hg⟩ := spells_of_next hnext
      exact .cons hg (ih hleft)

theorem ofArguments_eq_ok_iff {args : List String} {gs : List Group} :
    ofArguments args = .ok gs ↔ Spelled args gs :=
  ⟨spelled_of_ofArguments, ofArguments_of_spelled⟩

def option : Group → String
  | .help => "--help"
  | .noConfig => "--no-config"
  | .columns _ => "--columns"
  | .assign _ _ => "--set"
  | .command _ => "--command"
  | .seek _ => "--goal-seek"
  | .config _ => "--config"

def assignment? : Group → Option (String × String)
  | .assign reference value => some (reference, value)
  | _ => none

def IsLast {α : Type} (mk : α → Group) (gs : List Group) : Option α → Prop
  | some v => ∃ before after, gs = before ++ mk v :: after ∧ ∀ w, mk w ∉ after
  | none => ∀ w, mk w ∉ gs

namespace IsLast

variable {α : Type} {mk : α → Group} {gs : List Group} {v : Option α}

theorem nil : IsLast mk [] none :=
  fun _ => List.not_mem_nil

theorem concat_self (gs : List Group) (v : α) : IsLast mk (gs ++ [mk v]) (some v) :=
  ⟨gs, [], rfl, fun _ => List.not_mem_nil⟩

theorem concat_of_ne (h : IsLast mk gs v) {g : Group} (hg : ∀ w, mk w ≠ g) : IsLast mk (gs ++ [g]) v := by
  have hconcat : ∀ {l : List Group} {w : α}, mk w ∉ l → mk w ∉ l ++ [g] := fun hl hmem =>
    (List.mem_append.1 hmem).elim hl fun hg' => hg _ (List.mem_singleton.1 hg')
  cases v with
  | none => exact fun w => hconcat (h w)
  | some v =>
    obtain ⟨before, after, rfl, hafter⟩ := h
    exact ⟨before, after ++ [g], by simp, fun w => hconcat (hafter w)⟩

theorem eq_of_cons_eq_append {between after after' : List Group} {w w' : α}
    (h : mk w :: after = between ++ mk w' :: after') (hafter : ∀ v, mk v ∉ after) : mk w = mk w' := by
  cases between with
  | nil => exact (List.cons.inj h).1
  | cons g between =>
    have hmem : mk w' ∈ after := (List.cons.inj h).2 ▸ List.mem_append_right _ List.mem_cons_self
    exact absurd hmem (hafter w')

theorem unique {v' : Option α} (h : IsLast mk gs v) (h' : IsLast mk gs v')
    (hinj : Function.Injective mk) : v = v' := by
  cases v with
  | none =>
    cases v' with
    | none => rfl
    | some w' =>
      obtain ⟨before, after, rfl, -⟩ := h'
      exact absurd (List.mem_append_right before List.mem_cons_self) (h w')
  | some w =>
    obtain ⟨before, after, rfl, hafter⟩ := h
    cases v' with
    | none => exact absurd (List.mem_append_right before List.mem_cons_self) (h' w)
    | some w' =>
      obtain ⟨before', after', heq, hafter'⟩ := h'
      rcases List.append_eq_append_iff.1 heq with ⟨between, -, hrest⟩ | ⟨between, -, hrest⟩
      · exact congrArg some (hinj (eq_of_cons_eq_append hrest hafter))
      · exact congrArg some (hinj (eq_of_cons_eq_append hrest hafter').symm)

end IsLast

end Group

namespace Options

open CommandLine.Group

/-- Options that are what a sequence of groups says: of each option with a value that of its last group,
all assignments in their order, and the flags that are there. -/
structure Collects (o : Options) (gs : List Group) : Prop where
  columns : IsLast .columns gs o.columns
  command : IsLast .command gs o.command
  seek : IsLast .seek gs o.seek
  config : IsLast .config gs o.config
  assignments : o.assignments = gs.filterMap assignment?
  noConfig : o.noConfig = true ↔ .noConfig ∈ gs
  help : o.help = true ↔ .help ∈ gs

theorem Collects.add {o : Options} {gs : List Group} (h : o.Collects gs) (g : Group) :
    (o.add g).Collects (gs ++ [g]) := by
  obtain ⟨hcolumns, hcommand, hseek, hconfig, hassignments, hnoConfig, hhelp⟩ := h
  constructor
  · cases g
    case columns => exact .concat_self gs _
    all_goals exact hcolumns.concat_of_ne fun _ => Group.noConfusion
  · cases g
    case command => exact .concat_self gs _
    all_goals exact hcommand.concat_of_ne fun _ => Group.noConfusion
  · cases g
    case seek => exact .concat_self gs _
    all_goals exact hseek.concat_of_ne fun _ => Group.noConfusion
  · cases g
    case config => exact .concat_self gs _
    all_goals exact hconfig.concat_of_ne fun _ => Group.noConfusion
  · cases g <;> simp [Options.add, hassignments, assignment?]
  · cases g <;> simp [Options.add, hnoConfig]
  · cases g <;> simp [Options.add, hhelp]

theorem Collects.unique {o o' : Options} {gs : List Group} (h : o.Collects gs) (h' : o'.Collects gs) :
    o = o' := by
  have hcolumns := h.columns.unique h'.columns fun _ _ => Group.columns.inj
  have hcommand := h.command.unique h'.command fun _ _ => Group.command.inj
  have hseek := h.seek.unique h'.seek fun _ _ => Group.seek.inj
  have hconfig := h.config.unique h'.config fun _ _ => Group.config.inj
  have hassignments := h.assignments.trans h'.assignments.symm
  have hnoConfig := Bool.eq_iff_iff.2 (h.noConfig.trans h'.noConfig.symm)
  have hhelp := Bool.eq_iff_iff.2 (h.help.trans h'.help.symm)
  cases o
  cases o'
  simp_all

theorem collects_ofGroups (gs : List Group) : (ofGroups gs).Collects gs := by
  induction gs using List.reverseRecOn with
  | nil => exact ⟨.nil, .nil, .nil, .nil, rfl, by simp [ofGroups], by simp [ofGroups]⟩
  | append_singleton gs g ih =>
    rw [ofGroups, List.foldl_append]
    exact ih.add g

theorem add_comm {g g' : Group} (h : g.option ≠ g'.option) (o : Options) :
    (o.add g).add g' = (o.add g').add g := by
  cases g <;> cases g' <;> first | rfl | exact absurd rfl h

theorem parse_append_of_spelled {args : List String} {gs : List Group} (h : Spelled args gs)
    (rest : List String) :
    parse (args ++ rest) = (ofArguments rest).map fun gs' => ofGroups (gs ++ gs') := by
  rw [parse, ofArguments_append_of_spelled h]
  cases ofArguments rest <;> rfl

theorem parse_of_spelled {args : List String} {gs : List Group} (h : Spelled args gs) :
    parse args = .ok (ofGroups gs) := by
  rw [parse, ofArguments_of_spelled h, Except.map]

theorem parse_eq_ok_iff {args : List String} {o : Options} :
    parse args = .ok o ↔ ∃ gs, Spelled args gs ∧ o = ofGroups gs := by
  simp only [← ofArguments_eq_ok_iff, parse]
  cases ofArguments args <;> simp [Except.map, eq_comm]

theorem parse_swap {before part part' : List String} {gs : List Group} {g g' : Group}
    (hbefore : Spelled before gs) (hg : Spells part g) (hg' : Spells part' g') (hne : g.option ≠ g'.option)
    (after : List String) :
    parse (before ++ part ++ part' ++ after) = parse (before ++ part' ++ part ++ after) := by
  simp only [List.append_assoc]
  rw [parse_append_of_spelled hbefore, parse_append_of_spelled hbefore, ofArguments_append_of_spells hg,
    ofArguments_append_of_spells hg', ofArguments_append_of_spells hg', ofArguments_append_of_spells hg]
  cases ofArguments after with
  | error e => rfl
  | ok gs' =>
    simp only [Except.map, ofGroups, List.foldl_append, List.foldl_cons]
    rw [add_comm hne]

end Options

end CommandLine

end Spreadsheet
