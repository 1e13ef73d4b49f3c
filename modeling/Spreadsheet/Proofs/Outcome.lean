import Spreadsheet.CommandLine.Run
import Spreadsheet.Proofs.Arguments
import Spreadsheet.Proofs.InPlace
import Spreadsheet.Proofs.Reference

namespace Spreadsheet

namespace Text

theorem dropBlanksEnd_cons (c : Char) (cs : List Char) : dropBlanksEnd (c :: cs) =
    if isBlank c = true ∧ dropBlanksEnd cs = [] then [] else c :: dropBlanksEnd cs := by
  simp only [dropBlanksEnd, List.reverse_cons, List.dropWhile_append, List.reverse_eq_nil_iff]
  by_cases h : cs.reverse.dropWhile isBlank = []
  · by_cases hc : isBlank c = true <;> simp [h, hc]
  · simp [h]

theorem trimList_dropBlanksEnd (cs : List Char) : trimList (dropBlanksEnd cs) = trimList cs := by
  induction cs with
  | nil => rfl
  | cons c cs ih =>
    by_cases hc : isBlank c = true
    · have hskip : ∀ ds, trimList (c :: ds) = trimList ds := fun ds => by
        rw [trimList, dropBlanks, List.dropWhile_cons_of_pos hc, trimList, dropBlanks]
      rw [dropBlanksEnd_cons, hskip]
      split
      · next hempty => rw [← ih, hempty.2]
      · rw [hskip, ih]
    · have hkeep : dropBlanksEnd (c :: cs) = c :: dropBlanksEnd cs := by
        rw [dropBlanksEnd_cons, if_neg fun h => hc h.1]
      have hstop : ∀ ds, trimList (c :: ds) = dropBlanksEnd (c :: ds) := fun ds => by
        rw [trimList, dropBlanks, List.dropWhile_cons_of_neg hc]
      rw [hkeep, hstop, hstop, ← hkeep]
      exact List.rdropWhile_idempotent isBlank (c :: cs)

theorem trimList_equals (cs : List Char) : trimList ('=' :: cs) = '=' :: dropBlanksEnd cs := by
  rw [trimList, dropBlanks, List.dropWhile_cons_of_neg (by decide), dropBlanksEnd_cons,
    if_neg fun h => absurd h.1 (by decide)]

end Text

namespace Sheet

theorem evaluateInput_formula_congr (s : Sheet) {cs ds : List Char}
    (h : Text.trimList cs = Text.trimList ds) :
    s.evaluateInput (String.ofList ('=' :: cs)) = s.evaluateInput (String.ofList ('=' :: ds)) := by
  have htyped : ∀ cs, Content.ofInput (String.ofList ('=' :: cs)) = .text (String.ofList ('=' :: cs)) :=
    fun cs => by rw [Content.ofInput, String.toList_ofList, Text.trimList_equals]; rfl
  have hbody : Expr.parseBody (String.ofList cs) = Expr.parseBody (String.ofList ds) := by
    rw [Expr.parseBody, Expr.parseBody, Text.trim, Text.trim, String.toList_ofList, String.toList_ofList, h]
  simp only [evaluateInput, htyped, Grid.evaluate, Grid.evaluateWith, Content.formulaBody?,
    String.toList_ofList, hbody]

end Sheet

namespace CommandLine

theorem commandInput_equals (command : String) : commandInput ("=" ++ command) =
    String.ofList ('=' :: Text.dropBlanksEnd command.toList) := by
  have htext : ("=" ++ command).toList = '=' :: command.toList := by simp
  rw [commandInput, htext, Text.trimList_equals]
  rfl

theorem commandInput_of_not_formula {command : String}
    (h : (Text.trimList command.toList).head? ≠ some '=') :
    commandInput command = String.ofList ('=' :: Text.trimList command.toList) := by
  rw [commandInput]
  split
  · next cs hcs => simp [hcs] at h
  · rfl

theorem runCommand_equals (s : Sheet) {command : String}
    (h : (Text.trimList command.toList).head? ≠ some '=') :
    runCommand s (some ("=" ++ command)) = runCommand s (some command) := by
  have hvalue : s.evaluateInput (commandInput ("=" ++ command)) = s.evaluateInput (commandInput command) := by
    rw [commandInput_equals, commandInput_of_not_formula h]
    refine s.evaluateInput_formula_congr ?_
    rw [Text.trimList_dropBlanksEnd, Text.trimList_trimList]
  simp only [runCommand, hvalue]

/-- Two commands that are one, or of which the first has an equals sign that the second lacks. -/
inductive Alike : Option String → Option String → Prop
  | same (command : Option String) : Alike command command
  | equals {command : String} (h : (Text.trimList command.toList).head? ≠ some '=') :
      Alike (some ("=" ++ command)) (some command)

namespace Alike

variable {command command' : Option String}

theorem runCommand_eq (h : Alike command command') (s : Sheet) :
    runCommand s command = runCommand s command' := by
  cases h with
  | same => rfl
  | equals h => exact runCommand_equals s h

theorem isNone_eq (h : Alike command command') : command.isNone = command'.isNone := by
  cases h <;> rfl

theorem exists_add (h : Alike command command') (o : Options) (g : Group) :
    ∃ final final', Alike final final' ∧
      ({ o with command := command } : Options).add g = { o.add g with command := final } ∧
      ({ o with command := command' } : Options).add g = { o.add g with command := final' } := by
  cases g with
  | command formula => exact ⟨some formula, some formula, .same _, rfl, rfl⟩
  | _ => exact ⟨command, command', h, rfl, rfl⟩

theorem exists_foldl_add (h : Alike command command') (o : Options) (gs : List Group) :
    ∃ final final', Alike final final' ∧
      gs.foldl .add { o with command := command } = { gs.foldl .add o with command := final } ∧
      gs.foldl .add { o with command := command' } = { gs.foldl .add o with command := final' } := by
  induction gs generalizing o command command' with
  | nil => exact ⟨command, command', h, rfl, rfl⟩
  | cons g gs ih =>
    obtain ⟨next, next', hnext, hadd, hadd'⟩ := h.exists_add o g
    simp only [List.foldl_cons, hadd, hadd']
    exact ih hnext (o.add g)

theorem runOptions_eq (h : Alike command command') (o : Options) (userPath : Option String)
    (files : String → FileEntry) : runOptions { o with command := command } userPath files =
      runOptions { o with command := command' } userPath files := by
  have hconfig : loadConfig { o with command := command } userPath files =
      loadConfig { o with command := command' } userPath files := rfl
  simp only [runOptions, h.isNone_eq, hconfig, h.runCommand_eq]

end Alike

theorem run_equals {before : List String} {gs : List Group} (hbefore : Group.Spelled before gs)
    {flag : String} (hflag : flag = "-c" ∨ flag = "--command") {command : String}
    (h : (Text.trimList command.toList).head? ≠ some '=') (after : List String) (userPath : Option String)
    (files : String → FileEntry) :
    run (before ++ flag :: ("=" ++ command) :: after) userPath files =
      run (before ++ flag :: command :: after) userPath files := by
  have hparse : ∀ formula, Options.parse (before ++ flag :: formula :: after) =
      (Group.ofArguments after).map fun gs' =>
        gs'.foldl Options.add { Options.ofGroups gs with command := some formula } := fun formula => by
    have hnext := Group.ofArguments_append_of_spells (.command hflag formula) after
    rw [List.cons_append, List.cons_append, List.nil_append] at hnext
    rw [Options.parse_append_of_spelled hbefore, hnext]
    cases Group.ofArguments after with
    | error e => rfl
    | ok gs' => simp [Except.map, Options.ofGroups, Options.add]
  rw [run, run, hparse, hparse]
  cases Group.ofArguments after with
  | error e => rfl
  | ok gs' =>
    obtain ⟨final, final', halike, ho, ho'⟩ := (Alike.equals h).exists_foldl_add (Options.ofGroups gs) gs'
    simp only [Except.map, ho, ho', halike.runOptions_eq]

/-- A goal seek, if there is one: the sheet after it, what is printed about it and whether it succeeded. -/
inductive Sought (s : Sheet) (settings : Settings) : Option SeekRequest → Sheet → List String → Bool → Prop
  | none : Sought s settings none s [] true
  | solved {r : SeekRequest} {x : Binary64} {a : Address} {t : Sheet}
      (hrun : (InPlace.seekGoal settings r.target r.goal r.changing).run s = .ok x t)
      (ha : s.resolve r.changing = .ok a) (ht : s.setCell a (.number x) = .ok t) :
      Sought s settings (some r) t [x.cellText] true
  | failed {r : SeekRequest} {e : SheetError}
      (hrun : (InPlace.seekGoal settings r.target r.goal r.changing).run s = .error e s) :
      Sought s settings (some r) s [e.message] false

def printed (lines : List String) : String :=
  String.join (lines.map (· ++ "\n"))

theorem printed_append (lines lines' : List String) :
    printed (lines ++ lines') = printed lines ++ printed lines' := by
  simp [printed]

def answers (t : Sheet) (command : Option String) : List Value :=
  command.toList.map fun command => t.evaluateInput (commandInput command)

theorem exists_sought (s : Sheet) (settings : Settings) (seek : Option SeekRequest) :
    ∃ lines, Sought s settings seek (runSeek s settings seek).1 lines (runSeek s settings seek).2.2 ∧
      (runSeek s settings seek).2.1 = printed lines := by
  cases seek with
  | none => exact ⟨[], .none, rfl⟩
  | some r =>
    have hrun := InPlace.run_seekGoal (s := s) settings r.target r.goal r.changing
    cases hseek : s.seekGoal settings r.target r.goal r.changing with
    | error e =>
      rw [hseek] at hrun
      simp only [runSeek, hseek]
      exact ⟨_, .failed hrun, by simp [printed]⟩
    | ok p =>
      obtain ⟨t, x⟩ := p
      rw [hseek] at hrun
      obtain ⟨-, a, hset⟩ := Sheet.seekGoal_eq_ok hseek
      obtain ⟨ha, ht⟩ := Sheet.setCellRef_eq_ok hset
      simp only [runSeek, hseek]
      exact ⟨_, .solved hrun ha ht, by simp [printed]⟩

theorem runCommand_eq (t : Sheet) (command : Option String) :
    (runCommand t command).1 = printed ((answers t command).map Value.display) ∧
    ((runCommand t command).2 = true ↔ ∀ v ∈ answers t command, v.isError = false) := by
  cases command <;> simp [runCommand, printed, answers]

section

variable {o : Options} {userPath : Option String} {files : String → FileEntry}

theorem exists_sought_of_runOptions {s : Sheet} (hasked : o.command ≠ none ∨ o.seek ≠ none)
    (hs : buildSheet o.columns o.assignments = .ok s) :
    ∃ t lines solved, Sought s (loadConfig o userPath files).1.solver o.seek t lines solved ∧
      (runOptions o userPath files).output = printed (lines ++ (answers t o.command).map Value.display) ∧
      ((runOptions o userPath files).code = 0 ↔
        solved = true ∧ ∀ v ∈ answers t o.command, v.isError = false) ∧
      ((runOptions o userPath files).code = 0 ∨ (runOptions o userPath files).code = 1) := by
  have hask : ¬(o.command.isNone && o.seek.isNone) = true := by
    simpa [← not_and_or] using hasked
  obtain ⟨lines, hsought, hlines⟩ := exists_sought s (loadConfig o userPath files).1.solver o.seek
  refine ⟨_, lines, _, hsought, ?_⟩
  obtain ⟨hanswers, hvalid⟩ := runCommand_eq (runSeek s _ o.seek).1 o.command
  simp only [runOptions, if_neg hask, hs]
  refine ⟨?_, ?_, ?_⟩
  · rw [hlines, hanswers, printed_append]
  · rw [← hvalid, ← Bool.and_eq_true]
    split <;> simp_all
  · split
    · exact .inl rfl
    · exact .inr rfl

theorem runOptions_of_refused
    (h : (∃ e, buildSheet o.columns o.assignments = .error e) ∨ (o.command = none ∧ o.seek = none)) :
    (runOptions o userPath files).output = "" ∧ (runOptions o userPath files).code = 1 := by
  rw [runOptions]
  split
  · exact ⟨rfl, rfl⟩
  · next hask =>
    obtain ⟨e, he⟩ | ⟨hcommand, hseek⟩ := h
    · rw [he]
      exact ⟨rfl, rfl⟩
    · rw [hcommand, hseek] at hask
      exact absurd rfl hask

end

theorem run_of_parse {args : List String} {o : Options} (h : Options.parse args = .ok o)
    (hhelp : o.help = false) (userPath : Option String) (files : String → FileEntry) :
    run args userPath files = runOptions o userPath files := by
  simp [run, h, hhelp]

def halving : List String :=
  ["--set", "A1=1", "--set", "B1==A1*2", "--goal-seek", "B1", "10", "A1", "-c", "A1*2"]

example : run halving none (fun _ => .missing) = ⟨0, "5.000000000000089\n10\n", ""⟩ := by decide +kernel

end CommandLine

end Spreadsheet
