import Spreadsheet.CommandLine.Cursor
import Spreadsheet.Proofs.Arguments

namespace Spreadsheet.CommandLine.Cursor

open CommandLine.Group CommandLine.Options

variable {args : List String} {i : Nat} {argument : String} {o : Options}

theorem takeValue_of_drop_nil (h : args.drop (i + 1) = []) (flag : String) :
    takeValue args i flag = .error (.missingValue flag) := by
  have hget : args[i + 1]? = none := by rw [← List.head?_drop, h]; rfl
  rw [takeValue, hget]

theorem takeValue_of_drop_cons {value : String} {rest : List String}
    (h : args.drop (i + 1) = value :: rest) (flag : String) :
    takeValue args i flag = .ok (value, i + 1) ∧ args.drop (i + 1 + 1) = rest := by
  have hget : args[i + 1]? = some value := by rw [← List.head?_drop, h]; rfl
  rw [takeValue, hget, ← List.drop_drop, h]
  exact ⟨rfl, rfl⟩

/-- The option at the cursor is read as the first group of the arguments from there on, and the cursor
passes over that group. -/
def Agrees (args : List String) (i : Nat) (argument : String) (o : Options) : Prop :=
  match readOption args i argument o with
  | .error e => next argument (args.drop (i + 1)) = .error e
  | .ok (o', j) => ∃ g, o' = o.add g ∧ next argument (args.drop (i + 1)) = .ok (g, args.drop (j + 1))

theorem agrees_of_value {flag : String} (group : String → Except UsageError Group)
    (hnil : next argument [] = .error (.missingValue flag))
    (hcons : ∀ value left, next argument (value :: left) = (group value).map (·, left))
    (hread : readOption args i argument o =
      (takeValue args i flag).bind fun p => (group p.1).map fun g => (o.add g, p.2)) :
    Agrees args i argument o := by
  rw [Agrees, hread]
  cases hdrop : args.drop (i + 1) with
  | nil =>
    rw [takeValue_of_drop_nil hdrop]
    exact hnil
  | cons value left =>
    obtain ⟨htake, hleft⟩ := takeValue_of_drop_cons hdrop flag
    rw [htake, hcons, Except.bind]
    cases group value with
    | error e => rfl
    | ok g => exact ⟨g, rfl, by rw [hleft]; rfl⟩

theorem agrees_columns : Agrees args i "--columns" o := by
  refine agrees_of_value columns? rfl (fun value left => ?_) ?_
  · rw [next]
    cases columns? value <;> rfl
  · cases htake : takeValue args i "--columns" with
    | error e => simp [readOption, htake, bind, Except.bind]
    | ok p =>
      have hnames : (Text.splitList ',' p.1.toList).map (fun name => String.ofList (Text.trimList name)) =
          ((Text.splitList ',' p.1.toList).map Text.trimList).map String.ofList := by
        rw [List.map_map]
        rfl
      have hblank : "" ∈ ((Text.splitList ',' p.1.toList).map Text.trimList).map String.ofList ↔
          [] ∈ (Text.splitList ',' p.1.toList).map Text.trimList := by
        simp [String.ofList_eq_empty_iff]
      simp only [readOption, htake, bind, Except.bind, hnames, hblank, columns?]
      split <;> rfl

theorem agrees_assign : Agrees args i "--set" o := by
  refine agrees_of_value assign? rfl (fun value left => ?_) ?_
  · rw [next]
    cases assign? value <;> rfl
  · cases htake : takeValue args i "--set" with
    | error e => simp [readOption, htake, bind, Except.bind]
    | ok p =>
      simp only [readOption, htake, bind, Except.bind, assign?]
      cases Text.splitFirst? '=' p.1.toList <;> rfl

theorem agrees_seek : Agrees args i "--goal-seek" o := by
  cases htarget : args.drop (i + 1) with
  | nil =>
    simp [Agrees, readOption, bind, Except.bind, takeValue_of_drop_nil htarget, htarget, next]
  | cons target rest =>
    obtain ⟨htake₁, hdrop₁⟩ := takeValue_of_drop_cons htarget "--goal-seek"
    cases rest with
    | nil =>
      have htake₂ := takeValue_of_drop_nil hdrop₁ "--goal-seek"
      simp [Agrees, readOption, bind, Except.bind, htake₁, htake₂, htarget, next]
    | cons value rest =>
      obtain ⟨htake₂, hdrop₂⟩ := takeValue_of_drop_cons hdrop₁ "--goal-seek"
      cases hgoal : Binary64.ofText? value with
      | none => simp [Agrees, readOption, bind, Except.bind, htake₁, htake₂, hgoal, htarget, next]
      | some goal =>
        cases rest with
        | nil =>
          have htake₃ := takeValue_of_drop_nil hdrop₂ "--goal-seek"
          simp [Agrees, readOption, bind, Except.bind, htake₁, htake₂, hgoal, htake₃, htarget, next]
        | cons changing left =>
          obtain ⟨htake₃, hdrop₃⟩ := takeValue_of_drop_cons hdrop₂ "--goal-seek"
          simp only [Agrees, readOption, bind, Except.bind, htake₁, htake₂, hgoal, htake₃, htarget, next,
            hdrop₃]
          exact ⟨_, rfl, rfl⟩

theorem next_of_unknown {rest : List String}
    (h : argument ∉ ["-h", "--help", "--no-config", "--columns", "--set", "-c", "--command", "--config",
      "--goal-seek"]) : next argument rest = .error (.unknownOption argument) := by
  unfold next
  split <;> simp_all

theorem agrees_readOption (args : List String) (i : Nat) (argument : String) (o : Options) :
    Agrees args i argument o := by
  by_cases hknown : argument ∈ ["-h", "--help", "--no-config", "--columns", "--set", "-c", "--command",
      "--config", "--goal-seek"]
  · simp only [List.mem_cons, List.not_mem_nil, or_false] at hknown
    rcases hknown with rfl | rfl | rfl | rfl | rfl | rfl | rfl | rfl | rfl
    · exact ⟨.help, rfl, rfl⟩
    · exact ⟨.help, rfl, rfl⟩
    · exact ⟨.noConfig, rfl, rfl⟩
    · exact agrees_columns
    · exact agrees_assign
    · exact agrees_of_value (fun formula => .ok (.command formula)) rfl (fun _ _ => rfl) rfl
    · exact agrees_of_value (fun formula => .ok (.command formula)) rfl (fun _ _ => rfl) rfl
    · exact agrees_of_value (fun path => .ok (.config path)) rfl (fun _ _ => rfl) rfl
    · exact agrees_seek
  · have hread : readOption args i argument o = .error (.unknownOption argument) := by
      unfold readOption
      split <;> simp_all
    rw [Agrees, hread]
    exact next_of_unknown hknown

theorem readFrom_eq (args : List String) (i : Nat) (o : Options) :
    readFrom args i o = (ofArguments (args.drop i)).map fun gs => gs.foldl add o := by
  fun_induction readFrom args i o with
  | case1 i o hi e hread =>
    have hnext := agrees_readOption args i args[i] o
    rw [Agrees, hread] at hnext
    rw [List.drop_eq_getElem_cons hi, ofArguments_cons, hnext]
    rfl
  | case2 i o hi o' j hread _ ih =>
    have hagree := agrees_readOption args i args[i] o
    rw [Agrees, hread] at hagree
    obtain ⟨g, rfl, hnext⟩ := hagree
    rw [List.drop_eq_getElem_cons hi, ofArguments_cons, hnext, ih, Except.bind]
    cases ofArguments (args.drop (j + 1)) <;> rfl
  | case3 i o hi =>
    rw [List.drop_of_length_le (by omega), ofArguments]
    rfl

theorem read_eq_parse (args : List String) : read args = parse args.tail := by
  rw [read, readFrom_eq, List.drop_one]
  rfl

/-- The cursor reads what the groups of the arguments say, and only arguments that are a sequence of groups,
which are then no other sequence. -/
theorem read_group_sequences :
    (∀ args, read args = parse args.tail ∧
      ((∃ o, read args = .ok o) ↔ ∃ gs, Spelled args.tail gs) ∧
      ∀ gs, Spelled args.tail gs →
        (∀ gs', Spelled args.tail gs' → gs' = gs) ∧ ∀ o, read args = .ok o ↔ o.Collects gs) ∧
    ∀ (program : String) (before part part' after : List String) (gs : List Group) (g g' : Group),
      Spelled before gs → Spells part g → Spells part' g' → g.option ≠ g'.option →
        read (program :: (before ++ part ++ part' ++ after)) =
          read (program :: (before ++ part' ++ part ++ after)) := by
  refine ⟨fun args => ⟨read_eq_parse args, ?_, fun gs hgs => ⟨fun gs' hgs' => ?_, fun o => ?_⟩⟩, ?_⟩
  · simp only [read_eq_parse, parse_eq_ok_iff]
    exact ⟨fun ⟨_, gs, hgs, _⟩ => ⟨gs, hgs⟩, fun ⟨gs, hgs⟩ => ⟨_, gs, hgs, rfl⟩⟩
  · exact Except.ok.inj ((ofArguments_of_spelled hgs').symm.trans (ofArguments_of_spelled hgs))
  · rw [read_eq_parse, parse_of_spelled hgs, Except.ok.injEq]
    exact ⟨fun h => h ▸ collects_ofGroups gs, (collects_ofGroups gs).unique⟩
  · intro program before part part' after gs g g' hbefore hg hg' hne
    rw [read_eq_parse, read_eq_parse]
    exact parse_swap hbefore hg hg' hne after

theorem read_group_sequences_dashes :
    read ["nexus", "-c", "--help", "--set", " b1 = x=y", "--goal-seek", "--set", " -3 ", "-c"] =
        .ok { command := some "--help", assignments := [("b1", " x=y")], seek := some ⟨"--set", -3, "-c"⟩ } ∧
      read ["nexus", "-c", "--help", "--set", " b1 = x=y", "--goal-seek", "--set", " -3 ", "-c"] =
        read ["nexus", "--set", " b1 = x=y", "-c", "--help", "--goal-seek", "--set", " -3 ", "-c"] := by
  have hcommand : Spells ["-c", "--help"] (.command "--help") := .command (.inl rfl) _
  have hassign : Spells ["--set", " b1 = x=y"] (.assign "b1" " x=y") := by
    have hnext : next "--set" [" b1 = x=y"] = .ok (.assign "b1" " x=y", []) := by decide +kernel
    obtain ⟨values, hvalues, h⟩ := spells_of_next hnext
    rw [List.append_nil] at hvalues
    exact hvalues ▸ h
  have hseek : Spells ["--goal-seek", "--set", " -3 ", "-c"] (.seek ⟨"--set", -3, "-c"⟩) :=
    .seek _ _ (by decide +kernel)
  have hgroups : Spelled ["-c", "--help", "--set", " b1 = x=y", "--goal-seek", "--set", " -3 ", "-c"]
      [.command "--help", .assign "b1" " x=y", .seek ⟨"--set", -3, "-c"⟩] :=
    .cons hcommand (.cons hassign (.cons hseek .nil))
  have hread := (read_group_sequences.1 ("nexus" :: _)).2.2 _ hgroups
  have hcollects := collects_ofGroups [.command "--help", .assign "b1" " x=y", .seek ⟨"--set", -3, "-c"⟩]
  exact ⟨(hread.2 _).2 hcollects,
    read_group_sequences.2 "nexus" [] _ _ _ [] _ _ .nil hcommand hassign (by decide)⟩

end Spreadsheet.CommandLine.Cursor
