import LineShell.Proofs.Line.Characters
import LineShell.Session.Basic

/- A line and the argument vector that it is read as.

   Reading a line gives its arguments or a fault of the storage (`Line.read`): it is split into
   tokens (`Line.split`), and what stands behind `echo` is decoded. The effect of a line is that of
   its arguments, after the records of storing and of decoding it (`ofLine_of_ok`); so what a line
   does apart from logging is decided by its arguments alone. A property of all lines is proved by
   going through what a line can come to (`Effect.Arises`): it cannot be read, says nothing, or is
   one of the builtins or a program. -/
namespace LineShell

/-- The arguments of a line in a world, or the fault of the storage. -/
def Line.read (world : World) (config : Config) (line : Text) : Except Storage.Fault (List Text) :=
  (Line.parse Escape.decode config.argGrowth world.memory line).result

theorem Line.read_eq_error_iff (world : World) (config : Config) (line : Text)
    (fault : Storage.Fault) :
    Line.read world config line = .error fault
      ↔ (Storage.account config.argGrowth world.memory (Line.tokens line).length).fault
          = some fault :=
  Line.result_parse_eq_error_iff Escape.decode config.argGrowth world.memory line fault

theorem Line.read_eq_ok_iff (world : World) (config : Config) (line : Text)
    (arguments : List Text) :
    Line.read world config line = .ok arguments
      ↔ (Storage.account config.argGrowth world.memory (Line.tokens line).length).fault = none
        ∧ Line.arguments Escape.decode (Line.tokens line) = arguments :=
  Line.result_parse_eq_ok_iff Escape.decode config.argGrowth world.memory line arguments

theorem Line.read_of_unlimited {world : World} {config : Config}
    (hstorage : Storage.Unlimited config.argGrowth world.memory) (line : Text) :
    Line.read world config line = .ok (Line.arguments Escape.decode (Line.tokens line)) := by
  rw [Line.read_eq_ok_iff]
  exact ⟨Storage.account_fault_eq_none config.one_le_argGrowth hstorage _, rfl⟩

/-- The tokens of a line in a world, or the fault of the storage. -/
def Line.split (world : World) (config : Config) (line : Text) :
    Except Storage.Fault (List Text) :=
  match (Storage.account config.argGrowth world.memory (Line.tokens line).length).fault with
  | some fault => .error fault
  | none => .ok (Line.tokens line)

theorem Line.read_eq_map_split (world : World) (config : Config) (line : Text) :
    Line.read world config line
      = (Line.split world config line).map (Line.arguments Escape.decode) := by
  unfold Line.read Line.parse Line.split
  cases h : (Storage.account config.argGrowth world.memory (Line.tokens line).length).fault <;>
    simp [h, Except.map]

theorem Line.read_eq_error_iff_split (world : World) (config : Config) (line : Text)
    (fault : Storage.Fault) :
    Line.read world config line = .error fault ↔ Line.split world config line = .error fault := by
  rw [Line.read_eq_map_split]
  cases Line.split world config line <;> simp [Except.map]

theorem Line.read_eq_ok_iff_split (world : World) (config : Config) (line : Text)
    {arguments : List Text} (h : arguments.head? ≠ some Line.echoName) :
    Line.read world config line = .ok arguments ↔ Line.split world config line = .ok arguments := by
  rw [Line.read_eq_map_split]
  cases Line.split world config line with
  | error fault => simp [Except.map]
  | ok tokens =>
    simp only [Except.map, Except.ok.injEq]
    refine ⟨?_, ?_⟩
    · intro hread
      -- the tokens have the same command as the vector, so they are no tokens of `echo` either
      have hhead : tokens.head? ≠ some Line.echoName := by
        rw [← Line.head?_arguments Escape.decode tokens, hread]
        exact h
      rw [← hread, Line.arguments_eq_tokens _ hhead]
    · intro htokens
      rw [htokens, Line.arguments_eq_tokens _ h]

theorem Builtin.name_ne_echoName (b : Builtin) (arguments : List Text) :
    (b.name :: arguments).head? ≠ some Line.echoName := by
  rw [List.head?_cons]
  cases b <;> decide

namespace Effect

variable (world : World) (config : Config) (written : Nat)

@[simp] theorem ending_after (entries : List Entry) (e : Effect) :
    (e.after entries).ending = e.ending := rfl

@[simp] theorem spawned_after (entries : List Entry) (e : Effect) :
    (e.after entries).spawned = e.spawned := rfl

@[simp] theorem output_after (entries : List Entry) (e : Effect) :
    (e.after entries).output = e.output := rfl

@[simp] theorem writes_after (entries : List Entry) (e : Effect) :
    (e.after entries).writes = e.writes := rfl

@[simp] theorem outcome_after (entries : List Entry) (e : Effect) :
    (e.after entries).outcome = e.outcome := rfl

theorem after_after (earlier later : List Entry) (e : Effect) :
    (e.after later).after earlier = e.after (earlier ++ later) := by
  simp [after]

/-- The arguments that a line is read as; without any the session stops. -/
def ofVector : List Text → Effect
  | [] => { ending := .stop }
  | command :: arguments => ofArguments world config written (command :: arguments)

/-- A line does what its arguments do, after the records of storing and of decoding it. -/
theorem ofLine_of_ok {line : Text} {arguments : List Text}
    (h : Line.read world config line = .ok arguments) :
    ofLine world config written line
      = (ofVector world config written arguments).after
          ((Storage.account config.argGrowth world.memory (Line.tokens line).length).entries
            ++ Line.warningEntries (Line.tokens line)) := by
  have htokens := ((Line.read_eq_ok_iff _ _ _ _).mp h).2
  unfold Line.read at h
  rw [ofLine, h]
  cases arguments with
  | nil =>
    -- nothing is decoded, since there are no tokens
    have hnone : Line.warningEntries (Line.tokens line) = [] := by
      rw [(Line.arguments_eq_nil_iff _ _).mp htokens]
      rfl
    rw [hnone, List.append_nil]
    rfl
  | cons command arguments => exact after_after _ _ _

/-- The arguments of a line do what they do without it, except that entries come before. -/
theorem ofLine_of_read {line command : Text} {arguments : List Text}
    (h : Line.read world config line = .ok (command :: arguments)) :
    ∃ entries, ofLine world config written line
      = (ofArguments world config written (command :: arguments)).after entries :=
  ⟨_, ofLine_of_ok world config written h⟩

theorem ofLine_of_error {line : Text} {fault : Storage.Fault}
    (h : Line.read world config line = .error fault) :
    ofLine world config written line
      = ({ ending := .ofStorage fault } : Effect).after
          (Storage.account config.argGrowth world.memory (Line.tokens line).length).entries := by
  unfold Line.read at h
  rw [ofLine, h]
  rfl

theorem ofLine_of_nil {line : Text} (h : Line.read world config line = .ok []) :
    ∃ entries, ofLine world config written line = ({ ending := .stop } : Effect).after entries :=
  ⟨_, ofLine_of_ok world config written h⟩

theorem ending_ofLine_of_nil {line : Text} (h : Line.read world config line = .ok []) :
    (ofLine world config written line).ending = .stop := by
  obtain ⟨entries, heffect⟩ := ofLine_of_nil world config written h
  rw [heffect, ending_after]

theorem ending_ofLine_of_error {line : Text} {fault : Storage.Fault}
    (h : Line.read world config line = .error fault) :
    (ofLine world config written line).ending = .ofStorage fault := by
  rw [ofLine_of_error world config written h, ending_after]

theorem ending_ofLine_of_cons {line command : Text} {arguments : List Text}
    (h : Line.read world config line = .ok (command :: arguments)) :
    (ofLine world config written line).ending
      = (ofArguments world config written (command :: arguments)).ending := by
  obtain ⟨entries, heffect⟩ := ofLine_of_read world config written h
  rw [heffect, ending_after]

/-! ## Builtins and programs -/

theorem named?_eq_some_iff (command : Text) (b : Builtin) :
    Builtin.named? command = some b ↔ command = b.name := by
  unfold Builtin.named? Builtin.all
  refine ⟨?_, ?_⟩
  · intro h
    have hname := List.find?_some h
    exact (of_decide_eq_true hname).symm
  · intro hname
    subst hname
    cases b <;> decide

theorem named?_eq_none_iff (command : Text) :
    Builtin.named? command = none ↔ command ∉ Builtin.names := by
  unfold Builtin.named? Builtin.names
  rw [List.find?_eq_none, List.mem_map]
  simp

theorem ofArguments_exit (arguments : List Text) :
    ofArguments world config written (Builtin.exit.name :: arguments) = ofExit arguments := by
  rw [ofArguments, (named?_eq_some_iff _ .exit).mpr rfl]

theorem ofArguments_proc (arguments : List Text) :
    ofArguments world config written (Builtin.proc.name :: arguments)
      = ofProc world config written arguments := by
  rw [ofArguments, (named?_eq_some_iff _ .proc).mpr rfl]

theorem ofArguments_program {command : Text} (h : command ∉ Builtin.names)
    (arguments : List Text) :
    ofArguments world config written (command :: arguments) = ofProgram world command arguments := by
  rw [ofArguments, (named?_eq_none_iff command).mpr h]

theorem spawned_ofProgram (command : Text) (arguments : List Text) :
    (ofProgram world command arguments).spawned
      = (Foreground.run world (command :: arguments)).spawned := rfl

theorem command_cases (command : Text) :
    command = Builtin.exit.name ∨ command = Builtin.proc.name ∨ command ∉ Builtin.names := by
  by_cases h : command ∈ Builtin.names
  · have hnames : command ∈ [Builtin.exit.name, Builtin.proc.name] := h
    rcases List.mem_cons.mp hnames with hexit | hrest
    · exact .inl hexit
    · exact .inr (.inl (List.mem_singleton.mp hrest))
  · exact .inr (.inr h)

/-- What a line comes to, apart from the entries that storing and decoding it add: one case for each
way in which it can be read. -/
inductive Arises (line : Text) : Effect → Prop where
  | unread {fault : Storage.Fault} (hread : Line.read world config line = .error fault) :
    Arises line { ending := .ofStorage fault }
  | empty (hread : Line.read world config line = .ok []) : Arises line { ending := .stop }
  | exit {arguments : List Text}
      (hread : Line.read world config line = .ok (Builtin.exit.name :: arguments)) :
    Arises line (ofExit arguments)
  | proc {arguments : List Text}
      (hread : Line.read world config line = .ok (Builtin.proc.name :: arguments)) :
    Arises line (ofProc world config written arguments)
  | program {command : Text} {arguments : List Text} (hprogram : command ∉ Builtin.names)
      (hread : Line.read world config line = .ok (command :: arguments)) :
    Arises line (ofProgram world command arguments)

theorem arises_ofLine (line : Text) :
    ∃ entries e, Arises world config written line e
      ∧ ofLine world config written line = e.after entries := by
  cases hread : Line.read world config line with
  | error fault => exact ⟨_, _, .unread hread, ofLine_of_error world config written hread⟩
  | ok arguments =>
    cases arguments with
    | nil =>
      obtain ⟨entries, heffect⟩ := ofLine_of_nil world config written hread
      exact ⟨entries, _, .empty hread, heffect⟩
    | cons command arguments =>
      obtain ⟨entries, heffect⟩ := ofLine_of_read world config written hread
      rcases command_cases command with rfl | rfl | hprogram
      · rw [ofArguments_exit] at heffect
        exact ⟨entries, _, .exit hread, heffect⟩
      · rw [ofArguments_proc] at heffect
        exact ⟨entries, _, .proc hread, heffect⟩
      · rw [ofArguments_program _ _ _ hprogram] at heffect
        exact ⟨entries, _, .program hprogram hread, heffect⟩

/-! ## How lines end -/

/-- The ways to end that are open to every command: to go on, to leave with a status, to fail for
good. -/
inductive IsCommandEnding : Ending → Prop where
  | carryOn : IsCommandEnding .carryOn
  | exit (status : Nat) : IsCommandEnding (.exit status)
  | crashed (crash : Crash) : IsCommandEnding (.crashed crash)

/-- The ways to end of a command that does not ask for the end of the session. -/
inductive GoesOnOrCrashes : Ending → Prop where
  | carryOn : GoesOnOrCrashes .carryOn
  | crashed (crash : Crash) : GoesOnOrCrashes (.crashed crash)

theorem GoesOnOrCrashes.isCommandEnding {ending : Ending} (h : GoesOnOrCrashes ending) :
    IsCommandEnding ending := by
  cases h with
  | carryOn => exact .carryOn
  | crashed crash => exact .crashed crash

theorem goesOnOrCrashes_ofFailure (command : Text) (failure : Failure) :
    GoesOnOrCrashes (ofFailure command failure).ending := by
  cases failure with
  | reported error => exact .carryOn
  | crash crash => exact .crashed crash

theorem goesOnOrCrashes_ofProc (arguments : List Text) :
    GoesOnOrCrashes (ofProc world config written arguments).ending := by
  simp only [ofProc]
  split
  · exact goesOnOrCrashes_ofFailure _ _
  · next path _ =>
    simp only [ending_after]
    cases (Copy.dump world written path).result with
    | ok size => exact .carryOn
    | error failure => exact goesOnOrCrashes_ofFailure _ _

theorem goesOnOrCrashes_ofProgram (command : Text) (arguments : List Text) :
    GoesOnOrCrashes (ofProgram world command arguments).ending := by
  simp only [ofProgram]
  cases (Foreground.run world (command :: arguments)).ending with
  | finished outcome => exact .carryOn
  | notStarted error => exact .carryOn
  | lost => exact .crashed .childLost

theorem isCommandEnding_ofExit (argument : Text) (arguments : List Text) :
    IsCommandEnding (ofExit (argument :: arguments)).ending := by
  cases arguments with
  | nil =>
    rw [ofExit]
    cases ExitStatus.parse argument with
    | ok status => exact .exit _
    | error failure =>
      cases failure with
      | reported error => exact .carryOn
      | crash crash => exact .crashed crash
  | cons _ _ => exact (goesOnOrCrashes_ofFailure _ _).isCommandEnding

/-- A bare `exit` stops the session; no other arguments do, and none exhausts the storage. -/
theorem ending_ofArguments (command : Text) (arguments : List Text) :
    (command :: arguments = [Builtin.exit.name]
        ∧ (ofArguments world config written (command :: arguments)).ending = .stop)
      ∨ (command :: arguments ≠ [Builtin.exit.name]
        ∧ IsCommandEnding (ofArguments world config written (command :: arguments)).ending) := by
  rcases command_cases command with rfl | rfl | hprogram
  · rw [ofArguments_exit]
    cases arguments with
    | nil => exact .inl ⟨rfl, rfl⟩
    | cons argument arguments =>
      exact .inr ⟨by simp, isCommandEnding_ofExit argument arguments⟩
  · rw [ofArguments_proc]
    refine .inr ⟨?_, (goesOnOrCrashes_ofProc world config written arguments).isCommandEnding⟩
    intro h
    exact absurd (List.cons.inj h).1 (by decide)
  · rw [ofArguments_program _ _ _ hprogram]
    refine .inr ⟨?_, (goesOnOrCrashes_ofProgram world command arguments).isCommandEnding⟩
    intro h
    rw [(List.cons.inj h).1] at hprogram
    exact absurd (by decide) hprogram

theorem ending_ofLine_eq_stop_iff (line : Text) :
    (ofLine world config written line).ending = .stop
      ↔ Line.read world config line = .ok [] ∨ Line.read world config line = .ok [Builtin.exit.name]
    := by
  cases hread : Line.read world config line with
  | error fault =>
    rw [ending_ofLine_of_error _ _ _ hread]
    cases fault <;> simp [Ending.ofStorage]
  | ok arguments =>
    cases arguments with
    | nil => simp [ending_ofLine_of_nil _ _ _ hread]
    | cons command arguments =>
      rw [ending_ofLine_of_cons _ _ _ hread]
      rcases ending_ofArguments world config written command arguments with
        ⟨hexit, hstop⟩ | ⟨hexit, hending⟩
      · exact ⟨fun _ => .inr (congrArg Except.ok hexit), fun _ => hstop⟩
      · simp only [Except.ok.injEq, hexit, reduceCtorEq, or_self, iff_false]
        intro hstop
        rw [hstop] at hending
        cases hending

theorem ending_ofLine_eq_storageExhausted_iff (line : Text) :
    (ofLine world config written line).ending = .storageExhausted
      ↔ Line.read world config line = .error .exhausted := by
  cases hread : Line.read world config line with
  | error fault =>
    rw [ending_ofLine_of_error _ _ _ hread]
    cases fault <;> simp [Ending.ofStorage]
  | ok arguments =>
    cases arguments with
    | nil => simp [ending_ofLine_of_nil _ _ _ hread]
    | cons command arguments =>
      rw [ending_ofLine_of_cons _ _ _ hread]
      rcases ending_ofArguments world config written command arguments with
        ⟨_, hstop⟩ | ⟨_, hending⟩
      · simp [hstop]
      · simp only [reduceCtorEq, iff_false]
        intro hexhausted
        rw [hexhausted] at hending
        cases hending

/-- Lines with the same tokens do the same: nothing else of a line is looked at. -/
theorem ofLine_congr {a b : Text} (h : Line.tokens a = Line.tokens b) :
    ofLine world config written a = ofLine world config written b := by
  simp only [ofLine, Line.parse, h]

end Effect

end LineShell
