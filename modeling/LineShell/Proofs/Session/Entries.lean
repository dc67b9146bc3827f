import LineShell.Proofs.Escape.Unknown
import LineShell.Proofs.Line.Storage
import LineShell.Proofs.Session.Command
import LineShell.Proofs.Session.History

/- What a line leaves in the log.

   The entries of a line come in three parts: the growths of its storage, the unknown escapes behind
   `echo`, and what its command has to say. The first two are found from the tokens alone
   (`growthRecords`, `escapeRecords`). The third has one form for each way in which a command can
   come back (`Effect.Records`), and in each of them there is one error entry or none. Which
   failures have one is decided by their classes (`accounted_execute`). -/
namespace LineShell

/-- The class is the other one, or below it. -/
def ErrorClass.IsA (c d : ErrorClass) : Prop := c = d ∨ d ∈ c.ancestors

/-- The classes whose errors are logged as errors. -/
def ErrorClass.IsSevere (c : ErrorClass) : Prop :=
  c.IsA .tooManyArguments ∨ c.IsA .proc ∨ c.IsA .spawn

/-! ## Classes of failures -/

theorem ExitStatus.eq_invalidExitStatus_of_reported {t : Text} {error : ShellError}
    (h : ExitStatus.parse t = .error (.reported error)) : error = .invalidExitStatus t := by
  rw [ExitStatus.parse] at h
  split at h
  · cases h
    rfl
  · split at h
    · cases h
    · split at h <;> cases h

theorem ProcPath.isA_proc_of_parse {supported : List Text} {argument : Text} {error : ShellError}
    (h : ProcPath.parse supported argument = .error error) : error.errorClass.IsA .proc := by
  rw [ProcPath.parse] at h
  split at h
  · split at h
    · cases h
    · cases h
      exact .inr List.mem_cons_self
  · split at h
    · cases h
    · cases h
      exact .inr List.mem_cons_self

theorem ProcPath.isA_proc_of_checkCapacity {capacity : Int} {path : Text} {error : ShellError}
    (h : ProcPath.checkCapacity capacity path = .error (.reported error)) :
    error.errorClass.IsA .proc := by
  rw [ProcPath.checkCapacity] at h
  split at h
  · cases h
  · split at h
    · cases h
    · split at h
      · cases h
      · cases h
        exact .inr List.mem_cons_self

theorem ProcPath.isA_proc_of_resolve {root : Text} {capacity : Int}
    {supported arguments : List Text} {error : ShellError}
    (h : ProcPath.resolve root capacity supported arguments = .error (.reported error)) :
    error.errorClass.IsA .proc := by
  rw [ProcPath.resolve.eq_def] at h
  split at h
  · split at h
    · next hparse =>
      cases h
      exact isA_proc_of_parse hparse
    · exact isA_proc_of_checkCapacity h
  · cases h
    exact .inr List.mem_cons_self

theorem Copy.isA_proc_of_dump {world : World} {next : Nat} {path : Text} {error : ShellError}
    (h : (Copy.dump world next path).result = .error (.reported error)) :
    error.errorClass.IsA .proc := by
  rw [Copy.dump] at h
  split at h
  · cases h
  · split at h
    · cases h
      exact .inr List.mem_cons_self
    · rw [Copy.errorClass_of_copy_reported h]
      exact .inr List.mem_cons_self

/-! ## What is said of an end -/

/-- The words for the end of a child: its code, or the name of the signal, or the number of a signal
that has no name. -/
inductive Outcome.Says : Outcome → Text → Prop where
  | exited (code : Int) : Says (.exited code) ("exited with code " ++ Text.ofInt code)
  | named {signal : Int} {name : String} (h : (signal, name) ∈ Signal.names) :
    Says (.killed signal) ("killed by " ++ Text.ofString name)
  | unnamed {signal : Int} (h : ∀ name, (signal, name) ∉ Signal.names) :
    Says (.killed signal) ("killed by signal " ++ Text.ofInt signal)

theorem Signal.lookup_names_eq_some_iff (signal : Int) (name : String) :
    names.lookup signal = some name ↔ (signal, name) ∈ names := by
  refine ⟨fun h => ?_, fun h => ?_⟩
  · obtain ⟨before, after, hnames, _⟩ := List.lookup_eq_some_iff.mp h
    rw [hnames]
    exact List.mem_append_right _ List.mem_cons_self
  · have honce : ∀ pair ∈ names, names.lookup pair.1 = some pair.2 := by decide
    exact honce _ h

theorem Signal.lookup_names_eq_none_iff (signal : Int) :
    names.lookup signal = none ↔ ∀ name, (signal, name) ∉ names := by
  simp only [Option.eq_none_iff_forall_not_mem, Option.mem_def, lookup_names_eq_some_iff]

theorem Outcome.killed_by_signal (number : Text) :
    ("killed by signal " : Text) ++ number = "killed by " ++ ("signal " ++ number) := by
  have hwords : ("killed by signal " : Text) = "killed by " ++ "signal " := by decide
  rw [hwords, List.append_assoc]

theorem Outcome.says_iff (outcome : Outcome) (said : Text) :
    outcome.Says said ↔ said = outcome.text := by
  refine ⟨fun h => ?_, ?_⟩
  · cases h with
    | exited code => rfl
    | named h =>
      rw [text, Signal.label, (Signal.lookup_names_eq_some_iff _ _).mpr h]
    | unnamed h =>
      rw [text, Signal.label, (Signal.lookup_names_eq_none_iff _).mpr h, killed_by_signal]
  · rintro rfl
    cases outcome with
    | exited code => exact .exited code
    | killed signal =>
      rw [text, Signal.label]
      split
      · next h => exact .named ((Signal.lookup_names_eq_some_iff _ _).mp h)
      · next h =>
        rw [← killed_by_signal]
        exact .unnamed ((Signal.lookup_names_eq_none_iff _).mp h)

/-! ## The entries of the command -/

namespace Effect

variable (world : World) (config : Config) (written : Nat)

/-- What a command that comes back leaves in the log: one form for each way in which it can. -/
inductive Records : List Text → List Entry → Prop where
  | empty : Records [] []
  | bareExit : Records [Builtin.exit.name] []
  | malformedStatus {t : Text}
      (hparse : ExitStatus.parse t = .error (.reported (.invalidExitStatus t))) :
    Records [Builtin.exit.name, t] [⟨.debug, "exit", "invalid exit status '" ++ t ++ "'"⟩]
  | tooManyArguments {first second : Text} {later : List Text} :
    Records (Builtin.exit.name :: first :: second :: later)
      [⟨.error, "exit", "Too many arguments for <exit> command!"⟩,
        ⟨.debug, "dispatch", "exit failed: too-many-arguments"⟩]
  | unresolved {arguments : List Text} {error : ShellError}
      (hresolve : ProcPath.resolve config.procRoot config.pathCapacity config.globalFiles
        (Builtin.proc.name :: arguments) = .error (.reported error)) :
    Records (Builtin.proc.name :: arguments)
      [⟨.error, "proc", error.message⟩,
        ⟨.debug, "dispatch", "proc failed: " ++ Text.ofString error.errorClass.kind.label⟩]
  | notCopied {argument path : Text} {error : ShellError}
      (hresolve : Resolves config [argument] path)
      (hdump : (Copy.dump world written path).result = .error (.reported error)) :
    Records [Builtin.proc.name, argument]
      [⟨.debug, "proc", argument ++ " -> " ++ path⟩, ⟨.error, "proc", error.message⟩,
        ⟨.debug, "dispatch", "proc failed: " ++ Text.ofString error.errorClass.kind.label⟩]
  | printed {argument path : Text} {size : Nat} (hresolve : Resolves config [argument] path)
      (hdump : (Copy.dump world written path).result = .ok size) :
    Records [Builtin.proc.name, argument] [⟨.debug, "proc", argument ++ " -> " ++ path⟩]
  | notStarted {command : Text} {arguments : List Text} {error : ShellError}
      (hprogram : command ∉ Builtin.names)
      (hrun : (Foreground.run world (command :: arguments)).ending = .notStarted error) :
    Records (command :: arguments) [⟨.error, "exec", error.message⟩]
  | finished {command : Text} {arguments : List Text} {outcome : Outcome} {said : Text}
      (hprogram : command ∉ Builtin.names)
      (hrun : (Foreground.run world (command :: arguments)).ending = .finished outcome)
      (hwords : outcome.Says said) :
    Records (command :: arguments) [⟨.debug, "exec", command ++ " " ++ said⟩]

variable {world config written}

theorem records_ofExit {arguments : List Text} (h : (ofExit arguments).ending.Returns) :
    Records world config written (Builtin.exit.name :: arguments) (ofExit arguments).entries := by
  match arguments with
  | [] => exact .bareExit
  | [t] =>
    rw [ofExit] at h ⊢
    cases hparse : ExitStatus.parse t with
    | ok status =>
      rw [hparse] at h
      cases h
    | error failure =>
      rw [hparse] at h
      cases failure with
      | reported error =>
        cases ExitStatus.eq_invalidExitStatus_of_reported hparse
        exact .malformedStatus hparse
      | crash crash => cases h
  | _ :: _ :: _ => exact .tooManyArguments

theorem records_ofProc {arguments : List Text}
    (h : (ofProc world config written arguments).ending.Returns) :
    Records world config written (Builtin.proc.name :: arguments)
      (ofProc world config written arguments).entries := by
  rw [ofProc] at h ⊢
  cases hresolve : ProcPath.resolve config.procRoot config.pathCapacity config.globalFiles
      (Builtin.proc.name :: arguments) with
  | error failure =>
    rw [hresolve] at h
    cases failure with
    | reported error => exact .unresolved hresolve
    | crash crash => cases h
  | ok path =>
    rw [hresolve] at h
    obtain ⟨argument, rfl⟩ := exists_argument_of_resolves config hresolve
    simp only at h ⊢
    cases hdump : (Copy.dump world written path).result with
    | ok size => exact .printed hresolve hdump
    | error failure =>
      rw [hdump] at h
      cases failure with
      | reported error => exact .notCopied hresolve hdump
      | crash crash => cases h

theorem records_ofProgram {command : Text} {arguments : List Text}
    (hprogram : command ∉ Builtin.names)
    (h : (ofProgram world command arguments).ending.Returns) :
    Records world config written (command :: arguments)
      (ofProgram world command arguments).entries := by
  rw [ofProgram] at h ⊢
  cases hrun : (Foreground.run world (command :: arguments)).ending with
  | finished outcome => exact .finished hprogram hrun ((outcome.says_iff _).mpr rfl)
  | notStarted error => exact .notStarted hprogram hrun
  | lost =>
    rw [hrun] at h
    cases h

theorem records_ofVector {arguments : List Text}
    (h : (ofVector world config written arguments).ending.Returns) :
    Records world config written arguments (ofVector world config written arguments).entries := by
  cases arguments with
  | nil => exact .empty
  | cons command arguments =>
    rw [ofVector] at h ⊢
    rcases command_cases command with rfl | rfl | hprogram
    · rw [ofArguments_exit] at h ⊢
      exact records_ofExit h
    · rw [ofArguments_proc] at h ⊢
      exact records_ofProc h
    · rw [ofArguments_program _ _ _ hprogram] at h ⊢
      exact records_ofProgram hprogram h

/-! ## Errors in the log -/

theorem countP_error_of_records {arguments : List Text} {own : List Entry}
    (h : Records world config written arguments own) :
    own.countP (fun entry => entry.level = .error) ≤ 1 := by
  cases h <;> simp

theorem severe_of_records {arguments : List Text} {own : List Entry}
    (h : Records world config written arguments own) {entry : Entry} (hmem : entry ∈ own)
    (hlevel : entry.level = .error) :
    ∃ error, Absorbs world config written arguments error ∧ error.errorClass.IsSevere := by
  cases h with
  | tooManyArguments => exact ⟨_, .tooManyArguments, .inl (.inl rfl)⟩
  | unresolved hresolve =>
    exact ⟨_, .unresolved hresolve, .inr (.inl (ProcPath.isA_proc_of_resolve hresolve))⟩
  | notCopied hresolve hdump =>
    exact ⟨_, .notCopied hresolve hdump, .inr (.inl (Copy.isA_proc_of_dump hdump))⟩
  | notStarted hprogram hrun =>
    exact ⟨_, .notStarted hprogram hrun,
      .inr (.inr (.inl (Foreground.errorClass_of_notStarted hrun)))⟩
  | empty => cases hmem
  | bareExit => cases hmem
  | malformedStatus | printed | finished =>
    rw [List.mem_singleton.mp hmem] at hlevel
    cases hlevel

theorem not_isSevere_parse : ¬ErrorClass.IsSevere .parse := by
  simp [ErrorClass.IsSevere, ErrorClass.IsA, ErrorClass.ancestors]

theorem exists_error_of_absorbs {arguments : List Text} {error : ShellError}
    (h : Absorbs world config written arguments error) (hsevere : error.errorClass.IsSevere) :
    ∃ entry ∈ (ofVector world config written arguments).entries, entry.level = .error := by
  cases h with
  | tooManyArguments =>
    rw [ofVector, ofArguments_exit]
    exact ⟨_, List.mem_cons_self, rfl⟩
  | malformedStatus hparse =>
    rw [ExitStatus.eq_invalidExitStatus_of_reported hparse] at hsevere
    exact absurd hsevere not_isSevere_parse
  | unresolved hresolve =>
    rw [ofVector, ofArguments_proc, ofProc, hresolve]
    exact ⟨_, List.mem_cons_self, rfl⟩
  | notCopied hresolve hdump =>
    rw [ofVector, ofArguments_proc, ofProc, hresolve]
    simp only [hdump]
    exact ⟨_, List.mem_cons_of_mem _ List.mem_cons_self, rfl⟩
  | notStarted hprogram hrun =>
    rw [ofVector, ofArguments_program _ _ _ hprogram, ofProgram, hrun]
    exact ⟨_, List.mem_cons_self, rfl⟩

end Effect

/-! ## The entries of a line -/

/-- One entry for each block of slots that the tokens of a line fill: the capacity that the storage
grows to then. -/
def Line.growthRecords (config : Config) (line : Text) : List Entry :=
  let block := config.argGrowth.toNat
  (List.range' 2 ((Line.tokens line).length / block)).map fun blocks =>
    ⟨.debug, "tokenizer",
      "argument storage grown to " ++ Text.ofNat (block * blocks) ++ " slots"⟩

/-- One entry for each unknown escape behind `echo`, argument by argument and each from left to
right. -/
def Line.escapeRecords : List Text → List Entry
  | [] => []
  | command :: tokens =>
    if command = Line.echoName then
      (tokens.flatMap Escape.unknownEscapes).map fun letter =>
        ⟨.warning, "escape", Escape.unknownMessage letter⟩
    else []

/-- All entries of a line, of which the last are those of its command. -/
def Line.allRecords (config : Config) (line : Text) (own : List Entry) : List Entry :=
  Line.growthRecords config line ++ Line.escapeRecords (Line.tokens line) ++ own

theorem Line.entries_account {world : World} {config : Config} {line : Text}
    {arguments : List Text} (h : Line.read world config line = .ok arguments) :
    (Storage.account config.argGrowth world.memory (Line.tokens line).length).entries
      = Line.growthRecords config line := by
  have hfault := ((Line.read_eq_ok_iff _ _ _ _).mp h).1
  rw [Storage.Account.entries, Storage.growths_account config.one_le_argGrowth hfault,
    List.map_map]
  rfl

theorem Line.warningEntries_eq (tokens : List Text) :
    Line.warningEntries tokens = Line.escapeRecords tokens := by
  cases tokens with
  | nil => rfl
  | cons command tokens =>
    have hwarnings : Escape.warnings = fun token =>
        (Escape.unknownEscapes token).map Escape.unknownMessage := funext Escape.warnings_eq
    rw [Line.warningEntries, Line.escapeRecords, hwarnings, ← List.map_flatMap, List.map_map]
    rfl

theorem Line.level_ne_error_of_mem {config : Config} {line : Text} {entry : Entry}
    (h : entry ∈ Line.growthRecords config line ++ Line.escapeRecords (Line.tokens line)) :
    entry.level ≠ .error := by
  rcases List.mem_append.mp h with hgrowth | hescape
  · obtain ⟨_, _, rfl⟩ := List.mem_map.mp hgrowth
    exact fun h => by cases h
  · cases htokens : Line.tokens line with
    | nil =>
      rw [htokens] at hescape
      cases hescape
    | cons command tokens =>
      rw [htokens, Line.escapeRecords] at hescape
      split at hescape
      · obtain ⟨_, _, rfl⟩ := List.mem_map.mp hescape
        exact fun h => by cases h
      · cases hescape

namespace Session

/-- The account of a line in the log: what it is read as, the entries of its command, and which of its
failures are errors. -/
structure Accounted (world : World) (config : Config) (s : Session) (line : Text)
    (arguments : List Text) (own : List Entry) : Prop where
  read : Line.read world config line = .ok arguments
  records : Effect.Records world config s.writes arguments own
  logged : (s.execute world config line).2.logger
    = s.logger.logAll (Line.allRecords config line own)
  once : (Line.allRecords config line own).countP (fun entry => entry.level = .error) ≤ 1
  error_iff : (∃ entry ∈ Line.allRecords config line own, entry.level = .error)
    ↔ ∃ error, Effect.Absorbs world config s.writes arguments error
        ∧ error.errorClass.IsSevere

/-- A line that comes back, in any session, has its entries in the log: the growths of its storage,
its unknown escapes, and those of its command. One of them at most is an error, and one is exactly
if the command fails with too many arguments, for a file of `proc`, or before its program is
started. -/
theorem accounted_execute {world : World} {config : Config} {s : Session} {line : Text}
    (h : (s.execute world config line).1.Returns) :
    ∃ arguments own, Accounted world config s line arguments own := by
  cases hread : Line.read world config line with
  | error fault =>
    have hending := Effect.ending_ofLine_of_error world config s.writes hread
    have hreturns : (Ending.ofStorage fault).Returns := hending ▸ h
    cases fault <;> cases hreturns
  | ok arguments =>
    have heffect := Effect.ofLine_of_ok world config s.writes hread
    rw [Line.entries_account hread, Line.warningEntries_eq] at heffect
    have hreturns : (Effect.ofVector world config s.writes arguments).ending.Returns := by
      have hending : (Effect.ofLine world config s.writes line).ending.Returns := h
      rw [heffect] at hending
      exact hending
    have hrecords := Effect.records_ofVector hreturns
    have hquiet : (Line.growthRecords config line
        ++ Line.escapeRecords (Line.tokens line)).countP (fun entry => entry.level = .error) = 0 :=
      List.countP_eq_zero.mpr fun entry hmem => by simpa using Line.level_ne_error_of_mem hmem
    refine ⟨arguments, _, hread, hrecords, ?_, ?_, ?_, ?_⟩
    · show s.logger.logAll (Effect.ofLine world config s.writes line).entries = _
      rw [heffect]
      rfl
    · rw [Line.allRecords, List.countP_append, hquiet, Nat.zero_add]
      exact Effect.countP_error_of_records hrecords
    · rintro ⟨entry, hmem, hlevel⟩
      rcases List.mem_append.mp hmem with hearlier | hown
      · exact absurd hlevel (Line.level_ne_error_of_mem hearlier)
      · exact Effect.severe_of_records hrecords hown hlevel
    · rintro ⟨error, habsorbs, hsevere⟩
      obtain ⟨entry, hmem, hlevel⟩ := Effect.exists_error_of_absorbs habsorbs hsevere
      exact ⟨entry, List.mem_append_right _ hmem, hlevel⟩

def twoSlots : Config := ⟨{ argGrowth := 2 }, by decide, by decide⟩

/-- The storage grows, three escapes are unknown, and the program does not exist. -/
theorem accounted_execute_echo :
    let s := Session.start twoSlots
    let line : Text := "echo a\\qb\\z \\x"
    (s.execute {} twoSlots line).1.Returns
      ∧ (∃ arguments own, Accounted {} twoSlots s line arguments own)
      ∧ (s.execute {} twoSlots line).2.logger.entries
        = [⟨.debug, "tokenizer", "argument storage grown to 4 slots"⟩,
          ⟨.warning, "escape", "unknown escape sequence '\\q'"⟩,
          ⟨.warning, "escape", "unknown escape sequence '\\z'"⟩,
          ⟨.warning, "escape", "unknown escape sequence '\\x'"⟩,
          ⟨.error, "exec", "echo: No such file or directory"⟩] := by
  intro s line
  have hon : (s.execute {} twoSlots line).1 = .carryOn := by decide +kernel
  have hreturns : (s.execute {} twoSlots line).1.Returns := .of_carryOn hon
  exact ⟨hreturns, accounted_execute hreturns, by decide +kernel⟩

end Session

end LineShell
