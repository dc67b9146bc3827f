import LineShell.Proofs.ExitStatus
import LineShell.Proofs.Child.Foreground
import LineShell.Proofs.Line.Storage
import LineShell.Proofs.Proc.Copy
import LineShell.Proofs.Proc.Path
import LineShell.Proofs.Session.Line

/- The ways in which a line fails for good.

   Five of them lie in what a command is given or meets (`CommandCrash`): a status with too many
   digits, a path that has no UTF-8 form or cannot be opened for a NUL, a final newline that cannot
   be written, and a child that is lost. Four more lie in what the machine and the conversion of
   numbers allow (`ArgumentCrash`, `Storage.FirstBlockFails`). There are no others, and none of them
   is ever missed (`execute_eq_crashed_iff`). -/
namespace LineShell

/-- The argument of `proc` names a file, and this is its path. -/
def ProcPath.Names (config : Config) (argument path : Text) : Prop :=
  ∃ file, ProcPath.parse config.globalFiles argument = .ok file ∧ path = file.under config.procRoot

/-- A command that fails for what it is given or meets, when `written` writes to the builtin output
have been made. -/
inductive CommandCrash (world : World) (config : Config) (written : Nat) :
    List Text → Crash → Prop where
  /-- A status has more digits than the conversion takes. -/
  | longStatus {t blanks sign digits : Text} (hstatus : Numeral.Written t blanks sign digits)
      (hlong : Numeral.digitLimit < digits.length) :
    CommandCrash world config written [Builtin.exit.name, t]
      (ExitStatus.conversionCrash t blanks digits)
  /-- A path holds a surrogate. -/
  | unencodablePath {argument path : Text} {fault : EncodingFault}
      (hnames : ProcPath.Names config argument path) (hsurrogate : ¬ProcPath.IsPlain path)
      (hfault : Encoding.strict.fault? path = some fault) :
    CommandCrash world config written [Builtin.proc.name, argument]
      (.unusableText (.unencodable fault))
  /-- A path that passes for one holds a NUL. -/
  | embeddedNul {argument path : Text} (hnames : ProcPath.Names config argument path)
      (hplain : ProcPath.IsPlain path) (hfits : ProcPath.Fits config.pathCapacity path)
      (hnul : CodePoint.ofChar '\x00' ∈ path) :
    CommandCrash world config written [Builtin.proc.name, argument] (.unusableText .embeddedNul)
  /-- A file can be opened, but the newline after it not be written. -/
  | newlineFails {argument path : Text} {file : File}
      (hnames : ProcPath.Names config argument path) (hplain : ProcPath.IsPlain path)
      (hfits : ProcPath.Fits config.pathCapacity path) (hnul : CodePoint.ofChar '\x00' ∉ path)
      (hfile : world.file? path = some file)
      (hfails : world.failingWrite = some (written + Copy.chunkCount file.readable.length)) :
    CommandCrash world config written [Builtin.proc.name, argument] (.outputFailed .noSpace)
  /-- A program is started, and every status of it reports a stop. -/
  | childLost {program : Text} {arguments : List Text} {output : Bytes} {statuses : List Int}
      (hprogram : program ∉ Builtin.names) (hne : program ≠ [])
      (hpassable : ∀ a ∈ program :: arguments, a.IsPassable)
      (hruns : world.program? (program :: arguments) = some (.runs output statuses))
      (hstops : ∀ status ∈ statuses, Foreground.IsStop status) :
    CommandCrash world config written (program :: arguments) .childLost

/-- A command that fails for a number: one that stands behind a separator, or one that is too long
to be written in a report. -/
inductive ArgumentCrash (config : Config) : List Text → Crash → Prop where
  /-- A status of an admissible length stands behind white space that no numeral may follow. -/
  | separatedStatus {t blanks sign digits : Text} (hstatus : Numeral.Written t blanks sign digits)
      (hseparator : ¬ExitStatus.Convertible blanks)
      (hshort : digits.length ≤ Numeral.digitLimit) :
    ArgumentCrash config [Builtin.exit.name, t]
      (.notANumeral (t.quoted.take ExitStatus.shownLength))
  /-- A path is too long, and the limit that the report would name cannot be written. -/
  | unwritableLimit {argument path : Text} (hnames : ProcPath.Names config argument path)
      (hplain : ProcPath.IsPlain path) (hlong : ¬ProcPath.Fits config.pathCapacity path)
      (hlimit : Numeral.isWritable (config.pathCapacity - 1) = false) :
    ArgumentCrash config [Builtin.proc.name, argument] .unwritableNumber

/-! ## One command -/

namespace Effect

variable (world : World) (config : Config) (written : Nat)

theorem ending_ofFailure_eq_crashed_iff (command : Text) (failure : Failure) (crash : Crash) :
    (ofFailure command failure).ending = .crashed crash ↔ failure = .crash crash := by
  cases failure <;> simp [ofFailure]

theorem ending_ofExit_eq_crashed_iff (arguments : List Text) (crash : Crash) :
    (ofExit arguments).ending = .crashed crash
      ↔ ∃ t, arguments = [t] ∧ ExitStatus.parse t = .error (.crash crash) := by
  match arguments with
  | [] => simp [ofExit]
  | [t] =>
    rw [ofExit]
    cases hparse : ExitStatus.parse t with
    | ok status => simp [hparse]
    | error failure => cases failure <;> simp [hparse]
  | _ :: _ :: _ => simp [ofExit, ofFailure]

theorem ending_ofProc_eq_crashed_iff (arguments : List Text) (crash : Crash) :
    (ofProc world config written arguments).ending = .crashed crash
      ↔ ∃ argument path, arguments = [argument] ∧ ProcPath.Names config argument path ∧
          (ProcPath.checkCapacity config.pathCapacity path = .error (.crash crash) ∨
            (ProcPath.checkCapacity config.pathCapacity path = .ok path ∧
              (Copy.dump world written path).result = .error (.crash crash))) := by
  by_cases hone : ∃ argument, arguments = [argument]
  · obtain ⟨argument, rfl⟩ := hone
    rw [ofProc, ProcPath.resolve_pair]
    cases hparse : ProcPath.parse config.globalFiles argument with
    | error error => simp [ProcPath.Names, hparse, ending_ofFailure_eq_crashed_iff]
    | ok file =>
      have hnames : ∀ path, ProcPath.Names config argument path
          ↔ path = file.under config.procRoot := by
        intro path
        simp [ProcPath.Names, hparse]
      cases hcheck : ProcPath.checkCapacity config.pathCapacity (file.under config.procRoot) with
      | error failure => simp [hnames, hcheck, ending_ofFailure_eq_crashed_iff]
      | ok path =>
        obtain ⟨_, _, rfl⟩ := (ProcPath.checkCapacity_eq_ok_iff _ _ _).mp hcheck
        cases hdump : (Copy.dump world written (file.under config.procRoot)).result with
        | ok size => simp [hnames, hcheck, hdump]
        | error failure => simp [hnames, hcheck, hdump, ending_ofFailure_eq_crashed_iff]
  · have hlength : (Builtin.proc.name :: arguments).length ≠ 2 := by
      intro h
      exact hone (List.length_eq_one_iff.mp (Nat.succ.inj h))
    rw [ofProc, ProcPath.resolve_eq_usage hlength]
    refine ⟨?_, ?_⟩
    · intro h
      cases h
    · intro hfound
      obtain ⟨argument, path, rfl, _⟩ := hfound
      exact absurd ⟨argument, rfl⟩ hone

theorem ending_ofProgram_eq_crashed_iff (command : Text) (arguments : List Text) (crash : Crash) :
    (ofProgram world command arguments).ending = .crashed crash
      ↔ (Foreground.run world (command :: arguments)).ending = .lost ∧ crash = .childLost := by
  rw [ofProgram]
  cases (Foreground.run world (command :: arguments)).ending with
  | finished outcome => simp
  | notStarted error => simp
  | lost => simp [eq_comm]

/-! ## The routes, one way and the other -/

theorem ending_of_commandCrash {arguments : List Text} {crash : Crash}
    (h : CommandCrash world config written arguments crash) :
    (ofArguments world config written arguments).ending = .crashed crash := by
  cases h with
  | longStatus hstatus hlong =>
    rw [ofArguments_exit, ending_ofExit_eq_crashed_iff]
    exact ⟨_, rfl, (ExitStatus.parse_eq_crash_iff _ _).mpr ⟨_, _, _, hstatus, .inr hlong, rfl⟩⟩
  | unencodablePath hnames hsurrogate hfault =>
    rw [ofArguments_proc, ending_ofProc_eq_crashed_iff]
    refine ⟨_, _, rfl, hnames, .inl ?_⟩
    exact (ProcPath.checkCapacity_eq_crash_iff _ _ _).mpr (.inl ⟨_, hfault, rfl⟩)
  | embeddedNul hnames hplain hfits hnul =>
    rw [ofArguments_proc, ending_ofProc_eq_crashed_iff]
    have hchecked := (ProcPath.checkCapacity_eq_ok_iff _ _ _).mpr ⟨hplain, hfits, rfl⟩
    have hfault := (Text.fault?_eq_embeddedNul_iff _).mpr
      ⟨Text.isEncodable_of_no_surrogate hplain, hnul⟩
    refine ⟨_, _, rfl, hnames, .inr ⟨hchecked, ?_⟩⟩
    exact (Copy.result_dump_eq_crash_iff _ _ _ _).mpr (.inl ⟨_, hfault, rfl⟩)
  | newlineFails hnames hplain hfits hnul hfile hfails =>
    rw [ofArguments_proc, ending_ofProc_eq_crashed_iff]
    have hchecked := (ProcPath.checkCapacity_eq_ok_iff _ _ _).mpr ⟨hplain, hfits, rfl⟩
    refine ⟨_, _, rfl, hnames, .inr ⟨hchecked, ?_⟩⟩
    refine (Copy.result_dump_eq_crash_iff _ _ _ _).mpr (.inr ⟨?_, _, hfile, hfails, rfl⟩)
    exact ⟨Text.isEncodable_of_no_surrogate hplain, hnul⟩
  | childLost hprogram hne hpassable hruns hstops =>
    rw [ofArguments_program _ _ _ hprogram, ending_ofProgram_eq_crashed_iff]
    have hhanded := (Foreground.refusal?_eq_none_iff _ _).mpr ⟨hpassable, hne⟩
    refine ⟨?_, rfl⟩
    exact (Foreground.ending_run_eq_lost_iff _ _ _).mpr ⟨hhanded, _, _, hruns, hstops⟩

theorem ending_of_argumentCrash {arguments : List Text} {crash : Crash}
    (h : ArgumentCrash config arguments crash) :
    (ofArguments world config written arguments).ending = .crashed crash := by
  cases h with
  | separatedStatus hstatus hseparator hshort =>
    rw [ofArguments_exit, ending_ofExit_eq_crashed_iff]
    refine ⟨_, rfl, (ExitStatus.parse_eq_crash_iff _ _).mpr ⟨_, _, _, hstatus, .inl hseparator, ?_⟩⟩
    rw [ExitStatus.conversionCrash, if_pos ((ExitStatus.any_isSeparator_iff _).mpr hseparator)]
  | unwritableLimit hnames hplain hlong hlimit =>
    rw [ofArguments_proc, ending_ofProc_eq_crashed_iff]
    refine ⟨_, _, rfl, hnames, .inl ?_⟩
    exact (ProcPath.checkCapacity_eq_crash_iff _ _ _).mpr (.inr ⟨hplain, hlong, hlimit, rfl⟩)

theorem crash_of_exit {arguments : List Text} {crash : Crash}
    (h : (ofExit arguments).ending = .crashed crash) :
    CommandCrash world config written (Builtin.exit.name :: arguments) crash
      ∨ ArgumentCrash config (Builtin.exit.name :: arguments) crash := by
  obtain ⟨t, rfl, hparse⟩ := (ending_ofExit_eq_crashed_iff _ _).mp h
  obtain ⟨blanks, sign, digits, hstatus, hcause, rfl⟩ := (ExitStatus.parse_eq_crash_iff _ _).mp hparse
  by_cases hlong : Numeral.digitLimit < digits.length
  · exact .inl (.longStatus hstatus hlong)
  · -- a numeral of an admissible length can only have failed for what stands before it
    have hseparator := hcause.resolve_right hlong
    rw [ExitStatus.conversionCrash, if_pos ((ExitStatus.any_isSeparator_iff _).mpr hseparator)]
    exact .inr (.separatedStatus hstatus hseparator (Nat.le_of_not_lt hlong))

theorem crash_of_proc {arguments : List Text} {crash : Crash}
    (h : (ofProc world config written arguments).ending = .crashed crash) :
    CommandCrash world config written (Builtin.proc.name :: arguments) crash
      ∨ ArgumentCrash config (Builtin.proc.name :: arguments) crash := by
  obtain ⟨argument, path, rfl, hnames, hcheck | ⟨hchecked, hdump⟩⟩ :=
    (ending_ofProc_eq_crashed_iff _ _ _ _ _).mp h
  · obtain ⟨fault, hfault, rfl⟩ | ⟨hplain, hlong, hlimit, rfl⟩ :=
      (ProcPath.checkCapacity_eq_crash_iff _ _ _).mp hcheck
    · refine .inl (.unencodablePath hnames ?_ hfault)
      intro hplain
      rw [(ProcPath.strict_fault?_eq_none_iff path).mpr hplain] at hfault
      cases hfault
    · exact .inr (.unwritableLimit hnames hplain hlong hlimit)
  · obtain ⟨hplain, hfits, _⟩ := (ProcPath.checkCapacity_eq_ok_iff _ _ _).mp hchecked
    have hencodable := Text.isEncodable_of_no_surrogate hplain
    obtain ⟨fault, hfault, rfl⟩ | ⟨hpassable, file, hfile, hfails, rfl⟩ :=
      (Copy.result_dump_eq_crash_iff _ _ _ _).mp hdump
    · -- a path without surrogates can only be refused for a NUL
      have hnul : CodePoint.ofChar '\x00' ∈ path := by
        apply Classical.byContradiction
        intro habsent
        rw [(Text.fault?_eq_none_iff path).mpr ⟨hencodable, habsent⟩] at hfault
        cases hfault
      have hembedded := (Text.fault?_eq_embeddedNul_iff path).mpr ⟨hencodable, hnul⟩
      cases hembedded.symm.trans hfault
      exact .inl (.embeddedNul hnames hplain hfits hnul)
    · exact .inl (.newlineFails hnames hplain hfits hpassable.2 hfile hfails)

theorem crash_of_program {command : Text} (hcommand : command ∉ Builtin.names)
    {arguments : List Text} {crash : Crash}
    (h : (ofProgram world command arguments).ending = .crashed crash) :
    CommandCrash world config written (command :: arguments) crash := by
  obtain ⟨hlost, rfl⟩ := (ending_ofProgram_eq_crashed_iff _ _ _ _).mp h
  obtain ⟨hhanded, output, statuses, hruns, hstops⟩ :=
    (Foreground.ending_run_eq_lost_iff _ _ _).mp hlost
  obtain ⟨hpassable, hne⟩ := (Foreground.refusal?_eq_none_iff _ _).mp hhanded
  exact .childLost hcommand hne hpassable hruns hstops

theorem ending_ofArguments_eq_crashed_iff (command : Text) (arguments : List Text) (crash : Crash) :
    (ofArguments world config written (command :: arguments)).ending = .crashed crash
      ↔ CommandCrash world config written (command :: arguments) crash
        ∨ ArgumentCrash config (command :: arguments) crash := by
  refine ⟨?_, ?_⟩
  · intro h
    rcases command_cases command with rfl | rfl | hprogram
    · rw [ofArguments_exit] at h
      exact crash_of_exit world config written h
    · rw [ofArguments_proc] at h
      exact crash_of_proc world config written h
    · rw [ofArguments_program _ _ _ hprogram] at h
      exact .inl (crash_of_program world config written hprogram h)
  · intro hroute
    rcases hroute with h | h
    · exact ending_of_commandCrash world config written h
    · exact ending_of_argumentCrash world config written h

end Effect

/-- The only failure of `exit` that lies in its argument is the length of it. -/
theorem CommandCrash.long_of_exit {world : World} {config : Config} {written : Nat}
    {arguments : List Text} {t : Text} {crash : Crash}
    (h : CommandCrash world config written arguments crash)
    (hexit : arguments = [Builtin.exit.name, t]) : Numeral.digitLimit < t.length := by
  cases h with
  | longStatus hstatus hlong =>
    cases hexit
    have hlength := congrArg List.length hstatus.text
    simp only [List.length_append] at hlength
    omega
  | childLost hprogram =>
    rw [(List.cons.inj hexit).1] at hprogram
    exact absurd (by decide) hprogram
  | _ => exact absurd (List.cons.inj hexit).1 (by decide)

/-! ## One line -/

theorem ofStorage_eq_crashed_iff (world : World) (config : Config) (line : Text) (crash : Crash) :
    (∃ fault, Line.read world config line = .error fault ∧ Ending.ofStorage fault = .crashed crash)
      ↔ ∃ fault, Storage.FirstBlockFails config.argGrowth world.memory fault
          ∧ Ending.ofStorage fault = .crashed crash := by
  refine exists_congr fun fault => and_congr_left fun hcrash => ?_
  rw [Line.read_eq_error_iff]
  apply Storage.account_fault_eq_some_iff config.one_le_argGrowth
  intro h
  rw [h] at hcrash
  cases hcrash

/-- Every line of every session: it fails for good exactly if its command does by one of the
routes, or if no line can be stored at all. -/
theorem execute_eq_crashed_iff (world : World) (config : Config) (s : Session) (line : Text)
    (crash : Crash) :
    (s.execute world config line).1 = .crashed crash
      ↔ (∃ arguments, Line.read world config line = .ok arguments
            ∧ CommandCrash world config s.writes arguments crash)
        ∨ (∃ arguments, Line.read world config line = .ok arguments
            ∧ ArgumentCrash config arguments crash)
        ∨ ∃ fault, Storage.FirstBlockFails config.argGrowth world.memory fault
            ∧ Ending.ofStorage fault = .crashed crash := by
  show (Effect.ofLine world config s.writes line).ending = .crashed crash ↔ _
  rw [← ofStorage_eq_crashed_iff world config line]
  cases hread : Line.read world config line with
  | error fault =>
    rw [Effect.ending_ofLine_of_error _ _ _ hread]
    simp
  | ok arguments =>
    cases arguments with
    | nil =>
      rw [Effect.ending_ofLine_of_nil _ _ _ hread]
      simp only [Except.ok.injEq, reduceCtorEq, false_and, exists_false, or_false, exists_eq_left',
        false_iff]
      intro h
      rcases h with h | h <;> cases h
    | cons command arguments =>
      rw [Effect.ending_ofLine_of_cons _ _ _ hread, Effect.ending_ofArguments_eq_crashed_iff]
      simp

/-- Settings whose blocks have more slots than a machine word counts. -/
def hugeBlocks : Config := ⟨{ argGrowth := 0x8000000000000000 }, by decide, by decide⟩

/-- The failures of commands do not account for all: with such blocks a plain `exit` fails, and by
default a status of one digit does behind an information separator. -/
theorem execute_crashes_without_commandCrash :
    (((Session.start hugeBlocks).execute {} hugeBlocks "exit").1 = .crashed .sizeOutOfRange
      ∧ ¬∃ arguments, Line.read {} hugeBlocks "exit" = .ok arguments
          ∧ CommandCrash {} hugeBlocks 0 arguments .sizeOutOfRange)
    ∧ ((Session.start .default).execute {} .default "exit \x1c7").1
        = .crashed (.notANumeral "'\\x1c7'")
      ∧ ¬∃ arguments, Line.read {} .default "exit \x1c7" = .ok arguments
          ∧ CommandCrash {} .default 0 arguments (.notANumeral "'\\x1c7'") := by
  refine ⟨⟨rfl, ?_⟩, by decide +kernel, ?_⟩
  · intro h
    obtain ⟨arguments, hread, _⟩ := h
    have hfault : Line.read {} hugeBlocks "exit" = .error .sizeOutOfRange := rfl
    rw [hfault] at hread
    cases hread
  · intro h
    obtain ⟨arguments, hread, hcrash⟩ := h
    have hstatus : Line.read {} .default "exit \x1c7" = .ok [Builtin.exit.name, "\x1c7"] := rfl
    rw [hstatus] at hread
    have hlong := hcrash.long_of_exit (Except.ok.inj hread).symm
    exact absurd hlong (by decide)

end LineShell
