import LineShell.Proofs.Child.Foreground
import LineShell.Proofs.Proc.Copy
import LineShell.Proofs.Session.Line

/- What one command adds to the records.

   `exit`, and every failure that a builtin is done for with, add log entries and nothing else
   (`OnlyLogs`). `proc` adds besides what copying a file adds (`ofProc_cases`), and a program its own
   output, its vector and its outcome. A failure that is absorbed (`Absorbs`) leaves neither output
   nor an outcome, unless it is that of a file that broke off while it was read. -/
namespace LineShell

def Session.builtinOutput (s : Session) : Bytes := s.outputBytes fun origin => origin = .builtin

namespace Effect

def builtinOutput (e : Effect) : Bytes :=
  (e.output.filter fun chunk => chunk.origin = .builtin).flatMap (·.bytes)

theorem builtinOutput_add (s : Session) (e : Effect) :
    (s.add e).builtinOutput = s.builtinOutput ++ e.builtinOutput := by
  simp [Session.builtinOutput, Session.outputBytes, Session.add, builtinOutput]

@[simp] theorem builtinOutput_after (entries : List Entry) (e : Effect) :
    (e.after entries).builtinOutput = e.builtinOutput := rfl

/-- Nothing is printed, and no child has ended. -/
structure Silent (e : Effect) : Prop where
  output : e.output = []
  writes : e.writes = 0
  outcome : e.outcome = none

/-- Log entries are all that is added. -/
structure OnlyLogs (e : Effect) : Prop extends Silent e where
  spawned : e.spawned = []

theorem OnlyLogs.of_ending (ending : Ending) (entries : List Entry) :
    OnlyLogs { ending, entries } :=
  ⟨⟨rfl, rfl, rfl⟩, rfl⟩

theorem Silent.after {e : Effect} (h : e.Silent) (entries : List Entry) :
    (e.after entries).Silent :=
  ⟨h.output, h.writes, h.outcome⟩

theorem OnlyLogs.after {e : Effect} (h : e.OnlyLogs) (entries : List Entry) :
    (e.after entries).OnlyLogs :=
  ⟨h.toSilent.after entries, h.spawned⟩

theorem Silent.builtinOutput {e : Effect} (h : e.Silent) : e.builtinOutput = [] := by
  rw [Effect.builtinOutput, h.output]
  rfl

theorem onlyLogs_ofFailure (command : Text) (failure : Failure) :
    (ofFailure command failure).OnlyLogs := by
  cases failure <;> exact .of_ending _ _

theorem onlyLogs_ofExit (arguments : List Text) : (ofExit arguments).OnlyLogs := by
  match arguments with
  | [] => exact .of_ending _ _
  | [t] =>
    rw [ofExit]
    cases ExitStatus.parse t with
    | ok status => exact .of_ending _ _
    | error failure => cases failure <;> exact .of_ending _ _
  | _ :: _ :: _ => exact onlyLogs_ofFailure Builtin.exit.name (.reported .tooManyArguments)

variable (world : World) (config : Config) (written : Nat)

/-! ## Printing a file -/

/-- The path that `proc` finds for its arguments. -/
def Resolves (arguments : List Text) (path : Text) : Prop :=
  ProcPath.resolve config.procRoot config.pathCapacity config.globalFiles
    (Builtin.proc.name :: arguments) = .ok path

theorem exists_argument_of_resolves {arguments : List Text} {path : Text}
    (h : Resolves config arguments path) : ∃ argument, arguments = [argument] := by
  match arguments with
  | [argument] => exact ⟨argument, rfl⟩
  | [] => cases h
  | _ :: _ :: _ => cases h

/-- Besides logging, `proc` adds what copying the file at its path adds, if it finds a path. -/
theorem ofProc_cases (arguments : List Text) :
    (ofProc world config written arguments).OnlyLogs
      ∨ ∃ path e, Resolves config arguments path ∧ OnlyLogs e
        ∧ ofProc world config written arguments
          = { e with
              output := Chunk.list .builtin (Copy.dump world written path).written
              writes := (Copy.dump world written path).writes } := by
  simp only [ofProc]
  split
  · exact .inl (onlyLogs_ofFailure _ _)
  · next path hresolve =>
    refine .inr ⟨path, _, hresolve, OnlyLogs.after ?_ _, rfl⟩
    split
    · exact .of_ending _ _
    · exact onlyLogs_ofFailure _ _

theorem spawned_ofProc (arguments : List Text) :
    (ofProc world config written arguments).spawned = [] := by
  rcases ofProc_cases world config written arguments with honly | ⟨path, e, _, honly, heffect⟩
  · exact honly.spawned
  · rw [heffect]
    exact honly.spawned

theorem outcome_ofProc (arguments : List Text) :
    (ofProc world config written arguments).outcome = none := by
  rcases ofProc_cases world config written arguments with honly | ⟨path, e, _, honly, heffect⟩
  · exact honly.outcome
  · rw [heffect]
    exact honly.outcome

theorem onlyLogs_ofProc {arguments : List Text}
    (h : ∀ path, Resolves config arguments path → ¬Copy.Opens world path) :
    (ofProc world config written arguments).OnlyLogs := by
  rcases ofProc_cases world config written arguments with honly | ⟨path, e, hpath, honly, heffect⟩
  · exact honly
  · obtain ⟨hwritten, hwrites⟩ := Copy.dump_of_not_opens (h path hpath) written
    rw [heffect]
    exact ⟨⟨by rw [hwritten]; rfl, hwrites, honly.outcome⟩, honly.spawned⟩

/-! ## Running a program -/

theorem outcome_ofProgram_eq_some_iff (command : Text) (arguments : List Text) (outcome : Outcome) :
    (ofProgram world command arguments).outcome = some outcome
      ↔ (Foreground.run world (command :: arguments)).ending = .finished outcome := by
  rw [ofProgram]
  cases (Foreground.run world (command :: arguments)).ending <;> simp

theorem builtinOutput_ofProgram (command : Text) (arguments : List Text) :
    (ofProgram world command arguments).builtinOutput = [] := by
  have houtput : (ofProgram world command arguments).output
      = Chunk.list .program (Foreground.run world (command :: arguments)).output := rfl
  rw [builtinOutput, houtput, Chunk.list]
  split <;> simp

theorem silent_ofProgram {command : Text} {arguments : List Text} {error : ShellError}
    (h : (Foreground.run world (command :: arguments)).ending = .notStarted error) :
    (ofProgram world command arguments).Silent := by
  have houtput := Foreground.output_run_of_notStarted h
  refine ⟨?_, ?_, ?_⟩
  · show Chunk.list .program (Foreground.run world (command :: arguments)).output = []
    rw [houtput]
    rfl
  · rw [ofProgram, h]
  · rw [ofProgram, h]

/-! ## Failures that are absorbed -/

/-- A command fails with an error that the shell reports and goes on after. -/
inductive Absorbs : List Text → ShellError → Prop where
  | tooManyArguments {first second : Text} {later : List Text} :
    Absorbs (Builtin.exit.name :: first :: second :: later) .tooManyArguments
  | malformedStatus {t : Text} {error : ShellError}
      (hparse : ExitStatus.parse t = .error (.reported error)) :
    Absorbs [Builtin.exit.name, t] error
  | unresolved {arguments : List Text} {error : ShellError}
      (hresolve : ProcPath.resolve config.procRoot config.pathCapacity config.globalFiles
        (Builtin.proc.name :: arguments) = .error (.reported error)) :
    Absorbs (Builtin.proc.name :: arguments) error
  | notCopied {arguments : List Text} {path : Text} {error : ShellError}
      (hresolve : Resolves config arguments path)
      (hdump : (Copy.dump world written path).result = .error (.reported error)) :
    Absorbs (Builtin.proc.name :: arguments) error
  | notStarted {command : Text} {arguments : List Text} {error : ShellError}
      (hprogram : command ∉ Builtin.names)
      (hrun : (Foreground.run world (command :: arguments)).ending = .notStarted error) :
    Absorbs (command :: arguments) error

theorem ending_of_absorbs {arguments : List Text} {error : ShellError}
    (h : Absorbs world config written arguments error) :
    (ofArguments world config written arguments).ending = .carryOn := by
  cases h with
  | tooManyArguments => rw [ofArguments_exit]; rfl
  | malformedStatus hparse => rw [ofArguments_exit, ofExit, hparse]
  | unresolved hresolve => rw [ofArguments_proc, ofProc, hresolve]; rfl
  | notCopied hresolve hdump =>
    rw [ofArguments_proc, ofProc, hresolve]
    simp only [hdump]
    rfl
  | notStarted hprogram hrun => rw [ofArguments_program _ _ _ hprogram, ofProgram, hrun]

theorem reported_of_absorbs {arguments : List Text} {error : ShellError}
    (h : Absorbs world config written arguments error) :
    ∃ entry ∈ (ofArguments world config written arguments).entries,
      entry.message = error.message := by
  cases h with
  | tooManyArguments =>
    rw [ofArguments_exit]
    exact ⟨_, List.mem_cons_self, rfl⟩
  | malformedStatus hparse =>
    rw [ofArguments_exit, ofExit, hparse]
    exact ⟨_, List.mem_cons_self, rfl⟩
  | unresolved hresolve =>
    rw [ofArguments_proc, ofProc, hresolve]
    exact ⟨_, List.mem_cons_self, rfl⟩
  | notCopied hresolve hdump =>
    rw [ofArguments_proc, ofProc, hresolve]
    simp only [hdump]
    -- the entry of the path that was found comes first
    exact ⟨_, List.mem_cons_of_mem _ List.mem_cons_self, rfl⟩
  | notStarted hprogram hrun =>
    rw [ofArguments_program _ _ _ hprogram, ofProgram, hrun]
    exact ⟨_, List.mem_cons_self, rfl⟩

theorem silent_of_absorbs {arguments : List Text} {error : ShellError}
    (h : Absorbs world config written arguments error) (hkind : error.kind ≠ .read) :
    (ofArguments world config written arguments).Silent := by
  cases h with
  | tooManyArguments =>
    rw [ofArguments_exit]
    exact (onlyLogs_ofExit _).toSilent
  | malformedStatus hparse =>
    rw [ofArguments_exit]
    exact (onlyLogs_ofExit _).toSilent
  | unresolved hresolve =>
    rw [ofArguments_proc]
    refine (onlyLogs_ofProc world config written ?_).toSilent
    intro path hpath
    rw [Resolves, hresolve] at hpath
    cases hpath
  | notCopied hresolve hdump =>
    rw [ofArguments_proc]
    refine (onlyLogs_ofProc world config written ?_).toSilent
    intro path hpath
    -- the path is the one whose file was met with the failure, so it was not open yet
    cases hresolve.symm.trans hpath
    exact Copy.not_opens_of_reported hdump hkind
  | notStarted hprogram hrun =>
    rw [ofArguments_program _ _ _ hprogram]
    exact silent_ofProgram world hrun

end Effect

end LineShell
