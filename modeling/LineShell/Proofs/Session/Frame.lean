import LineShell.Proofs.Line.Storage
import LineShell.Proofs.Session.Child

/- What a line may touch.

   Executing a line leaves alone what is not its own, however it ends (`execute_framed`). The records
   only grow; the builtin output grows for a file that `proc` could open, the vectors for a program,
   the last outcome changes for a child that has ended. Storage that is exhausted adds the records of
   its growths, and a failure that is absorbed adds log entries. -/
namespace LineShell

namespace Effect

variable (world : World) (config : Config) (written : Nat)

theorem opens_of_builtinOutput {line : Text}
    (h : (ofLine world config written line).builtinOutput ≠ []) :
    ∃ argument path, Line.split world config line = .ok [Builtin.proc.name, argument]
      ∧ Resolves config [argument] path ∧ Copy.Opens world path := by
  obtain ⟨entries, e, harises, heffect⟩ := arises_ofLine world config written line
  rw [heffect, builtinOutput_after] at h
  cases harises with
  | unread hread => exact absurd (OnlyLogs.of_ending _ []).builtinOutput h
  | empty hread => exact absurd (OnlyLogs.of_ending _ []).builtinOutput h
  | exit hread => exact absurd (onlyLogs_ofExit _).builtinOutput h
  | program hprogram hread => exact absurd (builtinOutput_ofProgram world _ _) h
  | @proc arguments hread =>
    by_cases hopens : ∃ path, Resolves config arguments path ∧ Copy.Opens world path
    · obtain ⟨path, hresolves, hopen⟩ := hopens
      obtain ⟨argument, rfl⟩ := exists_argument_of_resolves config hresolves
      rw [Line.read_eq_ok_iff_split _ _ _ (Builtin.proc.name_ne_echoName _)] at hread
      exact ⟨argument, path, hread, hresolves, hopen⟩
    · have honly := onlyLogs_ofProc world config written fun path hresolves hopen =>
        hopens ⟨path, hresolves, hopen⟩
      exact absurd honly.builtinOutput h

theorem ofLine_of_absorbs {line : Text} {arguments : List Text} {error : ShellError}
    (hread : Line.read world config line = .ok arguments)
    (h : Absorbs world config written arguments error) :
    ∃ entries, ofLine world config written line
      = (ofArguments world config written arguments).after entries := by
  cases arguments with
  | nil => cases h
  | cons command arguments => exact ofLine_of_read world config written hread

end Effect

namespace Session

/-- The session `after` is what a line that ended so may leave of the session `before`. -/
structure Framed (world : World) (config : Config) (line : Text) (before : Session)
    (ending : Ending) (after : Session) : Prop where
  /-- The log grows at its end. -/
  log : before.logger.entries <+: after.logger.entries
  /-- So does what the builtins have written. -/
  output : before.builtinOutput <+: after.builtinOutput
  /-- It grows for `proc` with one argument only, and if the file could be opened. -/
  printed : after.builtinOutput ≠ before.builtinOutput →
    ∃ argument path, Line.split world config line = .ok [Builtin.proc.name, argument]
      ∧ ProcPath.resolve config.procRoot config.pathCapacity config.globalFiles
          [Builtin.proc.name, argument] = .ok path
      ∧ Copy.Opens world path
  /-- The last outcome changes to that of a program that was started and has ended. -/
  last : after.last ≠ before.last →
    ∃ command arguments output statuses outcome,
      Line.read world config line = .ok (command :: arguments) ∧ command ∉ Builtin.names
      ∧ world.program? (command :: arguments) = some (.runs output statuses)
      ∧ statuses.findSome? Outcome.ofStatus? = some outcome ∧ after.last = some outcome
  /-- What reaches the system is the vector of a program, and comes after all others. -/
  spawned : after.spawned = before.spawned ∨
    ∃ command arguments, Line.read world config line = .ok (command :: arguments)
      ∧ command ∉ Builtin.names ∧ after.spawned = before.spawned ++ [command :: arguments]
  /-- A line that exhausts the storage leaves the records of the growths before. -/
  exhausted : Line.split world config line = .error .exhausted →
    ending = .storageExhausted ∧ after.output = before.output ∧ after.last = before.last
      ∧ after.spawned = before.spawned
      ∧ ∃ growths, Storage.GrowsUntil config.argGrowth.toNat world.memory.slots
            config.argGrowth.toNat growths
          ∧ after.logger = before.logger.logAll (growths.map Storage.growthEntry)
  /-- A line that fails with an error that is absorbed leaves the error in the log and, unless a file
  broke off while it was read, nothing else. -/
  absorbed : ∀ arguments error, Line.read world config line = .ok arguments →
    Effect.Absorbs world config before.writes arguments error →
    ending = .carryOn
      ∧ (∃ entries, after.logger = before.logger.logAll entries
          ∧ ∃ entry ∈ entries, entry.message = error.message)
      ∧ (error.kind ≠ .read → after.output = before.output ∧ after.writes = before.writes
          ∧ after.last = before.last)

/-- No line of any session touches more than it may, in any world and however it ends. -/
theorem execute_framed (world : World) (config : Config) (s : Session) (line : Text) :
    Framed world config line s (s.execute world config line).1 (s.execute world config line).2 := by
  have hsession : (s.execute world config line).2
      = s.add (Effect.ofLine world config s.writes line) := rfl
  have hbuiltin := Effect.builtinOutput_add s (Effect.ofLine world config s.writes line)
  rw [hsession]
  refine ⟨List.prefix_append _ _, hbuiltin ▸ List.prefix_append _ _, ?printed, ?last, ?spawned,
    ?exhausted, ?absorbed⟩
  case printed =>
    intro hchanged
    refine Effect.opens_of_builtinOutput world config s.writes fun hnone => hchanged ?_
    rw [hbuiltin, hnone, List.append_nil]
  case last =>
    rw [← hsession, last_execute]
    intro hchanged
    cases houtcome : Line.outcome? world config line with
    | none => exact absurd (by rw [houtcome, Option.none_or]) hchanged
    | some outcome =>
      obtain ⟨command, arguments, output, statuses, hread, hprogram, hruns, hfirst⟩ :=
        Line.exists_runs_of_outcome? houtcome
      exact ⟨command, arguments, output, statuses, outcome, hread, hprogram, hruns, hfirst, rfl⟩
  case spawned =>
    rw [← hsession, spawned_execute]
    cases hhanded : Line.handed? world config line with
    | none => exact .inl (List.append_nil _)
    | some vector =>
      obtain ⟨command, arguments, hread, hprogram, _, rfl⟩ :=
        (Line.handed?_eq_some_iff world config line vector).mp hhanded
      exact .inr ⟨command, arguments, hread, hprogram, rfl⟩
  case exhausted =>
    intro hsplit
    have hread := (Line.read_eq_error_iff_split world config line .exhausted).mpr hsplit
    have hfault := (Line.read_eq_error_iff world config line .exhausted).mp hread
    have heffect := Effect.ofLine_of_error world config s.writes hread
    rw [heffect]
    refine ⟨Effect.ending_ofLine_of_error world config s.writes hread, List.append_nil _, rfl,
      List.append_nil _, _, Storage.growsUntil_of_account hfault, ?_⟩
    show s.logger.logAll (_ ++ []) = _
    rw [List.append_nil]
    rfl
  case absorbed =>
    intro arguments error hread habsorbs
    obtain ⟨entries, heffect⟩ := Effect.ofLine_of_absorbs world config s.writes hread habsorbs
    obtain ⟨entry, hentry, hmessage⟩ := Effect.reported_of_absorbs world config s.writes habsorbs
    rw [heffect]
    refine ⟨?_, ⟨_, rfl, entry, List.mem_append_right _ hentry, hmessage⟩, ?_⟩
    · show (Effect.ofLine world config s.writes line).ending = .carryOn
      rw [heffect, Effect.ending_after]
      exact Effect.ending_of_absorbs world config s.writes habsorbs
    · intro hkind
      have hsilent := Effect.silent_of_absorbs world config s.writes habsorbs hkind
      simp only [add, Effect.output_after, Effect.writes_after, Effect.outcome_after,
        hsilent.output, hsilent.writes, hsilent.outcome, List.append_nil, Nat.add_zero,
        Option.none_or, and_self]

end Session

end LineShell
