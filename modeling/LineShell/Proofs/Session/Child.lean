import LineShell.Proofs.Session.Command

/- The child of a line.

   A line hands at most one vector to the system: the one that it is read as, if that is no builtin's
   and can be passed (`Line.handed?`). The system may then start a child, which is waited for until a
   status reports its end (`Line.statuses?`, `Line.outcome?`). Executing the line adds the vector to
   the records and makes the end the last outcome, and so it does nothing to either if there is none
   (`spawned_execute`, `last_execute`). -/
namespace LineShell

/-- The vector that a line hands to the system, if it does: it is a program's, and each of its texts
can be passed. -/
def Line.handed? (world : World) (config : Config) (line : Text) : Option (List Text) :=
  match Line.read world config line with
  | .ok (command :: arguments) =>
    if Builtin.named? command = none ∧ ∀ a ∈ command :: arguments, a.IsPassable then
      some (command :: arguments)
    else none
  | _ => none

def World.statuses? (world : World) (vector : List Text) : Option (List Int) :=
  match world.program? vector with
  | some (.runs _ statuses) => some statuses
  | _ => none

def Line.statuses? (world : World) (config : Config) (line : Text) : Option (List Int) :=
  (Line.handed? world config line).bind world.statuses?

/-- How the child of a line ends: the first of its statuses that reports an end tells it. -/
def Line.outcome? (world : World) (config : Config) (line : Text) : Option Outcome :=
  (Line.statuses? world config line).bind (·.findSome? Outcome.ofStatus?)

theorem World.statuses?_eq_some_iff (world : World) (vector : List Text) (statuses : List Int) :
    world.statuses? vector = some statuses
      ↔ ∃ output, world.program? vector = some (.runs output statuses) := by
  rw [World.statuses?]
  cases world.program? vector with
  | none => simp
  | some answer => cases answer <;> simp

section

variable {world : World} {config : Config} {line : Text}

theorem Line.command_ne_nil {command : Text} {arguments : List Text}
    (h : Line.read world config line = .ok (command :: arguments)) : command ≠ [] := by
  obtain ⟨_, harguments⟩ := (Line.read_eq_ok_iff _ _ _ _).mp h
  apply Line.command_ne_nil_of_arguments
  rw [harguments]
  rfl

theorem Line.handed?_eq_none (h : ∀ command arguments,
    Line.read world config line = .ok (command :: arguments) → command ∈ Builtin.names) :
    Line.handed? world config line = none := by
  rw [Line.handed?]
  split
  · next command arguments hread =>
    rw [if_neg]
    intro hhanded
    exact (Effect.named?_eq_none_iff command).mp hhanded.1 (h command arguments hread)
  · rfl

theorem Line.handed?_of_builtin {b : Builtin} {arguments : List Text}
    (h : Line.read world config line = .ok (b.name :: arguments)) :
    Line.handed? world config line = none := by
  refine Line.handed?_eq_none fun command later hread => ?_
  rw [h] at hread
  cases hread
  cases b <;> decide

theorem Line.handed?_of_program {command : Text} {arguments : List Text}
    (hprogram : command ∉ Builtin.names)
    (h : Line.read world config line = .ok (command :: arguments)) :
    Line.handed? world config line
      = if Foreground.refusal? command arguments = none then some (command :: arguments)
        else none := by
  have hnone := (Effect.named?_eq_none_iff command).mpr hprogram
  have hne := Line.command_ne_nil h
  simp only [Line.handed?, h, Foreground.refusal?_eq_none_iff, hnone, hne, ne_eq,
    not_false_eq_true, true_and, and_true]

theorem Line.handed?_eq_some_iff (world : World) (config : Config) (line : Text)
    (vector : List Text) :
    Line.handed? world config line = some vector
      ↔ ∃ command arguments, Line.read world config line = .ok (command :: arguments)
        ∧ command ∉ Builtin.names ∧ (∀ a ∈ command :: arguments, a.IsPassable)
        ∧ vector = command :: arguments := by
  rw [Line.handed?]
  split
  · next command arguments hread =>
    simp only [← Effect.named?_eq_none_iff]
    simp [hread, eq_comm, and_assoc]
  · next hother =>
    refine iff_of_false (by simp) ?_
    rintro ⟨command, arguments, hread, _⟩
    exact hother command arguments hread

theorem Line.statuses?_eq_some_iff (world : World) (config : Config) (line : Text)
    (statuses : List Int) :
    Line.statuses? world config line = some statuses
      ↔ ∃ vector output, Line.handed? world config line = some vector
        ∧ world.program? vector = some (.runs output statuses) := by
  rw [Line.statuses?, Option.bind_eq_some_iff]
  simp only [World.statuses?_eq_some_iff, exists_and_left]

theorem Line.exists_runs_of_outcome? {outcome : Outcome}
    (h : Line.outcome? world config line = some outcome) :
    ∃ command arguments output statuses,
      Line.read world config line = .ok (command :: arguments) ∧ command ∉ Builtin.names
        ∧ world.program? (command :: arguments) = some (.runs output statuses)
        ∧ statuses.findSome? Outcome.ofStatus? = some outcome := by
  obtain ⟨statuses, hstatuses, hfirst⟩ := Option.bind_eq_some_iff.mp h
  obtain ⟨vector, output, hhanded, hruns⟩ :=
    (Line.statuses?_eq_some_iff world config line statuses).mp hstatuses
  obtain ⟨command, arguments, hread, hprogram, _, rfl⟩ :=
    (Line.handed?_eq_some_iff world config line vector).mp hhanded
  exact ⟨command, arguments, output, statuses, hread, hprogram, hruns, hfirst⟩

end

namespace Effect

variable (world : World) (config : Config) (written : Nat)

theorem childless_or_program {line : Text} {e : Effect} (h : Arises world config written line e) :
    (Line.handed? world config line = none ∧ e.spawned = [] ∧ e.outcome = none)
      ∨ ∃ command arguments, command ∉ Builtin.names
          ∧ Line.read world config line = .ok (command :: arguments)
          ∧ e = ofProgram world command arguments := by
  cases h with
  | unread hread => exact .inl ⟨Line.handed?_eq_none (by simp [hread]), rfl, rfl⟩
  | empty hread => exact .inl ⟨Line.handed?_eq_none (by simp [hread]), rfl, rfl⟩
  | @exit arguments hread =>
    have honly := onlyLogs_ofExit arguments
    exact .inl ⟨Line.handed?_of_builtin hread, honly.spawned, honly.outcome⟩
  | proc hread =>
    exact .inl ⟨Line.handed?_of_builtin hread, spawned_ofProc world config written _,
      outcome_ofProc world config written _⟩
  | program hprogram hread => exact .inr ⟨_, _, hprogram, hread, rfl⟩

theorem spawned_ofLine (line : Text) :
    (ofLine world config written line).spawned = (Line.handed? world config line).toList := by
  obtain ⟨entries, e, harises, heffect⟩ := arises_ofLine world config written line
  rw [heffect, spawned_after]
  rcases childless_or_program world config written harises with
    ⟨hnone, hspawned, _⟩ | ⟨command, arguments, hprogram, hread, rfl⟩
  · rw [hnone, hspawned]
    rfl
  · rw [Line.handed?_of_program hprogram hread, spawned_ofProgram]
    split
    · next hhanded => exact Foreground.spawned_run hhanded world
    · next hrefused => exact Foreground.spawned_run_of_refused hrefused world

theorem outcome_ofLine (line : Text) :
    (ofLine world config written line).outcome = Line.outcome? world config line := by
  obtain ⟨entries, e, harises, heffect⟩ := arises_ofLine world config written line
  rw [heffect, outcome_after]
  rcases childless_or_program world config written harises with
    ⟨hnone, _, houtcome⟩ | ⟨command, arguments, hprogram, hread, rfl⟩
  · rw [Line.outcome?, Line.statuses?, hnone, houtcome]
    rfl
  · ext outcome
    rw [outcome_ofProgram_eq_some_iff, Foreground.ending_run_eq_finished_iff, Line.outcome?,
      Line.statuses?, Line.handed?_of_program hprogram hread]
    split
    · next hhanded =>
      simp only [hhanded, true_and, Option.bind_some, Option.bind_eq_some_iff,
        World.statuses?_eq_some_iff]
      refine ⟨?_, ?_⟩
      · rintro ⟨output, statuses, hruns, hfirst⟩
        exact ⟨statuses, ⟨output, hruns⟩, hfirst⟩
      · rintro ⟨statuses, ⟨output, hruns⟩, hfirst⟩
        exact ⟨output, statuses, hruns, hfirst⟩
    · next hrefused => simp [hrefused]

theorem ending_ofLine_of_lost {line : Text} {statuses : List Int}
    (hstatuses : Line.statuses? world config line = some statuses)
    (hlost : statuses.findSome? Outcome.ofStatus? = none) :
    (ofLine world config written line).ending = .crashed .childLost := by
  obtain ⟨vector, output, hhanded, hruns⟩ :=
    (Line.statuses?_eq_some_iff world config line statuses).mp hstatuses
  obtain ⟨command, arguments, hread, hprogram, hpassable, rfl⟩ :=
    (Line.handed?_eq_some_iff world config line vector).mp hhanded
  have haccepted := (Foreground.refusal?_eq_none_iff command arguments).mpr
    ⟨hpassable, Line.command_ne_nil hread⟩
  have hending : (Foreground.run world (command :: arguments)).ending = .lost := by
    rw [Foreground.ending_run_of_runs haccepted hruns, Foreground.endingOf, hlost]
    rfl
  rw [ending_ofLine_of_cons _ _ _ hread, ofArguments_program _ _ _ hprogram, ofProgram, hending]

end Effect

namespace Session

variable (world : World) (config : Config) (s : Session) (line : Text)

theorem spawned_execute :
    (s.execute world config line).2.spawned
      = s.spawned ++ (Line.handed? world config line).toList := by
  rw [← Effect.spawned_ofLine world config s.writes line]
  rfl

theorem last_execute :
    (s.execute world config line).2.last = (Line.outcome? world config line).or s.last := by
  rw [← Effect.outcome_ofLine world config s.writes line]
  rfl

end Session

end LineShell
