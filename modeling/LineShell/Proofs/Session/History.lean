import LineShell.Proofs.Session.Child

/- The children of a whole session.

   A history is a list of lines, each with the world that it meets, of which every one came back
   from being executed (`Leaves`). Each line adds to the records what its own child adds, so by
   induction the vectors that reached the system are those of the lines, in order, and the last
   outcome is that of the last child (`children_of_leaves`). -/
namespace LineShell

structure Step where
  world : World
  line : Text

namespace Step

def handed? (config : Config) (step : Step) : Option (List Text) :=
  Line.handed? step.world config step.line

def statuses? (config : Config) (step : Step) : Option (List Int) :=
  Line.statuses? step.world config step.line

end Step

/-- Executing a line comes back: the session goes on, or it is told to stop. -/
inductive Ending.Returns : Ending → Prop where
  | carryOn : Returns .carryOn
  | stop : Returns .stop

theorem Ending.Returns.of_carryOn {ending : Ending} (h : ending = .carryOn) : ending.Returns :=
  h ▸ .carryOn

theorem Ending.Returns.of_stop {ending : Ending} (h : ending = .stop) : ending.Returns :=
  h ▸ .stop

namespace Session

/-- The session that a history leaves: its lines are executed in order, and each of them comes
back. -/
inductive Leaves (config : Config) : List Step → Session → Prop where
  | start : Leaves config [] (.start config)
  | step {steps : List Step} {s : Session} (before : Leaves config steps s) (step : Step)
      (returns : (s.execute step.world config step.line).1.Returns) :
    Leaves config (steps ++ [step]) (s.execute step.world config step.line).2

theorem exists_outcome_of_returns {world : World} {config : Config} {s : Session} {line : Text}
    {statuses : List Int} (hreturns : (s.execute world config line).1.Returns)
    (hstatuses : Line.statuses? world config line = some statuses) :
    ∃ outcome, statuses.findSome? Outcome.ofStatus? = some outcome := by
  cases hfirst : statuses.findSome? Outcome.ofStatus? with
  | some outcome => exact ⟨outcome, rfl⟩
  | none =>
    have hlost : (s.execute world config line).1 = .crashed .childLost :=
      Effect.ending_ofLine_of_lost world config s.writes hstatuses hfirst
    rw [hlost] at hreturns
    cases hreturns

theorem last_execute_of_no_child {world : World} {config : Config} {line : Text}
    (h : Line.statuses? world config line = none) (s : Session) :
    (s.execute world config line).2.last = s.last := by
  rw [last_execute, Line.outcome?, h, Option.bind_none, Option.none_or]

theorem last_execute_of_child {world : World} {config : Config} {line : Text} {statuses : List Int}
    {outcome : Outcome} (h : Line.statuses? world config line = some statuses)
    (hfirst : statuses.findSome? Outcome.ofStatus? = some outcome) (s : Session) :
    (s.execute world config line).2.last = some outcome := by
  rw [last_execute, Line.outcome?, h, Option.bind_some, hfirst, Option.some_or]

theorem spawned_of_leaves {config : Config} {steps : List Step} {s : Session}
    (h : Leaves config steps s) : s.spawned = steps.filterMap (Step.handed? config) := by
  induction h with
  | start => rfl
  | @step steps s before step returns ih =>
    have hone : [step].filterMap (Step.handed? config) = (step.handed? config).toList := by
      cases hhanded : step.handed? config <;> simp [hhanded]
    rw [spawned_execute, ih, List.filterMap_append, hone]
    rfl

theorem ended_of_leaves {config : Config} {steps : List Step} {s : Session}
    (h : Leaves config steps s) :
    ∀ statuses ∈ steps.filterMap (Step.statuses? config),
      ∃ outcome, statuses.findSome? Outcome.ofStatus? = some outcome := by
  induction h with
  | start => simp
  | step before step returns ih =>
    intro statuses hmem
    rw [List.filterMap_append, List.mem_append] at hmem
    rcases hmem with hearlier | hlast
    · exact ih statuses hearlier
    · have hstatuses : step.statuses? config = some statuses := by simpa using hlast
      exact exists_outcome_of_returns returns hstatuses

theorem last_of_leaves {config : Config} {steps : List Step} {s : Session}
    (h : Leaves config steps s) :
    s.last = (steps.filterMap (Step.statuses? config)).getLast?.bind
      (·.findSome? Outcome.ofStatus?) := by
  induction h with
  | start => rfl
  | step before step returns ih =>
    rw [List.filterMap_append]
    cases hstatuses : step.statuses? config with
    | none =>
      -- the line has no child, and so the last one is that of the lines before
      rw [last_execute_of_no_child hstatuses, ih]
      simp [hstatuses]
    | some statuses =>
      obtain ⟨outcome, hfirst⟩ := exists_outcome_of_returns returns hstatuses
      rw [last_execute_of_child hstatuses hfirst]
      simp [hstatuses, hfirst]

theorem exists_leaves_of_append {config : Config} {before later : List Step} {s : Session}
    (h : Leaves config (before ++ later) s) : ∃ t, Leaves config before t := by
  generalize hsteps : before ++ later = steps at h
  induction h generalizing later with
  | start =>
    rw [(List.append_eq_nil_iff.mp hsteps).1]
    exact ⟨_, .start⟩
  | step earlier step returns ih =>
    rcases later.eq_nil_or_concat with rfl | ⟨between, last, rfl⟩
    · rw [List.append_nil] at hsteps
      rw [hsteps]
      exact ⟨_, .step earlier step returns⟩
    · rw [List.concat_eq_append, ← List.append_assoc] at hsteps
      exact ih (List.append_inj_left' hsteps rfl)

/-- The children of a history of lines that came back: the system was given the vectors of the
programs among them that could be passed, in order and each once. Every child that it started has
ended, and the last outcome is the end of the last of them; a line without a child has left it as it
was. -/
theorem children_of_leaves {config : Config} {steps : List Step} {s : Session}
    (h : Leaves config steps s) :
    s.spawned = steps.filterMap (Step.handed? config)
      ∧ (∀ statuses ∈ steps.filterMap (Step.statuses? config),
          ∃ outcome, statuses.findSome? Outcome.ofStatus? = some outcome)
      ∧ s.last = (steps.filterMap (Step.statuses? config)).getLast?.bind
          (·.findSome? Outcome.ofStatus?)
      ∧ ∀ before step later, steps = before ++ step :: later → step.statuses? config = none →
          ∃ t, Leaves config before t
            ∧ (t.execute step.world config step.line).2.last = t.last := by
  refine ⟨spawned_of_leaves h, ended_of_leaves h, last_of_leaves h, ?_⟩
  intro before step later hsteps hnone
  obtain ⟨t, hbefore⟩ := exists_leaves_of_append (hsteps ▸ h)
  exact ⟨t, hbefore, last_execute_of_no_child hnone t⟩

/-- A world with a program `run` that stops, goes on and exits with 3, or with 1 if it has no
arguments, one that is killed, and one that the system refuses to start. -/
def mixedWorld : World where
  program? vector :=
    if vector = ["run"] then some (.runs [] [0x0100])
    else if vector.head? = some "run" then some (.runs [] [0x137F, 0x0300])
    else if vector.head? = some "crash" then some (.runs [] [9])
    else if vector.head? = some "locked" then some (.refused (.numbered 13 "Permission denied"))
    else none

/-- Three children, two of them of one program, and lines that have none: builtins that fail, a
program that does not exist, one that is refused, an argument that cannot be passed, and a bare
`exit`. -/
theorem children_of_leaves_mixed :
    let steps : List Step :=
      [⟨mixedWorld, "crash"⟩, ⟨mixedWorld, "run"⟩, ⟨mixedWorld, "exit abc"⟩,
        ⟨mixedWorld, "locked x"⟩, ⟨mixedWorld, "run \"a b\""⟩, ⟨mixedWorld, "proc"⟩,
        ⟨mixedWorld, "missing\t-v"⟩, ⟨mixedWorld, "echo a\\0"⟩, ⟨mixedWorld, "run \x00"⟩,
        ⟨mixedWorld, "exit"⟩]
    ∃ s, Leaves .default steps s
      ∧ s.spawned = ([["crash"], ["run"], ["locked", "x"], ["run", "\"a", "b\""], ["missing", "-v"],
          ["echo", "a"]] : List (List Text))
      ∧ s.last = some (.exited 3) := by
  intro steps
  have hleaves : Leaves .default steps _ :=
    Leaves.start |>.step _ (.of_carryOn rfl) |>.step _ (.of_carryOn rfl)
      |>.step _ (.of_carryOn rfl) |>.step _ (.of_carryOn rfl) |>.step _ (.of_carryOn rfl)
      |>.step _ (.of_carryOn rfl) |>.step _ (.of_carryOn rfl) |>.step _ (.of_carryOn rfl)
      |>.step _ (.of_carryOn rfl) |>.step _ (.of_stop rfl)
  obtain ⟨hspawned, _, hlast, _⟩ := children_of_leaves hleaves
  refine ⟨_, hleaves, hspawned.trans ?_, hlast.trans ?_⟩
  · decide +kernel
  · decide +kernel

end Session

end LineShell
