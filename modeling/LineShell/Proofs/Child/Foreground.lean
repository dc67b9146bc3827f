import LineShell.Child.Foreground
import LineShell.Proofs.Text.Encoding

/- What reaches the system when a program is run, and what the waiting comes to.

   A run ends at one of four points: without a command, with a vector that is refused, with a
   program that the system does not start, or with what a child comes to (`comes_run`). A vector is
   refused before the system sees it exactly if its name is empty or one of its texts cannot be
   passed (`refusal?_eq_none_iff`); every other vector is handed over once and as it is
   (`spawned_run`), whether or not a program of the name exists. If the system starts it, its
   statuses decide what the run comes to (`ending_run_iff`): the first that reports an end is its
   outcome, and without one the child is lost. -/
namespace LineShell.Foreground

theorem refusal?_eq_none_iff (program : Text) (arguments : List Text) :
    refusal? program arguments = none
      ↔ (∀ a ∈ program :: arguments, a.IsPassable) ∧ program ≠ [] := by
  have hfaults : (program :: arguments).findSome? Text.fault? = none
      ↔ ∀ a ∈ program :: arguments, a.IsPassable := by
    rw [List.findSome?_eq_none_iff]
    exact forall_congr' fun a => imp_congr_right fun _ => Text.fault?_eq_none_iff a
  rw [← hfaults, refusal?]
  cases (program :: arguments).findSome? Text.fault? with
  | some fault => simp
  | none => cases program <;> simp

/-- A status that reports a stop: its low seven bits are all set. -/
def IsStop (status : Int) : Prop := status % 128 = 127

theorem ofStatus?_eq_none_iff (status : Int) : Outcome.ofStatus? status = none ↔ IsStop status := by
  rw [Outcome.ofStatus?, IsStop]
  split
  · next h => simp; omega
  · next h =>
    split
    · next hstop => simp [hstop]
    · next hstop => simp [hstop]

theorem await_eq_none_iff (statuses : List Int) :
    (await statuses).1 = none ↔ ∀ status ∈ statuses, IsStop status := by
  induction statuses with
  | nil => simp [await]
  | cons status later ih =>
    rw [List.forall_mem_cons, ← ih, ← ofStatus?_eq_none_iff, await]
    cases Outcome.ofStatus? status <;> simp

theorem await_fst (statuses : List Int) :
    (await statuses).1 = statuses.findSome? Outcome.ofStatus? := by
  induction statuses with
  | nil => rfl
  | cons status later ih =>
    rw [await, List.findSome?_cons]
    cases Outcome.ofStatus? status with
    | none => exact ih
    | some outcome => rfl

theorem one_le_await (statuses : List Int) : 1 ≤ (await statuses).2 := by
  cases statuses with
  | nil => exact Nat.le_refl 1
  | cons status later =>
    rw [await]
    split
    · exact Nat.le_refl 1
    · exact Nat.le_add_left 1 _

/-- What a child comes to that the system has started: its first end, or nothing. -/
def endingOf (statuses : List Int) : Ending :=
  ((statuses.findSome? Outcome.ofStatus?).map .finished).getD .lost

theorem run_of_runs {world : World} {program : Text} {arguments : List Text} {output : Bytes}
    {statuses : List Int} (hhanded : refusal? program arguments = none)
    (hruns : world.program? (program :: arguments) = some (.runs output statuses)) :
    run world (program :: arguments)
      = { spawned := [program :: arguments], waits := (await statuses).2, output,
          ending := endingOf statuses } := by
  rw [run, hhanded, hruns, endingOf, ← await_fst]

theorem endingOf_ne_notStarted (statuses : List Int) (error : ShellError) :
    endingOf statuses ≠ .notStarted error := by
  rw [endingOf]
  cases statuses.findSome? Outcome.ofStatus? <;> simp

/-- The system does not start a vector: it has no program of the name, or refuses it. -/
inductive Refuses (world : World) (vector : List Text) : OsError → Prop where
  | absent (h : world.program? vector = none) : Refuses world vector .noEntry
  | refused {error : OsError} (h : world.program? vector = some (.refused error)) :
    Refuses world vector error

theorem refuses_iff (world : World) (vector : List Text) (cause : OsError) :
    Refuses world vector cause
      ↔ world.program? vector = some (.refused cause)
        ∨ world.program? vector = none ∧ cause = .noEntry := by
  refine ⟨?_, ?_⟩
  · intro h
    cases h with
    | absent hnone => exact .inr ⟨hnone, rfl⟩
    | refused hsome => exact .inl hsome
  · intro h
    rcases h with hsome | ⟨hnone, rfl⟩
    · exact .refused hsome
    · exact .absent hnone

section

variable {world : World} {vector : List Text} {cause : OsError} (h : Refuses world vector cause)

include h

theorem Refuses.not_runs (output : Bytes) (statuses : List Int) :
    world.program? vector ≠ some (.runs output statuses) := by
  cases h with
  | absent hnone => simp [hnone]
  | refused hsome => simp [hsome]

theorem Refuses.unique {other : OsError} (hother : Refuses world vector other) : cause = other := by
  cases h with
  | absent hnone =>
    cases hother with
    | absent _ => rfl
    | refused hsome => exact absurd (hnone.symm.trans hsome) (by simp)
  | refused hsome =>
    cases hother with
    | absent hnone => exact absurd (hnone.symm.trans hsome) (by simp)
    | refused hagain => exact (Program.refused.inj (Option.some.inj (hsome.symm.trans hagain)))

end

/-- What a run can come to: one case for each point at which it can end. -/
inductive Comes (world : World) : List Text → Report → Prop where
  | noCommand : Comes world [] { ending := .notStarted .noCommand }
  | rejected {program : Text} {arguments : List Text} {refusal : Refusal}
      (hrefusal : refusal? program arguments = some refusal) :
    Comes world (program :: arguments) { ending := .notStarted (.notStarted program refusal) }
  | refused {program : Text} {arguments : List Text} {cause : OsError}
      (hhanded : refusal? program arguments = none)
      (hrefuses : Refuses world (program :: arguments) cause) :
    Comes world (program :: arguments)
      { spawned := [program :: arguments],
        ending := .notStarted (.notStarted program (.system cause)) }
  | started {program : Text} {arguments : List Text} {output : Bytes} {statuses : List Int}
      (hhanded : refusal? program arguments = none)
      (hruns : world.program? (program :: arguments) = some (.runs output statuses)) :
    Comes world (program :: arguments)
      { spawned := [program :: arguments], waits := (await statuses).2, output,
        ending := endingOf statuses }

/-- Every run comes to one of these. -/
theorem comes_run (world : World) (vector : List Text) : Comes world vector (run world vector) := by
  cases vector with
  | nil => exact .noCommand
  | cons program arguments =>
    cases hhanded : refusal? program arguments with
    | some refusal =>
      rw [run, hhanded]
      exact .rejected hhanded
    | none =>
      cases hprogram : world.program? (program :: arguments) with
      | none =>
        rw [run, hhanded, hprogram]
        exact .refused hhanded (.absent hprogram)
      | some answer =>
        cases answer with
        | refused error =>
          rw [run, hhanded, hprogram]
          exact .refused hhanded (.refused hprogram)
        | runs output statuses =>
          rw [run_of_runs hhanded hprogram]
          exact .started hhanded hprogram

/-- A vector that is not refused is the one that reaches the system. -/
theorem spawned_run {program : Text} {arguments : List Text}
    (h : refusal? program arguments = none) (world : World) :
    (run world (program :: arguments)).spawned = [program :: arguments] := by
  have hcomes := comes_run world (program :: arguments)
  generalize run world (program :: arguments) = report at hcomes
  cases hcomes with
  | rejected hrefusal => cases h.symm.trans hrefusal
  | refused _ _ => rfl
  | started _ _ => rfl

theorem spawned_run_of_refused {program : Text} {arguments : List Text}
    (h : refusal? program arguments ≠ none) (world : World) :
    (run world (program :: arguments)).spawned = [] := by
  have hcomes := comes_run world (program :: arguments)
  generalize run world (program :: arguments) = report at hcomes
  cases hcomes with
  | rejected _ => rfl
  | refused hhanded _ => exact absurd hhanded h
  | started hhanded _ => exact absurd hhanded h

theorem ending_run_of_runs {world : World} {program : Text} {arguments : List Text} {output : Bytes}
    {statuses : List Int} (hhanded : refusal? program arguments = none)
    (hruns : world.program? (program :: arguments) = some (.runs output statuses)) :
    (run world (program :: arguments)).ending = endingOf statuses := by
  rw [run_of_runs hhanded hruns]

/-- A run that was started at all comes to what its child does. -/
theorem ending_run_iff (world : World) (program : Text) (arguments : List Text) {ending : Ending}
    (hstarted : ∀ error, ending ≠ .notStarted error) :
    (run world (program :: arguments)).ending = ending
      ↔ refusal? program arguments = none ∧
        ∃ output statuses, world.program? (program :: arguments) = some (.runs output statuses) ∧
          endingOf statuses = ending := by
  refine ⟨?_, ?_⟩
  · intro hends
    have hcomes := comes_run world (program :: arguments)
    generalize run world (program :: arguments) = report at hcomes hends
    cases hcomes with
    | rejected _ => exact absurd hends.symm (hstarted _)
    | refused _ _ => exact absurd hends.symm (hstarted _)
    | started hhanded hruns => exact ⟨hhanded, _, _, hruns, hends⟩
  · intro ⟨hhanded, _, _, hruns, hends⟩
    rw [ending_run_of_runs hhanded hruns, hends]

/-- A vector that is not refused before is not started only if the system says so: it refuses the
program or has none of the name. -/
theorem ending_run_eq_notStarted_iff {world : World} {program : Text} {arguments : List Text}
    (hhanded : refusal? program arguments = none) (error : ShellError) :
    (run world (program :: arguments)).ending = .notStarted error
      ↔ ∃ cause, error = .notStarted program (.system cause)
        ∧ (world.program? (program :: arguments) = some (.refused cause)
          ∨ world.program? (program :: arguments) = none ∧ cause = .noEntry) := by
  have hcomes := comes_run world (program :: arguments)
  generalize run world (program :: arguments) = report at hcomes
  cases hcomes with
  | rejected hrefusal => cases hhanded.symm.trans hrefusal
  | @refused _ _ cause _ hrefuses =>
    simp only [← refuses_iff, Ending.notStarted.injEq]
    refine ⟨?_, ?_⟩
    · intro herror
      exact ⟨cause, herror.symm, hrefuses⟩
    · intro ⟨other, herror, hother⟩
      rw [herror, hrefuses.unique hother]
  | started _ hruns =>
    simp only [← refuses_iff]
    refine iff_of_false (endingOf_ne_notStarted _ error) ?_
    intro ⟨_, _, hrefuses⟩
    exact hrefuses.not_runs _ _ hruns

theorem output_run_of_notStarted {world : World} {program : Text} {arguments : List Text}
    {error : ShellError} (h : (run world (program :: arguments)).ending = .notStarted error) :
    (run world (program :: arguments)).output = [] := by
  have hcomes := comes_run world (program :: arguments)
  generalize run world (program :: arguments) = report at h hcomes
  cases hcomes with
  | rejected _ => rfl
  | refused _ _ => rfl
  | started _ _ => exact absurd h (endingOf_ne_notStarted _ error)

theorem errorClass_of_notStarted {world : World} {vector : List Text} {error : ShellError}
    (h : (run world vector).ending = .notStarted error) : error.errorClass = .spawn := by
  have hcomes := comes_run world vector
  generalize run world vector = report at h hcomes
  cases hcomes with
  | noCommand =>
    cases h
    rfl
  | rejected _ =>
    cases h
    rfl
  | refused _ _ =>
    cases h
    rfl
  | started _ _ => exact absurd h (endingOf_ne_notStarted _ error)

theorem ending_run_eq_finished_iff (world : World) (program : Text) (arguments : List Text)
    (outcome : Outcome) :
    (run world (program :: arguments)).ending = .finished outcome
      ↔ refusal? program arguments = none ∧
        ∃ output statuses, world.program? (program :: arguments) = some (.runs output statuses) ∧
          statuses.findSome? Outcome.ofStatus? = some outcome := by
  have hends : ∀ statuses, endingOf statuses = .finished outcome
      ↔ statuses.findSome? Outcome.ofStatus? = some outcome := by
    intro statuses
    rw [endingOf]
    cases statuses.findSome? Outcome.ofStatus? <;> simp
  rw [ending_run_iff world program arguments (by simp)]
  simp only [hends]

theorem ending_run_eq_lost_iff (world : World) (program : Text) (arguments : List Text) :
    (run world (program :: arguments)).ending = .lost
      ↔ refusal? program arguments = none ∧
        ∃ output statuses, world.program? (program :: arguments) = some (.runs output statuses) ∧
          ∀ status ∈ statuses, IsStop status := by
  have hends : ∀ statuses, endingOf statuses = .lost ↔ ∀ status ∈ statuses, IsStop status := by
    intro statuses
    rw [← await_eq_none_iff, await_fst, endingOf]
    cases statuses.findSome? Outcome.ofStatus? <;> simp
  rw [ending_run_iff world program arguments (by simp)]
  simp only [hends]

end LineShell.Foreground
