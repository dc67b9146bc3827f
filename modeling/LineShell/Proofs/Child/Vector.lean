import LineShell.Proofs.Child.Foreground

/- What is said of a vector that is not started.

   The texts of a vector are looked at one by one, the name of the program first and then every
   argument, the name among them again; an empty name is found last. All that is wrong with a vector
   is `failedChecks`, in this order, and the first of it is what is reported (`refusal?_eq_head?`).
   Nothing is wrong exactly with the vectors that are not rejected (`not_rejected_iff`), and those
   reach the system, which may still refuse them. So every vector comes to an outcome, to an error
   that names the program and why it was not started, or to a lost child (`run_settles`). -/
namespace LineShell

/-- All that keeps a text from being handed over: it is encoded first, and then looked at for a NUL.
-/
def Text.faults (t : Text) : List TextFault :=
  (Encoding.rawBytes.fault? t).toList.map .unencodable
    ++ if t.contains '\x00' then [.embeddedNul] else []

theorem Text.head?_faults (t : Text) : t.faults.head? = t.fault? := by
  rw [Text.faults, Text.fault?]
  cases Encoding.rawBytes.fault? t with
  | some fault => rfl
  | none =>
    show (if t.contains '\x00' then [TextFault.embeddedNul] else []).head? = _
    split <;> rfl

namespace Foreground

/-- The checks that a vector fails, in the order in which they are made. -/
def failedChecks (program : Text) (arguments : List Text) : List Refusal :=
  ((program :: program :: arguments).flatMap Text.faults).map .unpassable
    ++ if program.isEmpty then [.emptyName] else []

/-- The first check that fails is the one that is reported. -/
theorem refusal?_eq_head? (program : Text) (arguments : List Text) :
    refusal? program arguments = (failedChecks program arguments).head? := by
  -- the name is looked at twice, and the second time nothing new is found
  have htwice : (program :: program :: arguments).findSome? Text.fault?
      = (program :: arguments).findSome? Text.fault? := by
    rw [List.findSome?_cons, List.findSome?_cons]
    cases program.fault? <;> rfl
  rw [failedChecks, List.head?_append, List.head?_map, List.head?_flatMap]
  simp only [Text.head?_faults]
  rw [htwice, refusal?]
  cases (program :: arguments).findSome? Text.fault? with
  | some fault => rfl
  | none => cases program <;> rfl

/-- A vector that the system does not get to see. -/
inductive Rejected : List Text → Prop where
  | noCommand : Rejected []
  | emptyName (arguments : List Text) : Rejected ([] :: arguments)
  | nul {vector : List Text} {a : Text} (ha : a ∈ vector) (hnul : CodePoint.ofChar '\x00' ∈ a) :
    Rejected vector
  | surrogate {vector : List Text} {a : Text} {c : CodePoint} (ha : a ∈ vector) (hc : c ∈ a)
      (hsurrogate : c.isSurrogate = true) (hraw : c.isRawByte = false) : Rejected vector

theorem isPassable_of_not_rejected {vector : List Text} (h : ¬Rejected vector) {a : Text}
    (ha : a ∈ vector) : a.IsPassable := by
  refine ⟨?_, fun hnul => h (.nul ha hnul)⟩
  intro c hc hsurrogate
  exact Bool.of_not_eq_false fun hraw => h (.surrogate ha hc hsurrogate hraw)

/-- Nothing is found wrong exactly with a vector that is not rejected. -/
theorem not_rejected_iff (program : Text) (arguments : List Text) :
    ¬Rejected (program :: arguments) ↔ refusal? program arguments = none := by
  rw [refusal?_eq_none_iff]
  refine ⟨?_, ?_⟩
  · intro h
    refine ⟨fun a ha => isPassable_of_not_rejected h ha, ?_⟩
    intro hname
    rw [hname] at h
    exact h (.emptyName arguments)
  · intro h hrejected
    obtain ⟨hpassable, hname⟩ := h
    cases hrejected with
    | emptyName _ => exact hname rfl
    | nul ha hnul => exact (hpassable _ ha).2 hnul
    | surrogate ha hc hsurrogate hraw =>
      have hbyte := (hpassable _ ha).1 _ hc hsurrogate
      rw [hraw] at hbyte
      cases hbyte

theorem rejected_of_refusal {program : Text} {arguments : List Text} {refusal : Refusal}
    (h : refusal? program arguments = some refusal) : Rejected (program :: arguments) := by
  apply Classical.byContradiction
  intro hno
  rw [(not_rejected_iff program arguments).mp hno] at h
  cases h

/-- How a run of a vector ends and what is said of it. -/
structure Settles (world : World) (vector : List Text) (report : Report) : Prop where
  /-- It comes to an outcome, to an error, or to a child that the system started and that is lost. -/
  ends : (∃ outcome, report.ending = .finished outcome)
    ∨ (∃ error, report.ending = .notStarted error ∧ error.errorClass = .spawn)
    ∨ (report.ending = .lost ∧ report.spawned = [vector] ∧ 1 ≤ report.waits
      ∧ ∃ output statuses, world.program? vector = some (.runs output statuses))
  /-- The rejected vectors are those that end with an error before the system sees anything. -/
  rejected : (∃ error, report.ending = .notStarted error) ∧ report.spawned = [] ↔ Rejected vector
  /-- Every other vector reaches the system once and as it is, and only the system can refuse it. -/
  handed : ¬Rejected vector → report.spawned = [vector]
    ∧ ((∃ error, report.ending = .notStarted error) ↔ ∃ cause, Refuses world vector cause)
  /-- Without a child nothing is waited for. -/
  unwaited : ∀ error, report.ending = .notStarted error → report.waits = 0
  /-- The message starts with the program, if there is one. -/
  named : ∀ error, report.ending = .notStarted error →
    ∀ program ∈ vector.head?, (program ++ (": " : Text)) <+: error.message
  /-- Without a program the message says so. -/
  unnamed : vector = [] →
    ∃ error, report.ending = .notStarted error ∧ error.message = "no command to execute"
  /-- What is reported is the first check that fails, -/
  first : ∀ program arguments refusal, vector = program :: arguments →
    (failedChecks program arguments).head? = some refusal →
    report.ending = .notStarted (.notStarted program refusal)
  /-- and what the system says if none does. -/
  refused : ¬Rejected vector → ∀ program ∈ vector.head?, ∀ cause, Refuses world vector cause →
    report.ending = .notStarted (.notStarted program (.system cause))

variable {world : World} {program : Text} {arguments : List Text}

theorem settles_noCommand : Settles world [] { ending := .notStarted .noCommand } where
  ends := .inr (.inl ⟨_, rfl, rfl⟩)
  rejected := ⟨fun _ => .noCommand, fun _ => ⟨⟨_, rfl⟩, rfl⟩⟩
  handed h := absurd .noCommand h
  unwaited _ _ := rfl
  named _ _ _ hprogram := by cases hprogram
  unnamed _ := ⟨_, rfl, rfl⟩
  first _ _ _ hvector := by cases hvector
  refused h := absurd .noCommand h

theorem settles_rejected {refusal : Refusal} (h : refusal? program arguments = some refusal) :
    Settles world (program :: arguments) { ending := .notStarted (.notStarted program refusal) } where
  ends := .inr (.inl ⟨_, rfl, rfl⟩)
  rejected := ⟨fun _ => rejected_of_refusal h, fun _ => ⟨⟨_, rfl⟩, rfl⟩⟩
  handed hno := absurd (rejected_of_refusal h) hno
  unwaited _ _ := rfl
  named _ herror _ hprogram := by
    cases herror
    cases hprogram
    exact List.prefix_append _ _
  unnamed hvector := by cases hvector
  first _ _ other hvector hfirst := by
    cases hvector
    rw [← refusal?_eq_head?, h] at hfirst
    cases hfirst
    rfl
  refused hno := absurd (rejected_of_refusal h) hno

section

variable (hhanded : refusal? program arguments = none)

include hhanded

theorem head?_failedChecks_of_handed (refusal : Refusal) {name : Text} {others : List Text}
    (hvector : program :: arguments = name :: others) :
    (failedChecks name others).head? ≠ some refusal := by
  cases hvector
  rw [← refusal?_eq_head?, hhanded]
  simp

theorem settles_refused {cause : OsError} (h : Refuses world (program :: arguments) cause) :
    Settles world (program :: arguments)
      { spawned := [program :: arguments],
        ending := .notStarted (.notStarted program (.system cause)) } where
  ends := .inr (.inl ⟨_, rfl, rfl⟩)
  rejected := by
    refine iff_of_false (fun hnone => by cases hnone.2) ?_
    exact (not_rejected_iff program arguments).mpr hhanded
  handed _ := ⟨rfl, fun _ => ⟨cause, h⟩, fun _ => ⟨_, rfl⟩⟩
  unwaited _ _ := rfl
  named _ herror _ hprogram := by
    cases herror
    cases hprogram
    exact List.prefix_append _ _
  unnamed hvector := by cases hvector
  first _ _ refusal hvector hfirst :=
    absurd hfirst (head?_failedChecks_of_handed hhanded refusal hvector)
  refused _ _ hprogram other hother := by
    cases hprogram
    rw [h.unique hother]

theorem settles_started {output : Bytes} {statuses : List Int}
    (hruns : world.program? (program :: arguments) = some (.runs output statuses)) :
    Settles world (program :: arguments)
      { spawned := [program :: arguments], waits := (await statuses).2, output,
        ending := endingOf statuses } where
  ends := by
    rw [endingOf]
    cases statuses.findSome? Outcome.ofStatus? with
    | some outcome => exact .inl ⟨outcome, rfl⟩
    | none => exact .inr (.inr ⟨rfl, rfl, one_le_await statuses, output, statuses, hruns⟩)
  rejected := by
    refine iff_of_false (fun hnone => by cases hnone.2) ?_
    exact (not_rejected_iff program arguments).mpr hhanded
  handed _ := by
    refine ⟨rfl, ?_, ?_⟩
    · intro hnotStarted
      obtain ⟨error, herror⟩ := hnotStarted
      exact absurd herror (endingOf_ne_notStarted statuses error)
    · intro hrefused
      obtain ⟨cause, hcause⟩ := hrefused
      exact absurd hruns (hcause.not_runs output statuses)
  unwaited error herror := absurd herror (endingOf_ne_notStarted statuses error)
  named error herror := absurd herror (endingOf_ne_notStarted statuses error)
  unnamed hvector := by cases hvector
  first _ _ refusal hvector hfirst :=
    absurd hfirst (head?_failedChecks_of_handed hhanded refusal hvector)
  refused _ _ _ cause hcause := absurd hruns (hcause.not_runs output statuses)

end

/-- Every vector in every world: it is rejected before the system sees it, and then the first check
that it fails is reported; or it is handed over once as it is, and either the system refuses it,
which is reported, or a child is started and waited for. No error is waited for, and every error
names the program. -/
theorem run_settles (world : World) (vector : List Text) :
    Settles world vector (run world vector) := by
  have hcomes := comes_run world vector
  generalize run world vector = report at hcomes
  cases hcomes with
  | noCommand => exact settles_noCommand
  | rejected hrefusal => exact settles_rejected hrefusal
  | refused hhanded hrefuses => exact settles_refused hhanded hrefuses
  | started hhanded hruns => exact settles_started hhanded hruns

/-- A NUL in a later argument is found before the empty name. -/
example : (run {} ["", "a\x00"]).ending = .notStarted (.notStarted [] (.unpassable .embeddedNul)) := by
  decide

end Foreground

end LineShell
