import LineShell.Proofs.Session.Loop
import LineShell.Proofs.Session.Reads

/- What does not depend on how the input comes.

   An interrupted read shows the prompt and a newline and has no other effect: with interrupts a run
   comes to what it comes to without them, and each interrupt that it meets shows once on its output
   (`ofConfig_interrupted`). Both runs make the same turns, and between two of them the interrupted
   one may make any number of its own, in which only its output gets longer (`Session.Retried`).

   A terminal gives lines without their newlines. These are not looked at, so all that it changes is
   the newline that it shows at the end of the input (`ofConfig_terminal`). -/
namespace LineShell

/-! ## Insertions -/

/-- The longer of two lists is the shorter one with copies of `extra` put in, so many of them. -/
inductive Inserted {α : Type} (extra : List α) : Nat → List α → List α → Prop where
  | nil : Inserted extra 0 [] []
  | both {n : Nat} {short long : List α} (h : Inserted extra n short long) (a : α) :
    Inserted extra n (short ++ [a]) (long ++ [a])
  | extra {n : Nat} {short long : List α} (h : Inserted extra n short long) :
    Inserted extra (n + 1) short (long ++ extra)

namespace Inserted

variable {α : Type} {extra short long : List α} {n : Nat}

theorem append (h : Inserted extra n short long) (later : List α) :
    Inserted extra n (short ++ later) (long ++ later) := by
  induction later generalizing short long with
  | nil =>
    rw [List.append_nil, List.append_nil]
    exact h
  | cons a later ih =>
    rw [List.append_cons short, List.append_cons long]
    exact ih (h.both a)

theorem filter_eq (h : Inserted extra n short long) {p : α → Bool}
    (hextra : ∀ a ∈ extra, p a = false) : long.filter p = short.filter p := by
  induction h with
  | nil => rfl
  | both h a ih => rw [List.filter_append, List.filter_append, ih]
  | extra h ih =>
    have hnone : extra.filter p = [] := List.filter_eq_nil_iff.mpr fun a ha => by simp [hextra a ha]
    rw [List.filter_append, hnone, List.append_nil, ih]

end Inserted

/-! ## Interrupts -/

/-- What an interrupted read leaves on the output: its prompt, and a newline. -/
def Run.retry (config : Config) : List Chunk :=
  [⟨.prompt, config.prompt.bytes⟩, ⟨.prompt, [0x0A]⟩]

/-- All records of the two sessions are the same, but for what so many interrupted reads have left on
the output of the second. -/
structure Session.Retried (config : Config) (n : Nat) (calm tried : Session) : Prop where
  records : tried = { calm with output := tried.output }
  output : Inserted (Run.retry config) n calm.output tried.output

namespace Session.Retried

variable {config : Config} {n : Nat} {calm tried : Session}

theorem prompt (h : Retried config n calm tried) (bytes : Bytes) :
    Retried config n (calm.prompt bytes) (tried.prompt bytes) := by
  refine ⟨?_, h.output.append _⟩
  rw [h.records]
  rfl

theorem add (h : Retried config n calm tried) (e : Effect) :
    Retried config n (calm.add e) (tried.add e) := by
  refine ⟨?_, h.output.append _⟩
  rw [h.records]
  rfl

theorem log (h : Retried config n calm tried) (entry : Entry) :
    Retried config n { calm with logger := calm.logger.log entry }
      { tried with logger := tried.logger.log entry } := by
  refine ⟨?_, h.output⟩
  rw [h.records]

theorem writes (h : Retried config n calm tried) : tried.writes = calm.writes := by
  rw [h.records]

theorem interrupted (h : Retried config n calm tried) :
    Retried config (n + 1) calm ((tried.prompt config.prompt.bytes).prompt [0x0A]) := by
  refine ⟨?_, ?_⟩
  · rw [h.records]
    rfl
  · have hboth : ((tried.prompt config.prompt.bytes).prompt [0x0A]).output
        = tried.output ++ Run.retry config := List.append_assoc _ _ _
    rw [hboth]
    exact h.output.extra

end Session.Retried

namespace Run

variable {worlds : Nat → World} {config : Config} {terminal : Bool} {interrupts : List Nat}

theorem keeps_retried (world : World) (config : Config) (n : Nat) :
    Keeps world config config (Session.Retried config n) where
  newline h := h.prompt _
  log entry h := h.log entry
  ending line h := by rw [h.writes]
  add line h := by
    rw [h.writes]
    exact h.add _

theorem answer_of_not_interrupted {reads : Nat} {lines later : List Text} {reading : Reading}
    (hread : Input.answer interrupts reads lines = (reading, later))
    (hreading : reading ≠ .interrupted) (calmReads : Nat) :
    Input.answer [] calmReads lines = (reading, later) := by
  have hfree := (Input.interrupted_iff_of_answer hread).not.mp hreading
  rw [← hread]
  simp [Input.answer, hfree]

/-- With interrupts the loop answers the same lines in the same way, and its other turns only show
the prompt and a newline. -/
theorem exists_loops_of_interrupted {tried : Session} {taken reads : Nat} {lines : List Text}
    {answers : List Reading} {run : Run}
    (h : Loops worlds config terminal interrupts tried taken reads lines answers run) {n : Nat}
    {calm : Session} (hcalm : calm.Retried config n tried) (calmReads : Nat) :
    ∃ undisturbed, Loops worlds config terminal [] calm taken calmReads lines
        (answers.filter (· ≠ .interrupted)) undisturbed
      ∧ run.ending = undisturbed.ending
      ∧ undisturbed.session.Retried config (n + answers.count .interrupted) run.session := by
  induction h generalizing n calm calmReads with
  | unprompted hprompt => exact ⟨_, .unprompted (printPrompt_of_error hprompt calm), rfl, hcalm⟩
  | @ends s prompted last taken reads lines later reading ending hprompt hread hturn =>
    have hprints := printPrompt_of_ok hprompt
    cases (hprints s).symm.trans hprompt
    have hreading : reading ≠ .interrupted := by
      rintro rfl
      cases hturn
    obtain ⟨calmLast, hcalmTurn, hsession⟩ :=
      exists_turn_of_keeps (keeps_retried (worlds taken) config n) (hcalm.prompt _) hturn
    rw [List.filter_cons_of_pos (by simpa using hreading), List.count_cons_of_ne hreading]
    exact ⟨_, .ends (hprints calm) (answer_of_not_interrupted hread hreading calmReads) hcalmTurn,
      rfl, hsession⟩
  | @goesOn s prompted next taken reads lines later reading answers run hprompt hread hturn hlater
      ih =>
    have hprints := printPrompt_of_ok hprompt
    cases (hprints s).symm.trans hprompt
    by_cases hreading : reading = .interrupted
    · -- the turn of an interrupted read is one that the other loop does not make
      subst hreading
      cases hturn
      rw [Input.lines_of_interrupted hread] at ih
      obtain ⟨undisturbed, hloops, hending, hsession⟩ := ih hcalm.interrupted calmReads
      refine ⟨undisturbed, hloops, hending, ?_⟩
      rw [List.count_cons_self, Nat.add_comm _ 1, ← Nat.add_assoc]
      exact hsession
    · obtain ⟨calmNext, hcalmTurn, hnext⟩ :=
        exists_turn_of_keeps (keeps_retried (worlds taken) config n) (hcalm.prompt _) hturn
      obtain ⟨undisturbed, hloops, hending, hsession⟩ := ih hnext (calmReads + 1)
      rw [List.filter_cons_of_pos (by simpa using hreading), List.count_cons_of_ne hreading]
      exact ⟨undisturbed, .goesOn (hprints calm)
        (answer_of_not_interrupted hread hreading calmReads) hcalmTurn hloops, hending, hsession⟩

theorem count_interrupted {s : Session} {taken reads : Nat} {lines : List Text}
    {answers : List Reading} {run : Run}
    (h : Loops worlds config terminal interrupts s taken reads lines answers run) :
    answers.count .interrupted
      = (List.range' reads answers.length).countP (· ∈ interrupts) := by
  induction h with
  | unprompted => rfl
  | ends hprompt hread hturn =>
    rw [List.length_singleton, List.range'_one, List.count_singleton, List.countP_singleton]
    simp [Input.interrupted_iff_of_answer hread]
  | goesOn hprompt hread hturn hlater ih =>
    rw [List.length_cons, List.range'_succ, List.count_cons, List.countP_cons, ih]
    simp [Input.interrupted_iff_of_answer hread]

/-- The run comes to what the calm one does, with so many interrupted reads more: all records and what
commands write are the same, and each of these reads shows once on the output. -/
structure Interrupted (config : Config) (n : Nat) (calm run : Run) : Prop where
  ending : run.ending = calm.ending
  session : calm.session.Retried config n run.session
  commands : run.session.outputBytes (· ≠ .prompt) = calm.session.outputBytes (· ≠ .prompt)
  reads : run.reads = calm.reads + n

theorem commands_of_retried {n : Nat} {calm tried : Session} (h : calm.Retried config n tried) :
    tried.outputBytes (· ≠ .prompt) = calm.outputBytes (· ≠ .prompt) := by
  have hretry : ∀ chunk ∈ retry config, decide (chunk.origin ≠ .prompt) = false := by
    simp [retry]
  rw [Session.outputBytes, Session.outputBytes, h.output.filter_eq hretry]

/-- Interrupts neither drop a line nor repeat one. Whatever the interrupts are, and whatever world
each line meets, the loop comes to an end, and the run ends as it does without them, with the same
records; of the reads that are made, each that is interrupted adds its prompt and a newline to the
output. -/
theorem ofConfig_interrupted (worlds : Nat → World) (config : Config) (arguments : List Text)
    (text : Text) (terminal : Bool) (interrupts : List Nat) :
    let calm := ofConfig worlds config arguments { text, terminal }
    let run := ofConfig worlds config arguments { text, terminal, interrupts }
    calm.Interrupted config ((List.range run.reads).countP (· ∈ interrupts)) run
      ∧ (arguments = [] → ∃ answers,
          Loops worlds config terminal interrupts (.start config) 0 0 text.lines answers run) := by
  intro calm run
  cases arguments with
  | cons argument later =>
    -- a shell that is given arguments does not read at all
    refine ⟨⟨rfl, ⟨rfl, ?_⟩, rfl, rfl⟩, fun h => by cases h⟩
    exact Inserted.nil
  | nil =>
    obtain ⟨answers, tried, hloops⟩ :=
      exists_loops worlds config terminal interrupts (.start config) 0 0 text.lines
    have hstart : (Session.start config).Retried config 0 (.start config) := ⟨rfl, .nil⟩
    obtain ⟨undisturbed, hcalm, hending, hsession⟩ := exists_loops_of_interrupted hloops hstart 0
    have htried : run = tried := (eq_loop_of_loops hloops).symm
    have hundisturbed : calm = undisturbed := (eq_loop_of_loops hcalm).symm
    have hreads : tried.reads = answers.length := by rw [reads_of_loops hloops, Nat.zero_add]
    have hinterrupted : answers.count .interrupted
        = (List.range tried.reads).countP (· ∈ interrupts) := by
      rw [hreads, List.range_eq_range', count_interrupted hloops]
    have hlength : answers.length
        = (answers.filter (· ≠ .interrupted)).length + answers.count .interrupted := by
      rw [← List.countP_eq_length_filter, Nat.add_comm, List.count,
        answers.length_eq_countP_add_countP (· == .interrupted)]
      simp
    rw [Nat.zero_add] at hsession
    rw [htried, hundisturbed, ← hinterrupted]
    refine ⟨⟨hending, hsession, commands_of_retried hsession, ?_⟩, fun _ => ⟨answers, hloops⟩⟩
    rw [hreads, reads_of_loops hcalm, Nat.zero_add]
    exact hlength

/-! ## The terminal -/

theorem turn_terminal (world : World) {reading : Reading} (h : reading ≠ .endOfInput) (s : Session) :
    turn world config true s reading = turn world config false s reading := by
  cases reading with
  | interrupted => rfl
  | line line => exact turn_line_terminal world config true s line
  | endOfInput => exact absurd rfl h

/-- What a terminal makes of a run whose reads had these answers: it shows the end of the input by a
newline. -/
def onTerminal (answers : List Reading) (plain : Run) : Run :=
  if .endOfInput ∈ answers then { plain with session := plain.session.prompt [0x0A] } else plain

theorem onTerminal_cons {reading : Reading} (h : reading ≠ .endOfInput) (answers : List Reading)
    (plain : Run) : onTerminal (reading :: answers) plain = onTerminal answers plain := by
  simp [onTerminal, Ne.symm h]

/-- On a terminal the loop gets the same answers and goes the same way, up to the end of the input. -/
theorem loops_terminal {s : Session} {taken reads : Nat} {lines : List Text}
    {answers : List Reading} {plain : Run}
    (h : Loops worlds config false interrupts s taken reads lines answers plain) :
    Loops worlds config true interrupts s taken reads lines answers
      (plain.onTerminal answers) := by
  induction h with
  | unprompted hprompt => exact .unprompted hprompt
  | @ends s prompted last taken reads lines later reading ending hprompt hread hturn =>
    by_cases hend : reading = .endOfInput
    · subst hend
      cases hturn
      exact .ends hprompt hread rfl
    · rw [onTerminal_cons hend]
      exact .ends hprompt hread ((turn_terminal _ hend prompted).trans hturn)
  | @goesOn s prompted next taken reads lines later reading answers run hprompt hread hturn hlater
      ih =>
    have hmore := ne_endOfInput_of_turn hturn
    rw [onTerminal_cons hmore]
    exact .goesOn hprompt hread ((turn_terminal _ hmore prompted).trans hturn) ih

/-- A terminal makes no difference to a run, except that it shows a newline at the end of the input if
the run reads so far. -/
theorem ofConfig_terminal (worlds : Nat → World) (config : Config) (arguments : List Text)
    (text : Text) (interrupts : List Nat) :
    let plain := ofConfig worlds config arguments { text, interrupts }
    ofConfig worlds config arguments { text, terminal := true, interrupts }
      = plain.onTerminal ((Input.readings { text, interrupts }).take plain.reads) := by
  intro plain
  cases arguments with
  | cons argument later => rfl
  | nil =>
    obtain ⟨answers, run, hloops⟩ :=
      exists_loops worlds config false interrupts (.start config) 0 0 text.lines
    have hplain : plain = run := (eq_loop_of_loops hloops).symm
    have hreads : run.reads = answers.length := by rw [reads_of_loops hloops, Nat.zero_add]
    have hanswers : (Input.readings { text, interrupts }).take run.reads = answers := by
      rw [hreads]
      exact (List.prefix_iff_eq_take.mp (prefix_of_loops hloops)).symm
    rw [hplain, hanswers]
    exact (eq_loop_of_loops (loops_terminal hloops)).symm

end Run
end LineShell
