import Mathlib.Data.List.Perm.Subperm
import Mathlib.Data.List.TakeWhile
import LineShell.Proofs.Session.Loop
import LineShell.Proofs.Text.Encoding

/- The reads of a run, answered one at a time.

   A run is defined over a list of readings that is found beforehand. Here the loop is described as
   it goes: it prompts, makes its next read, which is answered from the lines that are left
   (`Input.answer`), and goes on as long as nothing ends it, with no bound on the number of reads
   (`Loops`). That every such loop comes to an end, and to what the run is defined as, is
   `exists_loops` and `eq_loop_of_loops`. A read that goes on takes away a line or an interrupt, so
   what is left to be read gets shorter with each (`readingsFrom_eq`).

   Two runs are compared by a relation of their sessions: if it is kept by all that a turn does
   (`Keeps`), then related sessions make the same turns (`exists_turn_of_keeps`). -/
namespace LineShell

namespace Input

/-! ## Interrupted reads -/

theorem exists_not_interrupted (interrupts : List Nat) (next : Nat) :
    ∃ k ≤ interrupts.length, next + k ∉ interrupts := by
  apply Classical.byContradiction
  intro hnone
  have hall : List.range' next (interrupts.length + 1) ⊆ interrupts := by
    intro number hnumber
    obtain ⟨hlow, hhigh⟩ := List.mem_range'_1.mp hnumber
    obtain ⟨k, rfl⟩ := Nat.exists_eq_add_of_le hlow
    exact Classical.byContradiction fun hfree => hnone ⟨k, by omega, hfree⟩
  have hlength := (List.subperm_of_subset List.nodup_range' hall).length_le
  rw [List.length_range'] at hlength
  omega

theorem takeWhile_range_succ {p : Nat → Bool} {n k : Nat} (hk : k ≤ n) (h : p k = false) :
    (List.range (n + 1)).takeWhile p = (List.range n).takeWhile p := by
  rw [List.range_succ, List.takeWhile_append]
  split
  · next hfull =>
    have hall : ∀ j ∈ List.range n, p j = true := by
      intro j hj
      rw [← (List.takeWhile_prefix p).eq_of_length hfull] at hj
      exact List.mem_takeWhile_imp hj
    rcases Nat.lt_or_eq_of_le hk with hlt | rfl
    · rw [hall k (List.mem_range.mpr hlt)] at h
      cases h
    · rw [List.takeWhile_cons_of_neg (by rw [h]; exact Bool.false_ne_true), List.append_nil]
      exact ((List.takeWhile_prefix p).eq_of_length hfull).symm
  · rfl

theorem interruptsFrom_of_interrupted {interrupts : List Nat} {next : Nat}
    (h : next ∈ interrupts) :
    interruptsFrom interrupts next = interruptsFrom interrupts (next + 1) + 1 := by
  obtain ⟨n, hn⟩ : ∃ n, interrupts.length = n + 1 :=
    Nat.exists_eq_add_one.mpr (List.length_pos_of_mem h)
  have hshift : (fun k => interrupts.contains (next + k)) ∘ Nat.succ
      = fun k => interrupts.contains (next + 1 + k) := by
    funext k
    rw [Function.comp_apply, Nat.succ_eq_add_one, Nat.add_right_comm, Nat.add_assoc]
  have hfirst : interrupts.contains (next + 0) = true := List.contains_iff_mem.mpr h
  obtain ⟨k, hk, hfree⟩ := exists_not_interrupted interrupts next
  -- the read with that number is not the first one, which is interrupted
  obtain ⟨k, rfl⟩ : ∃ j, k = j + 1 := Nat.exists_eq_succ_of_ne_zero fun h0 => hfree (h0 ▸ h)
  have hlater : interrupts.contains (next + 1 + k) = false := by
    rw [Nat.add_right_comm, Nat.add_assoc]
    simpa using hfree
  have hbound := takeWhile_range_succ (p := fun k => interrupts.contains (next + 1 + k))
    (show k ≤ n by omega) hlater
  rw [interruptsFrom, interruptsFrom, hn, hbound, List.range_succ_eq_map,
    List.takeWhile_cons_of_pos (p := fun k => interrupts.contains (next + k)) hfirst,
    List.length_cons, List.takeWhile_map, List.length_map, hshift]

theorem interruptsFrom_of_free {interrupts : List Nat} {next : Nat} (h : next ∉ interrupts) :
    interruptsFrom interrupts next = 0 := by
  rw [interruptsFrom]
  cases interrupts.length with
  | zero => rfl
  | succ n =>
    rw [List.range_succ_eq_map, List.takeWhile_cons_of_neg (by simpa using h)]
    rfl

/-! ## One read -/

/-- What read number `next` answers when some lines are left, and the lines that it leaves. An
interrupted read takes no line. -/
def answer (interrupts : List Nat) (next : Nat) (lines : List Text) : Reading × List Text :=
  if next ∈ interrupts then (.interrupted, lines)
  else match lines with
    | [] => (.endOfInput, [])
    | line :: later => (.line line, later)

theorem interrupted_iff_of_answer {interrupts : List Nat} {next : Nat} {lines later : List Text}
    {reading : Reading} (h : answer interrupts next lines = (reading, later)) :
    reading = .interrupted ↔ next ∈ interrupts := by
  unfold answer at h
  split at h
  · next hnext =>
    cases h
    exact iff_of_true rfl hnext
  · next hfree =>
    refine iff_of_false ?_ hfree
    rintro rfl
    split at h <;> cases h

theorem lines_of_interrupted {interrupts : List Nat} {next : Nat} {lines later : List Text}
    (h : answer interrupts next lines = (.interrupted, later)) : later = lines := by
  have hnext := (interrupted_iff_of_answer h).mp rfl
  unfold answer at h
  rw [if_pos hnext] at h
  exact (Prod.mk.inj h).2.symm

/-- The readings that are found beforehand are the answers of one read after the other. -/
theorem readingsFrom_eq (interrupts : List Nat) (next : Nat) (lines : List Text) :
    readingsFrom interrupts next lines
      = (answer interrupts next lines).1
        :: if (answer interrupts next lines).1 = .endOfInput then []
          else readingsFrom interrupts (next + 1) (answer interrupts next lines).2 := by
  by_cases h : next ∈ interrupts
  · have hskipped := interruptsFrom_of_interrupted h
    have hnext : answer interrupts next lines = (.interrupted, lines) := if_pos h
    rw [hnext, if_neg (by simp)]
    cases lines with
    | nil =>
      rw [readingsFrom, readingsFrom, hskipped, List.replicate_succ]
      rfl
    | cons line later =>
      have hcount : next + (interruptsFrom interrupts (next + 1) + 1)
          = next + 1 + interruptsFrom interrupts (next + 1) := by omega
      rw [readingsFrom, readingsFrom, hskipped, List.replicate_succ, hcount]
      rfl
  · have hskipped := interruptsFrom_of_free h
    cases lines with
    | nil => simp [readingsFrom, answer, h, hskipped]
    | cons line later => simp [readingsFrom, answer, h, hskipped]

end Input

namespace Run

/-! ## The loop -/

theorem printPrompt_of_encodable {config : Config} (h : config.prompt.IsEncodable) (s : Session) :
    printPrompt config s = .ok (s.prompt config.prompt.bytes) := by
  rw [printPrompt, (Encoding.encode_rawBytes_iff _ _).mpr ⟨h, rfl⟩]

theorem printPrompt_of_ok {config : Config} {s prompted : Session}
    (h : printPrompt config s = .ok prompted) (t : Session) :
    printPrompt config t = .ok (t.prompt config.prompt.bytes) := by
  cases hencode : Encoding.rawBytes.encode config.prompt with
  | error fault =>
    rw [printPrompt, hencode] at h
    cases h
  | ok bytes =>
    exact printPrompt_of_encodable ((Encoding.encode_rawBytes_iff _ _).mp hencode).1 t

theorem printPrompt_of_error {config : Config} {s : Session} {crash : Crash}
    (h : printPrompt config s = .error crash) (t : Session) :
    printPrompt config t = .error crash := by
  rw [printPrompt] at h ⊢
  cases hencode : Encoding.rawBytes.encode config.prompt with
  | error fault =>
    rw [hencode] at h
    exact h
  | ok bytes =>
    rw [hencode] at h
    cases h

variable (world : World) (worlds : Nat → World) (config : Config) (terminal : Bool)
  (interrupts : List Nat)

/-- What the loop makes of the way in which a line has ended. -/
def settle (s : Session) : Ending → Session × Option RunEnding
  | .carryOn => (s, none)
  | .stop => (s, some (.returned 0))
  | .exit status => (s, some (.exited status))
  | .storageExhausted =>
    ({ s with logger := s.logger.log (.error "tokenizer" ShellError.storageExhausted.message) },
      some (.returned failureStatus))
  | .crashed crash => (s, some (.crashed crash))

theorem turn_line_eq (s : Session) (line : Text) :
    turn world config terminal s (.line line)
      = if line.isBlank || !Line.hasArguments line then (s, some (.returned failureStatus))
        else settle (s.add (Effect.ofLine world config s.writes line))
          (Effect.ofLine world config s.writes line).ending := by
  rw [turn_line_terminal]
  simp only [turn, Bool.false_eq_true, if_false, Session.execute]
  split
  · rfl
  · cases (Effect.ofLine world config s.writes line).ending <;> rfl

/-- The loop from a session on, when so many lines have been taken by so many reads and some lines are
left: the answers of the reads that it still makes, and the run that it comes to. -/
inductive Loops : Session → (taken reads : Nat) → List Text → List Reading → Run → Prop where
  | unprompted {s : Session} {taken reads : Nat} {lines : List Text} {crash : Crash}
      (hprompt : printPrompt config s = .error crash) :
    Loops s taken reads lines [] ⟨.crashed crash, s, reads⟩
  | ends {s prompted last : Session} {taken reads : Nat} {lines later : List Text}
      {reading : Reading} {ending : RunEnding} (hprompt : printPrompt config s = .ok prompted)
      (hread : Input.answer interrupts reads lines = (reading, later))
      (hturn : turn (worlds taken) config terminal prompted reading = (last, some ending)) :
    Loops s taken reads lines [reading] ⟨ending, last, reads + 1⟩
  | goesOn {s prompted next : Session} {taken reads : Nat} {lines later : List Text}
      {reading : Reading} {answers : List Reading} {run : Run}
      (hprompt : printPrompt config s = .ok prompted)
      (hread : Input.answer interrupts reads lines = (reading, later))
      (hturn : turn (worlds taken) config terminal prompted reading = (next, none))
      (hlater : Loops next (taken + reading.lines) (reads + 1) later answers run) :
    Loops s taken reads lines (reading :: answers) run

variable {world config terminal} in
theorem ne_endOfInput_of_turn {s next : Session} {reading : Reading}
    (h : turn world config terminal s reading = (next, none)) : reading ≠ .endOfInput := by
  intro hend
  rw [hend, turn] at h
  cases h

/-- The loop comes to an end, whatever the interrupts are. -/
theorem exists_loops (s : Session) (taken reads : Nat) (lines : List Text) :
    ∃ answers run, Loops worlds config terminal interrupts s taken reads lines answers run := by
  -- the readings that are left get fewer with every read
  generalize hreadings : Input.readingsFrom interrupts reads lines = readings
  induction readings generalizing s taken reads lines with
  | nil =>
    rw [Input.readingsFrom_eq] at hreadings
    cases hreadings
  | cons reading left ih =>
    rw [Input.readingsFrom_eq] at hreadings
    obtain ⟨hfirst, hleft⟩ := List.cons.inj hreadings
    cases hprompt : printPrompt config s with
    | error crash => exact ⟨_, _, .unprompted hprompt⟩
    | ok prompted =>
      cases hturn : turn (worlds taken) config terminal prompted
          (Input.answer interrupts reads lines).1 with
      | mk next ending? =>
        cases ending? with
        | some ending => exact ⟨_, _, .ends hprompt rfl hturn⟩
        | none =>
          rw [if_neg (ne_endOfInput_of_turn hturn)] at hleft
          obtain ⟨answers, run, hlater⟩ := ih next _ (reads + 1) _ hleft
          exact ⟨_, _, .goesOn hprompt rfl hturn hlater⟩

section

variable {worlds config terminal interrupts} {s : Session} {taken reads : Nat} {lines : List Text}
  {answers : List Reading} {run : Run}
  (h : Loops worlds config terminal interrupts s taken reads lines answers run)

include h

/-- The loop comes to what the run is defined as. -/
theorem eq_loop_of_loops :
    run = loop worlds config terminal s taken reads
      (Input.readingsFrom interrupts reads lines) := by
  induction h with
  | unprompted hprompt => rw [Input.readingsFrom_eq, loop, hprompt]
  | ends hprompt hread hturn =>
    rw [Input.readingsFrom_eq, hread, loop, hprompt]
    simp only [hturn]
  | goesOn hprompt hread hturn hlater ih =>
    have hmore := ne_endOfInput_of_turn hturn
    rw [Input.readingsFrom_eq, hread, loop, hprompt]
    simp only [hturn, if_neg hmore]
    exact ih

theorem prefix_of_loops :
    answers <+: Input.readingsFrom interrupts reads lines := by
  induction h with
  | unprompted hprompt => exact List.nil_prefix
  | ends hprompt hread hturn =>
    rw [Input.readingsFrom_eq, hread]
    exact ⟨_, rfl⟩
  | goesOn hprompt hread hturn hlater ih =>
    have hmore := ne_endOfInput_of_turn hturn
    rw [Input.readingsFrom_eq, hread, if_neg hmore]
    exact List.prefix_cons_inj _ |>.mpr ih

theorem reads_of_loops :
    run.reads = reads + answers.length := by
  induction h with
  | unprompted => rfl
  | ends => rfl
  | goesOn _ _ _ _ ih =>
    rw [ih, List.length_cons]
    omega

end

/-! ## Two runs -/

/-- A relation of sessions that is kept by all that a turn does, in one configuration and in the
other: it shows a newline, adds the effect of a line, or logs an entry. -/
structure Keeps (world : World) (a b : Config) (R : Session → Session → Prop) : Prop where
  newline {s t : Session} : R s t → R (s.prompt [0x0A]) (t.prompt [0x0A])
  log {s t : Session} (entry : Entry) :
    R s t → R { s with logger := s.logger.log entry } { t with logger := t.logger.log entry }
  ending {s t : Session} (line : Text) : R s t →
    (Effect.ofLine world a s.writes line).ending = (Effect.ofLine world b t.writes line).ending
  add {s t : Session} (line : Text) : R s t →
    R (s.add (Effect.ofLine world a s.writes line)) (t.add (Effect.ofLine world b t.writes line))

variable {terminal} in
/-- Sessions that are related make the same turns. -/
theorem exists_turn_of_keeps {world : World} {a b : Config} {R : Session → Session → Prop}
    (h : Keeps world a b R)
    {s t next : Session} (hst : R s t) {reading : Reading} {ending? : Option RunEnding}
    (hturn : turn world b terminal t reading = (next, ending?)) :
    ∃ other, turn world a terminal s reading = (other, ending?) ∧ R other next := by
  cases reading with
  | interrupted =>
    cases hturn
    exact ⟨_, rfl, h.newline hst⟩
  | endOfInput =>
    cases hturn
    refine ⟨_, rfl, ?_⟩
    cases terminal with
    | true => exact h.newline hst
    | false => exact hst
  | line line =>
    rw [turn_line_eq] at hturn
    rw [turn_line_eq]
    split at hturn
    · next hquiet =>
      cases hturn
      exact ⟨_, if_pos hquiet, hst⟩
    · next hspeaks =>
      rw [if_neg hspeaks, h.ending line hst]
      cases hending : (Effect.ofLine world b t.writes line).ending with
      | storageExhausted =>
        rw [hending] at hturn
        cases hturn
        exact ⟨_, rfl, h.log _ (h.add line hst)⟩
      | _ =>
        rw [hending] at hturn
        cases hturn
        exact ⟨_, rfl, h.add line hst⟩

end Run

end LineShell
