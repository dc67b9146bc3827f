import LineShell.Session.Run
import LineShell.Proofs.Session.Line
import LineShell.Proofs.Text.Fields

/- The loop of a run without interrupts is a fold over the lines of its input.

   The end of the input counts as one more line, an empty one. `Ends` has the four reasons for which
   a line is the last, and what the run answers then: the line is quiet, its storage is exhausted,
   it is a bare `exit`, or executing it does not come back. A line for which none of them holds is
   executed and the session goes on (`turn_line`), so the run is the fold up to the first line that
   has one (`ofConfig_fold`), each line in its own world. A terminal makes no difference but for the
   newline that it shows at the end of the input. -/
namespace LineShell

/-! ## Lines -/

/-- A line that says nothing: it is all white space, or has no arguments. -/
def Line.IsQuiet (line : Text) : Prop := line.isBlank = true ∨ Line.hasArguments line = false

theorem Text.ne_nil_of_mem_lines {t line : Text} (h : line ∈ t.lines) : line ≠ [] := by
  induction t generalizing line with
  | nil => cases h
  | cons c rest ih =>
    rw [lines] at h
    split at h
    · rcases List.mem_cons.mp h with rfl | hlater
      · exact List.cons_ne_nil _ _
      · exact ih hlater
    · split at h
      · rw [List.mem_singleton.mp h]
        exact List.cons_ne_nil _ _
      · next first others hlines =>
        rcases List.mem_cons.mp h with rfl | hlater
        · exact List.cons_ne_nil _ _
        · exact ih (by rw [hlines]; exact List.mem_cons_of_mem _ hlater)

theorem Text.withoutNewline_or (t : Text) :
    t.withoutNewline = t ∨ t = t.withoutNewline ++ (['\n'] : Text) := by
  unfold withoutNewline
  split
  · next h =>
    obtain ⟨kept, rfl⟩ := List.getLast?_eq_some_iff.mp h
    rw [List.dropLast_concat]
    exact .inr rfl
  · exact .inl rfl

theorem Line.tokens_withoutNewline (line : Text) :
    Line.tokens line.withoutNewline = Line.tokens line := by
  rcases line.withoutNewline_or with h | h
  · rw [h]
  · conv => rhs; rw [h]
    exact (Text.fields_append_separator (by decide) _).symm

theorem Line.isBlank_withoutNewline (line : Text) :
    line.withoutNewline.isBlank = line.isBlank := by
  rcases line.withoutNewline_or with h | h
  · rw [h]
  · conv => rhs; rw [h]
    have hnewline : (CodePoint.ofChar '\n').isBlank = true := by decide
    simp [Text.isBlank, hnewline]

theorem Line.hasArguments_withoutNewline (line : Text) :
    Line.hasArguments line.withoutNewline = Line.hasArguments line := by
  rw [Bool.eq_iff_iff, Line.hasArguments_iff, Line.hasArguments_iff, Line.tokens_withoutNewline]

/-- The empty vector, which stops the session too, is never read from a line that says something. -/
theorem Line.read_ne_nil_of_not_quiet {world : World} {config : Config} {line : Text}
    (hspeaks : ¬Line.IsQuiet line) : Line.read world config line ≠ .ok [] := by
  intro hnil
  obtain ⟨_, harguments⟩ := (Line.read_eq_ok_iff _ _ _ _).mp hnil
  rw [Line.arguments_eq_nil_iff] at harguments
  cases hsome : Line.hasArguments line with
  | false => exact hspeaks (.inr hsome)
  | true => exact absurd harguments ((Line.hasArguments_iff line).mp hsome)

/-- A quiet line is no bare `exit`, though its white space may make a token. -/
theorem Line.not_quiet_of_read_exit {world : World} {config : Config} {line : Text}
    (h : Line.read world config line = .ok [Builtin.exit.name]) : ¬Line.IsQuiet line := by
  obtain ⟨_, harguments⟩ := (Line.read_eq_ok_iff _ _ _ _).mp h
  have hne : Line.tokens line ≠ [] := by
    intro hnil
    rw [hnil] at harguments
    cases harguments
  intro hquiet
  rcases hquiet with hblank | hnone
  · -- the `e` of `exit` is a character of the line
    obtain ⟨command, later, htokens⟩ := List.exists_cons_of_ne_nil hne
    rw [htokens] at harguments
    have hcommand : command = Builtin.exit.name := (List.cons.inj harguments).1
    have hmem : CodePoint.ofChar 'e' ∈ (Line.tokens line).flatten := by
      rw [htokens, hcommand]
      exact List.mem_cons_self
    unfold Line.tokens at hmem
    rw [Text.flatten_fields] at hmem
    have hblanks := List.all_eq_true.mp hblank _ (List.mem_filter.mp hmem).1
    exact absurd hblanks (by decide)
  · rw [(Line.hasArguments_iff line).mpr hne] at hnone
    cases hnone

namespace Run

variable (world : World) (worlds : Nat → World) (config : Config) (terminal : Bool)

/-! ## Why a line is the last -/

/-- The line ends a run that has prompted for it: why it does, what the run comes to, and the session
that it leaves. -/
inductive Ends (s : Session) (line : Text) : RunEnding → Session → Prop where
  | quiet (hquiet : Line.IsQuiet line) :
    Ends s line (.returned 1) (if terminal && line.isEmpty then s.prompt [0x0A] else s)
  | storageExhausted (hspeaks : ¬Line.IsQuiet line)
      (hread : Line.read world config line = .error .exhausted) :
    Ends s line (.returned 1)
      { (s.execute world config line).2 with
        logger := (s.execute world config line).2.logger.log
          (.error "tokenizer" "reallocation error") }
  | bareExit (hread : Line.read world config line = .ok [Builtin.exit.name]) :
    Ends s line (.returned 0) (s.execute world config line).2
  | exited {status : Nat} (hspeaks : ¬Line.IsQuiet line)
      (hexit : (s.execute world config line).1 = .exit status) :
    Ends s line (.exited status) (s.execute world config line).2
  | crashed {crash : Crash} (hspeaks : ¬Line.IsQuiet line)
      (hcrash : (s.execute world config line).1 = .crashed crash) :
    Ends s line (.crashed crash) (s.execute world config line).2

/-- The lines, of which the first has the given number, are executed in order, each once, each in its
own world and each after a prompt of its own, and none of them ends the run. -/
inductive Carries (bytes : Bytes) : (number : Nat) → Session → List Text → Session → Prop where
  | nil (number : Nat) (s : Session) : Carries bytes number s [] s
  | cons {number : Nat} {s next last : Session} {line : Text} {later : List Text}
      (hgoes : ¬∃ ending left,
        Ends (worlds number) config terminal (s.prompt bytes) line ending left)
      (hexecute : (s.prompt bytes).execute (worlds number) config line = (.carryOn, next))
      (hlater : Carries bytes (number + 1) next later last) :
    Carries bytes number s (line :: later) last

/-! ## One line -/

theorem execute_withoutNewline (s : Session) (line : Text) :
    s.execute world config line.withoutNewline = s.execute world config line := by
  unfold Session.execute
  rw [Effect.ofLine_congr world config s.writes (Line.tokens_withoutNewline line)]

theorem turn_line_terminal (s : Session) (line : Text) :
    turn world config terminal s (.line line) = turn world config false s (.line line) := by
  cases terminal with
  | false => rfl
  | true =>
    simp only [turn, if_true, Bool.false_eq_true, if_false, Line.isBlank_withoutNewline,
      Line.hasArguments_withoutNewline, execute_withoutNewline]

theorem isQuiet_iff (line : Text) :
    (line.isBlank || !Line.hasArguments line) = true ↔ Line.IsQuiet line := by
  simp [Line.IsQuiet]

theorem not_ends_of_carryOn {s : Session} {line : Text} (hspeaks : ¬Line.IsQuiet line)
    (hon : (s.execute world config line).1 = .carryOn) :
    ¬∃ ending left, Ends world config terminal s line ending left := by
  intro h
  obtain ⟨ending, left, hends⟩ := h
  have hon : (Effect.ofLine world config s.writes line).ending = .carryOn := hon
  cases hends with
  | quiet hquiet => exact hspeaks hquiet
  | storageExhausted _ hread =>
    rw [(Effect.ending_ofLine_eq_storageExhausted_iff _ _ _ _).mpr hread] at hon
    cases hon
  | bareExit hread =>
    rw [(Effect.ending_ofLine_eq_stop_iff _ _ _ _).mpr (.inr hread)] at hon
    cases hon
  | exited _ hexit => cases hon.symm.trans hexit
  | crashed _ hcrash => cases hon.symm.trans hcrash

/-- A line that was read either is executed and the loop goes on, or it ends the run. -/
theorem turn_line (s : Session) {line : Text} (hne : line ≠ []) :
    (∃ next, (¬∃ ending left, Ends world config terminal s line ending left)
        ∧ s.execute world config line = (.carryOn, next)
        ∧ turn world config terminal s (.line line) = (next, none))
      ∨ ∃ ending left, Ends world config terminal s line ending left
        ∧ turn world config terminal s (.line line) = (left, some ending) := by
  rw [turn_line_terminal]
  simp only [turn, Bool.false_eq_true, if_false]
  by_cases hquiet : Line.IsQuiet line
  · rw [if_pos ((isQuiet_iff line).mpr hquiet)]
    have hends : Ends world config terminal s line _ _ := .quiet hquiet
    have hnonempty : line.isEmpty = false := by simpa using hne
    rw [hnonempty, Bool.and_false, if_neg Bool.false_ne_true] at hends
    exact .inr ⟨_, _, hends, rfl⟩
  · rw [if_neg (fun h => hquiet ((isQuiet_iff line).mp h))]
    cases hexecute : s.execute world config line with
    | mk ending next =>
      have hfirst : (s.execute world config line).1 = ending := by rw [hexecute]
      have hnext : (s.execute world config line).2 = next := by rw [hexecute]
      have hending : (Effect.ofLine world config s.writes line).ending = ending := hfirst
      cases ending with
      | carryOn =>
        exact .inl ⟨next, not_ends_of_carryOn world config terminal hquiet hfirst, rfl, rfl⟩
      | stop =>
        have hread : Line.read world config line = .ok [Builtin.exit.name] := by
          -- the empty vector stops the session too, but a line that speaks is not read as one
          rcases (Effect.ending_ofLine_eq_stop_iff _ _ _ _).mp hending with hnil | hexit
          · exact absurd hnil (Line.read_ne_nil_of_not_quiet hquiet)
          · exact hexit
        exact .inr ⟨_, _, hnext ▸ .bareExit hread, rfl⟩
      | exit status => exact .inr ⟨_, _, hnext ▸ .exited hquiet hfirst, rfl⟩
      | storageExhausted =>
        have hread := (Effect.ending_ofLine_eq_storageExhausted_iff _ _ _ _).mp hending
        exact .inr ⟨_, _, hnext ▸ .storageExhausted hquiet hread, rfl⟩
      | crashed crash => exact .inr ⟨_, _, hnext ▸ .crashed hquiet hfirst, rfl⟩

/-! ## The run -/

theorem readings_of_uninterrupted (text : Text) :
    Input.readings { text, terminal } = text.lines.map .line ++ [.endOfInput] := by
  have hfrom : ∀ (next : Nat) (lines : List Text),
      Input.readingsFrom [] next lines = lines.map .line ++ [.endOfInput] := by
    intro next lines
    induction lines generalizing next with
    | nil => rfl
    | cons line later ih => exact congrArg (Reading.line line :: ·) (ih (next + 1))
  exact hfrom 0 text.lines

theorem loop_fold {bytes : Bytes} (hprompt : Encoding.rawBytes.encode config.prompt = .ok bytes)
    (s : Session) (number reads : Nat) {lines : List Text} (hlines : ∀ line ∈ lines, line ≠ []) :
    ∃ before line after last, lines ++ [[]] = before ++ line :: after
      ∧ Carries worlds config terminal bytes number s before last
      ∧ ∃ ending left,
        Ends (worlds (number + before.length)) config terminal (last.prompt bytes) line ending left
        ∧ loop worlds config terminal s number reads (lines.map .line ++ [.endOfInput])
          = ⟨ending, left, reads + before.length + 1⟩ := by
  induction lines generalizing s number reads with
  | nil =>
    -- nothing is left but the end of the input, which is a quiet line
    have hends : Ends (worlds number) config terminal (s.prompt bytes) [] _ _ := .quiet (.inl rfl)
    refine ⟨[], [], [], s, rfl, .nil number s, _, _, hends, ?_⟩
    simp only [List.map_nil, List.nil_append, loop, printPrompt, hprompt, turn]
    cases terminal <;> rfl
  | cons line later ih =>
    have hstep := turn_line (worlds number) config terminal (s.prompt bytes)
      (hlines line List.mem_cons_self)
    simp only [List.map_cons, List.cons_append, loop, printPrompt, hprompt]
    rcases hstep with ⟨next, hgoes, hexecute, hturn⟩ | ⟨ending, left, hends, hturn⟩
    · rw [hturn]
      obtain ⟨before, line', after, last, hsplit, hcarries, ending, left, hends, hloop⟩ :=
        ih next (number + 1) (reads + 1) fun l hl => hlines l (List.mem_cons_of_mem line hl)
      have hcount : ∀ n, n + 1 + before.length = n + (line :: before).length := by
        intro n
        rw [List.length_cons]
        omega
      rw [hcount] at hends hloop
      exact ⟨line :: before, line', after, last, congrArg (line :: ·) hsplit,
        .cons hgoes hexecute hcarries, ending, left, hends, hloop⟩
    · rw [hturn]
      exact ⟨[], line, later ++ [[]], s, rfl, .nil number s, ending, left, hends, rfl⟩

theorem returned_zero_iff {s : Session} {line : Text} {ending : RunEnding} {left : Session}
    (h : Ends world config terminal s line ending left) :
    ending = .returned 0 ↔ Line.read world config line = .ok [Builtin.exit.name] := by
  -- executing a line that is read as a bare `exit` stops the session, and does nothing else
  have hstops : Line.read world config line = .ok [Builtin.exit.name]
      → (s.execute world config line).1 = .stop :=
    fun hread => (Effect.ending_ofLine_eq_stop_iff world config s.writes line).mpr (.inr hread)
  cases h with
  | quiet hquiet =>
    exact iff_of_false (by simp) fun hread => Line.not_quiet_of_read_exit hread hquiet
  | storageExhausted _ hread => simp [hread]
  | bareExit hread => simp [hread]
  | exited _ hexit =>
    refine iff_of_false (by simp) fun hread => ?_
    cases (hstops hread).symm.trans hexit
  | crashed _ hcrash =>
    refine iff_of_false (by simp) fun hread => ?_
    cases (hstops hread).symm.trans hcrash

/-- A run without interrupts, on a standard output to which raw bytes can be written. If the prompt
cannot be encoded, nothing is read. If it can, the lines of the input and an empty one at its end
are executed, each in its own world, up to the first that ends the run, and the run comes to what
that line makes of it. It returns 0 for a bare `exit` only. -/
theorem ofConfig_fold (text : Text) :
    match Encoding.rawBytes.encode config.prompt with
    | .error fault =>
      ofConfig worlds config [] { text, terminal }
        = ⟨.crashed (.unusableText (.unencodable fault)), Session.start config, 0⟩
    | .ok bytes =>
      ∃ before line after last, text.lines ++ [[]] = before ++ line :: after
        ∧ Carries worlds config terminal bytes 0 (Session.start config) before last
        ∧ ∃ ending left,
          Ends (worlds before.length) config terminal (last.prompt bytes) line ending left
          ∧ ofConfig worlds config [] { text, terminal } = ⟨ending, left, before.length + 1⟩
          ∧ (ending = .returned 0
            ↔ Line.read (worlds before.length) config line = .ok [Builtin.exit.name]) := by
  have hrun : ofConfig worlds config [] { text, terminal }
      = loop worlds config terminal (Session.start config) 0 0
          (text.lines.map .line ++ [.endOfInput]) := by
    rw [← readings_of_uninterrupted terminal text]
    rfl
  rw [hrun]
  split
  · next fault hprompt =>
    cases text.lines with
    | nil => simp only [List.map_nil, List.nil_append, loop, printPrompt, hprompt]
    | cons line later => simp only [List.map_cons, List.cons_append, loop, printPrompt, hprompt]
  · next bytes hprompt =>
    obtain ⟨before, line, after, last, hsplit, hcarries, ending, left, hends, hloop⟩ :=
      loop_fold worlds config terminal hprompt (Session.start config) 0 0
        fun line hline => Text.ne_nil_of_mem_lines hline
    rw [Nat.zero_add] at hends hloop
    exact ⟨before, line, after, last, hsplit, hcarries, ending, left, hends, hloop,
      returned_zero_iff (worlds before.length) config terminal hends⟩

def surrogatePrompt : Config := ⟨{ prompt := [0xD800] }, by decide, by decide⟩

/-- The first line alone does not decide how a run ends: with such a prompt a bare `exit` is not even
read, and nothing is returned. -/
theorem ofConfig_surrogatePrompt :
    Line.read {} surrogatePrompt "exit\n" = .ok [Builtin.exit.name]
      ∧ ofConfig (fun _ => {}) surrogatePrompt [] { text := "exit\n" }
        = ⟨.crashed (.unusableText (.unencodable ⟨0xD800, 0, 0⟩)), .start surrogatePrompt, 0⟩ := by
  refine ⟨rfl, ?_⟩
  decide +kernel

end Run

end LineShell
