import LineShell.Proofs.ExitStatus
import LineShell.Proofs.Session.Line

/- What ends a session.

   It is decided by the tokens of a line alone (`ending_execute`): no tokens and a bare `exit` stop
   the session, `exit` with a status ends the process, and every other line goes on or fails for
   good, whatever it is given by the world and whatever happened before. Since decoding leaves the
   command alone, no escape makes one command into another. -/
namespace LineShell

namespace Effect

variable (world : World) (config : Config) (written : Nat)

theorem GoesOnOrCrashes.ne_exit {ending : Ending} (h : GoesOnOrCrashes ending) (status : Nat) :
    ending ≠ .exit status := by
  cases h <;> simp

theorem ending_ofExit_eq_exit_iff (arguments : List Text) (status : Nat) :
    (ofExit arguments).ending = .exit status
      ↔ ∃ t z, arguments = [t] ∧ ExitStatus.Denotes t z ∧ status = ExitStatus.code z := by
  match arguments with
  | [] => simp [ofExit]
  | [t] =>
    rw [ofExit]
    cases hparse : ExitStatus.parse t with
    | ok z =>
      have hunique : ∀ z', ExitStatus.Denotes t z' ↔ z = z' := by
        intro z'
        rw [← ExitStatus.parse_eq_ok_iff, hparse, Except.ok.injEq]
      simp [hunique, eq_comm]
    | error failure =>
      have hnone : ∀ z', ¬ExitStatus.Denotes t z' := by
        intro z'
        rw [← ExitStatus.parse_eq_ok_iff, hparse]
        simp
      cases failure <;> simp [hnone]
  | _ :: _ :: _ => simp [ofExit, ofFailure]

theorem ending_ofLine_eq_exit_iff (line : Text) (status : Nat) :
    (ofLine world config written line).ending = .exit status
      ↔ ∃ t z, Line.read world config line = .ok [Builtin.exit.name, t]
        ∧ ExitStatus.Denotes t z ∧ status = ExitStatus.code z := by
  obtain ⟨entries, e, harises, heffect⟩ := arises_ofLine world config written line
  rw [heffect, ending_after]
  cases harises with
  | @unread fault hread => cases fault <;> simp [hread, Ending.ofStorage]
  | empty hread => simp [hread]
  | exit hread => simp [hread, ending_ofExit_eq_exit_iff]
  | @proc arguments hread =>
    refine iff_of_false ((goesOnOrCrashes_ofProc world config written arguments).ne_exit status) ?_
    rintro ⟨t, z, hexit, _⟩
    rw [hread] at hexit
    exact absurd (List.cons.inj (Except.ok.inj hexit)).1 (by decide)
  | @program command arguments hprogram hread =>
    refine iff_of_false ((goesOnOrCrashes_ofProgram world command arguments).ne_exit status) ?_
    rintro ⟨t, z, hexit, _⟩
    rw [hread] at hexit
    rw [(List.cons.inj (Except.ok.inj hexit)).1] at hprogram
    exact absurd (by decide) hprogram

end Effect

/-- Every line of every session: it stops the session exactly if its tokens are none or a bare
`exit`, and ends the process exactly if they are `exit` and a status. Any other line that can be
stored goes on, unless it fails for good. The command is the first token as it is written, and only
behind `echo` is a token not taken as it is written. -/
theorem ending_execute (world : World) (config : Config) (s : Session) (line : Text) :
    ((s.execute world config line).1 = .stop
        ↔ Line.split world config line = .ok []
          ∨ Line.split world config line = .ok [Builtin.exit.name])
      ∧ (∀ status, (s.execute world config line).1 = .exit status
        ↔ ∃ t z, Line.split world config line = .ok [Builtin.exit.name, t]
          ∧ ExitStatus.Denotes t z ∧ status = ExitStatus.code z)
      ∧ (∀ tokens, Line.split world config line = .ok tokens →
        tokens ≠ [] → tokens ≠ [Builtin.exit.name] →
        (¬∃ t z, tokens = [Builtin.exit.name, t] ∧ ExitStatus.Denotes t z) →
        (∀ crash, (s.execute world config line).1 ≠ .crashed crash) →
        (s.execute world config line).1 = .carryOn)
      ∧ ∀ arguments, Line.read world config line = .ok arguments →
        ∃ tokens, Line.split world config line = .ok tokens ∧ arguments.head? = tokens.head?
          ∧ (tokens.head? ≠ some Line.echoName → arguments = tokens) := by
  have hsplit : ∀ tokens : List Text, tokens.head? ≠ some Line.echoName →
      (Line.split world config line = .ok tokens ↔ Line.read world config line = .ok tokens) :=
    fun tokens h => (Line.read_eq_ok_iff_split world config line h).symm
  have hstop : (s.execute world config line).1 = .stop
      ↔ Line.split world config line = .ok []
        ∨ Line.split world config line = .ok [Builtin.exit.name] := by
    rw [hsplit [] (by simp), hsplit _ (Builtin.exit.name_ne_echoName [])]
    exact Effect.ending_ofLine_eq_stop_iff world config s.writes line
  have hexit : ∀ status, (s.execute world config line).1 = .exit status
      ↔ ∃ t z, Line.split world config line = .ok [Builtin.exit.name, t]
        ∧ ExitStatus.Denotes t z ∧ status = ExitStatus.code z := by
    intro status
    simp only [hsplit _ (Builtin.exit.name_ne_echoName _)]
    exact Effect.ending_ofLine_eq_exit_iff world config s.writes line status
  refine ⟨hstop, hexit, ?_, ?_⟩
  · intro tokens htokens hne hbare hstatus hcrash
    -- every other way to end belongs to other tokens, or to storage that is exhausted
    cases hending : (s.execute world config line).1 with
    | carryOn => rfl
    | stop =>
      rcases hstop.mp hending with hnil | hexits
      · exact absurd (Except.ok.inj (htokens.symm.trans hnil)) hne
      · exact absurd (Except.ok.inj (htokens.symm.trans hexits)) hbare
    | exit status =>
      obtain ⟨t, z, hexits, hdenotes, _⟩ := (hexit status).mp hending
      exact absurd ⟨t, z, Except.ok.inj (htokens.symm.trans hexits), hdenotes⟩ hstatus
    | storageExhausted =>
      have hread := (Effect.ending_ofLine_eq_storageExhausted_iff world config s.writes line).mp
        hending
      rw [Line.read_eq_error_iff_split, htokens] at hread
      cases hread
    | crashed crash => exact absurd hending (hcrash crash)
  · intro arguments hread
    rw [Line.read_eq_map_split] at hread
    cases htokens : Line.split world config line with
    | error fault =>
      rw [htokens] at hread
      cases hread
    | ok tokens =>
      rw [htokens] at hread
      cases hread
      exact ⟨tokens, rfl, Line.head?_arguments _ tokens, Line.arguments_eq_tokens _⟩

/-- Being written as a numeral of an admissible length is not enough for a status: behind an
information separator a digit does not end the process, the line fails for good. -/
theorem execute_fails_behind_separator :
    ((Session.start .default).execute {} .default "exit \x1c7").1
        = .crashed (.notANumeral "'\\x1c7'")
      ∧ ¬((∃ status, ((Session.start .default).execute {} .default "exit \x1c7").1 = .exit status)
        ↔ ∃ t blanks sign digits,
          Line.split {} .default "exit \x1c7" = .ok [Builtin.exit.name, t]
            ∧ Numeral.Written t blanks sign digits ∧ digits.length ≤ Numeral.digitLimit) := by
  have hcrash : ((Session.start .default).execute {} .default "exit \x1c7").1
      = .crashed (.notANumeral "'\\x1c7'") := by decide +kernel
  have hwritten : Numeral.Written "\x1c7" ['\x1c'] [] ['7'] := {
    text := rfl
    blank := List.forall_mem_singleton.mpr (by decide)
    isSign := .inl rfl
    areDigits := ⟨by decide, List.forall_mem_singleton.mpr (by decide)⟩ }
  refine ⟨hcrash, ?_⟩
  intro hiff
  obtain ⟨status, hexit⟩ := hiff.mpr ⟨"\x1c7", _, _, _, rfl, hwritten, by decide⟩
  rw [hcrash] at hexit
  cases hexit

end LineShell
