import LineShell.Proofs.Log
import LineShell.Proofs.Session.Reads

/- The diagnostics of a run.

   All that a run does with its log is to log (`extends_turn`, `extends_ofConfig`): nothing is
   written past the log, and nothing that is logged is taken back. So what stands on the error
   stream at the end, however the run ends, is the visible part of its entries
   (`echoed_eq_visible`). -/
namespace LineShell.Run

theorem extends_settle (s : Session) (ending : Ending) :
    s.logger.Extends (settle s ending).1.logger := by
  cases ending with
  | storageExhausted => exact ⟨[_], rfl⟩
  | _ => exact .refl _

/-- A turn only adds to the log. -/
theorem extends_turn (world : World) (config : Config) (terminal : Bool) (s : Session)
    (reading : Reading) :
    s.logger.Extends (turn world config terminal s reading).1.logger := by
  cases reading with
  | interrupted => exact .refl _
  | endOfInput =>
    cases terminal with
    | true => exact .refl _
    | false => exact .refl _
  | line line =>
    rw [turn_line_eq]
    split
    · exact .refl _
    · have hline : s.logger.Extends
          (s.add (Effect.ofLine world config s.writes line)).logger := ⟨_, rfl⟩
      exact hline.trans (extends_settle _ _)

theorem extends_loop (worlds : Nat → World) (config : Config) (terminal : Bool) (s : Session)
    (taken reads : Nat) (readings : List Reading) :
    s.logger.Extends (loop worlds config terminal s taken reads readings).session.logger := by
  induction readings generalizing s taken reads with
  | nil => exact .refl _
  | cons reading later ih =>
    rw [loop]
    cases hprompt : printPrompt config s with
    | error crash => exact .refl _
    | ok prompted =>
      -- the prompt is no matter of the log
      have hlogger : prompted.logger = s.logger := by
        have hprompted := (printPrompt_of_ok hprompt s).symm.trans hprompt
        rw [← Except.ok.inj hprompted]
        rfl
      have hturn := extends_turn (worlds taken) config terminal prompted reading
      rw [hlogger] at hturn
      cases hnext : turn (worlds taken) config terminal prompted reading with
      | mk next ending? =>
        rw [hnext] at hturn
        simp only [hnext]
        cases ending? with
        | none => exact hturn.trans (ih next _ (reads + 1))
        | some ending => exact hturn

theorem extends_ofConfig (worlds : Nat → World) (config : Config) (arguments : List Text)
    (input : Input) :
    (Session.start config).logger.Extends
      (ofConfig worlds config arguments input).session.logger := by
  unfold ofConfig
  split
  · exact extends_loop worlds config _ _ _ _ _
  · exact ⟨[_], rfl⟩

/-- The error stream of a run is the visible part of its log, however it ends. And a log that is
used in any way shows the visible part of what was logged, whatever was cleared; keeps what was
logged since it was last cleared; and is filtered by finding the greatest part of this in which
every entry meets the criteria. -/
theorem echoed_eq_visible :
    (∀ worlds config arguments input,
      (ofConfig worlds config arguments input).session.logger.echoed
        = Logger.visible config.programName config.logLevel
            (ofConfig worlds config arguments input).session.logger.entries)
      ∧ ∀ program level operations,
        let l := Logger.performAll { program, level } operations
        l.echoed = Logger.visible program level (Logger.logged operations)
          ∧ (.clear ∉ operations → l.entries = Logger.logged operations)
          ∧ (∀ before later, operations = before ++ .clear :: later → .clear ∉ later →
              l.entries = Logger.logged later)
          ∧ ∀ minLevel source found,
              List.Sublist found (l.filter minLevel source)
                ↔ List.Sublist found l.entries ∧ ∀ e ∈ found, Entry.Meets e minLevel source := by
  refine ⟨?_, ?_⟩
  · intro worlds config arguments input
    obtain ⟨entries, hlogger⟩ := extends_ofConfig worlds config arguments input
    rw [hlogger]
    exact Logger.echoed_logAll _ _
  · intro program level operations l
    refine ⟨Logger.echoed_performAll _ _, fun hkept => Logger.entries_performAll hkept _, ?_,
      l.sublist_filter_iff⟩
    rintro before later rfl hkept
    exact Logger.entries_performAll_clear hkept before _

/-- An error, which is cleared, and two entries of less weight; the last of them is found by its
source. -/
theorem echoed_eq_visible_cleared :
    let unknown : Entry := .warning "escape" "unknown escape"
    let failed : Entry := .debug "dispatch" "proc failed: read"
    let l := Logger.performAll { program := "sh", level := .warning }
      [.log (.error "proc" "no file"), .clear, .log unknown, .filter none none, .log failed]
    l.echoed = "sh: no file\nsh: unknown escape\n" ∧ l.entries = [unknown, failed]
      ∧ List.Sublist [failed] (l.filter (some .debug) (some "dispatch")) := by
  intro unknown failed l
  obtain ⟨hechoed, _, hkept, hfound⟩ := echoed_eq_visible.2 "sh" .warning
    [.log (.error "proc" "no file"), .clear, .log unknown, .filter none none, .log failed]
  have hentries : l.entries = [unknown, failed] := hkept [_] _ rfl (by simp)
  refine ⟨hechoed.trans (by decide), hentries, (hfound _ _ _).mpr ⟨?_, ?_⟩⟩
  · show List.Sublist [failed] l.entries
    rw [hentries]
    exact List.sublist_cons_self _ _
  · intro e he
    rw [List.mem_singleton.mp he]
    exact ⟨by decide, by decide⟩

end LineShell.Run
