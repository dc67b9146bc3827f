import Mathlib.Data.Int.ModEq
import LineShell.Proofs.ExitStatus
import LineShell.Proofs.Session.Settings
import LineShell.Proofs.Text.Decimal

/- The line `exit` with a status.

   The argument is a numeral or it is not. A numeral is taken for the integer that its digits
   denote, unless the conversion fails, and any other text is reported (`ExitStatus.ReadsStatus`).
   The conversion fails for numerals that are too long, and for those that an information separator
   stands in front of (`parse_separatedSeven`). On the line the integer ends the process with the
   one byte that is congruent to it, and what is reported is passed over: the session goes on, and
   one entry of the lowest level is logged besides the growths of the storage (`ExitsBy`). Both hold
   of every text on every line that can be stored at all (`execute_exitLine_of_numeral`). -/
namespace LineShell

namespace ExitStatus

/-- The byte that an integer leaves as a status: the one that is congruent to it. -/
def IsStatusOf (z : Int) (status : Nat) : Prop := status < 256 ∧ (status : Int) ≡ z [ZMOD 256]

theorem isStatusOf_iff (z : Int) (status : Nat) : IsStatusOf z status ↔ status = code z := by
  rw [IsStatusOf, code, Int.ModEq]
  omega

def Malformed (t : Text) : Prop := ¬∃ blanks sign digits, Numeral.Written t blanks sign digits

/-- What the text is taken for. -/
structure ReadsStatus (t : Text) : Prop where
  /-- A numeral that is not too long, behind white space that it may stand behind, is what it
  denotes. -/
  taken : ∀ {blanks sign digits}, Numeral.Written t blanks sign digits → Convertible blanks →
    digits.length ≤ Numeral.digitLimit → parse t = .ok (Numeral.denoted sign digits)
  /-- An information separator in front is not left to the report, -/
  separated : ∀ {blanks sign digits}, Numeral.Written t blanks sign digits → ¬Convertible blanks →
    parse t = .error (.crash (.notANumeral (t.quoted.take shownLength)))
  /-- nor is a digit too many. -/
  long : ∀ {blanks sign digits}, Numeral.Written t blanks sign digits → Convertible blanks →
    Numeral.digitLimit < digits.length → parse t = .error (.crash (.digitLimit digits.length))
  /-- All else is reported. -/
  malformed : Malformed t → parse t = .error (.reported (.invalidExitStatus t))

theorem readsStatus (t : Text) : ReadsStatus t where
  taken hwritten hblanks hshort := by
    rw [← Numeral.value_eq_denoted]
    exact (parse_eq_ok_iff t _).mpr (.intro hwritten hblanks hshort)
  separated hwritten hblanks := by
    refine (parse_eq_crash_iff t _).mpr ⟨_, _, _, hwritten, .inl hblanks, ?_⟩
    rw [conversionCrash, if_pos ((any_isSeparator_iff _).mpr hblanks)]
  long hwritten hblanks hlong := by
    refine (parse_eq_crash_iff t _).mpr ⟨_, _, _, hwritten, .inr hlong, ?_⟩
    rw [conversionCrash, if_neg fun hany => (any_isSeparator_iff _).mp hany hblanks]
  malformed := parse_of_not_written

theorem parse_ofInt {z : Int} (h : Numeral.isWritable z = true) : parse (Text.ofInt z) = .ok z := by
  have htaken := (readsStatus (Text.ofInt z)).taken (Numeral.written_ofInt z) (by simp [Convertible])
    (of_decide_eq_true h)
  rw [Numeral.denoted_ofInt] at htaken
  exact htaken

end ExitStatus

/-! ## The line -/

def exitLine (t : Text) : Text := "exit " ++ t

theorem Line.tokens_exitLine {t : Text} (hne : t ≠ []) (ht : ∀ c ∈ t, isDelimiter c = false) :
    tokens (exitLine t) = [Builtin.exit.name, t] := by
  have hletters : Builtin.exit.name.all (!isDelimiter ·) = true := by decide
  have hname : ∀ c ∈ Builtin.exit.name, isDelimiter c = false := by simpa using hletters
  have hspace : isDelimiter ' ' = true := by decide
  have hlast := Text.fields_word_append (t := []) hne ht (by simp)
  rw [List.append_nil] at hlast
  have hfirst := Text.fields_word_append (t := ' ' :: t) (List.cons_ne_nil _ _) hname
    (by simpa using hspace)
  rw [Text.fields_cons_separator hspace, hlast] at hfirst
  exact hfirst

section

variable (world : World) (config : Config) (s : Session) {t : Text} (hne : t ≠ [])
  (ht : ∀ c ∈ t, Line.isDelimiter c = false)

include hne ht

theorem ofLine_exitLine (hstorage : Storage.Unlimited config.argGrowth world.memory)
    (written : Nat) :
    Effect.ofLine world config written (exitLine t)
      = (Effect.ofExit [t]).after (Storage.account config.argGrowth world.memory 2).entries := by
  have htokens := Line.tokens_exitLine hne ht
  have hread : Line.read world config (exitLine t) = .ok [Builtin.exit.name, t] := by
    rw [Line.read_of_unlimited hstorage, htokens]
    rfl
  rw [Effect.ofLine_of_ok world config written hread, htokens]
  show (Effect.ofArguments world config written _).after _ = _
  rw [Effect.ofArguments_exit]
  exact congrArg (Effect.after · _) (List.append_nil _)

theorem execute_exitLine (hstorage : Storage.Unlimited config.argGrowth world.memory) :
    s.execute world config (exitLine t)
      = ((Effect.ofExit [t]).ending,
          s.add ((Effect.ofExit [t]).after
            (Storage.account config.argGrowth world.memory 2).entries)) := by
  rw [Session.execute, ofLine_exitLine world config hne ht hstorage]
  rfl

end

theorem Storage.isGrowth_of_mem_entries {a : Storage.Account} {e : Entry} (h : e ∈ a.entries) :
    e.isGrowth = true := by
  obtain ⟨capacity, _, rfl⟩ := List.mem_map.mp h
  exact isGrowth_growthEntry capacity

theorem Entry.level_of_isGrowth {e : Entry} (h : e.isGrowth = true) : e.level = .debug := by
  rw [isGrowth, Bool.and_eq_true, Bool.and_eq_true] at h
  exact of_decide_eq_true h.1.1

/-- What the line `exit t` comes to when it is stored. -/
structure ExitsBy (world : World) (config : Config) (s : Session) (t : Text) : Prop where
  /-- A status ends the process with the one byte that is congruent to it. -/
  exits : ∀ {blanks sign digits}, Numeral.Written t blanks sign digits →
    ExitStatus.Convertible blanks → digits.length ≤ Numeral.digitLimit →
    ∃ status, (s.execute world config (exitLine t)).1 = .exit status
      ∧ ∀ other, ExitStatus.IsStatusOf (Numeral.denoted sign digits) other ↔ other = status
  /-- A numeral that cannot be converted fails. -/
  fails : ∀ {blanks sign digits}, Numeral.Written t blanks sign digits →
    ¬ExitStatus.Convertible blanks ∨ Numeral.digitLimit < digits.length →
    (s.execute world config (exitLine t)).1
      = .crashed (ExitStatus.conversionCrash t blanks digits)
  /-- All else leaves the session as it is but for entries of the lowest level: those of growths,
  and one. -/
  goesOn : ExitStatus.Malformed t →
    (s.execute world config (exitLine t)).1 = .carryOn
      ∧ ∃ growths : List Entry, (∀ e ∈ growths, e.isGrowth = true ∧ e.level = .debug)
        ∧ (s.execute world config (exitLine t)).2.logger.entries
          = s.logger.entries
            ++ (growths ++ [.debug "exit" ("invalid exit status '" ++ t ++ "'")])

theorem exitsBy {world : World} {config : Config}
    (hstorage : Storage.Unlimited config.argGrowth world.memory) (s : Session) {t : Text}
    (hne : t ≠ []) (ht : ∀ c ∈ t, Line.isDelimiter c = false) : ExitsBy world config s t where
  exits {blanks sign digits} hwritten hblanks hshort := by
    have hparse := (ExitStatus.readsStatus t).taken hwritten hblanks hshort
    refine ⟨ExitStatus.code (Numeral.denoted sign digits), ?_, ExitStatus.isStatusOf_iff _⟩
    rw [execute_exitLine world config s hne ht hstorage, Effect.ofExit, hparse]
  fails {blanks sign digits} hwritten hcause := by
    have hparse := (ExitStatus.parse_eq_crash_iff t _).mpr ⟨_, _, _, hwritten, hcause, rfl⟩
    rw [execute_exitLine world config s hne ht hstorage, Effect.ofExit, hparse]
  goesOn hmalformed := by
    have hparse := (ExitStatus.readsStatus t).malformed hmalformed
    rw [execute_exitLine world config s hne ht hstorage, Effect.ofExit, hparse]
    refine ⟨rfl, _, ?_, rfl⟩
    intro e he
    have hgrowth := Storage.isGrowth_of_mem_entries he
    exact ⟨hgrowth, Entry.level_of_isGrowth hgrowth⟩

/-- The argument of `exit` has the grammar of a numeral: white space, at most one sign, and digits.
A text of this form is the integer that it denotes and ends the process with that integer's byte,
unless the conversion fails; any other text is passed over and leaves one entry. Integers are read
back from their numerals. Only storage that cannot be had keeps the line from all this. -/
theorem execute_exitLine_of_numeral (t : Text) :
    ExitStatus.ReadsStatus t
      ∧ (∀ z, Numeral.isWritable z = true → ExitStatus.parse (Text.ofInt z) = .ok z)
      ∧ (t ≠ [] → (∀ c ∈ t, Line.isDelimiter c = false) →
        ∀ (world : World) (config : Config) (s : Session),
          (Storage.Unlimited config.argGrowth world.memory → ExitsBy world config s t)
          ∧ ∀ fault, Storage.FirstBlockFails config.argGrowth world.memory fault →
            (s.execute world config (exitLine t)).1 = .ofStorage fault) := by
  refine ⟨ExitStatus.readsStatus t, fun _ => ExitStatus.parse_ofInt, ?_⟩
  intro hne ht world config s
  refine ⟨fun hstorage => exitsBy hstorage s hne ht, ?_⟩
  intro fault hfirst
  have hread : Line.read world config (exitLine t) = .error fault := by
    rw [Line.read_eq_error_iff, Storage.account_of_firstBlockFails hfirst]
  exact Effect.ending_ofLine_of_error world config s.writes hread

/-- A sign behind a blank, zeros in front of the digits, and a remainder of a negative number; and an
underscore, which no numeral has here. -/
theorem execute_exitLine_of_numeral_negative :
    ExitStatus.parse "\x0b-0300" = .ok (-300)
      ∧ ((Session.start .default).execute {} .default (exitLine "\x0b-0300")).1 = .exit 212
      ∧ ((Session.start .default).execute {} .default (exitLine "1_0")).1 = .carryOn := by
  have hwritten : Numeral.Written "\x0b-0300" ['\x0b'] ['-'] "0300" := {
    text := rfl
    blank := List.forall_mem_singleton.mpr (by decide)
    isSign := .inr (.inr rfl)
    areDigits := by
      have hdigits : ("0300" : Text).all (fun c => 0x30 ≤ c.val && c.val ≤ 0x39) = true := by decide
      exact ⟨by decide, by simpa using hdigits⟩ }
  have hblanks : ExitStatus.Convertible ['\x0b'] := List.forall_mem_singleton.mpr (by decide)
  have hshort : ("0300" : Text).length ≤ Numeral.digitLimit := by decide
  have hplain : ∀ t ∈ (["\x0b-0300", "1_0"] : List Text), t.all (!Line.isDelimiter ·) = true := by decide
  have hstorage : Storage.Unlimited Config.default.argGrowth {} := ⟨⟨rfl, rfl⟩, rfl⟩
  obtain ⟨hreads, _, hline⟩ := execute_exitLine_of_numeral "\x0b-0300"
  obtain ⟨_, _, hother⟩ := execute_exitLine_of_numeral "1_0"
  have hstatus := (hline (by decide) (by simpa using hplain _ List.mem_cons_self) {} .default
    (Session.start .default)).1 hstorage
  have hpassed := (hother (by decide) (by simpa using hplain "1_0" (by simp)) {} .default
    (Session.start .default)).1 hstorage
  obtain ⟨status, hexit, hunique⟩ := hstatus.exits hwritten hblanks hshort
  have hbyte : 212 = status := (hunique 212).mp ⟨by decide, by decide⟩
  have hmalformed : ExitStatus.Malformed "1_0" := (Numeral.ascii?_eq_none_iff "1_0").mp (by decide)
  exact ⟨hreads.taken hwritten hblanks hshort, hexit.trans (by rw [hbyte]), (hpassed.goesOn hmalformed).1⟩

/-- A numeral of one digit that is neither taken nor reported: it stands behind an information
separator. -/
theorem parse_separatedSeven :
    Numeral.Written "\x1c7" ['\x1c'] [] ['7']
      ∧ (['7'] : Text).length ≤ Numeral.digitLimit
      ∧ Numeral.denoted [] ['7'] = 7
      ∧ ExitStatus.parse "\x1c7" = .error (.crash (.notANumeral "'\\x1c7'")) := by
  refine ⟨?_, by decide, by decide, by decide +kernel⟩
  exact {
    text := rfl
    blank := List.forall_mem_singleton.mpr (by decide)
    isSign := .inl rfl
    areDigits := ⟨by decide, List.forall_mem_singleton.mpr (by decide)⟩ }

end LineShell
