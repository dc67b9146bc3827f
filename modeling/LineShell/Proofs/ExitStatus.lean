import LineShell.ExitStatus
import LineShell.Proofs.Text.Numeral

/- The argument of `exit`: which texts are refused quietly, which are not, and which are a status.

   A text that is not written as a numeral is reported. Of the numerals two kinds get past that test
   and fail in the conversion to a number: those with an information separator among the blanks, and
   those with too many digits (`parse_eq_crash_iff`). All others are a status (`parse_eq_ok_iff`). -/
namespace LineShell.ExitStatus

/-- White space that a numeral may stand behind. -/
def Convertible (blanks : Text) : Prop := ∀ c ∈ blanks, c.isSeparator = false

/-- What the conversion of a numeral fails with: a separator is met before the digits are counted. -/
def conversionCrash (t blanks digits : Text) : Crash :=
  if blanks.any CodePoint.isSeparator then .notANumeral (t.quoted.take shownLength)
  else .digitLimit digits.length

theorem any_isSeparator_iff (blanks : Text) :
    blanks.any CodePoint.isSeparator = true ↔ ¬Convertible blanks := by
  simp [Convertible]

theorem parse_of_written {t blanks s digits : Text} (h : Numeral.Written t blanks s digits) :
    parse t =
      if blanks.any CodePoint.isSeparator || Numeral.digitLimit < digits.length then
        .error (.crash (conversionCrash t blanks digits))
      else .ok (Numeral.value ⟨decide (s = (['-'] : Text)), Numeral.digitValues digits⟩) := by
  have hread := (Numeral.ascii?_eq_some_iff t _).mpr ⟨blanks, s, digits, h, rfl⟩
  rw [parse, hread, Numeral.takeWhile_of_written h, conversionCrash]
  simp only [Numeral.digitValues, List.length_map]
  cases blanks.any CodePoint.isSeparator <;> simp

theorem parse_of_not_written {t : Text}
    (h : ¬∃ blanks s digits, Numeral.Written t blanks s digits) :
    parse t = .error (.reported (.invalidExitStatus t)) := by
  rw [parse, (Numeral.ascii?_eq_none_iff t).mpr h]

theorem conversionFails_iff (blanks digits : Text) :
    (blanks.any CodePoint.isSeparator || Numeral.digitLimit < digits.length) = true
      ↔ ¬Convertible blanks ∨ Numeral.digitLimit < digits.length := by
  rw [Bool.or_eq_true, any_isSeparator_iff, decide_eq_true_eq]

/-- The conversion fails on numerals only: those behind a separator, and those that are too long. -/
theorem parse_eq_crash_iff (t : Text) (crash : Crash) :
    parse t = .error (.crash crash) ↔ ∃ blanks s digits, Numeral.Written t blanks s digits ∧
      (¬Convertible blanks ∨ Numeral.digitLimit < digits.length) ∧
      crash = conversionCrash t blanks digits := by
  refine ⟨?_, ?_⟩
  · intro hparse
    by_cases hwritten : ∃ blanks s digits, Numeral.Written t blanks s digits
    · obtain ⟨blanks, s, digits, h⟩ := hwritten
      rw [parse_of_written h] at hparse
      split at hparse
      · next hcause =>
        cases hparse
        exact ⟨blanks, s, digits, h, (conversionFails_iff blanks digits).mp hcause, rfl⟩
      · cases hparse
    · rw [parse_of_not_written hwritten] at hparse
      cases hparse
  · intro hnumeral
    obtain ⟨blanks, s, digits, h, hcause, rfl⟩ := hnumeral
    rw [parse_of_written h, if_pos ((conversionFails_iff blanks digits).mpr hcause)]

/-- The text is a status: white space that a numeral may stand behind, at most one sign, and digits,
not too many of them. The integer is the one that they denote. -/
inductive Denotes (t : Text) : Int → Prop where
  | intro {blanks s digits : Text} (hwritten : Numeral.Written t blanks s digits)
      (hblanks : Convertible blanks) (hshort : digits.length ≤ Numeral.digitLimit) :
    Denotes t (Numeral.value ⟨decide (s = (['-'] : Text)), Numeral.digitValues digits⟩)

/-- A status is taken, and nothing else is. -/
theorem parse_eq_ok_iff (t : Text) (status : Int) : parse t = .ok status ↔ Denotes t status := by
  refine ⟨?_, ?_⟩
  · intro hparse
    by_cases hwritten : ∃ blanks s digits, Numeral.Written t blanks s digits
    · obtain ⟨blanks, s, digits, h⟩ := hwritten
      rw [parse_of_written h] at hparse
      split at hparse
      · cases hparse
      · next hpasses =>
        cases hparse
        rw [conversionFails_iff] at hpasses
        have hblanks : Convertible blanks := Classical.byContradiction fun hno => hpasses (.inl hno)
        exact .intro h hblanks (Nat.le_of_not_lt fun hlong => hpasses (.inr hlong))
    · rw [parse_of_not_written hwritten] at hparse
      cases hparse
  · intro hdenotes
    cases hdenotes with
    | intro h hblanks hshort =>
      rw [parse_of_written h, if_neg]
      rw [conversionFails_iff]
      rintro (hseparator | hlong)
      · exact hseparator hblanks
      · omega

end LineShell.ExitStatus
