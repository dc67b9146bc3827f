import Mathlib.Algebra.Group.Nat.Defs
import Mathlib.Data.List.Forall2
import Mathlib.Data.List.TakeWhile
import LineShell.Text.Numeral
import LineShell.Proofs.Text.Encoding

/- The grammar of ASCII numerals.

   `Numeral.ascii?` takes a text apart from the left; `Numeral.Written` says without an order what it
   accepts: white space, at most one sign, and ASCII digits. The two agree (`ascii?_eq_some_iff`), and
   since no sign and no digit is white space, a text is written in one way only
   (`takeWhile_of_written`). -/
namespace LineShell

theorem CodePoint.isBlank_of_visible {c : CodePoint} (h : 0x21 ≤ c.val ∧ c.val ≤ 0x7E) :
    c.isBlank = false := by
  rw [isBlank, isIn, List.any_eq_false]
  intro range hrange
  have hout : ∀ range ∈ blankRanges, range.2 < 0x21 ∨ 0x7E < range.1 := by decide
  have hrange := hout range hrange
  simp only [Bool.and_eq_true, decide_eq_true_eq]
  omega

namespace Numeral

theorem isWritable_iff (z : Int) : isWritable z = true ↔ z.natAbs < 10 ^ digitLimit := by
  rw [isWritable, decide_eq_true_iff, Text.ofNat, List.length_map]
  exact Nat.length_toDigits_le_iff (by decide) (by decide)

theorem isWritable_eq_false_iff (z : Int) :
    isWritable z = false ↔ 10 ^ digitLimit ≤ z.natAbs := by
  rw [← Bool.not_eq_true, isWritable_iff, Nat.not_lt]

def IsSign (s : Text) : Prop := s = ([] : Text) ∨ s = (['+'] : Text) ∨ s = (['-'] : Text)

/-- Digits from `0` to `9`, at least one. -/
def AreDigits (t : Text) : Prop := t ≠ [] ∧ ∀ c ∈ t, 0x30 ≤ c.val ∧ c.val ≤ 0x39

/-- The text is white space, at most one sign, and digits. -/
structure Written (t blanks sign digits : Text) : Prop where
  text : t = blanks ++ (sign ++ digits)
  blank : ∀ c ∈ blanks, c.isBlank = true
  isSign : IsSign sign
  areDigits : AreDigits digits

def digitValues (digits : Text) : List Nat := digits.map fun c => c.val - 0x30

theorem mapM_eq_some_iff {read : CodePoint → Option Nat} {digits : Text} {values : List Nat} :
    digits.mapM read = some values ↔ List.Forall₂ (fun c value => read c = some value) digits values := by
  induction digits generalizing values with
  | nil => simp [eq_comm]
  | cons c digits ih =>
    rw [List.mapM_cons]
    cases hc : read c with
    | none => simp [List.forall₂_cons_left_iff, hc]
    | some value =>
      simp only [List.forall₂_cons_left_iff, hc, ← ih]
      cases digits.mapM read <;> simp [eq_comm]

theorem mapM_asciiDigit? (digits : Text) (values : List Nat) :
    digits.mapM CodePoint.asciiDigit? = some values
      ↔ (∀ c ∈ digits, 0x30 ≤ c.val ∧ c.val ≤ 0x39) ∧ values = digitValues digits := by
  rw [mapM_eq_some_iff]
  induction digits generalizing values with
  | nil => simp [digitValues]
  | cons c digits ih =>
    rw [List.forall₂_cons_left_iff, List.forall_mem_cons, CodePoint.asciiDigit?]
    split
    · next hc =>
      refine ⟨?_, ?_⟩
      · rintro ⟨value, rest, hvalue, hrest, rfl⟩
        obtain ⟨hdigits, rfl⟩ := (ih rest).mp hrest
        exact ⟨⟨hc, hdigits⟩, by rw [← Option.some.inj hvalue]; rfl⟩
      · rintro ⟨⟨_, hdigits⟩, rfl⟩
        exact ⟨_, _, rfl, (ih _).mpr ⟨hdigits, rfl⟩, rfl⟩
    · next hc => simp [hc]

theorem sign_append_of_head {s body : Text} (hs : IsSign s)
    (hbody : ∀ c ∈ body.head?, c ≠ '-' ∧ c ≠ '+') :
    sign (s ++ body) = (decide (s = (['-'] : Text)), body) := by
  rcases hs with rfl | rfl | rfl
  · cases body with
    | nil => rfl
    | cons c body =>
      obtain ⟨hminus, hplus⟩ := hbody c rfl
      simp [sign, hminus, hplus]
  · rfl
  · rfl

theorem sign_append {s digits : Text} (hs : IsSign s) (hdigits : AreDigits digits) :
    sign (s ++ digits) = (decide (s = (['-'] : Text)), digits) := by
  refine sign_append_of_head hs fun c hhead => ?_
  have hc := hdigits.2 c (List.mem_of_mem_head? hhead)
  rw [Ne, Ne, CodePoint.eq_ofChar_iff, CodePoint.eq_ofChar_iff]
  show ¬c.val = 0x2D ∧ ¬c.val = 0x2B
  omega

theorem sign_spec (t : Text) :
    ∃ s, IsSign s ∧ t = s ++ (sign t).2 ∧ (sign t).1 = decide (s = (['-'] : Text)) := by
  cases t with
  | nil => exact ⟨[], .inl rfl, rfl, rfl⟩
  | cons c rest =>
    rw [sign]
    split
    · next h => exact ⟨(['-'] : Text), .inr (.inr rfl), by rw [h]; rfl, rfl⟩
    · split
      · next h => exact ⟨(['+'] : Text), .inr (.inl rfl), by rw [h]; rfl, rfl⟩
      · exact ⟨[], .inl rfl, rfl, rfl⟩

theorem isBlank_head_of_written {t blanks s digits : Text} (h : Written t blanks s digits) :
    ∀ c ∈ (s ++ digits).head?, c.isBlank = false := by
  intro c hc
  apply CodePoint.isBlank_of_visible
  rcases h.isSign with rfl | rfl | rfl
  · have hmem : c ∈ digits := List.mem_of_mem_head? hc
    have := h.areDigits.2 c hmem
    omega
  · cases hc; decide
  · cases hc; decide

theorem takeWhile_of_written {t blanks s digits : Text} (h : Written t blanks s digits) :
    t.takeWhile CodePoint.isBlank = blanks := by
  rw [h.text, List.takeWhile_append_of_pos h.blank]
  cases hbody : s ++ digits with
  | nil => rw [List.takeWhile_nil, List.append_nil]
  | cons c rest =>
    have hc := isBlank_head_of_written h c (by rw [hbody]; rfl)
    rw [List.takeWhile_cons, if_neg (by rw [hc]; simp), List.append_nil]

theorem dropWhile_of_written {t blanks s digits : Text} (h : Written t blanks s digits) :
    t.dropWhile CodePoint.isBlank = s ++ digits := by
  have hsplit := List.takeWhile_append_dropWhile (p := CodePoint.isBlank) (l := t)
  rw [takeWhile_of_written h] at hsplit
  have htext := h.text
  rw [← hsplit] at htext
  exact List.append_cancel_left htext

/-- The numerals that are read are the texts that are written as one. -/
theorem ascii?_eq_some_iff (t : Text) (n : Numeral) :
    ascii? t = some n ↔ ∃ blanks s digits, Written t blanks s digits ∧
      n = ⟨decide (s = (['-'] : Text)), digitValues digits⟩ := by
  refine ⟨?_, ?_⟩
  · intro h
    obtain ⟨s, hs, hbody, hnegative⟩ := sign_spec (t.dropWhile CodePoint.isBlank)
    simp only [ascii?] at h
    split at h
    · cases h
    · next hne =>
      obtain ⟨values, hvalues, rfl⟩ := Option.map_eq_some_iff.mp h
      obtain ⟨hdigits, rfl⟩ := (mapM_asciiDigit? _ values).mp hvalues
      refine ⟨t.takeWhile CodePoint.isBlank, s, (sign (t.dropWhile CodePoint.isBlank)).2, ?_, ?_⟩
      · exact {
          text := by rw [← hbody, List.takeWhile_append_dropWhile]
          blank := fun c hc => List.mem_takeWhile_imp hc
          isSign := hs
          areDigits := ⟨by simpa using hne, hdigits⟩ }
      · rw [hnegative]
  · intro hnumeral
    obtain ⟨blanks, s, digits, hwritten, rfl⟩ := hnumeral
    have hsign := sign_append hwritten.isSign hwritten.areDigits
    have hvalues := (mapM_asciiDigit? digits (digitValues digits)).mpr ⟨hwritten.areDigits.2, rfl⟩
    rw [ascii?, dropWhile_of_written hwritten, hsign]
    simp [hwritten.areDigits.1, hvalues]

theorem ascii?_eq_none_iff (t : Text) :
    ascii? t = none ↔ ¬∃ blanks s digits, Written t blanks s digits := by
  refine ⟨?_, ?_⟩
  · intro hnone hwritten
    obtain ⟨blanks, s, digits, h⟩ := hwritten
    have hread := (ascii?_eq_some_iff t _).mpr ⟨blanks, s, digits, h, rfl⟩
    rw [hnone] at hread
    cases hread
  · intro h
    cases hread : ascii? t with
    | none => rfl
    | some n =>
      obtain ⟨blanks, s, digits, hwritten, _⟩ := (ascii?_eq_some_iff t n).mp hread
      exact absurd ⟨blanks, s, digits, hwritten⟩ h

end Numeral

end LineShell
