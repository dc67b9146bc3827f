import Mathlib.Data.List.Pairwise
import LineShell.Proofs.Text.Decimal
import LineShell.Proofs.Text.Ends
import LineShell.Proofs.Text.Fields

/- The grammar of integers in the digits of any script.

   An integer is written as a sign or none and groups of digits with an underscore between any two
   of them, and white space may stand around it (`Numeral.Grouped`). Scripts have no digit in common
   (`pairwise_decimalZeros`), so every digit has one value, and no digit is white space, a sign or
   an underscore. `Numeral.anyScript?` reads exactly the texts that are written so
   (`anyScript?_eq_some_iff`). `Numeral.Converts` is the integer that such a text denotes, if it is
   not too long. -/
namespace LineShell

namespace CodePoint

/-- The digit of a value in one of the scripts. -/
def IsDecimal (c : CodePoint) (value : Nat) : Prop :=
  value ≤ 9 ∧ ∃ first ∈ decimalZeros, c.val = first + value

/-- The digits of a script end before those of the next one. -/
theorem pairwise_decimalZeros : decimalZeros.Pairwise fun first next => first + 9 < next := by
  have htrans : ∀ {a b c : Nat}, a + 9 < b → b + 9 < c → a + 9 < c := by omega
  have : Trans (fun first next : Nat => first + 9 < next) (fun first next => first + 9 < next)
      (fun first next => first + 9 < next) := ⟨htrans⟩
  exact List.isChain_iff_pairwise.mp (by decide +kernel)

theorem eq_of_mem_decimalZeros {first other n : Nat} (hfirst : first ∈ decimalZeros)
    (hother : other ∈ decimalZeros) (hn : first ≤ n ∧ n ≤ first + 9)
    (hno : other ≤ n ∧ n ≤ other + 9) : first = other := by
  have hsymm : Std.Symm fun a b : Nat => a = b ∨ a + 9 < b ∨ b + 9 < a := ⟨by omega⟩
  have hapart := pairwise_decimalZeros.imp
    (S := fun a b => a = b ∨ a + 9 < b ∨ b + 9 < a) fun h => .inr (.inl h)
  have hcases := hapart.forall_of_forall (fun _ _ => .inl rfl) hfirst hother
  omega

theorem decimalDigit?_eq_some_iff (c : CodePoint) (value : Nat) :
    c.decimalDigit? = some value ↔ c.IsDecimal value := by
  rw [decimalDigit?, Option.map_eq_some_iff]
  refine ⟨?_, ?_⟩
  · rintro ⟨first, hfirst, rfl⟩
    have hrange := List.find?_some hfirst
    simp only [Bool.and_eq_true, decide_eq_true_eq] at hrange
    exact ⟨by omega, first, List.mem_of_find?_eq_some hfirst, by omega⟩
  · rintro ⟨hvalue, first, hfirst, hc⟩
    have hrange : first ≤ c.val ∧ c.val ≤ first + 9 := by omega
    cases hfind : decimalZeros.find? fun first => first ≤ c.val && c.val ≤ first + 9 with
    | none =>
      have hnone := List.find?_eq_none.mp hfind first hfirst
      simp [hrange] at hnone
    | some other =>
      have hother := List.find?_some hfind
      simp only [Bool.and_eq_true, decide_eq_true_eq] at hother
      have hsame := eq_of_mem_decimalZeros hfirst (List.mem_of_find?_eq_some hfind) hrange hother
      exact ⟨other, rfl, by omega⟩

/-- A digit: one of a value in some script, or one that no positional numeral is written with. -/
def IsDigit (c : CodePoint) : Prop :=
  (∃ value, c.IsDecimal value) ∨ ∃ range ∈ otherDigitRanges, range.1 ≤ c.val ∧ c.val ≤ range.2

theorem isDigit_iff (c : CodePoint) : c.isDigit = true ↔ c.IsDigit := by
  rw [isDigit, Bool.or_eq_true, Option.isSome_iff_exists, isIn, List.any_eq_true]
  simp only [decimalDigit?_eq_some_iff, Bool.and_eq_true, decide_eq_true_eq]
  rfl

theorem isBlank_of_isDecimal {c : CodePoint} {value : Nat} (h : c.IsDecimal value) :
    c.isBlank = false := by
  obtain ⟨hvalue, first, hfirst, hc⟩ := h
  have hapart : ∀ first ∈ decimalZeros, ∀ range ∈ blankRanges,
      range.2 < first ∨ first + 9 < range.1 := by decide
  rw [isBlank, isIn, List.any_eq_false]
  intro range hrange
  have hout := hapart first hfirst range hrange
  simp only [Bool.and_eq_true, decide_eq_true_eq]
  omega

theorem ne_mark_of_isDecimal {c : CodePoint} {value : Nat} (h : c.IsDecimal value) :
    c ≠ '-' ∧ c ≠ '+' ∧ c ≠ '_' := by
  obtain ⟨hvalue, first, hfirst, hc⟩ := h
  have hapart : ∀ first ∈ decimalZeros, ∀ mark ∈ [0x2D, 0x2B, 0x5F],
      mark < first ∨ first + 9 < mark := by decide
  have hmarks := hapart first hfirst
  simp only [List.forall_mem_cons, List.not_mem_nil] at hmarks
  rw [Ne, Ne, Ne, eq_ofChar_iff, eq_ofChar_iff, eq_ofChar_iff]
  show ¬c.val = 0x2D ∧ ¬c.val = 0x2B ∧ ¬c.val = 0x5F
  omega

end CodePoint

namespace Numeral

/-- Groups of digits, with an underscore between any two. -/
def figures (groups : List Text) : Text := List.intercalate ['_'] groups

/-- The text is white space, at most one sign, groups of digits with an underscore between any two,
and white space. The digits have these values, the first group's first. -/
structure Grouped (t front sign : Text) (groups : List Text) (back : Text) (values : List Nat) :
    Prop where
  text : t = front ++ (sign ++ figures groups ++ back)
  front : ∀ c ∈ front, c.isNumeralBlank = true
  back : ∀ c ∈ back, c.isNumeralBlank = true
  isSign : IsSign sign
  some_group : groups ≠ []
  some_digit : ∀ group ∈ groups, group ≠ []
  values : List.Forall₂ CodePoint.IsDecimal groups.flatten values

section

variable {t front s : Text} {groups : List Text} {back : Text} {values : List Nat}

theorem mapM_decimalDigit? (digits : Text) (values : List Nat) :
    digits.mapM CodePoint.decimalDigit? = some values
      ↔ List.Forall₂ CodePoint.IsDecimal digits values := by
  simp only [mapM_eq_some_iff, CodePoint.decimalDigit?_eq_some_iff]

theorem Grouped.isDecimal (h : Grouped t front s groups back values) {group : Text}
    (hgroup : group ∈ groups) {c : CodePoint} (hc : c ∈ group) : ∃ value, c.IsDecimal value := by
  have hmem : c ∈ groups.flatten := List.mem_flatten.mpr ⟨group, hgroup, hc⟩
  obtain ⟨i, hi, rfl⟩ := List.mem_iff_getElem.mp hmem
  exact ⟨_, h.values.get hi (h.values.length_eq ▸ hi)⟩

theorem Grouped.body_cases (h : Grouped t front s groups back values) {c : CodePoint}
    (hc : c ∈ figures groups) : c = '_' ∨ ∃ value, c.IsDecimal value := by
  rcases Text.mem_intercalate hc with hmark | ⟨group, hgroup, hdigit⟩
  · exact .inl (List.mem_singleton.mp hmark)
  · exact .inr (h.isDecimal hgroup hdigit)

theorem Grouped.isNumeralBlank_body (h : Grouped t front s groups back values) :
    ∀ c ∈ s ++ figures groups, c.isNumeralBlank = false := by
  intro c hc
  have hblank : c.isBlank = false := by
    rcases List.mem_append.mp hc with hsign | hdigits
    · rcases h.isSign with rfl | rfl | rfl
      · cases hsign
      · rw [List.mem_singleton.mp hsign]
        decide
      · rw [List.mem_singleton.mp hsign]
        decide
    · rcases h.body_cases hdigits with rfl | ⟨value, hvalue⟩
      · decide
      · exact CodePoint.isBlank_of_isDecimal hvalue
  rw [CodePoint.isNumeralBlank, hblank]
  rfl

theorem Grouped.figures_ne_nil (h : Grouped t front s groups back values) :
    figures groups ≠ [] := by
  obtain ⟨group, others, rfl⟩ := List.exists_cons_of_ne_nil h.some_group
  have hgroup : group ≠ [] := h.some_digit group List.mem_cons_self
  by_cases hlast : others = []
  · rw [hlast, figures, List.intercalate_singleton]
    exact hgroup
  · rw [figures, List.intercalate_cons_of_ne_nil hlast]
    simp [hgroup]

theorem Grouped.pieces_figures (h : Grouped t front s groups back values) :
    Text.pieces (· = '_') (figures groups) = groups := by
  refine Text.pieces_intercalate h.some_group fun group hgroup hmark => ?_
  obtain ⟨value, hvalue⟩ := h.isDecimal hgroup hmark
  exact (CodePoint.ne_mark_of_isDecimal hvalue).2.2 rfl

theorem Grouped.trim (h : Grouped t front s groups back values) :
    trim t = s ++ figures groups := by
  have hne : s ++ figures groups ≠ [] := by simp [h.figures_ne_nil]
  have hbody := h.isNumeralBlank_body
  rw [Numeral.trim, h.text, Text.dropWhile_append_body hne hbody h.front,
    Text.dropEndWhile_body_append hne hbody h.back]

theorem Grouped.sign (h : Grouped t front s groups back values) :
    sign (s ++ figures groups)
      = (decide (s = (['-'] : Text)), figures groups) := by
  refine sign_append_of_head h.isSign fun c hhead => ?_
  rcases h.body_cases (List.mem_of_mem_head? hhead) with rfl | ⟨value, hvalue⟩
  · decide
  · have hmarks := CodePoint.ne_mark_of_isDecimal hvalue
    exact ⟨hmarks.1, hmarks.2.1⟩

/-- The numerals that are read are the texts that are written in groups of digits. -/
theorem anyScript?_eq_some_iff (t : Text) (n : Numeral) :
    anyScript? t = some n ↔ ∃ front s groups back values,
      Grouped t front s groups back values ∧ n = ⟨decide (s = (['-'] : Text)), values⟩ := by
  refine ⟨?_, ?_⟩
  · intro h
    obtain ⟨s, hs, hbody, hnegative⟩ := sign_spec (trim t)
    obtain ⟨back, hkept, hback⟩ := Text.exists_dropEndWhile CodePoint.isNumeralBlank
      (t.dropWhile CodePoint.isNumeralBlank)
    simp only [anyScript?] at h
    split at h
    · cases h
    · next hgroups =>
      obtain ⟨values, hvalues, rfl⟩ := Option.map_eq_some_iff.mp h
      have hgrouped : Grouped t (t.takeWhile CodePoint.isNumeralBlank) s
          (Text.pieces (· = '_') (Numeral.sign (Numeral.trim t)).2) back values := {
        text := by
          rw [figures, Text.intercalate_pieces, ← hbody, Numeral.trim, ← hkept,
            List.takeWhile_append_dropWhile]
        front := fun c hc => List.mem_takeWhile_imp hc
        back := hback
        isSign := hs
        some_group := Text.pieces_ne_nil _ _
        some_digit := by
          rintro group hgroup rfl
          exact hgroups (List.any_eq_true.mpr ⟨[], hgroup, rfl⟩)
        values := (mapM_decimalDigit? _ values).mp hvalues }
      exact ⟨_, s, _, back, values, hgrouped, by rw [hnegative]⟩
  · rintro ⟨front, s, groups, back, values, hgrouped, rfl⟩
    have hdigits : ¬groups.any List.isEmpty = true := by
      intro hempty
      obtain ⟨group, hgroup, hnil⟩ := List.any_eq_true.mp hempty
      exact hgrouped.some_digit group hgroup (List.isEmpty_iff.mp hnil)
    rw [anyScript?, hgrouped.trim, hgrouped.sign]
    simp only [hgrouped.pieces_figures]
    rw [if_neg hdigits, (mapM_decimalDigit? _ values).mpr hgrouped.values]
    rfl

end

def signed (sign : Text) (magnitude : Nat) : Int :=
  if sign = (['-'] : Text) then -(magnitude : Int) else magnitude

/-- The text is written as an integer, in no more digits than are converted. The last digit counts
ones, and every digit ten times as much as the one behind it. -/
inductive Converts (t : Text) : Int → Prop where
  | intro {front sign : Text} {groups : List Text} {back : Text} {values : List Nat}
      (hgrouped : Grouped t front sign groups back values)
      (hshort : values.length ≤ digitLimit) :
    Converts t (signed sign (Nat.ofDigits 10 values.reverse))

theorem value_eq_signed (sign : Text) (values : List Nat) :
    value ⟨decide (sign = (['-'] : Text)), values⟩ = signed sign (Nat.ofDigits 10 values.reverse) := by
  rw [value, signed, magnitude_eq_ofDigits]
  by_cases h : sign = (['-'] : Text)
  · rw [if_pos h, if_pos (decide_eq_true h)]
  · rw [if_neg h, if_neg (by simpa using h)]

end Numeral

end LineShell
