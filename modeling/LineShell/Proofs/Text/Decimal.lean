import Mathlib.Data.Nat.Digits.Defs
import LineShell.Proofs.Text.Numeral

/- Decimal notation: what digits denote, and how integers are written.

   Digits denote the sum of their values, each times ten for every digit behind it
   (`Numeral.positional`). That is what reading them from the left comes to (`value_eq_denoted`).
   Every integer is written as a numeral without blanks (`written_ofInt`), and the numeral denotes
   it (`denoted_ofInt`). -/
namespace LineShell.Numeral

/-- The number that digits denote by their places; the last digit counts ones. -/
def positional (digits : Text) : Nat := Nat.ofDigits 10 (digitValues digits).reverse

/-- The integer that a sign and digits denote. -/
def denoted (sign digits : Text) : Int :=
  if sign = (['-'] : Text) then -(positional digits : Int) else positional digits

theorem magnitude_eq_ofDigits (n : Numeral) : n.magnitude = Nat.ofDigits 10 n.digits.reverse := by
  rw [magnitude, Nat.ofDigits_eq_foldr, List.foldl_eq_foldr_reverse]
  congr 1
  funext digit value
  exact Nat.add_comm _ _

theorem magnitude_eq_positional (negative : Bool) (digits : Text) :
    magnitude ⟨negative, digitValues digits⟩ = positional digits :=
  magnitude_eq_ofDigits _

theorem value_eq_denoted (sign digits : Text) :
    value ⟨decide (sign = (['-'] : Text)), digitValues digits⟩ = denoted sign digits := by
  rw [value, denoted, magnitude_eq_positional]
  by_cases h : sign = (['-'] : Text)
  · rw [if_pos h, if_pos (decide_eq_true h)]
  · rw [if_neg h, if_neg (by simpa using h)]

/-! ## Writing integers -/

def signOf (z : Int) : Text := if z < 0 then ['-'] else []

theorem ofInt_eq (z : Int) : Text.ofInt z = signOf z ++ Text.ofNat z.natAbs := by
  cases z with
  | ofNat n =>
    have hsign : ¬Int.ofNat n < 0 := Int.not_lt.mpr (Int.natCast_nonneg n)
    rw [signOf, if_neg hsign]
    rfl
  | negSucc n =>
    rw [signOf, if_pos (Int.negSucc_lt_zero n)]
    rfl

theorem areDigits_ofNat (n : Nat) : AreDigits (Text.ofNat n) := by
  refine ⟨?_, ?_⟩
  · rw [Text.ofNat, Ne, List.map_eq_nil_iff]
    exact Nat.toDigits_ne_nil
  · intro c hc
    obtain ⟨d, hd, rfl⟩ := List.mem_map.mp hc
    have hdigit := Nat.isDigit_of_mem_toDigits (by decide) (by decide) hd
    exact Char.isDigit_iff_toNat.mp hdigit

theorem positional_ofNat (n : Nat) : positional (Text.ofNat n) = n := by
  rw [← magnitude_eq_positional false, magnitude, digitValues, Text.ofNat, List.map_map,
    List.foldl_map]
  exact Nat.ofDigitChars_ten_toDigits

theorem written_ofInt (z : Int) : Written (Text.ofInt z) [] (signOf z) (Text.ofNat z.natAbs) where
  text := ofInt_eq z
  blank := by simp
  isSign := by
    rw [signOf]
    split
    · exact .inr (.inr rfl)
    · exact .inl rfl
  areDigits := areDigits_ofNat z.natAbs

theorem denoted_ofInt (z : Int) : denoted (signOf z) (Text.ofNat z.natAbs) = z := by
  rw [denoted, positional_ofNat, signOf]
  by_cases h : z < 0
  · rw [if_pos h, if_pos rfl]
    omega
  · rw [if_neg h, if_neg (by simp)]
    omega

end LineShell.Numeral
