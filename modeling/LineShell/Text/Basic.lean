/- Text as the shell handles it: a list of Unicode code points.

   Lines, arguments, paths and messages are all `Text`. A text may hold surrogates: a byte that is
   not valid UTF-8 is kept as one of the code points U+DC80..U+DCFF (`CodePoint.isRawByte`), so a
   `String`, whose characters are never surrogates, is too small for it. The module has the two
   types, the reading of literals as texts, numbers in decimal and hexadecimal, and the splitting
   of a text at separators, on which the argument splitter, the path segments and the words of the
   completer are built. -/
namespace LineShell

/-- A Unicode code point, the surrogates included. -/
abbrev CodePoint := Fin 0x110000

/-- A sequence of code points. -/
abbrev Text := List CodePoint

/-- A sequence of bytes. -/
abbrev Bytes := List UInt8

namespace CodePoint

def ofChar (c : Char) : CodePoint :=
  ⟨c.toNat, by
    have valid := c.valid
    simp only [UInt32.isValidChar, Nat.isValidChar] at valid
    change c.val.toNat < _
    omega⟩

instance : Coe Char CodePoint := ⟨ofChar⟩

/-- The character between the segments of a path. -/
def isSlash (c : CodePoint) : Bool := c = '/'

/-- Half of a surrogate pair, standing alone. -/
def isSurrogate (c : CodePoint) : Bool := 0xD800 ≤ c.val && c.val ≤ 0xDFFF

/-- A surrogate that stands for one byte from 0x80 to 0xFF. -/
def isRawByte (c : CodePoint) : Bool := 0xDC80 ≤ c.val && c.val ≤ 0xDCFF

/-- The code point that is encoded as the one byte `b`: ASCII as itself, a higher byte as the
surrogate that stands for it. -/
def ofByte (b : UInt8) : CodePoint :=
  ⟨if b.toNat < 0x80 then b.toNat else 0xDC00 + b.toNat, by have := b.toNat_lt; split <;> omega⟩

/-- Whether the code point lies in one of the ranges, each given by its first and last number. -/
def isIn (ranges : List (Nat × Nat)) (c : CodePoint) : Bool :=
  ranges.any fun range => range.1 ≤ c.val && c.val ≤ range.2

end CodePoint

namespace Text

def ofString (s : String) : Text := s.toList.map CodePoint.ofChar

instance : Coe String Text := ⟨ofString⟩

/-- A natural number in decimal, without leading zeros. -/
def ofNat (n : Nat) : Text := (Nat.toDigits 10 n).map CodePoint.ofChar

/-- An integer in decimal, with a sign only if it is negative. -/
def ofInt : Int → Text
  | .ofNat n => ofNat n
  | .negSucc n => '-' :: ofNat (n + 1)

/-- A number in lower-case hexadecimal, filled with zeros up to `width` digits. -/
def hex (width n : Nat) : Text := ((Nat.toDigits 16 n).leftpad width '0').map CodePoint.ofChar

/-- The order of texts by their first code points that differ; a text follows its beginnings. -/
def le : Text → Text → Bool
  | [], _ => true
  | _ :: _, [] => false
  | a :: s, b :: t => a.val < b.val || (a.val = b.val && le s t)

/-- The stretches between separators, the empty ones included: one more than separators. -/
def pieces (isSeparator : CodePoint → Bool) : Text → List Text
  | [] => [[]]
  | c :: rest =>
    if isSeparator c then [] :: pieces isSeparator rest
    else match pieces isSeparator rest with
      | [] => [[c]]
      | piece :: others => (c :: piece) :: others

/-- The maximal non-empty stretches without a separator, in order. -/
def fields (isSeparator : CodePoint → Bool) (t : Text) : List Text :=
  (pieces isSeparator t).filter (!·.isEmpty)

theorem pieces_ne_nil (isSeparator : CodePoint → Bool) (t : Text) : pieces isSeparator t ≠ [] := by
  cases t with
  | nil => simp [pieces]
  | cons c rest =>
    rw [pieces]
    split
    · simp
    · split <;> simp

theorem flatten_pieces (isSeparator : CodePoint → Bool) (t : Text) :
    (pieces isSeparator t).flatten = t.filter (!isSeparator ·) := by
  induction t with
  | nil => rfl
  | cons c rest ih =>
    rw [pieces]
    split
    · next h => simp [h, ih]
    · next h =>
      split
      · next none => exact absurd none (pieces_ne_nil isSeparator rest)
      · next first others found => simp [found] at ih; simp [h, ih]

theorem flatten_fields (isSeparator : CodePoint → Bool) (t : Text) :
    (fields isSeparator t).flatten = t.filter (!isSeparator ·) := by
  rw [fields, ← flatten_pieces]
  induction pieces isSeparator t with
  | nil => rfl
  | cons piece others ih => cases piece <;> simp_all

theorem ne_nil_of_mem_fields {isSeparator : CodePoint → Bool} {t field : Text}
    (h : field ∈ fields isSeparator t) : field ≠ [] := by
  simp only [fields, List.mem_filter] at h
  simpa using h.2

/-- The lines of a text, each with the newline that ends it; only the last may lack one. -/
def lines : Text → List Text
  | [] => []
  | c :: rest =>
    if c = '\n' then ['\n'] :: lines rest
    else match lines rest with
      | [] => [[c]]
      | line :: others => (c :: line) :: others

/-- The text without the longest stretch at its end whose code points all satisfy `p`. -/
def dropEndWhile (p : CodePoint → Bool) (t : Text) : Text := (t.reverse.dropWhile p).reverse

/-- The text without the newline at its end, if it has one. -/
def withoutNewline (t : Text) : Text := if t.getLast? = some '\n' then t.dropLast else t

end Text

end LineShell
