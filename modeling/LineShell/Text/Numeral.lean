import LineShell.Text.Blank
import LineShell.Text.Digit

/- Decimal numerals.

   A numeral is an optional sign and at least one digit. Two readings are in use. `Numeral.ascii?`
   takes the digits `0` to `9` and allows white space only in front; `Numeral.anyScript?` takes
   the decimal digits of every script, single underscores between digits, and white space on both
   sides. Neither bounds the number of digits: a reader that does compares with
   `Numeral.digitLimit`, and a writer asks `Numeral.isWritable`. -/
namespace LineShell

/-- A sign and the digits' values, the most significant first. -/
structure Numeral where
  negative : Bool
  digits : List Nat
  deriving DecidableEq, Repr

namespace Numeral

/-- The longest numeral that is converted to a number or from one, in digits. -/
def digitLimit : Nat := 4300

/-- Whether a number has a numeral that is not too long; its sign does not count. -/
def isWritable (z : Int) : Bool := (Text.ofNat z.natAbs).length ≤ digitLimit

def magnitude (n : Numeral) : Nat := n.digits.foldl (fun value digit => 10 * value + digit) 0

def value (n : Numeral) : Int := if n.negative then -(n.magnitude : Int) else n.magnitude

/-- Whether the text starts with a minus sign, and the text after its sign, if it has one. -/
def sign : Text → Bool × Text
  | [] => (false, [])
  | c :: rest =>
    if c = '-' then (true, rest) else if c = '+' then (false, rest) else (false, c :: rest)

/-- White space, a sign or none, and digits from `0` to `9` up to the end. -/
def ascii? (t : Text) : Option Numeral :=
  let (negative, figures) := sign (t.dropWhile CodePoint.isBlank)
  if figures.isEmpty then none
  else (figures.mapM CodePoint.asciiDigit?).map (⟨negative, ·⟩)

/-- The text without the white space at its two ends. -/
def trim (t : Text) : Text :=
  Text.dropEndWhile CodePoint.isNumeralBlank (t.dropWhile CodePoint.isNumeralBlank)

/-- A sign or none, and decimal digits with single underscores between them, surrounded by white
space. Cut at its underscores, such a numeral has no empty part. -/
def anyScript? (t : Text) : Option Numeral :=
  let (negative, figures) := sign (trim t)
  let groups := figures.pieces (· = '_')
  if groups.any List.isEmpty then none
  else (groups.flatten.mapM CodePoint.decimalDigit?).map (⟨negative, ·⟩)

end Numeral

end LineShell
