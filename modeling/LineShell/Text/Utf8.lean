import LineShell.Text.Basic

/- UTF-8 over code points that may be surrogates.

   Two encodings are in use. `Encoding.strict` is plain UTF-8, in which no surrogate has a place;
   `Encoding.rawBytes` also lets U+DC80..U+DCFF through, each as the one byte it stands for, and
   is how paths and arguments reach the operating system and the prompt reaches the output. Both
   write a text they accept as `Text.bytes`; they differ in what they refuse, and a refusal
   (`EncodingFault`) names the first offending code point and the run of surrogates that it
   starts. -/
namespace LineShell

namespace CodePoint

/-- The number of bytes that UTF-8 takes for a code point. -/
def utf8Size (c : CodePoint) : Nat :=
  if c.val < 0x80 then 1 else if c.val < 0x800 then 2 else if c.val < 0x10000 then 3 else 4

/-- The UTF-8 bytes of a code point: the leading byte, then six bits to each further byte. -/
def utf8 (c : CodePoint) : Bytes :=
  let n := c.val
  if n < 0x80 then [.ofNat n]
  else if n < 0x800 then [.ofNat (0xC0 + n / 64), .ofNat (0x80 + n % 64)]
  else if n < 0x10000 then
    [.ofNat (0xE0 + n / 4096), .ofNat (0x80 + n / 64 % 64), .ofNat (0x80 + n % 64)]
  else
    [.ofNat (0xF0 + n / 262144), .ofNat (0x80 + n / 4096 % 64), .ofNat (0x80 + n / 64 % 64),
      .ofNat (0x80 + n % 64)]

theorem length_utf8 (c : CodePoint) : c.utf8.length = c.utf8Size := by
  simp only [utf8, utf8Size]
  repeat' split
  all_goals rfl

/-- The bytes of a code point: a raw byte as itself, all else in UTF-8. -/
def bytes (c : CodePoint) : Bytes := if c.isRawByte then [.ofNat (c.val - 0xDC00)] else c.utf8

end CodePoint

namespace Text

def bytes (t : Text) : Bytes := t.flatMap CodePoint.bytes

def utf8Size (t : Text) : Nat := t.foldr (fun c size => c.utf8Size + size) 0

end Text

/-- Which surrogates may be encoded: none, or those that stand for a byte. -/
inductive Encoding where
  | strict
  | rawBytes
  deriving DecidableEq, Repr

/-- Why a text cannot be encoded: its first offending code point, and the positions of the first
and the last of the surrogates that stand there side by side. -/
structure EncodingFault where
  offender : CodePoint
  first : Nat
  last : Nat
  deriving DecidableEq, Repr

/-- The wording of a refusal: one code point is shown, a run is only located. -/
def EncodingFault.message (f : EncodingFault) : Text :=
  if f.first = f.last then
    "'utf-8' codec can't encode character '\\u" ++ Text.hex 4 f.offender.val ++ "' in position "
      ++ Text.ofNat f.first ++ ": surrogates not allowed"
  else
    "'utf-8' codec can't encode characters in position " ++ Text.ofNat f.first ++ "-"
      ++ Text.ofNat f.last ++ ": surrogates not allowed"

namespace Encoding

def offends : Encoding → CodePoint → Bool
  | strict, c => c.isSurrogate
  | rawBytes, c => c.isSurrogate && !c.isRawByte

/-- What keeps a text from being encoded, if anything. The run that is reported goes on over all
surrogates after the offender, also over those that would have been accepted. -/
def fault? (e : Encoding) (t : Text) : Option EncodingFault :=
  match t.dropWhile (!e.offends ·) with
  | [] => none
  | offender :: rest =>
    let first := (t.takeWhile (!e.offends ·)).length
    some ⟨offender, first, first + (rest.takeWhile CodePoint.isSurrogate).length⟩

/-- The bytes of a text, unless it holds a code point that the encoding refuses. -/
def encode (e : Encoding) (t : Text) : Except EncodingFault Bytes :=
  match e.fault? t with
  | some fault => .error fault
  | none => .ok t.bytes

end Encoding

end LineShell
