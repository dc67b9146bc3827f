import LineShell.Text.Basic

/- Backslash escapes in the arguments of `echo`.

   `\\`, `\a`, `\b`, `\e`, `\f`, `\n`, `\r`, `\t` and `\v` stand for one character each; `\0` with
   up to three octal digits and `\x` with one or two hexadecimal digits stand for one byte; any
   other character after a backslash makes an unknown escape, which is kept as written and warned
   about; a backslash at the end stands for itself.

   A token is scanned once from left to right. Between two characters the scan is in a state
   `Pending`: what has been read of an escape whose end is not reached. `step` reads one character
   and `close` ends the token, and both give the finished pieces. The decoded token, the token as
   it was written and the warnings are three views of the list of pieces. -/
namespace LineShell.Escape

/-- One part of a token: a character that stands for itself, or an escape. -/
inductive Piece where
  | plain (c : CodePoint)
  | named (letter meaning : CodePoint)
  | octal (digits : Text)
  | hex (digits : Text)
  | unknown (c : CodePoint)
  | lone
  deriving DecidableEq, Repr

/-! ## Letters and digits -/

/-- The letters that name a character, each with the character. -/
def letters : List (CodePoint × CodePoint) :=
  [('\\', '\\'), ('a', '\x07'), ('b', '\x08'), ('e', '\x1b'), ('f', '\x0c'), ('n', '\n'),
    ('r', '\r'), ('t', '\t'), ('v', '\x0b')]

def meaning? (letter : CodePoint) : Option CodePoint := letters.lookup letter

def octalDigit? (c : CodePoint) : Option Nat :=
  if 0x30 ≤ c.val ∧ c.val ≤ 0x37 then some (c.val - 0x30) else none

/-- The value of a hexadecimal digit, in either case. -/
def hexDigit? (c : CodePoint) : Option Nat :=
  if 0x30 ≤ c.val ∧ c.val ≤ 0x39 then some (c.val - 0x30)
  else if 0x41 ≤ c.val ∧ c.val ≤ 0x46 then some (c.val - 0x37)
  else if 0x61 ≤ c.val ∧ c.val ≤ 0x66 then some (c.val - 0x57)
  else none

def digitsValue (base : Nat) (digit? : CodePoint → Option Nat) (digits : Text) : Nat :=
  digits.foldl (fun value c => base * value + (digit? c).getD 0) 0

/-! ## The scan -/

/-- What has been read of an escape: nothing, its backslash, or also its `0` or `x` and the digits
so far, of which an octal escape can hold two and a hexadecimal one can hold one. -/
inductive Pending where
  | idle
  | backslash
  | octal (digits : Text)
  | hex (digits : Text)
  deriving DecidableEq, Repr

/-- The escape that is complete when nothing more belongs to it. -/
def close : Pending → List Piece
  | .idle => []
  | .backslash => [.lone]
  | .octal digits => [.octal digits]
  | .hex [] => [.unknown 'x']
  | .hex digits => [.hex digits]

def start (c : CodePoint) : List Piece × Pending :=
  if c = '\\' then ([], .backslash) else ([.plain c], .idle)

def select (c : CodePoint) : List Piece × Pending :=
  if c = '0' then ([], .octal [])
  else if c = 'x' then ([], .hex [])
  else match meaning? c with
    | some meaning => ([.named c meaning], .idle)
    | none => ([.unknown c], .idle)

/-- One character: the pieces that it completes, and what is pending after it. -/
def step : Pending → CodePoint → List Piece × Pending
  | .idle, c => start c
  | .backslash, c => select c
  | .octal digits, c =>
    if (octalDigit? c).isNone then (close (.octal digits) ++ (start c).1, (start c).2)
    else if digits.length < 2 then ([], .octal (digits ++ [c]))
    else ([.octal (digits ++ [c])], .idle)
  | .hex digits, c =>
    if (hexDigit? c).isNone then (close (.hex digits) ++ (start c).1, (start c).2)
    else if digits.length < 1 then ([], .hex (digits ++ [c]))
    else ([.hex (digits ++ [c])], .idle)

/-- The pieces of a text that follows a pending escape. -/
def scan : Pending → Text → List Piece
  | pending, [] => close pending
  | pending, c :: rest => (step pending c).1 ++ scan (step pending c).2 rest

def pieces (token : Text) : List Piece := scan .idle token

/-! ## Views of the pieces -/

namespace Piece

/-- The piece as it is written in the token. -/
def source : Piece → Text
  | plain c => [c]
  | named letter _ => ['\\', letter]
  | octal digits => '\\' :: '0' :: digits
  | hex digits => '\\' :: 'x' :: digits
  | unknown c => ['\\', c]
  | lone => ['\\']

/-- What the piece stands for. A number stands for one byte, its value modulo 256. -/
def decoded : Piece → Text
  | plain c => [c]
  | named _ meaning => [meaning]
  | octal digits => [.ofByte (.ofNat (digitsValue 8 octalDigit? digits))]
  | hex digits => [.ofByte (.ofNat (digitsValue 16 hexDigit? digits))]
  | unknown c => ['\\', c]
  | lone => ['\\']

def warning? : Piece → Option Text
  | unknown c => some ("unknown escape sequence '\\" ++ [c] ++ "'")
  | _ => none

end Piece

/-! ## Nothing is lost

The pieces written one after the other are the token: each step passes on what was pending and the
character it reads. -/

def Pending.source : Pending → Text
  | idle => []
  | backslash => ['\\']
  | octal digits => '\\' :: '0' :: digits
  | hex digits => '\\' :: 'x' :: digits

theorem source_close (pending : Pending) :
    (close pending).flatMap Piece.source = pending.source := by
  cases pending with
  | hex digits => cases digits <;> simp [close, Piece.source, Pending.source]
  | _ => simp [close, Piece.source, Pending.source]

theorem source_start (c : CodePoint) :
    (start c).1.flatMap Piece.source ++ (start c).2.source = [c] := by
  rw [start]
  split
  · next h => simp [Pending.source, h]
  · rfl

theorem source_select (c : CodePoint) :
    (select c).1.flatMap Piece.source ++ (select c).2.source
      = Pending.backslash.source ++ [c] := by
  rw [select]
  split
  · next h => simp [Pending.source, h]
  · split
    · next h => simp [Pending.source, h]
    · split <;> rfl

theorem source_step (pending : Pending) (c : CodePoint) :
    (step pending c).1.flatMap Piece.source ++ (step pending c).2.source
      = pending.source ++ [c] := by
  cases pending with
  | idle => exact source_start c
  | backslash => exact source_select c
  | octal digits =>
    rw [step]
    split
    · simp [source_start, source_close]
    · split <;> simp [Pending.source, Piece.source]
  | hex digits =>
    rw [step]
    split
    · simp [source_start, source_close]
    · split <;> simp [Pending.source, Piece.source]

theorem source_scan (pending : Pending) (t : Text) :
    (scan pending t).flatMap Piece.source = pending.source ++ t := by
  induction t generalizing pending with
  | nil => simp [scan, source_close]
  | cons c rest ih => rw [scan, List.flatMap_append, ih, ← List.append_assoc, source_step]; simp

theorem source_pieces (token : Text) : (pieces token).flatMap Piece.source = token := by
  rw [pieces, source_scan]; rfl

/-! ## The decoder -/

/-- The decoded token; none if the token holds no backslash. -/
def decode (token : Text) : Option Text :=
  if token.contains '\\' then some ((pieces token).flatMap Piece.decoded) else none

def warnings (token : Text) : List Text := (pieces token).filterMap Piece.warning?

end LineShell.Escape
