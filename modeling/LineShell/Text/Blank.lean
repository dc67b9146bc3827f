import LineShell.Text.Basic

/- White space, as Unicode has it: the ASCII blanks, the four information separators
   U+001C..U+001F, and the spaces and line separators beyond ASCII. -/
namespace LineShell

def blankRanges : List (Nat × Nat) :=
  [(0x09, 0x0D), (0x1C, 0x20), (0x85, 0x85), (0xA0, 0xA0), (0x1680, 0x1680), (0x2000, 0x200A),
    (0x2028, 0x2029), (0x202F, 0x202F), (0x205F, 0x205F), (0x3000, 0x3000)]

namespace CodePoint

def isBlank (c : CodePoint) : Bool := c.isIn blankRanges

/-- An information separator: white space, but none that a numeral may stand between. -/
def isSeparator (c : CodePoint) : Bool := 0x1C ≤ c.val && c.val ≤ 0x1F

/-- White space that may surround a numeral. -/
def isNumeralBlank (c : CodePoint) : Bool := c.isBlank && !c.isSeparator

end CodePoint

/-- A text without any character but white space. -/
def Text.isBlank (t : Text) : Bool := t.all CodePoint.isBlank

end LineShell
