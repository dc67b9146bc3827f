import LineShell.Text.Printable

/- A text in quotes, for messages that show what was typed.

   Single quotes are used, or double quotes for a text that holds single quotes and no double
   ones. The quote in use and the backslash are escaped, the newline, return and tab have short
   forms, and what is not printable is written by its number in two, four or eight hexadecimal
   digits. -/
namespace LineShell

namespace Quoted

def mark (t : Text) : CodePoint := if t.contains '\'' && !t.contains '"' then '"' else '\''

def character (mark c : CodePoint) : Text :=
  if c = mark || c = '\\' then ['\\', c]
  else if c = '\n' then "\\n"
  else if c = '\r' then "\\r"
  else if c = '\t' then "\\t"
  else if c.isPrintable then [c]
  else if c.val < 0x100 then "\\x" ++ Text.hex 2 c.val
  else if c.val < 0x10000 then "\\u" ++ Text.hex 4 c.val
  else "\\U" ++ Text.hex 8 c.val

end Quoted

/-- The text in quotes. -/
def Text.quoted (t : Text) : Text :=
  Quoted.mark t :: t.flatMap (Quoted.character (Quoted.mark t)) ++ [Quoted.mark t]

end LineShell
