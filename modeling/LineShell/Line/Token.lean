import LineShell.Text.Blank

/- The tokens of a line.

   Tokens are the maximal stretches without a delimiter: space, tab, return, newline or bell. A
   line is blank if it is all white space, which is another set of characters than the delimiters:
   a bell is no white space, and a form feed no delimiter. -/
namespace LineShell.Line

def isDelimiter (c : CodePoint) : Bool :=
  c = ' ' || c = '\t' || c = '\r' || c = '\n' || c = '\x07'

/-- The tokens of a line, in order; none is empty. -/
def tokens (line : Text) : List Text := line.fields isDelimiter

/-- Whether a line has anything but delimiters in it. -/
def hasArguments (line : Text) : Bool := line.any (!isDelimiter ·)

end LineShell.Line
