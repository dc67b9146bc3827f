import LineShell.Escape
import LineShell.Line.Storage
import LineShell.Line.Token

/- The argument vector of a line.

   It is the tokens of the line. When the first of them is `echo`, the others are decoded: a token
   that the decoder has something for is replaced by it, up to the first NUL. -/
namespace LineShell.Line

/-- The command whose arguments are decoded. -/
def echoName : Text := "echo"

/-- A token after decoding: what the decoder gives, cut at its first NUL, or else the token. -/
def decodeArgument (decoder : Text → Option Text) (token : Text) : Text :=
  match decoder token with
  | none => token
  | some decoded => decoded.takeWhile (· ≠ '\x00')

def arguments (decoder : Text → Option Text) : List Text → List Text
  | [] => []
  | command :: tokens =>
    command :: if command = echoName then tokens.map (decodeArgument decoder) else tokens

def warningEntry (message : Text) : Entry := .warning "escape" message

def warningEntries : List Text → List Entry
  | [] => []
  | command :: tokens =>
    if command = echoName then (tokens.flatMap Escape.warnings).map warningEntry else []

/-- A line that has been read: the records of storage growth, and its arguments or the fault of
the storage. -/
structure Parsed where
  entries : List Entry
  result : Except Storage.Fault (List Text)

def parse (decoder : Text → Option Text) (growth : Int) (memory : Memory) (line : Text) :
    Parsed :=
  let account := Storage.account growth memory (tokens line).length
  { entries := account.entries
    result := match account.fault with
      | some fault => .error fault
      | none => .ok (arguments decoder (tokens line)) }

end LineShell.Line
