import LineShell.Error
import LineShell.Text.Numeral

/- The files that `proc` prints.

   The argument of `proc` names a file. Without a slash it is one of the names that are supported
   directly under the root of the process tree; with one, its first two segments are a process and
   a file of that process, and what follows them is ignored. The path must fit a capacity in bytes
   that counts a terminator: it is refused rather than cut. -/
namespace LineShell

inductive ProcPath where
  | global (name : Text)
  | perProcess (pid file : Text)
  deriving DecidableEq, Repr

namespace ProcPath

/-- The path of a file under a root, whose own trailing slashes do not count. -/
def under (root : Text) : ProcPath → Text
  | global name => root.dropEndWhile CodePoint.isSlash ++ "/" ++ name
  | perProcess pid file => root.dropEndWhile CodePoint.isSlash ++ "/" ++ pid ++ "/" ++ file

def parse (supported : List Text) (argument : Text) : Except ShellError ProcPath :=
  if argument.any CodePoint.isSlash then
    match argument.fields CodePoint.isSlash with
    | pid :: file :: _ => .ok (.perProcess pid file)
    | _ => .error .procUsage
  else if argument ∈ supported then .ok (.global argument)
  else .error (.unsupportedFile supported)

/-- A path that fits the capacity. Only a path that is valid UTF-8 has a size, and a path that
does not fit can only be reported with a limit that can be written. -/
def checkCapacity (capacity : Int) (path : Text) : Except Failure Text :=
  match Encoding.strict.fault? path with
  | some fault => .error (.crash (.unusableText (.unencodable fault)))
  | none =>
    if (path.utf8Size : Int) + 1 ≤ capacity then .ok path
    else if !Numeral.isWritable (capacity - 1) then .error (.crash .unwritableNumber)
    else .error (.reported (.pathTooLong path.utf8Size capacity))

/-- The path that the argument vector of a `proc` command stands for. -/
def resolve (root : Text) (capacity : Int) (supported : List Text) :
    List Text → Except Failure Text
  | [_, argument] =>
    match parse supported argument with
    | .error error => .error (.reported error)
    | .ok file => checkCapacity capacity (file.under root)
  | _ => .error (.reported .procUsage)

end ProcPath

end LineShell
