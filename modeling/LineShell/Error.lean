import LineShell.Text.Passable

/- What can go wrong.

   A `ShellError` is a failure that the shell knows of: it has a place among the error classes,
   and with it a kind, and a message for the user. A command that fails with one does not end the
   session. A `Crash` is a failure that no part of the shell absorbs: it ends whatever was going
   on. `Failure` is either of them. Errors of the system (`OsError`) occur in both. -/
namespace LineShell

/-! ## Errors of the operating system -/

/-- An error with its number and the system's text for it, or with a message only. -/
inductive OsError where
  | numbered (errno : Int) (text : Text)
  | bare (message : Text)
  deriving DecidableEq, Repr

namespace OsError

/-- The error with its number, if it has one. -/
def full : OsError → Text
  | numbered errno text => "[Errno " ++ Text.ofInt errno ++ "] " ++ text
  | bare message => message

/-- The system's text for the error; the full form if there is none. -/
def reason : OsError → Text
  | numbered errno text => if text.isEmpty then (numbered errno text).full else text
  | bare message => message

def noEntry : OsError := numbered 2 "No such file or directory"

def noChild : OsError := numbered 10 "No child processes"

def noSpace : OsError := numbered 28 "No space left on device"

end OsError

/-! ## Classes and kinds -/

/-- The kinds by which failures are told apart in the log. -/
inductive ErrorKind where
  | usage
  | tooManyArguments
  | unsupportedFile
  | pathTooLong
  | fileNotFound
  | read
  | parse
  | spawn
  | allocation
  deriving DecidableEq, Repr

def ErrorKind.label : ErrorKind → String
  | usage => "usage"
  | tooManyArguments => "too-many-arguments"
  | unsupportedFile => "unsupported-file"
  | pathTooLong => "path-too-long"
  | fileNotFound => "file-not-found"
  | read => "read"
  | parse => "parse"
  | spawn => "spawn"
  | allocation => "allocation"

/-- The classes of shell errors. `shell` is above all others, `usage` above the two ways to misuse
a builtin, and `proc` above all failures of the builtin of that name. -/
inductive ErrorClass where
  | shell
  | usage
  | tooManyArguments
  | parse
  | spawn
  | allocation
  | proc
  | procUsage
  | unsupportedFile
  | pathTooLong
  | procFileNotFound
  | procRead
  deriving DecidableEq, Repr

namespace ErrorClass

/-- The kind that the members of a class have, unless a class below says otherwise. -/
def kind : ErrorClass → ErrorKind
  | shell | usage | proc | procUsage => .usage
  | tooManyArguments => .tooManyArguments
  | parse => .parse
  | spawn => .spawn
  | allocation => .allocation
  | unsupportedFile => .unsupportedFile
  | pathTooLong => .pathTooLong
  | procFileNotFound => .fileNotFound
  | procRead => .read

def ancestors : ErrorClass → List ErrorClass
  | shell => []
  | usage | parse | spawn | allocation | proc => [shell]
  | tooManyArguments => [usage, shell]
  | procUsage => [proc, usage, shell]
  | unsupportedFile | pathTooLong | procFileNotFound | procRead => [proc, shell]

end ErrorClass

/-! ## Failures of the shell -/

/-- Why a program was not started: a text that cannot be passed, an empty name, or the system. -/
inductive Refusal where
  | unpassable (fault : TextFault)
  | emptyName
  | system (error : OsError)
  deriving DecidableEq, Repr

def Refusal.message : Refusal → Text
  | unpassable fault => fault.message
  | emptyName => "posix_spawnp: argv first element cannot be empty"
  | system error => error.reason

/-- A failure that the shell reports. -/
inductive ShellError where
  | tooManyArguments
  | invalidExitStatus (text : Text)
  | procUsage
  | unsupportedFile (supported : List Text)
  | pathTooLong (size : Nat) (capacity : Int)
  | fileNotFound
  | readFailed (path : Text) (cause : OsError)
  | noCommand
  | notStarted (program : Text) (refusal : Refusal)
  | storageExhausted
  deriving DecidableEq, Repr

namespace ShellError

def errorClass : ShellError → ErrorClass
  | tooManyArguments => .tooManyArguments
  | invalidExitStatus _ => .parse
  | procUsage => .procUsage
  | unsupportedFile _ => .unsupportedFile
  | pathTooLong _ _ => .pathTooLong
  | fileNotFound => .procFileNotFound
  | readFailed _ _ => .procRead
  | noCommand | notStarted _ _ => .spawn
  | storageExhausted => .allocation

def kind (e : ShellError) : ErrorKind := e.errorClass.kind

/-- The message for the user. A path's capacity counts its terminator, the reported limit does
not. -/
def message : ShellError → Text
  | tooManyArguments => "Too many arguments for <exit> command!"
  | invalidExitStatus text => "invalid exit status '" ++ text ++ "'"
  | procUsage => "proc command must be like in the following format: proc <folder>/<file>"
  | unsupportedFile supported =>
    "Files supported by proc are "
      ++ List.intercalate " " (supported.map fun name => ("<" ++ name ++ ">" : Text))
  | pathTooLong size capacity =>
    "proc path is too long (" ++ Text.ofNat size ++ " bytes, limit is " ++ Text.ofInt (capacity - 1)
      ++ ")"
  | fileNotFound => "File not found."
  | readFailed path cause => "Error reading " ++ path ++ ": " ++ cause.reason
  | noCommand => "no command to execute"
  | notStarted program refusal => program ++ ": " ++ refusal.message
  | storageExhausted => "reallocation error"

end ShellError

/-! ## Failures that nothing absorbs -/

/-- A failure that ends what was going on. -/
inductive Crash where
  | noArgument
  | sizeOutOfRange
  | outOfMemory
  | noSlot
  | noCandidate
  | indexOutOfRange
  | digitLimit (digits : Nat)
  | unwritableNumber
  | notANumeral (quoted : Text)
  | unusableText (fault : TextFault)
  | outputFailed (error : OsError)
  | childLost
  deriving DecidableEq, Repr

def Crash.message : Crash → Text
  | noArgument | noCandidate => "list index out of range"
  | sizeOutOfRange | indexOutOfRange => "cannot fit 'int' into an index-sized integer"
  | outOfMemory => ""
  | noSlot => "list assignment index out of range"
  | digitLimit digits =>
    "Exceeds the limit (4300 digits) for integer string conversion: value has " ++ Text.ofNat digits
      ++ " digits; use sys.set_int_max_str_digits() to increase the limit"
  | unwritableNumber =>
    "Exceeds the limit (4300 digits) for integer string conversion; "
      ++ "use sys.set_int_max_str_digits() to increase the limit"
  | notANumeral quoted => "invalid literal for int() with base 10: " ++ quoted
  | unusableText fault => fault.message
  | outputFailed error => error.full
  | childLost => OsError.noChild.full

inductive Failure where
  | reported (error : ShellError)
  | crash (cause : Crash)
  deriving DecidableEq, Repr

def Failure.message : Failure → Text
  | reported error => error.message
  | crash cause => cause.message

end LineShell
