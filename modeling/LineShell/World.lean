import LineShell.Error

/- What surrounds a session: files, directories, programs, and two resources that can run out, the
   memory for tokens and the room on the output.

   A world is what one line meets, and another line may meet another one. A file is the bytes it
   delivers and, after them, perhaps an error; a file that cannot be opened is absent. A program
   refuses to be started, or runs: it then writes its output and is reported by one wait status after
   the other. What it does may depend on all of its arguments. -/
namespace LineShell

/-- Where reading a file breaks off: after so many bytes, with an error. -/
structure ReadFault where
  after : Nat
  error : OsError
  deriving DecidableEq, Repr

/-- A file that can be opened: its content, and the fault in reading it, if there is one. -/
structure File where
  content : Bytes
  fault : Option ReadFault := none
  deriving DecidableEq, Repr

def File.readable (file : File) : Bytes :=
  match file.fault with
  | none => file.content
  | some fault => file.content.take fault.after

/-- A program: the system's refusal to start it, or its output and the statuses it is waited for
with. -/
inductive Program where
  | refused (error : OsError)
  | runs (output : Bytes) (statuses : List Int)
  deriving DecidableEq, Repr

/-- The memory for token slots: the greatest block that can be reserved to begin with, and the
greatest number of slots that storage can grow to. What is not given is not bounded. -/
structure Memory where
  firstBlock : Option Nat := none
  slots : Option Nat := none
  deriving DecidableEq, Repr

/-- The memory of an ordinary machine, on which a block of more than half a tebibyte, at eight
bytes a slot, is not to be had. -/
def Memory.ordinary (slots : Option Nat) : Memory := { firstBlock := some 0x1000000000, slots }

/-- The surroundings of a session. -/
structure World where
  /-- The file at a path, if it can be opened. -/
  file? : Text → Option File := fun _ => none
  /-- The program that a vector of arguments starts, if there is one of its name. -/
  program? : List Text → Option Program := fun _ => none
  /-- The memory for token slots. -/
  memory : Memory := {}
  /-- The number of the one write to the builtin output that fails. -/
  failingWrite : Option Nat := none

/-- What surrounds completion: the names in a directory, if it can be listed. -/
abbrev Listing := Text → Option (List Text)

end LineShell
