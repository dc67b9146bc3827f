import LineShell.Child.Signal

/- How a child process ended.

   A wait status is a 32-bit word, taken as a signed number. Its low seven bits tell whether the
   child exited (0), was only stopped or resumed (127), or was killed (the signal); the code of an
   exit is in the eight bits above the low byte. Remainders and quotients here are those of floor
   division, so a negative status is read by its bits. -/
namespace LineShell

/-- The end of a child: its exit code, or the signal that killed it. -/
inductive Outcome where
  | exited (code : Int)
  | killed (signal : Int)
  deriving DecidableEq, Repr

namespace Outcome

def text : Outcome → Text
  | exited code => "exited with code " ++ Text.ofInt code
  | killed signal => "killed by " ++ Signal.label signal

/-- The outcome that a wait status reports; none while the child is not finished. -/
def ofStatus? (status : Int) : Option Outcome :=
  if status % 128 = 0 then some (.exited (status / 256 % 256))
  else if status % 128 = 127 then none
  else some (.killed (status % 128))

end Outcome

end LineShell
