import LineShell.Child.Outcome
import LineShell.World

/- Running a program in the foreground.

   A vector of arguments reaches the system if it has a name that is not empty and every argument
   can be passed. If the system starts the program, it is waited for until a status reports its
   end; a stop does not end the waiting, running out of statuses does. -/
namespace LineShell.Foreground

/-- How a run ended: with the child's outcome, before the child was started, or with a child that
is nowhere to be waited for. -/
inductive Ending where
  | finished (outcome : Outcome)
  | notStarted (error : ShellError)
  | lost
  deriving DecidableEq, Repr

/-- The record of a run: the vectors that reached the system, the number of waits, and what the
program wrote. -/
structure Report where
  spawned : List (List Text) := []
  waits : Nat := 0
  output : Bytes := []
  ending : Ending
  deriving DecidableEq, Repr

/-- The first status that reports an end, and the number of waits up to it; the wait that finds no
status counts too. -/
def await : List Int → Option Outcome × Nat
  | [] => (none, 1)
  | status :: later =>
    match Outcome.ofStatus? status with
    | some outcome => (some outcome, 1)
    | none => ((await later).1, (await later).2 + 1)

/-- What is wrong with a vector before the system sees it: the first argument that cannot be
passed, then an empty name. -/
def refusal? (program : Text) (arguments : List Text) : Option Refusal :=
  match (program :: arguments).findSome? Text.fault? with
  | some fault => some (.unpassable fault)
  | none => if program.isEmpty then some .emptyName else none

def run (world : World) : List Text → Report
  | [] => { ending := .notStarted .noCommand }
  | program :: arguments =>
    match refusal? program arguments with
    | some refusal => { ending := .notStarted (.notStarted program refusal) }
    | none =>
      let spawned := [program :: arguments]
      match world.program? (program :: arguments) with
      | none => { spawned, ending := .notStarted (.notStarted program (.system .noEntry)) }
      | some (.refused error) =>
        { spawned, ending := .notStarted (.notStarted program (.system error)) }
      | some (.runs output statuses) =>
        let (outcome?, waits) := await statuses
        { spawned, waits, output, ending := (outcome?.map .finished).getD .lost }

end LineShell.Foreground
