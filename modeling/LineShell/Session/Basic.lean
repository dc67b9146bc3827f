import LineShell.Session.Effect

/- A session: the records of everything that its lines have done.

   Executing a line finds its effect and adds it to the records, so a record only ever grows at
   its end. The last outcome is replaced when a child has finished, and by nothing else. -/
namespace LineShell

structure Session where
  logger : Logger
  output : List Chunk := []
  writes : Nat := 0
  spawned : List (List Text) := []
  waits : Nat := 0
  last : Option Outcome := none
  deriving DecidableEq, Repr

namespace Session

/-- A session in which nothing has happened. -/
def start (config : Config) : Session :=
  { logger := { program := config.programName, level := config.logLevel } }

/-- The session with an effect added to its records. -/
def add (s : Session) (e : Effect) : Session :=
  { logger := s.logger.logAll e.entries
    output := s.output ++ e.output
    writes := s.writes + e.writes
    spawned := s.spawned ++ e.spawned
    waits := s.waits + e.waits
    last := e.outcome.or s.last }

def execute (world : World) (config : Config) (s : Session) (line : Text) : Ending × Session :=
  let effect := Effect.ofLine world config s.writes line
  (effect.ending, s.add effect)

/-- Execute one argument vector, which is taken as it is. -/
def dispatch (world : World) (config : Config) (s : Session) (arguments : List Text) :
    Ending × Session :=
  let effect := Effect.ofArguments world config s.writes arguments
  (effect.ending, s.add effect)

/-- The session with bytes of the prompt line on its output. -/
def prompt (s : Session) (bytes : Bytes) : Session :=
  { s with output := s.output ++ [⟨.prompt, bytes⟩] }

def outputBytes (s : Session) (wanted : Origin → Bool) : Bytes :=
  (s.output.filter (wanted ·.origin)).flatMap (·.bytes)

end Session

end LineShell
