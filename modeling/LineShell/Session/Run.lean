import LineShell.Session.Basic

/- The loop of an interactive session: prompt, read, execute, until something ends it.

   What the reads of a run answer is a finite list, found beforehand from the input and the
   numbers of the interrupted reads (`Input.readings`); the loop consumes it from the front and
   stops early when a line ends the session. A line that is blank or without arguments ends it
   like the end of the input. Between two lines the surroundings may change: every line meets a
   world of its own, by its number. -/
namespace LineShell

inductive Reading where
  | interrupted
  | line (text : Text)
  | endOfInput
  deriving DecidableEq, Repr

/-- The number of lines that a read takes from the input. -/
def Reading.lines : Reading → Nat
  | .line _ => 1
  | .interrupted | .endOfInput => 0

/-- The input of a run: its text, whether it comes from a terminal, and the numbers of the reads
that are interrupted. -/
structure Input where
  text : Text := []
  terminal : Bool := false
  interrupts : List Nat := []
  deriving DecidableEq, Repr

namespace Input

/-- The number of interrupted reads in a row, from read number `next` on. There are at most as
many as there are interrupts. -/
def interruptsFrom (interrupts : List Nat) (next : Nat) : Nat :=
  ((List.range interrupts.length).takeWhile fun k => interrupts.contains (next + k)).length

/-- What the reads from number `next` on answer: each line once it is not interrupted, then the
end of the input. -/
def readingsFrom (interrupts : List Nat) : (next : Nat) → List Text → List Reading
  | next, [] => List.replicate (interruptsFrom interrupts next) .interrupted ++ [.endOfInput]
  | next, line :: later =>
    let skipped := interruptsFrom interrupts next
    List.replicate skipped .interrupted
      ++ .line line :: readingsFrom interrupts (next + skipped + 1) later

/-- What the reads of a run answer, if it reads up to the end of the input. -/
def readings (input : Input) : List Reading := readingsFrom input.interrupts 0 input.text.lines

end Input

/-- How a run ends: it returns a status, a line ends the process, or something fails. -/
inductive RunEnding where
  | returned (status : Nat)
  | exited (status : Nat)
  | crashed (crash : Crash)
  deriving DecidableEq, Repr

structure Run where
  ending : RunEnding
  session : Session
  reads : Nat
  deriving DecidableEq, Repr

namespace Run

/-- The status of a run that ends with the input, a blank line or an error. -/
def failureStatus : Nat := 1

/-- Print the prompt. The standard output takes texts as UTF-8 in which raw bytes stand for themselves
(U+DC80 to U+DCFF are the bytes 80 to FF); a strict output would refuse these prompts too. -/
def printPrompt (config : Config) (s : Session) : Except Crash Session :=
  match Encoding.rawBytes.encode config.prompt with
  | .error fault => .error (.unusableText (.unencodable fault))
  | .ok bytes => .ok (s.prompt bytes)

/-- Answer one reading: the session afterwards, and the end of the run if this is it. A terminal
gives lines without their newline, and shows the end of the input by one. -/
def turn (world : World) (config : Config) (terminal : Bool) (s : Session) :
    Reading → Session × Option RunEnding
  | .interrupted => (s.prompt [0x0A], none)
  | .endOfInput => (if terminal then s.prompt [0x0A] else s, some (.returned failureStatus))
  | .line text =>
    let line := if terminal then text.withoutNewline else text
    if line.isBlank || !Line.hasArguments line then (s, some (.returned failureStatus))
    else
      let (ending, s) := s.execute world config line
      match ending with
      | .carryOn => (s, none)
      | .stop => (s, some (.returned 0))
      | .exit status => (s, some (.exited status))
      | .storageExhausted =>
        let reported := s.logger.log (.error "tokenizer" ShellError.storageExhausted.message)
        ({ s with logger := reported }, some (.returned failureStatus))
      | .crashed crash => (s, some (.crashed crash))

/-- Go on with what the next reads answer, when some lines have been taken by some reads. Readings
end with the end of the input, which ends the run, so they do not run out. -/
def loop (worlds : Nat → World) (config : Config) (terminal : Bool) :
    Session → (taken reads : Nat) → List Reading → Run
  | s, _, reads, [] => ⟨.returned failureStatus, s, reads⟩
  | s, taken, reads, reading :: later =>
    match printPrompt config s with
    | .error crash => ⟨.crashed crash, s, reads⟩
    | .ok prompted =>
      match turn (worlds taken) config terminal prompted reading with
      | (next, none) => loop worlds config terminal next (taken + reading.lines) (reads + 1) later
      | (last, some ending) => ⟨ending, last, reads + 1⟩

/-- The run of a configured shell with its command-line arguments, of which it takes none. -/
def ofConfig (worlds : Nat → World) (config : Config) (arguments : List Text) (input : Input) :
    Run :=
  let s := Session.start config
  if arguments.isEmpty then loop worlds config input.terminal s 0 0 input.readings
  else
    let refused := s.logger.log (.error "main" "Simple Shell takes no arguments!\nExiting...")
    ⟨.returned failureStatus, { s with logger := refused }, 0⟩

end Run

end LineShell
