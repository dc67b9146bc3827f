import LineShell.Builtin
import LineShell.Child.Foreground
import LineShell.Config
import LineShell.ExitStatus
import LineShell.Line.Arguments
import LineShell.Proc.Copy
import LineShell.Proc.Path

/- What one command does.

   The effect of a line is how it ends and what it adds to each of the session's records. It is
   found from the world, the configuration, the line, and one thing of the past: the number of
   writes to the builtin output, on which it depends whether a write fails. Failures that the
   shell reports are turned into log entries here, and the session goes on; what remains in
   `Ending` are the other ways in which a line can end. -/
namespace LineShell

/-- How a line ends: the session goes on, stops, or ends with a status; token storage is
exhausted; or something fails that nothing absorbs. -/
inductive Ending where
  | carryOn
  | stop
  | exit (status : Nat)
  | storageExhausted
  | crashed (crash : Crash)
  deriving DecidableEq, Repr

def Ending.ofStorage : Storage.Fault → Ending
  | .exhausted => .storageExhausted
  | .sizeOutOfRange => .crashed .sizeOutOfRange
  | .outOfMemory => .crashed .outOfMemory
  | .noSlot => .crashed .noSlot

/-- The part of the standard output that some bytes belong to. -/
inductive Origin where
  | prompt
  | builtin
  | program
  deriving DecidableEq, Repr

structure Chunk where
  origin : Origin
  bytes : Bytes
  deriving DecidableEq, Repr

/-- The bytes as output; no bytes are none. -/
def Chunk.list (origin : Origin) (bytes : Bytes) : List Chunk :=
  if bytes.isEmpty then [] else [⟨origin, bytes⟩]

/-- How a line ends, and what it adds: log entries, output, writes to the builtin output, argument
vectors that reached the system, waits, and the outcome of a child that finished. -/
structure Effect where
  ending : Ending
  entries : List Entry := []
  output : List Chunk := []
  writes : Nat := 0
  spawned : List (List Text) := []
  waits : Nat := 0
  outcome : Option Outcome := none
  deriving DecidableEq, Repr

namespace Effect

def after (entries : List Entry) (e : Effect) : Effect := { e with entries := entries ++ e.entries }

/-- The two entries by which a builtin's failure is reported. -/
def failureEntries (command : Text) (error : ShellError) : List Entry :=
  [.error command error.message,
    .debug "dispatch" (command ++ " failed: " ++ Text.ofString error.kind.label)]

def ofFailure (command : Text) : Failure → Effect
  | .reported error => { ending := .carryOn, entries := failureEntries command error }
  | .crash crash => { ending := .crashed crash }

/-- `exit` with its arguments: none stops the session, one is the status to end it with, and one
that is no number leaves it running. -/
def ofExit : List Text → Effect
  | [] => { ending := .stop }
  | [argument] =>
    match ExitStatus.parse argument with
    | .ok status => { ending := .exit (ExitStatus.code status) }
    | .error (.reported error) => { ending := .carryOn, entries := [.debug "exit" error.message] }
    | .error (.crash crash) => { ending := .crashed crash }
  | _ => ofFailure Builtin.exit.name (.reported .tooManyArguments)

/-- `proc` with its arguments, when `written` writes to the builtin output have been made. -/
def ofProc (world : World) (config : Config) (written : Nat) (arguments : List Text) : Effect :=
  match ProcPath.resolve config.procRoot config.pathCapacity config.globalFiles
      (Builtin.proc.name :: arguments) with
  | .error failure => ofFailure Builtin.proc.name failure
  | .ok path =>
    let report := Copy.dump world written path
    let ended : Effect := match report.result with
      | .ok _ => { ending := .carryOn }
      | .error failure => ofFailure Builtin.proc.name failure
    let resolved : Entry := .debug Builtin.proc.name (arguments.headD [] ++ " -> " ++ path)
    { ended.after [resolved] with
      output := Chunk.list .builtin report.written
      writes := report.writes }

def ofProgram (world : World) (command : Text) (arguments : List Text) : Effect :=
  let report := Foreground.run world (command :: arguments)
  let ended : Effect := match report.ending with
    | .finished outcome =>
      { ending := .carryOn
        entries := [.debug "exec" (command ++ " " ++ outcome.text)]
        outcome := some outcome }
    | .notStarted error => { ending := .carryOn, entries := [.error "exec" error.message] }
    | .lost => { ending := .crashed .childLost }
  { ended with
    output := Chunk.list .program report.output
    spawned := report.spawned
    waits := report.waits }

/-- An argument vector: a builtin and its arguments, or a program. -/
def ofArguments (world : World) (config : Config) (written : Nat) : List Text → Effect
  | [] => { ending := .crashed .noArgument }
  | command :: arguments =>
    match Builtin.named? command with
    | some .exit => ofExit arguments
    | some .proc => ofProc world config written arguments
    | none => ofProgram world command arguments

/-- A line: without arguments it stops the session. The records of storage growth come first, then
the warnings about escapes, then what the command itself adds. -/
def ofLine (world : World) (config : Config) (written : Nat) (line : Text) : Effect :=
  let parsed := Line.parse Escape.decode config.argGrowth world.memory line
  let ended : Effect := match parsed.result with
    | .error fault => { ending := .ofStorage fault }
    | .ok [] => { ending := .stop }
    | .ok (command :: arguments) =>
      (ofArguments world config written (command :: arguments)).after
        (Line.warningEntries (Line.tokens line))
  ended.after parsed.entries

end Effect

end LineShell
