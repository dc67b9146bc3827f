import LineShell.Session.Run

/- The command line: a session on the standard streams.

   Every reading is answered by `Run.turn`; what stands here only moves bytes. The world of a line
   holds the one file that the line opens, and it starts no programs: each is refused by the
   system. -/
namespace LineShell.Main

/-- A text as a string, if it holds no surrogate. -/
def toString? (t : Text) : Option String :=
  if t.any CodePoint.isSurrogate then none
  else some (String.ofList (t.map fun c => Char.ofNat c.val))

/-- The error of a system on which no program can be started. -/
def notImplemented : OsError := .numbered 38 "Function not implemented"

/-- The path that a line opens, if it is a `proc` command whose path can be found. -/
def openedPath? (config : Config) (line : Text) : Option Text :=
  match Line.tokens line with
  | [] => none
  | command :: arguments =>
    if command = Builtin.proc.name then
      (ProcPath.resolve config.procRoot config.pathCapacity config.globalFiles
        (command :: arguments)).toOption
    else none

def worldOf (config : Config) (line : Text) : IO World := do
  let content? ← match (openedPath? config line).bind toString? with
    | none => pure none
    | some path => try some <$> IO.FS.readBinFile path catch _ => pure none
  return {
    file? := fun _ => content?.map fun content => { content := content.toList }
    program? := fun _ => some (.refused notImplemented)
    memory := .ordinary none }

/-- Write what was added to the output and to the diagnostics of a session. -/
def present (before after : Session) : IO Unit := do
  let written : Session := { after with output := after.output.drop before.output.length }
  let stdout ← IO.getStdout
  stdout.write (written.outputBytes fun _ => true).toByteArray
  stdout.flush
  let echoed : Text := after.logger.echoed.drop before.logger.echoed.length
  (← IO.getStderr).write (Text.bytes echoed).toByteArray

def fail (message : Text) : IO UInt32 := do
  (← IO.getStderr).write (Text.bytes (message ++ "\n")).toByteArray
  return 1

def statusOf : RunEnding → IO UInt32
  | .returned status => return status.toUInt32
  | .exited status => return status.toUInt32
  | .crashed crash => fail crash.message

/-- Read lines and answer them until one ends the run. -/
partial def serve (config : Config) (terminal : Bool) (s : Session) : IO UInt32 := do
  match Run.printPrompt config s with
  | .error crash => fail crash.message
  | .ok prompted =>
    present s prompted
    let line := Text.ofString (← (← IO.getStdin).getLine)
    let reading : Reading := if line.isEmpty then .endOfInput else .line line
    let (next, ending?) := Run.turn (← worldOf config line) config terminal prompted reading
    present prompted next
    match ending? with
    | none => serve config terminal next
    | some ending => statusOf ending

/-- The values of the environment variables that a configuration depends on. -/
def environment : IO (Text → Option Text) := do
  let names := [promptVariable, procRootVariable, pathCapacityVariable]
  let values ← names.mapM fun name => do
    match toString? name with
    | none => return (name, none)
    | some string => return (name, (← IO.getEnv string).map Text.ofString)
  return fun name => (values.lookup name).join

end LineShell.Main

open LineShell in
/-- Run a shell that is configured by the environment. -/
def main (arguments : List String) : IO UInt32 := do
  match Config.ofEnvironment (← Main.environment) with
  | .error error => Main.fail error.message
  | .ok config =>
    let s := Session.start config
    if arguments.isEmpty then Main.serve config (← (← IO.getStdin).isTty) s
    else
      let run := Run.ofConfig (fun _ => {}) config (arguments.map Text.ofString) {}
      Main.present s run.session
      Main.statusOf run.ending
