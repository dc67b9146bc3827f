import LineShell.Log
import LineShell.Text.Numeral
import LineShell.Text.Quoted

/- The settings of a session.

   `Settings` holds the values as they are given; a `Config` is settings in which a path has room
   for its terminator and token storage has room for a token. Settings come from the defaults and,
   for three of them, from environment variables. -/
namespace LineShell

structure Settings where
  programName : Text := "simple_shell"
  prompt : Text := "$ "
  procRoot : Text := "/proc"
  /-- The size of the longest path in bytes, its terminator included. -/
  pathCapacity : Int := 64
  /-- The names that are accepted directly under the root. -/
  globalFiles : List Text := ["cpuinfo", "loadavg", "filesystems", "mounts"]
  /-- The number of token slots that are reserved at a time. -/
  argGrowth : Int := 64
  /-- The least level that is echoed. -/
  logLevel : Level := .warning
  deriving DecidableEq, Repr

/-- Settings that a session can be run with. -/
structure Config extends Settings where
  one_le_pathCapacity : 1 ≤ pathCapacity
  one_le_argGrowth : 1 ≤ argGrowth
  deriving DecidableEq, Repr

/-- Why settings are refused. -/
inductive ConfigError where
  | capacityNotAnInteger (text : Text)
  | capacityNotPositive (value : Int)
  | growthNotPositive (value : Int)
  deriving DecidableEq, Repr

def promptVariable : Text := "SIMPLE_SHELL_PROMPT"

def procRootVariable : Text := "SIMPLE_SHELL_PROC_ROOT"

def pathCapacityVariable : Text := "SIMPLE_SHELL_PATH_CAPACITY"

def ConfigError.message : ConfigError → Text
  | capacityNotAnInteger text =>
    pathCapacityVariable ++ " must be an integer, got " ++ text.quoted
  | capacityNotPositive value => "path_capacity must be positive, got " ++ Text.ofInt value
  | growthNotPositive value => "arg_growth must be positive, got " ++ Text.ofInt value

/-- The settings as a configuration; the capacity is looked at first. -/
def Settings.check (s : Settings) : Except ConfigError Config :=
  if capacity : 1 ≤ s.pathCapacity then
    if growth : 1 ≤ s.argGrowth then .ok ⟨s, capacity, growth⟩
    else .error (.growthNotPositive s.argGrowth)
  else .error (.capacityNotPositive s.pathCapacity)

namespace Config

def default : Config := ⟨{}, by decide, by decide⟩

instance : Inhabited Config := ⟨default⟩

/-- The value of an environment variable; an empty one counts as absent. -/
def override? (environment : Text → Option Text) (name : Text) : Option Text :=
  (environment name).filter (!·.isEmpty)

/-- A root without the slashes at its end; a root of slashes only is one slash. -/
def tidyRoot (root : Text) : Text :=
  let kept := root.dropEndWhile CodePoint.isSlash
  if kept.isEmpty then "/" else kept

def capacity? (text : Text) : Option Int :=
  (Numeral.anyScript? text).bind fun numeral =>
    if Numeral.digitLimit < numeral.digits.length then none else some numeral.value

/-- The default settings with what the environment says otherwise. -/
def ofEnvironment (environment : Text → Option Text) : Except ConfigError Config :=
  let settings : Settings :=
    { prompt := (override? environment promptVariable).getD default.prompt
      procRoot := ((override? environment procRootVariable).map tidyRoot).getD default.procRoot }
  match override? environment pathCapacityVariable with
  | none => settings.check
  | some text =>
    match capacity? text with
    | none => .error (.capacityNotAnInteger text)
    | some capacity => { settings with pathCapacity := capacity }.check

end Config

end LineShell
