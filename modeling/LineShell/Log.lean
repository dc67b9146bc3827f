import LineShell.Text.Basic

/- The diagnostics log.

   A logger keeps its entries in the order in which they were made, and echoes those at or above
   its own level, each as one line that starts with the program's name. The echoed text is part of
   the logger: clearing the entries takes nothing back of it. -/
namespace LineShell

inductive Level where
  | debug
  | info
  | warning
  | error
  deriving DecidableEq, Repr

namespace Level

def rank : Level → Nat
  | debug => 0
  | info => 1
  | warning => 2
  | error => 3

def label : Level → String
  | debug => "DEBUG"
  | info => "INFO"
  | warning => "WARNING"
  | error => "ERROR"

/-- `a.atLeast b`: `a` is as severe as `b`, or more. -/
def atLeast (a b : Level) : Bool := b.rank ≤ a.rank

end Level

/-- One record: its severity, the component that made it, and what happened. -/
structure Entry where
  level : Level
  source : Text
  message : Text
  deriving DecidableEq, Repr

namespace Entry

def text (e : Entry) : Text :=
  "[" ++ Text.ofString e.level.label ++ "] " ++ e.source ++ ": " ++ e.message

def debug (source message : Text) : Entry := ⟨.debug, source, message⟩

def warning (source message : Text) : Entry := ⟨.warning, source, message⟩

def error (source message : Text) : Entry := ⟨.error, source, message⟩

end Entry

/-- A log: the name and the level that it echoes with, its entries, and all it has echoed. -/
structure Logger where
  program : Text
  level : Level
  entries : List Entry := []
  echoed : Text := []
  deriving DecidableEq, Repr

namespace Logger

def echoLine (l : Logger) (e : Entry) : Text := l.program ++ ": " ++ e.message ++ "\n"

/-- Whether an entry is severe enough to be echoed. -/
def echoes (l : Logger) (e : Entry) : Bool := e.level.atLeast l.level

/-- Record entries in order, and echo those that are severe enough. -/
def logAll (l : Logger) (entries : List Entry) : Logger :=
  { l with
    entries := l.entries ++ entries
    echoed := l.echoed ++ (entries.filter l.echoes).flatMap l.echoLine }

def log (l : Logger) (e : Entry) : Logger := l.logAll [e]

theorem logAll_append (l : Logger) (earlier later : List Entry) :
    l.logAll (earlier ++ later) = (l.logAll earlier).logAll later := by
  simp only [logAll, List.append_assoc, List.filter_append, List.flatMap_append]
  congr 1

/-- The entries that are severe enough and come from the source, so far as either is asked for. -/
def filter (l : Logger) (minLevel : Option Level) (source : Option Text) : List Entry :=
  l.entries.filter fun e =>
    minLevel.all (e.level.atLeast ·) && source.all (e.source = ·)

def clear (l : Logger) : Logger := { l with entries := [] }

end Logger

end LineShell
