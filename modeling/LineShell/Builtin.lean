import LineShell.Text.Basic

/- The builtin commands. -/
namespace LineShell

/-- A command that the shell performs itself. -/
inductive Builtin where
  | exit
  | proc
  deriving DecidableEq, Repr

namespace Builtin

def name : Builtin → Text
  | exit => "exit"
  | proc => "proc"

/-- All builtins, in the order in which they are offered. -/
def all : List Builtin := [exit, proc]

def names : List Text := all.map name

def named? (command : Text) : Option Builtin := all.find? (·.name = command)

end Builtin

end LineShell
