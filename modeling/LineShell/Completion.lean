import LineShell.Builtin
import LineShell.Config
import LineShell.MachineSize
import LineShell.PosixPath
import LineShell.Text.Digit
import LineShell.World

/- Completion of the word that is being typed.

   The first word is completed to a builtin. A later word of a `proc` command is completed to the
   supported global files and the directories of processes, or, after a slash, to the files in the
   directory before it. Words are cut at white space, and only a space ends the first word. -/
namespace LineShell.Completion

/-- Texts in the order of their code points. -/
def sort (texts : List Text) : List Text := texts.mergeSort Text.le

/-- The names in a directory; none if it cannot be listed. A path that cannot be handed to the
system is a crash. -/
def entries (listing : Listing) (path : PosixPath) : Except Crash (List Text) :=
  match path.text.fault? with
  | some fault => .error (.unusableText fault)
  | none => .ok ((listing path.text).getD [])

/-- The files in a directory of the process tree that start with the text after the slash. -/
def filesIn (listing : Listing) (root : PosixPath) (pid start : Text) :
    Except Crash (List Text) :=
  (entries listing (root.child pid)).map fun names =>
    sort ((names.filter (start.isPrefixOf ·)).map fun name => pid ++ "/" ++ name)

/-- A name that is digits only, as those of processes are. -/
def isNumber (name : Text) : Bool := !name.isEmpty && name.all CodePoint.isDigit

/-- The global files and the directories of processes that start with the text. -/
def topLevel (listing : Listing) (root : PosixPath) (globalFiles : List Text) (text : Text) :
    Except Crash (List Text) :=
  (entries listing root).map fun names =>
    let directories := (names.filter isNumber).map fun name : Text => name ++ "/"
    sort (globalFiles.filter (text.isPrefixOf ·) ++ directories.filter (text.isPrefixOf ·))

def procCandidates (config : Config) (listing : Listing) (text : Text) : Except Crash (List Text) :=
  let root := PosixPath.ofText config.procRoot
  match text.dropWhile (!·.isSlash) with
  | [] => topLevel listing root config.globalFiles text
  | _ :: start => filesIn listing root (text.takeWhile (!·.isSlash)) start

/-- The candidates for the word `text` in a line. -/
def candidates (config : Config) (listing : Listing) (text line : Text) :
    Except Crash (List Text) :=
  match line.fields CodePoint.isBlank with
  | [] => .ok (Builtin.names.filter (text.isPrefixOf ·))
  | first :: others =>
    if others.isEmpty && line.getLast? ≠ some ' ' then
      .ok (Builtin.names.filter (text.isPrefixOf ·))
    else if first = Builtin.proc.name then procCandidates config listing text
    else .ok []

/-- One of the candidates by its index. A negative index counts from the end; there is none beyond
the last, and it is a crash to go before the first, or to an index that is no machine size. -/
def candidate (found : List Text) (index : Int) : Except Crash (Option Text) :=
  if 0 ≤ index then .ok found[index.toNat]?
  else if !isMachineSize index then .error .indexOutOfRange
  else if 0 ≤ index + found.length then .ok found[(index + found.length).toNat]?
  else .error .noCandidate

def complete (config : Config) (listing : Listing) (text line : Text) (index : Int) :
    Except Crash (Option Text) :=
  (candidates config listing text line).bind (candidate · index)

end LineShell.Completion
