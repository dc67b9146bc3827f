import LineShell.Text.Basic

/- Normal forms of paths.

   A path is an anchor and segments. Repeated slashes, segments `.` and slashes at the end do not
   count; `..` is kept, since what it leads to is not known from the text. A path that starts with
   a slash is anchored at the root, and exactly two slashes in front are another anchor. -/
namespace LineShell

/-- A path in normal form: the slashes that it starts with, and its segments. -/
structure PosixPath where
  anchor : Text
  segments : List Text
  deriving DecidableEq, Repr

namespace PosixPath

/-- The segments of a text that count. -/
def segmentsOf (t : Text) : List Text := (t.fields CodePoint.isSlash).filter (· ≠ ".")

/-- The anchor of a path that starts with some number of slashes. -/
def anchorOf : (slashes : Nat) → Text
  | 0 => ""
  | 2 => "//"
  | _ => "/"

def ofText (t : Text) : PosixPath :=
  ⟨anchorOf (t.takeWhile CodePoint.isSlash).length, segmentsOf t⟩

/-- The path of something inside of `p`, given by a relative path. -/
def child (p : PosixPath) (relative : Text) : PosixPath :=
  { p with segments := p.segments ++ segmentsOf relative }

/-- The path written out; the empty path is a dot. -/
def text (p : PosixPath) : Text :=
  let written := p.anchor ++ List.intercalate "/" p.segments
  if written.isEmpty then "." else written

end PosixPath

end LineShell
