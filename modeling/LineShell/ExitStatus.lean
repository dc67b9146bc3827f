import LineShell.Error
import LineShell.Text.Numeral
import LineShell.Text.Quoted

/- The argument of `exit`.

   It is white space, a sign or none, and ASCII digits. Of a text of that form two are still
   refused, by the conversion to a number: one whose white space holds an information separator,
   which may not stand beside a numeral, and one with more digits than the conversion takes. -/
namespace LineShell.ExitStatus

/-- The longest stretch of a refused text that its message shows, in code points. -/
def shownLength : Nat := 200

def parse (text : Text) : Except Failure Int :=
  match Numeral.ascii? text with
  | none => .error (.reported (.invalidExitStatus text))
  | some numeral =>
    if (text.takeWhile CodePoint.isBlank).any CodePoint.isSeparator then
      .error (.crash (.notANumeral (text.quoted.take shownLength)))
    else if Numeral.digitLimit < numeral.digits.length then
      .error (.crash (.digitLimit numeral.digits.length))
    else .ok numeral.value

/-- The status that the process ends with: a status has one byte. -/
def code (status : Int) : Nat := (status % 256).toNat

end LineShell.ExitStatus
