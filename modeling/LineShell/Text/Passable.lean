import LineShell.Text.Utf8

/- Texts that can be handed to the operating system.

   A path or an argument is passed as bytes that end with a NUL, raw bytes kept. So a text must be
   encodable in that way, which is looked at first, and must hold no NUL itself. -/
namespace LineShell

/-- Why a text cannot be handed over. -/
inductive TextFault where
  | unencodable (fault : EncodingFault)
  | embeddedNul
  deriving DecidableEq, Repr

def TextFault.message : TextFault → Text
  | unencodable fault => fault.message
  | embeddedNul => "embedded null byte"

/-- What keeps a text from being handed over, if anything. -/
def Text.fault? (t : Text) : Option TextFault :=
  match Encoding.rawBytes.fault? t with
  | some fault => some (.unencodable fault)
  | none => if t.contains '\x00' then some .embeddedNul else none

end LineShell
