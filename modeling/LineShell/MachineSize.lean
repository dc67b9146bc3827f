/- Sizes as the machine has them.

   A count of slots and an index into a list are signed words of 64 bits. An integer beyond them
   is refused before anything is counted or looked up with it. -/
namespace LineShell

/-- Whether an integer is one of the signed words of 64 bits. -/
def isMachineSize (z : Int) : Bool := -0x8000000000000000 ≤ z && z ≤ 0x7FFFFFFFFFFFFFFF

end LineShell
