import LineShell.Log
import LineShell.MachineSize
import LineShell.World

/- The storage that tokens are kept in.

   Slots are reserved in blocks of one size, one block before the first token and a block more
   whenever the last slot has been filled. The account of a line says which capacities were
   reached after the first block and what ended the storing, if not the end of the line. The size
   of a block may be no machine size, or more than there is memory for: then not even an empty
   line is stored. With blocks of no slots the first token has no place. And growing fails beyond
   the greatest capacity that there is memory for. -/
namespace LineShell.Storage

/-- Why a token could not be kept. -/
inductive Fault where
  | sizeOutOfRange
  | outOfMemory
  | noSlot
  | exhausted
  deriving DecidableEq, Repr

def Fault.failure : Fault → Failure
  | sizeOutOfRange => .crash .sizeOutOfRange
  | outOfMemory => .crash .outOfMemory
  | noSlot => .crash .noSlot
  | exhausted => .reported .storageExhausted

/-- The capacities that storage grew to, and the fault that ended it. -/
structure Account where
  growths : List Nat
  fault : Option Fault
  deriving DecidableEq, Repr

def fits (limit : Option Nat) (capacity : Nat) : Bool := limit.all (capacity ≤ ·)

/-- The account of `remaining` more tokens when `count` slots of `capacity` are filled. -/
def fill (block : Nat) (limit : Option Nat) : (remaining count capacity : Nat) → Account
  | 0, _, _ => ⟨[], none⟩
  | remaining + 1, count, capacity =>
    if capacity ≤ count then ⟨[], some .noSlot⟩
    else if count + 1 < capacity then fill block limit remaining (count + 1) capacity
    else if fits limit (capacity + block) then
      let later := fill block limit remaining (count + 1) (capacity + block)
      { later with growths := (capacity + block) :: later.growths }
    else ⟨[], some .exhausted⟩

/-- The account of storing some number of tokens in blocks of `growth` slots; a size below one
stands for blocks without slots. -/
def account (growth : Int) (memory : Memory) (tokens : Nat) : Account :=
  if !isMachineSize growth then ⟨[], some .sizeOutOfRange⟩
  else if !fits memory.firstBlock growth.toNat then ⟨[], some .outOfMemory⟩
  else fill growth.toNat memory.slots tokens 0 growth.toNat

def growthEntry (capacity : Nat) : Entry :=
  .debug "tokenizer" ("argument storage grown to " ++ Text.ofNat capacity ++ " slots")

def Account.entries (a : Account) : List Entry := a.growths.map growthEntry

end LineShell.Storage
