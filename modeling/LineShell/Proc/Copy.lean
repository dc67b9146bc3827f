import LineShell.World

/- Copying a file to the builtin output.

   The content is read in chunks, each chunk is one write, and a newline is written at the end
   whether or not the copying broke off. Of the writes to the output over its whole life one may
   fail; it is known by its number. A chunk that cannot be written ends the copying like a chunk
   that cannot be read; a newline that cannot be written is a failure that outweighs both. -/
namespace LineShell.Copy

def chunkSize : Nat := 4096

/-- The number of chunks that a number of bytes makes: the last may not be full. -/
def chunkCount (bytes : Nat) : Nat := (bytes + chunkSize - 1) / chunkSize

def chunks (content : Bytes) : List Bytes :=
  (List.range (chunkCount content.length)).map fun i =>
    (content.drop (chunkSize * i)).take chunkSize

theorem flatten_range_take (content : Bytes) (n : Nat) :
    ((List.range n).map fun i => (content.drop (chunkSize * i)).take chunkSize).flatten
      = content.take (chunkSize * n) := by
  induction n with
  | zero => rfl
  | succ n ih =>
    rw [List.range_succ, List.map_append, List.flatten_append, ih, Nat.mul_succ, List.take_add]
    simp

theorem flatten_chunks (content : Bytes) : (chunks content).flatten = content := by
  rw [chunks, flatten_range_take, List.take_of_length_le]
  simp only [chunkCount, chunkSize]
  omega

/-- Chunks written one by one, the first as write number `next`: the bytes that went out, the
number of writes, and whether the last of them failed. -/
def writeAll (failing : Option Nat) (next : Nat) : List Bytes → Bytes × Nat × Bool
  | [] => ([], 0, false)
  | chunk :: later =>
    if failing = some next then ([], 1, true)
    else
      let (written, writes, failed) := writeAll failing (next + 1) later
      (chunk ++ written, writes + 1, failed)

/-- The record of a copy: the bytes that were appended to the output, the number of writes, and
the number of bytes or the failure. -/
structure Report where
  written : Bytes := []
  writes : Nat := 0
  result : Except Failure Nat

/-- Copy an open file, when `next` writes have been made before. -/
def copy (failing : Option Nat) (next : Nat) (path : Text) (file : File) : Report :=
  let (written, writes, failed) := writeAll failing next (chunks file.readable)
  -- The reading error is met only if every chunk before it could be written.
  let cause : Option OsError := if failed then some .noSpace else file.fault.map (·.error)
  if failing = some (next + writes) then
    ⟨written, writes + 1, .error (.crash (.outputFailed .noSpace))⟩
  else
    ⟨written ++ [0x0A], writes + 1,
      match cause with
      | some error => .error (.reported (.readFailed path error))
      | none => .ok (written.length + 1)⟩

/-- Open the file at a path and copy it. Nothing is written if it cannot be opened. -/
def dump (world : World) (next : Nat) (path : Text) : Report :=
  match path.fault? with
  | some fault => { result := .error (.crash (.unusableText fault)) }
  | none =>
    match world.file? path with
    | none => { result := .error (.reported .fileNotFound) }
    | some file => copy world.failingWrite next path file

end LineShell.Copy
