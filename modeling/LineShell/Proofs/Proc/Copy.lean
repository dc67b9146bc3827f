import LineShell.Proc.Copy
import LineShell.Proofs.Text.Encoding

/- How printing a file breaks off.

   A copy makes a write for each chunk and one for the newline after them, and of all these at most
   one fails (`copy_cases`). A chunk that cannot be written leaves the chunks before it and the
   newline (`copy_of_chunkFails`); a newline that cannot be written leaves what could be read,
   without it (`copy_of_newlineFails`); and where every write goes through, what could be read is
   copied and ended (`copy_of_goes`). Every failure to open, read or write a chunk is reported, and
   that of the newline is not. Of the failures that are reported only one of reading can leave
   something written (`not_opens_of_reported`). -/
namespace LineShell.Copy

theorem length_chunks (content : Bytes) : (chunks content).length = chunkCount content.length := by
  rw [chunks, List.length_map, List.length_range]

/-! ## Where the copying breaks off -/

theorem lt_chunkCount_iff (i bytes : Nat) : i < chunkCount bytes ↔ chunkSize * i < bytes := by
  simp only [chunkCount, chunkSize]
  omega

theorem flatten_take_chunks {content : Bytes} {i : Nat} (h : i ≤ chunkCount content.length) :
    ((chunks content).take i).flatten = content.take (chunkSize * i) := by
  rw [chunks, ← List.map_take, List.take_range, Nat.min_eq_left h, flatten_range_take]

theorem writeAll_of_goes {failing : Option Nat} {next : Nat} {chunks : List Bytes}
    (h : ∀ i < chunks.length, failing ≠ some (next + i)) :
    writeAll failing next chunks = (chunks.flatten, chunks.length, false) := by
  induction chunks generalizing next with
  | nil => rfl
  | cons chunk later ih =>
    have hlater : ∀ i < later.length, failing ≠ some (next + 1 + i) := by
      intro i hi
      rw [Nat.add_right_comm, Nat.add_assoc]
      exact h (i + 1) (Nat.succ_lt_succ hi)
    have hfirst : failing ≠ some next := h 0 (Nat.succ_pos _)
    rw [writeAll, if_neg hfirst, ih hlater]
    rfl

theorem writeAll_of_fails (next : Nat) {i : Nat} {chunks : List Bytes} (h : i < chunks.length) :
    writeAll (some (next + i)) next chunks = ((chunks.take i).flatten, i + 1, true) := by
  induction chunks generalizing next i with
  | nil => cases h
  | cons chunk later ih =>
    cases i with
    | zero =>
      rw [Nat.add_zero, writeAll, if_pos rfl]
      rfl
    | succ i =>
      have hother : some (next + (i + 1)) ≠ some next := by simp
      have hnumber : next + (i + 1) = next + 1 + i := by omega
      rw [writeAll, if_neg hother, hnumber, ih (next + 1) (Nat.lt_of_succ_lt_succ h)]
      rfl

section

variable (next : Nat) (path : Text) (file : File)

/-- A chunk that cannot be written ends the copying like one that cannot be read, even if reading
would have failed later. -/
theorem copy_of_chunkFails {i : Nat} (h : chunkSize * i < file.readable.length) :
    copy (some (next + i)) next path file
      = ⟨file.readable.take (chunkSize * i) ++ [0x0A], i + 2,
          .error (.reported (.readFailed path .noSpace))⟩ := by
  have hi := (lt_chunkCount_iff i _).mpr h
  have hlength : i < (chunks file.readable).length := by
    rw [length_chunks]
    exact hi
  have hother : some (next + i) ≠ some (next + (i + 1)) := by simp
  simp only [copy, writeAll_of_fails next hlength, flatten_take_chunks (Nat.le_of_lt hi),
    if_neg hother, if_true]

/-- A newline that cannot be written outweighs a failure to read. -/
theorem copy_of_newlineFails :
    copy (some (next + chunkCount file.readable.length)) next path file
      = ⟨file.readable, chunkCount file.readable.length + 1,
          .error (.crash (.outputFailed .noSpace))⟩ := by
  have hgoes : ∀ i < (chunks file.readable).length,
      some (next + chunkCount file.readable.length) ≠ some (next + i) := by
    intro i hi heq
    rw [length_chunks] at hi
    have hnumber := Option.some.inj heq
    omega
  simp only [copy, writeAll_of_goes hgoes, length_chunks, flatten_chunks, if_true]

/-- Where every write goes through, all that can be read is copied. -/
theorem copy_of_goes {failing : Option Nat}
    (h : ∀ i ≤ chunkCount file.readable.length, failing ≠ some (next + i)) :
    copy failing next path file
      = ⟨file.readable ++ [0x0A], chunkCount file.readable.length + 1,
          match file.fault with
          | none => .ok (file.readable.length + 1)
          | some fault => .error (.reported (.readFailed path fault.error))⟩ := by
  have hgoes : ∀ i < (chunks file.readable).length, failing ≠ some (next + i) := by
    intro i hi
    rw [length_chunks] at hi
    exact h i (Nat.le_of_lt hi)
  have hnewline := h _ (Nat.le_refl _)
  simp only [copy, writeAll_of_goes hgoes, length_chunks, flatten_chunks, if_neg hnewline]
  cases file.fault <;> rfl

/-- Either one of the chunks is the failing write, or the newline after them is, or every write goes
through. -/
theorem copy_cases (failing : Option Nat) :
    (∃ i, chunkSize * i < file.readable.length ∧ failing = some (next + i))
      ∨ failing = some (next + chunkCount file.readable.length)
      ∨ ∀ i ≤ chunkCount file.readable.length, failing ≠ some (next + i) := by
  by_cases hgoes : ∀ i ≤ chunkCount file.readable.length, failing ≠ some (next + i)
  · exact .inr (.inr hgoes)
  · simp only [not_forall, not_not] at hgoes
    obtain ⟨i, hi, hfails⟩ := hgoes
    rcases Nat.lt_or_eq_of_le hi with hchunk | rfl
    · exact .inl ⟨i, (lt_chunkCount_iff i _).mp hchunk, hfails⟩
    · exact .inr (.inl hfails)

end

/-! ## Failures that are fatal, and those that are reported -/

theorem result_copy_eq_crash_iff (failing : Option Nat) (next : Nat) (path : Text) (file : File)
    (crash : Crash) :
    (copy failing next path file).result = .error (.crash crash)
      ↔ failing = some (next + chunkCount file.readable.length) ∧ crash = .outputFailed .noSpace := by
  rcases copy_cases next file failing with ⟨i, hi, rfl⟩ | rfl | hgoes
  · rw [copy_of_chunkFails next path file hi]
    have hnumber := (lt_chunkCount_iff i _).mpr hi
    simp [Nat.ne_of_lt hnumber]
  · rw [copy_of_newlineFails]
    simp [eq_comm]
  · rw [copy_of_goes next path file hgoes]
    have hnewline := hgoes _ (Nat.le_refl _)
    cases file.fault <;> simp [hnewline]

theorem errorClass_of_copy_reported {failing : Option Nat} {next : Nat} {path : Text} {file : File}
    {error : ShellError} (h : (copy failing next path file).result = .error (.reported error)) :
    error.errorClass = .procRead := by
  rcases copy_cases next file failing with ⟨i, hi, rfl⟩ | rfl | hgoes
  · rw [copy_of_chunkFails next path file hi] at h
    cases h
    rfl
  · rw [copy_of_newlineFails] at h
    cases h
  · rw [copy_of_goes next path file hgoes] at h
    cases hfault : file.fault with
    | none => simp [hfault] at h
    | some fault =>
      simp only [hfault, Except.error.injEq, Failure.reported.injEq] at h
      rw [← h]
      rfl

theorem kind_of_copy_reported {failing : Option Nat} {next : Nat} {path : Text} {file : File}
    {error : ShellError} (h : (copy failing next path file).result = .error (.reported error)) :
    error.kind = .read := by
  rw [ShellError.kind, errorClass_of_copy_reported h]
  rfl

theorem result_dump_eq_crash_iff (world : World) (next : Nat) (path : Text) (crash : Crash) :
    (dump world next path).result = .error (.crash crash)
      ↔ (∃ fault, path.fault? = some fault ∧ crash = .unusableText fault) ∨
          (path.IsPassable ∧ ∃ file, world.file? path = some file ∧
            world.failingWrite = some (next + chunkCount file.readable.length) ∧
            crash = .outputFailed .noSpace) := by
  rw [← Text.fault?_eq_none_iff, dump]
  cases path.fault? with
  | some fault => simp [eq_comm]
  | none =>
    cases world.file? path with
    | none => simp
    | some file => simp [result_copy_eq_crash_iff]

/-- The file at a path can be opened: the path can be passed, and the file is there. -/
def Opens (world : World) (path : Text) : Prop :=
  path.IsPassable ∧ ∃ file, world.file? path = some file

theorem dump_of_not_opens {world : World} {path : Text} (h : ¬Opens world path) (next : Nat) :
    (dump world next path).written = [] ∧ (dump world next path).writes = 0 := by
  rw [Opens, ← Text.fault?_eq_none_iff] at h
  rw [dump]
  cases hfault : path.fault? with
  | some fault => exact ⟨rfl, rfl⟩
  | none =>
    cases hfile : world.file? path with
    | none => exact ⟨rfl, rfl⟩
    | some file => exact absurd ⟨hfault, file, hfile⟩ h

/-- A failure that is reported, and is not one of reading, is met before the file is open. -/
theorem not_opens_of_reported {world : World} {next : Nat} {path : Text} {error : ShellError}
    (h : (dump world next path).result = .error (.reported error)) (hkind : error.kind ≠ .read) :
    ¬Opens world path := by
  rintro ⟨hpassable, file, hfile⟩
  rw [← Text.fault?_eq_none_iff] at hpassable
  rw [dump, hpassable, hfile] at h
  exact hkind (kind_of_copy_reported h)

end LineShell.Copy
