import Mathlib.Algebra.Order.Floor.Div
import Mathlib.GroupTheory.GroupAction.Ring
import LineShell.Proofs.Session.Command

/- What printing a file leaves on the output.

   A command of `proc` adds to the builtin output what copying its file writes, behind what stands
   there (`builtinOutput_dispatch`). What that is, how many writes it takes and how it ends is told
   by the file, the place where reading it fails, and the number of the write that fails
   (`dump_under_failure`). -/
namespace LineShell

namespace Session

/-- Printing a file only adds to the output and to the number of writes. -/
theorem builtinOutput_dispatch (world : World) (config : Config) (s : Session)
    {argument path : Text} (h : Effect.Resolves config [argument] path) :
    (s.dispatch world config [Builtin.proc.name, argument]).2.builtinOutput
        = s.builtinOutput ++ (Copy.dump world s.writes path).written
      ∧ (s.dispatch world config [Builtin.proc.name, argument]).2.writes
        = s.writes + (Copy.dump world s.writes path).writes := by
  let report := Copy.dump world s.writes path
  let effect := Effect.ofArguments world config s.writes [Builtin.proc.name, argument]
  have hadded : effect.output = Chunk.list .builtin report.written
      ∧ effect.writes = report.writes := by
    rw [Effect.Resolves] at h
    simp only [effect, Effect.ofArguments_proc, Effect.ofProc, h]
    exact ⟨rfl, rfl⟩
  have hbytes : effect.builtinOutput = report.written := by
    rw [Effect.builtinOutput, hadded.1, Chunk.list]
    cases report.written <;> simp
  refine ⟨?_, ?_⟩
  · rw [← hbytes]
    exact Effect.builtinOutput_add s effect
  · rw [← hadded.2]
    rfl

end Session

namespace Copy

theorem chunkCount_eq_ceilDiv (bytes : Nat) : chunkCount bytes = bytes ⌈/⌉ 4096 := by
  rw [Nat.ceilDiv_eq_add_pred_div]
  rfl

theorem readable_prefix_content (file : File) : file.readable <+: file.content := by
  rw [File.readable]
  cases file.fault with
  | none => exact List.prefix_refl _
  | some fault => exact List.take_prefix _ _

theorem take_readable {file : File} {n : Nat} (h : n ≤ file.readable.length) :
    file.readable.take n = file.content.take n := by
  obtain ⟨unread, hcontent⟩ := readable_prefix_content file
  rw [← hcontent, List.take_append_of_le_length h]

theorem dump_of_file {world : World} {path : Text} (hpath : path.IsPassable) {file : File}
    (hfile : world.file? path = some file) (next : Nat) :
    dump world next path = copy world.failingWrite next path file := by
  rw [dump, (Text.fault?_eq_none_iff path).mpr hpath, hfile]

/-- The report of copying an open file, when the failing write is given by its number and `next`
writes have been made before. The newline has the number after those of the chunks, of which there
is one for each 4096 bytes that can be read and for what is left of them. -/
structure Reports (failing : Option Nat) (next : Nat) (path : Text) (file : File)
    (report : Report) : Prop where
  /-- What is written starts as the content does. Only the write of the newline can leave it without
  one, and then the failure of that write is the result, whatever reading came to. -/
  written : ∃ copied, copied <+: file.content
    ∧ ((failing ≠ some (next + file.readable.length ⌈/⌉ 4096)
        ∧ report.written = copied ++ [0x0A] ∧ ∀ crash, report.result ≠ .error (.crash crash))
      ∨ (failing = some (next + file.readable.length ⌈/⌉ 4096)
        ∧ report.written = copied ∧ report.result = .error (.crash (.outputFailed .noSpace))))
  /-- Without a failure the content is written, and the number of bytes is the result. -/
  whole : file.fault = none →
    (∀ i ≤ file.content.length ⌈/⌉ 4096, failing ≠ some (next + i)) →
    report = ⟨file.content ++ [0x0A], file.content.length ⌈/⌉ 4096 + 1,
      .ok (file.content ++ [0x0A]).length⟩
  /-- A failure to read leaves the bytes before it, which are all if the content has no more. -/
  unread (k : Nat) (error : OsError) : file.fault = some ⟨k, error⟩ →
    (∀ i ≤ min k file.content.length ⌈/⌉ 4096, failing ≠ some (next + i)) →
    (file.content.take k).length = min k file.content.length
      ∧ report = ⟨file.content.take k ++ [0x0A], min k file.content.length ⌈/⌉ 4096 + 1,
        .error (.reported (.readFailed path error))⟩
  /-- A failure to write a chunk leaves the chunks before it. -/
  unwritten (i : Nat) : 4096 * i < file.readable.length → failing = some (next + i) →
    (file.content.take (4096 * i)).length = 4096 * i
      ∧ report = ⟨file.content.take (4096 * i) ++ [0x0A], i + 2,
        .error (.reported (.readFailed path .noSpace))⟩
  /-- A failure to write the newline leaves all that could be read. -/
  unended : failing = some (next + file.readable.length ⌈/⌉ 4096) →
    report = ⟨file.readable, file.readable.length ⌈/⌉ 4096 + 1,
      .error (.crash (.outputFailed .noSpace))⟩

theorem readable_of_fault {file : File} {k : Nat} {error : OsError}
    (h : file.fault = some ⟨k, error⟩) : file.readable = file.content.take k := by
  rw [File.readable, h]

theorem reports_copy (failing : Option Nat) (next : Nat) (path : Text) (file : File) :
    Reports failing next path file (copy failing next path file) where
  written := by
    rw [← chunkCount_eq_ceilDiv]
    rcases copy_cases next file failing with ⟨i, hi, rfl⟩ | rfl | hgoes
    · -- a chunk that fails is not the newline
      have hnumber := (lt_chunkCount_iff i _).mpr hi
      have hother : some (next + i) ≠ some (next + chunkCount file.readable.length) := by
        simp [Nat.ne_of_lt hnumber]
      rw [copy_of_chunkFails next path file hi]
      refine ⟨file.readable.take (chunkSize * i), ?_, .inl ⟨hother, rfl, by simp⟩⟩
      exact (List.take_prefix _ _).trans (readable_prefix_content file)
    · rw [copy_of_newlineFails]
      exact ⟨file.readable, readable_prefix_content file, .inr ⟨rfl, rfl, rfl⟩⟩
    · rw [copy_of_goes next path file hgoes]
      refine ⟨file.readable, readable_prefix_content file, .inl ⟨hgoes _ (Nat.le_refl _), rfl, ?_⟩⟩
      intro crash
      cases file.fault <;> simp
  whole := by
    intro hfault hgoes
    have hreadable : file.readable = file.content := by rw [File.readable, hfault]
    rw [← hreadable, ← chunkCount_eq_ceilDiv] at hgoes ⊢
    rw [copy_of_goes next path file hgoes, hfault, List.length_append]
    rfl
  unread := by
    intro k error hfault hgoes
    have hreadable := readable_of_fault hfault
    have hlength : (file.content.take k).length = min k file.content.length := List.length_take
    rw [← hlength, ← hreadable, ← chunkCount_eq_ceilDiv] at hgoes
    refine ⟨hlength, ?_⟩
    rw [copy_of_goes next path file hgoes, chunkCount_eq_ceilDiv, hfault, hreadable, hlength]
  unwritten := by
    intro i hi hfails
    have hlength : (file.readable.take (4096 * i)).length = 4096 * i :=
      List.length_take_of_le (Nat.le_of_lt hi)
    rw [hfails, copy_of_chunkFails next path file hi, ← take_readable (Nat.le_of_lt hi)]
    exact ⟨hlength, rfl⟩
  unended := by
    intro hfails
    rw [← chunkCount_eq_ceilDiv] at hfails ⊢
    rw [hfails, copy_of_newlineFails]

/-- What printing a file writes, and how it ends, under any failure. A file that cannot be opened is
reported, and nothing is written. One that can be opened is copied as far as reading and writing go,
and ended by a newline, and a failure of either is reported after that; only the newline itself can
be missing, when its write is the one that fails. What is written stands behind what was there
before. -/
theorem dump_under_failure (world : World) {path : Text} (hpath : path.IsPassable) :
    (world.file? path = none → ∀ next,
        dump world next path = ⟨[], 0, .error (.reported .fileNotFound)⟩)
      ∧ (∀ file, world.file? path = some file → ∀ next,
        Reports world.failingWrite next path file (dump world next path))
      ∧ ∀ (config : Config) (s : Session) (argument : Text), Effect.Resolves config [argument] path →
        (s.dispatch world config [Builtin.proc.name, argument]).2.builtinOutput
            = s.builtinOutput ++ (dump world s.writes path).written
          ∧ (s.dispatch world config [Builtin.proc.name, argument]).2.writes
            = s.writes + (dump world s.writes path).writes := by
  refine ⟨?_, ?_, ?_⟩
  · intro hfile next
    rw [dump, (Text.fault?_eq_none_iff path).mpr hpath, hfile]
  · intro file hfile next
    rw [dump_of_file hpath hfile]
    exact reports_copy world.failingWrite next path file
  · intro config s argument hresolves
    exact s.builtinOutput_dispatch world config hresolves

def brokenOff (path : Text) : Option File :=
  if path = "/proc/mounts" then
    some ⟨List.replicate 10000 0x61, some ⟨8192, .numbered 5 "Input/output error"⟩⟩
  else none

/-- After three writes the fourth is the first chunk, the fifth the second, and the sixth the
newline. -/
theorem dump_under_failure_mounts :
    Text.IsPassable "/proc/mounts"
      ∧ dump { file? := brokenOff, failingWrite := some 4 } 3 "/proc/mounts"
        = ⟨(List.replicate 10000 0x61).take 4096 ++ [0x0A], 3,
          .error (.reported (.readFailed "/proc/mounts" .noSpace))⟩
      ∧ dump { file? := brokenOff, failingWrite := some 5 } 3 "/proc/mounts"
        = ⟨(List.replicate 10000 0x61).take 8192, 3, .error (.crash (.outputFailed .noSpace))⟩ := by
  have hpath : Text.IsPassable "/proc/mounts" := by decide
  let file : File := ⟨List.replicate 10000 0x61, some ⟨8192, .numbered 5 "Input/output error"⟩⟩
  have hlength : file.readable.length = 8192 := by
    rw [readable_of_fault rfl, List.length_take, List.length_replicate]
    rfl
  refine ⟨hpath, ?_, ?_⟩
  · obtain ⟨_, hreports, _⟩ :=
      dump_under_failure { file? := brokenOff, failingWrite := some 4 } hpath
    exact ((hreports file rfl 3).unwritten 1 (by rw [hlength]; decide) rfl).2
  · obtain ⟨_, hreports, _⟩ :=
      dump_under_failure { file? := brokenOff, failingWrite := some 5 } hpath
    have hended := (hreports file rfl 3).unended
    rw [hlength] at hended
    exact hended rfl

end Copy

end LineShell
