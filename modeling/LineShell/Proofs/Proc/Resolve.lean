import Mathlib.Algebra.Group.Int.Defs
import Mathlib.Algebra.GroupWithZero.Nat
import LineShell.MachineSize
import LineShell.Proofs.Proc.Tree
import LineShell.Proofs.Text.Numeral

/- When an argument has a path, and when the path fits.

   An argument that names no file fails with the error of naming it, before any path is measured.
   One that names a file has the path that stands for the file under the root, and the path is given
   out if its UTF-8 form and a terminator fit the capacity (`resolve_limit`): the limit is exact to
   the byte, a larger capacity never takes a path back, and nothing is cut off. So finding a path
   ends with the path or with one of three reports, unless there is no UTF-8 form to measure, or the
   limit that a report has to name is too long to be written (`resolve_specified_iff`). -/
namespace LineShell

/-! ## Sizes -/

theorem CodePoint.utf8Size_bounds (c : CodePoint) : 1 ≤ c.utf8Size ∧ c.utf8Size ≤ 4 := by
  rw [utf8Size]
  repeat' split
  all_goals omega

namespace Text

theorem utf8Size_cons (c : CodePoint) (t : Text) : utf8Size (c :: t) = c.utf8Size + utf8Size t := rfl

theorem utf8Size_eq_sum (t : Text) : t.utf8Size = (t.map CodePoint.utf8Size).sum := by
  induction t with
  | nil => rfl
  | cons c t ih => rw [utf8Size_cons, ih, List.map_cons, List.sum_cons]

theorem utf8Size_bounds (t : Text) : t.length ≤ t.utf8Size ∧ t.utf8Size ≤ 4 * t.length := by
  induction t with
  | nil => exact ⟨Nat.le_refl 0, Nat.le_refl 0⟩
  | cons c t ih =>
    have hc := c.utf8Size_bounds
    rw [utf8Size_cons, List.length_cons]
    omega

end Text

namespace ProcPath

open PosixPath

theorem length_bytes_of_isPlain {t : Text} (h : IsPlain t) : t.bytes.length = t.utf8Size := by
  induction t with
  | nil => rfl
  | cons c t ih =>
    obtain ⟨hc, ht⟩ := List.forall_mem_cons.mp h
    have hraw : ¬c.isRawByte = true := by
      intro hraw
      rw [CodePoint.isRawByte_iff] at hraw
      have hsurrogate : c.isSurrogate = true := by
        rw [CodePoint.isSurrogate_iff]
        omega
      rw [hc] at hsurrogate
      cases hsurrogate
    rw [Text.bytes_cons, List.length_append, ih ht, CodePoint.bytes, if_neg hraw,
      CodePoint.length_utf8, Text.utf8Size_cons]

/-! ## Naming a file -/

/-- An argument is refused that has a slash and too few segments, or no slash and is not supported. -/
theorem parse_eq_error_iff (supported : List Text) (argument : Text) (error : ShellError) :
    parse supported argument = .error error
      ↔ (argument.any CodePoint.isSlash = true
          ∧ (argument.fields CodePoint.isSlash).length < 2 ∧ error = .procUsage)
        ∨ (argument.any CodePoint.isSlash = false
          ∧ argument ∉ supported ∧ error = .unsupportedFile supported) := by
  rw [parse]
  cases argument.any CodePoint.isSlash with
  | true =>
    rcases argument.fields CodePoint.isSlash with _ | ⟨pid, _ | ⟨file, later⟩⟩
    · simp [eq_comm]
    · simp [eq_comm]
    · have hmany : ¬later.length + 1 + 1 < 2 := by omega
      simp [hmany]
  | false =>
    by_cases hsupported : argument ∈ supported
    · simp [hsupported]
    · simp [hsupported, eq_comm]

theorem isPlain_under {supported : List Text} {root argument : Text} {file : ProcPath}
    (h : parse supported argument = .ok file) (hroot : IsPlain root) (hargument : IsPlain argument) :
    IsPlain (file.under root) := by
  have hbase : IsPlain (root.dropEndWhile CodePoint.isSlash) := by
    intro c hc
    exact hroot c ((List.rdropWhile_prefix CodePoint.isSlash (l := root)).subset hc)
  have hslash : IsPlain ("/" : Text) := List.forall_mem_singleton.mpr (by decide)
  rw [under_eq]
  refine List.forall_mem_append.mpr ⟨hbase, ?_⟩
  rcases parse_eq_ok h with ⟨_, _, rfl⟩ | ⟨pid, name, later, _, hfields, rfl⟩
  · exact List.forall_mem_append.mpr ⟨hslash, hargument⟩
  · have hsegment : ∀ segment ∈ [pid, name], IsPlain segment := by
      intro segment hsegment c hc
      have hmem : segment ∈ argument.fields CodePoint.isSlash := by
        rw [hfields]
        exact List.mem_append_left later hsegment
      exact hargument c (Text.subset_of_mem_fields hmem hc)
    have hpid := hsegment pid List.mem_cons_self
    have hname := hsegment name (List.mem_cons_of_mem _ List.mem_cons_self)
    exact List.forall_mem_append.mpr
      ⟨List.forall_mem_append.mpr ⟨hslash, hpid⟩, List.forall_mem_append.mpr ⟨hslash, hname⟩⟩

theorem utf8Size_under_pos (root : Text) (file : ProcPath) : 1 ≤ (file.under root).utf8Size := by
  have hlength := (file.under root).utf8Size_bounds.1
  have hslash : ("/" : Text).length = 1 := rfl
  have hrelative : 1 ≤ file.relative.length := by
    cases file <;> (simp only [relative, List.length_append]; omega)
  have hparts : (file.under root).length
      = (root.dropEndWhile CodePoint.isSlash).length + file.relative.length := by
    rw [under_eq, List.length_append]
  omega

/-! ## Totality -/

/-- What finding a path is there to give: the path, or one of three reports. -/
inductive IsSpecified : Except Failure Text → Prop where
  | path (path : Text) : IsSpecified (.ok path)
  | usage : IsSpecified (.error (.reported .procUsage))
  | unsupported (supported : List Text) :
    IsSpecified (.error (.reported (.unsupportedFile supported)))
  | tooLong (size : Nat) (capacity : Int) :
    IsSpecified (.error (.reported (.pathTooLong size capacity)))

theorem not_isSpecified_crash (crash : Crash) : ¬IsSpecified (.error (.crash crash)) := by
  intro h
  cases h

theorem isSpecified_of_parse {supported : List Text} {argument : Text} {error : ShellError}
    (h : parse supported argument = .error error) : IsSpecified (.error (.reported error)) := by
  rcases (parse_eq_error_iff supported argument error).mp h with ⟨_, _, rfl⟩ | ⟨_, _, rfl⟩
  · exact .usage
  · exact .unsupported supported

theorem isSpecified_checkCapacity_iff (capacity : Int) (path : Text) :
    IsSpecified (checkCapacity capacity path)
      ↔ IsPlain path
        ∧ (Fits capacity path ∨ (capacity - 1).natAbs < 10 ^ Numeral.digitLimit) := by
  rw [← Numeral.isWritable_iff]
  cases hcheck : checkCapacity capacity path with
  | ok found =>
    obtain ⟨hplain, hfits, _⟩ := (checkCapacity_eq_ok_iff capacity path found).mp hcheck
    exact ⟨fun _ => ⟨hplain, .inl hfits⟩, fun _ => .path found⟩
  | error failure =>
    cases failure with
    | reported error =>
      obtain ⟨hplain, _, hlimit, rfl⟩ := (checkCapacity_eq_reported_iff capacity path error).mp hcheck
      exact ⟨fun _ => ⟨hplain, .inr hlimit⟩, fun _ => .tooLong path.utf8Size capacity⟩
    | crash crash =>
      refine ⟨fun h => absurd h (not_isSpecified_crash crash), ?_⟩
      intro h
      obtain ⟨hplain, hfits⟩ := h
      rcases (checkCapacity_eq_crash_iff capacity path crash).mp hcheck with
        ⟨fault, hfault, _⟩ | ⟨_, hlong, hlimit, _⟩
      · rw [(strict_fault?_eq_none_iff path).mpr hplain] at hfault
        cases hfault
      · rcases hfits with hfits | hwritable
        · exact absurd hfits hlong
        · rw [hlimit] at hwritable
          cases hwritable

section

variable {supported : List Text} {root argument : Text} {file : ProcPath}

theorem resolve_of_parse (hparse : parse supported argument = .ok file) (command : Text)
    (capacity : Int) :
    resolve root capacity supported [command, argument]
      = checkCapacity capacity (file.under root) := by
  rw [resolve_pair, hparse]

variable (hparse : parse supported argument = .ok file) (hplain : IsPlain (file.under root))
  (command : Text) {capacity : Int}

include hparse hplain

theorem resolve_of_fits (hfits : (file.under root).utf8Size + 1 ≤ capacity) :
    resolve root capacity supported [command, argument] = .ok (file.under root) := by
  rw [resolve_of_parse hparse]
  exact (checkCapacity_eq_ok_iff _ _ _).mpr ⟨hplain, hfits, rfl⟩

theorem resolve_of_tooLong (hlong : capacity < (file.under root).utf8Size + 1)
    (hlimit : (capacity - 1).natAbs < 10 ^ Numeral.digitLimit) :
    resolve root capacity supported [command, argument]
      = .error (.reported (.pathTooLong (file.under root).utf8Size capacity)) := by
  rw [resolve_of_parse hparse]
  exact (checkCapacity_eq_reported_iff _ _ _).mpr
    ⟨hplain, Int.not_le.mpr hlong, (Numeral.isWritable_iff _).mpr hlimit, rfl⟩

theorem resolve_of_unwritable (hlong : capacity < (file.under root).utf8Size + 1)
    (hlimit : 10 ^ Numeral.digitLimit ≤ (capacity - 1).natAbs) :
    resolve root capacity supported [command, argument] = .error (.crash .unwritableNumber) := by
  rw [resolve_of_parse hparse]
  exact (checkCapacity_eq_crash_iff _ _ _).mpr
    (.inr ⟨hplain, Int.not_le.mpr hlong, (Numeral.isWritable_eq_false_iff _).mpr hlimit, rfl⟩)

end

variable (root : Text) (capacity : Int) (supported : List Text)

theorem isSpecified_resolve_iff (command argument : Text) :
    IsSpecified (resolve root capacity supported [command, argument])
      ↔ ∀ file, parse supported argument = .ok file → IsPlain (file.under root)
        ∧ (Fits capacity (file.under root)
          ∨ (capacity - 1).natAbs < 10 ^ Numeral.digitLimit) := by
  rw [resolve_pair]
  cases hparse : parse supported argument with
  | error error =>
    refine ⟨fun _ file hfile => ?_, fun _ => isSpecified_of_parse hparse⟩
    cases hfile
  | ok file =>
    rw [isSpecified_checkCapacity_iff]
    refine ⟨fun h other hother => ?_, fun h => h file rfl⟩
    cases hother
    exact h

/-- Finding a path is total but for two failures. A vector of any other length than two is a misuse.
A vector of two ends as specified exactly if the path of the file that is named, should one be
named, has no surrogate in it and fits the capacity, or does not fit a limit that can be written.
All else is the failure to encode the path, or the failure to write the limit. So a root and an
argument without surrogates are enough, with a limit of at most as many digits as a numeral may
have. -/
theorem resolve_specified_iff :
    (∀ arguments, arguments.length ≠ 2 →
        resolve root capacity supported arguments = .error (.reported .procUsage))
      ∧ (∀ command argument,
        (IsSpecified (resolve root capacity supported [command, argument])
          ↔ ∀ file, parse supported argument = .ok file → IsPlain (file.under root)
            ∧ (Fits capacity (file.under root)
              ∨ (capacity - 1).natAbs < 10 ^ Numeral.digitLimit))
        ∧ ∀ crash, resolve root capacity supported [command, argument] = .error (.crash crash) →
          (∃ fault, crash = .unusableText (.unencodable fault)) ∨ crash = .unwritableNumber)
      ∧ ((capacity - 1).natAbs < 10 ^ Numeral.digitLimit → IsPlain root →
        ∀ command argument, IsPlain argument →
          IsSpecified (resolve root capacity supported [command, argument])) := by
  refine ⟨?_, ?_, ?_⟩
  · intro arguments hlength
    exact resolve_eq_usage hlength root capacity supported
  · intro command argument
    refine ⟨isSpecified_resolve_iff root capacity supported command argument, ?_⟩
    intro crash hcrash
    rw [resolve_pair] at hcrash
    cases hparse : parse supported argument with
    | error error =>
      rw [hparse] at hcrash
      cases hcrash
    | ok file =>
      rw [hparse] at hcrash
      rcases (checkCapacity_eq_crash_iff _ _ _).mp hcrash with ⟨fault, _, rfl⟩ | ⟨_, _, _, rfl⟩
      · exact .inl ⟨fault, rfl⟩
      · exact .inr rfl
  · intro hlimit hroot command argument hargument
    apply (isSpecified_resolve_iff root capacity supported command argument).mpr
    intro file hparse
    exact ⟨isPlain_under hparse hroot hargument, .inr hlimit⟩

/-- An argument with a byte that is no UTF-8 has no specified end. -/
theorem not_isSpecified_rawByte :
    resolve "/proc" 64 Config.default.globalFiles
          ["proc", ("1/" : Text) ++ [CodePoint.ofByte 0xFF]]
        = .error (.crash (.unusableText (.unencodable ⟨CodePoint.ofByte 0xFF, 8, 8⟩)))
      ∧ ¬IsSpecified (resolve "/proc" 64 Config.default.globalFiles
          ["proc", ("1/" : Text) ++ [CodePoint.ofByte 0xFF]]) := by
  have hbyte : resolve "/proc" 64 Config.default.globalFiles
      ["proc", ("1/" : Text) ++ [CodePoint.ofByte 0xFF]]
        = .error (.crash (.unusableText (.unencodable ⟨CodePoint.ofByte 0xFF, 8, 8⟩))) := by
    decide
  rw [hbyte]
  exact ⟨rfl, not_isSpecified_crash _⟩

/-! ## The limit -/

/-- The path that stands for a file under a root: the root without the slashes at its end, and the
names of the file, each behind a slash. -/
def IsPathOf (root : Text) (file : ProcPath) (path : Text) : Prop :=
  ∃ base slashes, root = base ++ slashes ∧ (∀ c ∈ slashes, CodePoint.isSlash c = true)
    ∧ (∀ c ∈ base.getLast?, CodePoint.isSlash c = false) ∧ path = base ++ file.relative

theorem isPathOf_under (root : Text) (file : ProcPath) : IsPathOf root file (file.under root) := by
  obtain ⟨slashes, hroot, hslashes⟩ := Text.exists_dropEndWhile CodePoint.isSlash root
  exact ⟨_, slashes, hroot, hslashes, Text.getLast?_dropEndWhile CodePoint.isSlash root,
    under_eq root file⟩

/-- What a capacity makes of a vector whose argument has this path, of so many bytes. -/
structure IsLimited (root : Text) (supported vector : List Text) (path : Text) (size : Nat) :
    Prop where
  /-- What is found is the path, all of it, where its bytes and a terminator fit. -/
  found : ∀ (capacity : Int) text, resolve root capacity supported vector = .ok text
    ↔ text = path ∧ size + 1 ≤ capacity
  /-- Else the size and the limit are reported. A configuration has a positive capacity, and a path as
  many characters as the machine counts, so the limit can be written. -/
  refused : isMachineSize path.length = true → ∀ capacity : Int, 1 ≤ capacity → capacity < size + 1 →
    resolve root capacity supported vector = .error (.reported (.pathTooLong size capacity))
  /-- So they are under any other capacity with a limit that can be written, -/
  reported : ∀ capacity : Int, capacity < size + 1 →
    (capacity - 1).natAbs < 10 ^ Numeral.digitLimit →
    resolve root capacity supported vector = .error (.reported (.pathTooLong size capacity))
  /-- and under one with a limit of more digits nothing is. -/
  unwritable : ∀ capacity : Int, capacity < size + 1 →
    10 ^ Numeral.digitLimit ≤ (capacity - 1).natAbs →
    resolve root capacity supported vector = .error (.crash .unwritableNumber)
  message : ∀ capacity : Int, (ShellError.pathTooLong size capacity).message
    = "proc path is too long (" ++ Text.ofNat size ++ " bytes, limit is "
      ++ Text.ofInt (capacity - 1) ++ ")"
  mono : ∀ (capacity larger : Int) text, capacity ≤ larger →
    resolve root capacity supported vector = .ok text →
    resolve root larger supported vector = .ok text
  one : resolve root 1 supported vector = .error (.reported (.pathTooLong size 1))

theorem limit_lt {path : Text} (hlength : isMachineSize path.length = true) {capacity : Int}
    (hpositive : 1 ≤ capacity) (hlong : capacity < path.utf8Size + 1) :
    (capacity - 1).natAbs < 10 ^ Numeral.digitLimit := by
  have hsize := path.utf8Size_bounds.2
  have hdigits : 10 ^ 20 ≤ 10 ^ Numeral.digitLimit :=
    Nat.pow_le_pow_right (by decide) (by decide)
  simp only [isMachineSize, Bool.and_eq_true, decide_eq_true_eq] at hlength
  omega

theorem isLimited_under {supported : List Text} {root argument : Text} {file : ProcPath}
    (hparse : parse supported argument = .ok file) (hplain : IsPlain (file.under root))
    (command : Text) :
    IsLimited root supported [command, argument] (file.under root)
      (file.under root).utf8Size where
  found capacity text := by
    rw [resolve_of_parse hparse, checkCapacity_eq_ok_iff]
    refine ⟨fun ⟨_, hfits, heq⟩ => ⟨heq, hfits⟩, fun ⟨heq, hfits⟩ => ⟨hplain, hfits, heq⟩⟩
  refused hlength _ hpositive hlong :=
    resolve_of_tooLong hparse hplain command hlong (limit_lt hlength hpositive hlong)
  reported _ := resolve_of_tooLong hparse hplain command
  unwritable _ := resolve_of_unwritable hparse hplain command
  message _ := rfl
  mono capacity larger text hlarger hok := by
    rw [resolve_of_parse hparse] at hok
    obtain ⟨_, hfits, rfl⟩ := (checkCapacity_eq_ok_iff _ _ _).mp hok
    exact resolve_of_fits hparse hplain command (Int.le_trans hfits hlarger)
  one := by
    have hsize := utf8Size_under_pos root file
    exact resolve_of_tooLong hparse hplain command (by omega) (Nat.pow_pos (by decide))

/-- The limit is exact. An argument that names no file is refused as such under every capacity. For
one that names a file, root and argument being without surrogates, there is one path and its size in
bytes, and its size decides what comes of it: where it fits with a terminator the path is found, and
elsewhere it is reported. -/
theorem resolve_limit {root argument : Text} (hroot : IsPlain root) (hargument : IsPlain argument)
    (supported : List Text) (command : Text) :
    (∀ error, parse supported argument = .error error → ∀ capacity,
        resolve root capacity supported [command, argument] = .error (.reported error))
      ∧ ∀ file, parse supported argument = .ok file → ∃ (path : Text) (size : Nat),
        IsPathOf root file path
          ∧ (size = (path.map CodePoint.utf8Size).sum ∧ size = path.bytes.length)
          ∧ IsLimited root supported [command, argument] path size := by
  refine ⟨?_, ?_⟩
  · intro error hparse capacity
    rw [resolve_pair, hparse]
  · intro file hparse
    have hplain := isPlain_under hparse hroot hargument
    exact ⟨file.under root, (file.under root).utf8Size, isPathOf_under root file,
      ⟨Text.utf8Size_eq_sum _, (length_bytes_of_isPlain hplain).symm⟩,
      isLimited_under hparse hplain command⟩

/-- Bytes are counted, not characters: the path of six characters has seven. -/
theorem resolve_limit_accented :
    IsPlain "/p//" ∧ IsPlain "1//é/x"
      ∧ resolve "/p//" 8 [] ["proc", "1//é/x"] = .ok "/p/1/é"
      ∧ resolve "/p//" 7 [] ["proc", "1//é/x"] = .error (.reported (.pathTooLong 7 7)) := by
  have hroot : IsPlain "/p//" := by decide
  have hargument : IsPlain "1//é/x" := by decide
  have hparse : parse [] "1//é/x" = .ok (.perProcess "1" "é") := by decide
  have hfits : resolve "/p//" 8 [] ["proc", "1//é/x"] = .ok "/p/1/é" := by decide
  obtain ⟨_, hfiles⟩ := resolve_limit hroot hargument [] "proc"
  obtain ⟨path, size, _, ⟨_, hbytes⟩, hlimited⟩ := hfiles _ hparse
  obtain ⟨rfl, _⟩ := (hlimited.found 8 _).mp hfits
  have hsize : size = 7 := hbytes.trans (by decide)
  subst hsize
  exact ⟨hroot, hargument, hfits, hlimited.refused (by decide) 7 (by decide) (by decide)⟩

/-- A capacity below zero fits no path, and one with a digit too many keeps this from being
reported. No configuration has such a capacity. -/
theorem resolve_unreported {supported : List Text} {root argument : Text} {file : ProcPath}
    (hparse : parse supported argument = .ok file) (hplain : IsPlain (file.under root))
    (command : Text) :
    resolve root (1 - 10 ^ Numeral.digitLimit) supported [command, argument]
      = .error (.crash .unwritableNumber) := by
  have hpower : (10 : Int) ^ Numeral.digitLimit = ((10 ^ Numeral.digitLimit : Nat) : Int) :=
    (Int.natCast_pow 10 Numeral.digitLimit).symm
  have hpositive : 0 < 10 ^ Numeral.digitLimit := Nat.pow_pos (by decide)
  apply resolve_of_unwritable hparse hplain command
  · rw [hpower]
    omega
  · rw [hpower]
    omega

end ProcPath

end LineShell
