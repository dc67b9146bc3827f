import LineShell.Config
import LineShell.PosixPath
import LineShell.Proofs.Proc.Path
import LineShell.Proofs.Text.Ends
import LineShell.Proofs.Text.Fields

/- Where in the process tree the file lies that `proc` prints.

   What stands behind the root in a path leads to a place, which is found from the text by dropping
   `.` and going back for `..` (`PosixPath.below?`). An argument without a slash leads to a
   supported file of its name. The two segments of an argument with one are taken as they are
   written, dots among them, so such an argument leads to a file of a process if neither is made of
   dots, and else almost always elsewhere (`below_of_resolve`): to a file beside the supported ones,
   to the root or out of it (`resolve_leaves_tree`). -/
namespace LineShell

namespace PosixPath

/-- The segments that lead nowhere new: the place itself, and the place that it is in. -/
def IsDots (segment : Text) : Prop := segment = "." ∨ segment = ".."

instance (segment : Text) : Decidable (IsDots segment) :=
  inferInstanceAs (Decidable (segment = "." ∨ segment = ".."))

theorem dots_cases (segment : Text) :
    segment = "." ∨ segment = ".." ∨ (segment ≠ "." ∧ segment ≠ "..") := by
  by_cases hdot : segment = "."
  · exact .inl hdot
  · by_cases hback : segment = ".."
    · exact .inr (.inl hback)
    · exact .inr (.inr ⟨hdot, hback⟩)

/-- A stretch between slashes. -/
structure IsSegment (t : Text) : Prop where
  ne_nil : t ≠ []
  noSlash : t.any CodePoint.isSlash = false

instance (t : Text) : Decidable (IsSegment t) :=
  decidable_of_iff (t ≠ [] ∧ t.any CodePoint.isSlash = false)
    ⟨fun h => ⟨h.1, h.2⟩, fun h => ⟨h.ne_nil, h.noSlash⟩⟩

/-- A name of something in a directory. -/
structure IsName (t : Text) : Prop extends IsSegment t where
  notDots : ¬IsDots t

instance (t : Text) : Decidable (IsName t) :=
  decidable_of_iff ((t ≠ [] ∧ t.any CodePoint.isSlash = false) ∧ ¬IsDots t)
    ⟨fun h => ⟨⟨h.1.1, h.1.2⟩, h.2⟩, fun h => ⟨⟨h.ne_nil, h.noSlash⟩, h.notDots⟩⟩

theorem isSegment_of_mem_fields {t segment : Text} (h : segment ∈ t.fields CodePoint.isSlash) :
    IsSegment segment :=
  ⟨Text.ne_nil_of_mem_fields h, by simpa using Text.not_separator_of_mem_fields h⟩

/-- The place that further segments lead to; a `..` that has nothing to go back from leads out. -/
def reach? : (place : List Text) → List Text → Option (List Text)
  | place, [] => some place
  | place, segment :: later =>
    if segment = ".." then if place.isEmpty then none else reach? place.dropLast later
    else reach? (place ++ [segment]) later

/-- The place below a directory that a relative path leads to, if it does not leave the directory. -/
def below? (relative : Text) : Option (List Text) := reach? [] (segmentsOf relative)

theorem reach?_of_names {segments : List Text} (h : ∀ segment ∈ segments, segment ≠ "..")
    (place : List Text) : reach? place segments = some (place ++ segments) := by
  induction segments generalizing place with
  | nil => rw [reach?, List.append_nil]
  | cons segment later ih =>
    rw [reach?, if_neg (h segment List.mem_cons_self),
      ih fun other hother => h other (List.mem_cons_of_mem _ hother)]
    simp

theorem fields_slash_append {segment t : Text} (h : IsSegment segment)
    (ht : ∀ c ∈ t.head?, CodePoint.isSlash c = true) :
    Text.fields CodePoint.isSlash (("/" : Text) ++ segment ++ t)
      = segment :: Text.fields CodePoint.isSlash t := by
  have hgap : ∀ c ∈ ("/" : Text), CodePoint.isSlash c = true :=
    List.forall_mem_singleton.mpr (by decide)
  have hword : ∀ c ∈ segment, CodePoint.isSlash c = false := by simpa using h.noSlash
  rw [List.append_assoc, Text.fields_gap_append hgap, Text.fields_word_append h.ne_nil hword ht]

theorem fields_slash_segment {segment : Text} (h : IsSegment segment) :
    Text.fields CodePoint.isSlash (("/" : Text) ++ segment) = [segment] := by
  have hfields := fields_slash_append (t := []) h (by simp)
  rw [List.append_nil] at hfields
  exact hfields

end PosixPath

namespace ProcPath

open PosixPath

/-- The part of a path that stands behind the root. -/
def relative : ProcPath → Text
  | global name => "/" ++ name
  | perProcess pid file => "/" ++ pid ++ ("/" ++ file)

theorem under_eq (root : Text) (file : ProcPath) :
    file.under root = root.dropEndWhile CodePoint.isSlash ++ file.relative := by
  cases file <;> simp [under, relative]

/-- A place that `proc` is there for: a supported file, or a file of a process. -/
inductive IsOffered (supported : List Text) : Option (List Text) → Prop where
  | global {name : Text} (h : name ∈ supported) : IsOffered supported (some [name])
  | perProcess (pid file : Text) : IsOffered supported (some [pid, file])

theorem resolve_eq_ok {root command argument path : Text} {capacity : Int} {supported : List Text}
    (h : resolve root capacity supported [command, argument] = .ok path) :
    ∃ file, parse supported argument = .ok file ∧ path = file.under root := by
  rw [resolve_pair] at h
  cases hparse : parse supported argument with
  | error error =>
    rw [hparse] at h
    cases h
  | ok file =>
    rw [hparse] at h
    exact ⟨file, rfl, ((checkCapacity_eq_ok_iff _ _ _).mp h).2.2⟩

theorem parse_eq_ok {supported : List Text} {argument : Text} {file : ProcPath}
    (h : parse supported argument = .ok file) :
    (argument.any CodePoint.isSlash = false ∧ argument ∈ supported ∧ file = .global argument)
      ∨ ∃ pid name later, argument.any CodePoint.isSlash = true
        ∧ argument.fields CodePoint.isSlash = pid :: name :: later
        ∧ file = .perProcess pid name := by
  rw [parse] at h
  split at h
  · next hslash =>
    split at h
    · next pid name later hfields =>
      cases h
      exact .inr ⟨pid, name, later, hslash, hfields, rfl⟩
    · cases h
  · next hslash =>
    split at h
    · next hsupported =>
      cases h
      exact .inl ⟨by simpa using hslash, hsupported, rfl⟩
    · cases h

theorem below?_global {name : Text} (h : IsName name) :
    below? (relative (.global name)) = some [name] := by
  have hdot : name ≠ "." := fun hdot => h.notDots (.inl hdot)
  rw [below?, segmentsOf, relative, fields_slash_segment h.toIsSegment,
    List.filter_cons_of_pos (by simpa using hdot), List.filter_nil, reach?_of_names]
  · rfl
  · intro segment hsegment hback
    rw [List.mem_singleton.mp hsegment] at hback
    exact h.notDots (.inr hback)

theorem fields_perProcess {pid file : Text} (hpid : IsSegment pid) (hfile : IsSegment file) :
    Text.fields CodePoint.isSlash (relative (.perProcess pid file)) = [pid, file] := by
  have hhead : ∀ c ∈ (("/" : Text) ++ file).head?, CodePoint.isSlash c = true := by
    intro c hc
    cases hc
    decide
  rw [relative, fields_slash_append hpid hhead, fields_slash_segment hfile]

theorem below?_perProcess {pid file : Text} (hpid : IsSegment pid) (hfile : IsSegment file) :
    below? (relative (.perProcess pid file)) = reach? [] ([pid, file].filter (· ≠ ".")) := by
  rw [below?, segmentsOf, fields_perProcess hpid hfile]

theorem below?_perProcess_of_names {pid file : Text} (hpid : IsName pid) (hfile : IsName file) :
    below? (relative (.perProcess pid file)) = some [pid, file] := by
  have hdots : ∀ segment ∈ [pid, file], ¬IsDots segment :=
    List.forall_mem_cons.mpr ⟨hpid.notDots, List.forall_mem_singleton.mpr hfile.notDots⟩
  have hcount : [pid, file].filter (fun segment => segment ≠ ("." : Text)) = [pid, file] := by
    rw [List.filter_eq_self]
    intro segment hsegment
    simpa using fun hdot => hdots segment hsegment (.inl hdot)
  rw [below?_perProcess hpid.toIsSegment hfile.toIsSegment, hcount]
  exact reach?_of_names (fun segment hsegment hback => hdots segment hsegment (.inr hback)) []

section

variable {supported : List Text}

@[simp] theorem isOffered_segment (name : Text) :
    IsOffered supported (some [name]) ↔ name ∈ supported := by
  refine ⟨?_, .global⟩
  intro h
  cases h
  assumption

@[simp] theorem isOffered_pair (pid file : Text) : IsOffered supported (some [pid, file]) :=
  .perProcess pid file

@[simp] theorem not_isOffered_root : ¬IsOffered supported (some []) := by
  intro h
  cases h

@[simp] theorem not_isOffered_outside : ¬IsOffered supported none := by
  intro h
  cases h

/-- Where dots lead: to a supported file only by the segment that stands for the place itself. -/
theorem isOffered_perProcess_iff (hnames : ∀ name ∈ supported, IsName name) {pid file : Text}
    (hpid : IsSegment pid) (hfile : IsSegment file) :
    IsOffered supported (below? (relative (.perProcess pid file)))
      ↔ (¬IsDots pid ∧ ¬IsDots file) ∨ (pid = "." ∧ file ∈ supported)
        ∨ (file = "." ∧ pid ∈ supported) := by
  have hdot : ("." : Text) ∉ supported := fun h => (hnames _ h).notDots (.inl rfl)
  have hback : (".." : Text) ∉ supported := fun h => (hnames _ h).notDots (.inr rfl)
  have hne : ("." : Text) ≠ ".." := by decide
  rw [below?_perProcess hpid hfile]
  rcases dots_cases pid with rfl | rfl | ⟨hpidDot, hpidBack⟩
  · -- the process stands for the root, so the file is looked for right below it
    rcases dots_cases file with rfl | rfl | ⟨hfileDot, hfileBack⟩
    · simp [reach?, IsDots, hdot]
    · simp [reach?, IsDots, hback, hne.symm]
    · simp [reach?, IsDots, hfileDot, hfileBack]
  · -- there is nothing to go back from
    simp [reach?, IsDots, hback, hne.symm]
  · rcases dots_cases file with rfl | rfl | ⟨hfileDot, hfileBack⟩
    · simp [reach?, IsDots, hpidDot, hpidBack]
    · simp [reach?, IsDots, hpidDot, hpidBack, hne.symm]
    · simp [reach?, IsDots, hpidDot, hpidBack, hfileDot, hfileBack]

end

/-- Where an argument leads whose path is found, if the supported files have names. Without a slash
that is the supported file of its name. With one it is what its first two segments lead to, as they
are written: a file of a process if both are names; and with dots among them it is a place that `proc`
is there for only if the one is `.` and the other a supported file. -/
theorem below_of_resolve {root command argument path : Text} {capacity : Int}
    {supported : List Text} (hnames : ∀ name ∈ supported, IsName name)
    (h : resolve root capacity supported [command, argument] = .ok path) :
    ∃ rest, path = root.dropEndWhile CodePoint.isSlash ++ rest
      ∧ ((argument.any CodePoint.isSlash = false ∧ argument ∈ supported
            ∧ rest = "/" ++ argument ∧ below? rest = some [argument])
        ∨ ∃ pid file later, argument.any CodePoint.isSlash = true
            ∧ argument.fields CodePoint.isSlash = pid :: file :: later
            ∧ rest = "/" ++ pid ++ ("/" ++ file)
            ∧ (¬IsDots pid → ¬IsDots file → below? rest = some [pid, file])
            ∧ (IsOffered supported (below? rest)
              ↔ (¬IsDots pid ∧ ¬IsDots file) ∨ (pid = "." ∧ file ∈ supported)
                ∨ (file = "." ∧ pid ∈ supported))) := by
  obtain ⟨place, hparse, rfl⟩ := resolve_eq_ok h
  refine ⟨place.relative, under_eq root place, ?_⟩
  rcases parse_eq_ok hparse with
    ⟨hslash, hsupported, rfl⟩ | ⟨pid, file, later, hslash, hfields, rfl⟩
  · exact .inl ⟨hslash, hsupported, rfl, below?_global (hnames argument hsupported)⟩
  · have hpid : IsSegment pid := isSegment_of_mem_fields (by rw [hfields]; exact .head _)
    have hfile : IsSegment file := isSegment_of_mem_fields (by rw [hfields]; exact .tail _ (.head _))
    exact .inr ⟨pid, file, later, hslash, hfields, rfl,
      fun hpidName hfileName => below?_perProcess_of_names ⟨hpid, hpidName⟩ ⟨hfile, hfileName⟩,
      isOffered_perProcess_iff hnames hpid hfile⟩

/-- Slashes that do not count, in the root and in the argument, and a segment too many. -/
theorem below_of_resolve_status :
    (∀ name ∈ Config.default.globalFiles, IsName name)
      ∧ resolve "/proc//" 64 Config.default.globalFiles ["proc", "/1//status/x"]
        = .ok "/proc/1/status"
      ∧ ∃ rest, ("/proc/1/status" : Text)
          = ("/proc//" : Text).dropEndWhile CodePoint.isSlash ++ rest
        ∧ below? rest = some (["1", "status"] : List Text) := by
  have hnames : ∀ name ∈ Config.default.globalFiles, IsName name := by decide
  have hresolve : resolve "/proc//" 64 Config.default.globalFiles ["proc", "/1//status/x"]
      = .ok "/proc/1/status" := by decide
  obtain ⟨rest, hrest, hplace⟩ := below_of_resolve hnames hresolve
  refine ⟨hnames, hresolve, rest, hrest, ?_⟩
  rcases hplace with ⟨hslash, _⟩ | ⟨pid, file, later, _, hfields, _, hbelow, _⟩
  · exact absurd hslash (by decide)
  · have hsegments : Text.fields CodePoint.isSlash "/1//status/x"
        = (["1", "status", "x"] : List Text) := by decide
    cases hsegments.symm.trans hfields
    exact hbelow (by decide) (by decide)

/-- With dots for a process `proc` prints what it does not offer: a file that is not supported, the
root itself, and files beside the root. -/
theorem resolve_leaves_tree :
    (∀ name ∈ Config.default.globalFiles, IsName name)
      ∧ (resolve "/proc" 64 Config.default.globalFiles ["proc", "./version"]
          = .ok (("/proc" : Text).dropEndWhile CodePoint.isSlash ++ "/./version")
        ∧ below? "/./version" = some (["version"] : List Text)
        ∧ ¬IsOffered Config.default.globalFiles (below? "/./version"))
      ∧ (resolve "/proc" 64 Config.default.globalFiles ["proc", "1/.."]
          = .ok (("/proc" : Text).dropEndWhile CodePoint.isSlash ++ "/1/..")
        ∧ below? "/1/.." = some []
        ∧ ¬IsOffered Config.default.globalFiles (below? "/1/.."))
      ∧ resolve "/proc" 64 Config.default.globalFiles ["proc", "../etc"]
          = .ok (("/proc" : Text).dropEndWhile CodePoint.isSlash ++ "/../etc")
        ∧ below? "/../etc" = none
        ∧ ¬IsOffered Config.default.globalFiles (below? "/../etc") := by
  have hversion : below? "/./version" = some (["version"] : List Text) := by decide
  have hroot : below? "/1/.." = some [] := by decide
  have houtside : below? "/../etc" = none := by decide
  rw [hversion, hroot, houtside, isOffered_segment]
  exact ⟨by decide, ⟨by decide, rfl, by decide⟩, ⟨by decide, rfl, not_isOffered_root⟩, by decide,
    rfl, not_isOffered_outside⟩

end ProcPath

end LineShell
