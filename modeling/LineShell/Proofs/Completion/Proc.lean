import LineShell.Completion
import LineShell.Proofs.Proc.Argument
import LineShell.Proofs.Text.Integer

/- What is offered for the argument of `proc`.

   A text without a slash is completed to a global file or to the directory of a process, and one
   with a slash to a file in the directory that is named before it (`Offered`,
   `mem_procCandidates_iff`). What is offered is accepted by `proc` as it is written, but for the
   directories, which wait for a file (`candidates_taken`). A text that starts with a slash is cut
   there too: it names no process, and what is offered for it are the names in the root behind a
   slash, of which `proc` accepts none (`candidates_refused_root`). -/
namespace LineShell

namespace Completion

open PosixPath

/-! ## Candidates -/

theorem mem_sort {candidate : Text} {texts : List Text} :
    candidate ∈ sort texts ↔ candidate ∈ texts :=
  List.mem_mergeSort

def listed (listing : Listing) (path : PosixPath) : List Text := (listing path.text).getD []

theorem entries_eq_ok {listing : Listing} {path : PosixPath} {names : List Text}
    (h : entries listing path = .ok names) : names = listed listing path := by
  rw [entries] at h
  split at h
  · cases h
  · exact (Except.ok.inj h).symm

theorem entries_of_isPassable {path : PosixPath} (h : path.text.IsPassable) (listing : Listing) :
    entries listing path = .ok (listed listing path) := by
  rw [entries, (Text.fault?_eq_none_iff _).mpr h]
  rfl

/-- The name is digits only, and at least one, as the names of processes are. -/
def IsNumeric (name : Text) : Prop := name ≠ [] ∧ ∀ c ∈ name, c.IsDigit

theorem isNumber_iff (name : Text) : isNumber name = true ↔ IsNumeric name := by
  rw [isNumber, Bool.and_eq_true, List.all_eq_true]
  simp only [CodePoint.isDigit_iff]
  simp [IsNumeric]

instance : DecidablePred IsNumeric := fun name => decidable_of_iff _ (isNumber_iff name)

/-- The files of a process that start with a text, each behind the name of the process. -/
def processFiles (listing : Listing) (root : PosixPath) (pid start : Text) : List Text :=
  ((listed listing (root.child pid)).filter (start.isPrefixOf ·)).map fun name => pid ++ ("/" ++ name)

/-- The global files and the directories of processes that start with a text. -/
def rootEntries (listing : Listing) (root : PosixPath) (globalFiles : List Text) (text : Text) :
    List Text :=
  globalFiles.filter (text.isPrefixOf ·)
    ++ (((listed listing root).filter (IsNumeric ·)).map fun name => name ++ ("/" : Text)).filter
      (text.isPrefixOf ·)

theorem filesIn_eq_ok {listing : Listing} {root : PosixPath} {pid start : Text} {found : List Text}
    (h : filesIn listing root pid start = .ok found) :
    found = sort (processFiles listing root pid start) := by
  rw [filesIn] at h
  cases hentries : entries listing (root.child pid) with
  | error crash =>
    rw [hentries] at h
    cases h
  | ok names =>
    rw [hentries] at h
    cases h
    rw [entries_eq_ok hentries, processFiles]
    simp only [List.append_assoc]

theorem topLevel_eq_ok {listing : Listing} {root : PosixPath} {globalFiles found : List Text}
    {text : Text} (h : topLevel listing root globalFiles text = .ok found) :
    found = sort (rootEntries listing root globalFiles text) := by
  rw [topLevel] at h
  cases hentries : entries listing root with
  | error crash =>
    rw [hentries] at h
    cases h
  | ok names =>
    rw [hentries] at h
    cases h
    have hnumeric : (fun name => decide (IsNumeric name)) = isNumber := by
      funext name
      rw [Bool.eq_iff_iff, decide_eq_true_iff, isNumber_iff]
    rw [entries_eq_ok hentries, rootEntries, hnumeric]

/-- What is offered for a text: its completions among the global files and the directories of
processes, or, when it has a slash, among the files of the directory before its first slash. -/
inductive Offered (config : Config) (listing : Listing) (text : Text) : Text → Prop where
  | global {name : Text} (hplain : text.any CodePoint.isSlash = false)
      (hname : name ∈ config.globalFiles) (hstarts : text <+: name) :
    Offered config listing text name
  | directory {entry : Text} (hplain : text.any CodePoint.isSlash = false)
      (hentry : entry ∈ listed listing (.ofText config.procRoot)) (hnumber : IsNumeric entry)
      (hstarts : text <+: entry ++ ("/" : Text)) :
    Offered config listing text (entry ++ ("/" : Text))
  | file {pid start entry : Text} (htext : text = pid ++ ("/" ++ start))
      (hpid : pid.any CodePoint.isSlash = false)
      (hentry : entry ∈ listed listing ((PosixPath.ofText config.procRoot).child pid))
      (hstarts : start <+: entry) :
    Offered config listing text (pid ++ ("/" ++ entry))

theorem exists_cut {text : Text} (h : text.any CodePoint.isSlash = true) :
    ∃ pid start, text = pid ++ ("/" ++ start) ∧ pid.any CodePoint.isSlash = false := by
  obtain ⟨c, hc, hslash⟩ := List.any_eq_true.mp h
  obtain ⟨pid, start, rfl, hpid⟩ := List.eq_append_cons_of_mem hc
  have hchar : c = '/' := of_decide_eq_true hslash
  subst hchar
  refine ⟨pid, start, rfl, List.any_eq_false.mpr fun d hd => ?_⟩
  intro hfirst
  exact hpid (of_decide_eq_true hfirst ▸ hd)

theorem procCandidates_plain (config : Config) (listing : Listing) {text : Text}
    (h : text.any CodePoint.isSlash = false) :
    procCandidates config listing text
      = topLevel listing (.ofText config.procRoot) config.globalFiles text := by
  have hnone : text.dropWhile (!·.isSlash) = [] := by simpa using h
  rw [procCandidates, hnone]

theorem procCandidates_slash (config : Config) (listing : Listing) {pid : Text}
    (h : pid.any CodePoint.isSlash = false) (start : Text) :
    procCandidates config listing (pid ++ ("/" ++ start))
      = filesIn listing (.ofText config.procRoot) pid start := by
  have hplain : ∀ c ∈ pid, (!CodePoint.isSlash c) = true := by simpa using h
  rw [procCandidates, List.dropWhile_append_of_pos hplain, List.takeWhile_append_of_pos hplain]
  show filesIn listing _ (pid ++ []) start = _
  rw [List.append_nil]

theorem procCandidates_cases (config : Config) (listing : Listing) (text : Text) :
    (text.any CodePoint.isSlash = false
        ∧ procCandidates config listing text
          = topLevel listing (.ofText config.procRoot) config.globalFiles text)
      ∨ ∃ pid start, text = pid ++ ("/" ++ start) ∧ pid.any CodePoint.isSlash = false
        ∧ procCandidates config listing text
          = filesIn listing (.ofText config.procRoot) pid start := by
  cases hslash : text.any CodePoint.isSlash with
  | false => exact .inl ⟨rfl, procCandidates_plain config listing hslash⟩
  | true =>
    obtain ⟨pid, start, rfl, hpid⟩ := exists_cut hslash
    exact .inr ⟨pid, start, rfl, hpid, procCandidates_slash config listing hpid start⟩

theorem mem_topLevel_iff {listing : Listing} {root : PosixPath} {globalFiles found : List Text}
    {text : Text} (h : topLevel listing root globalFiles text = .ok found) (candidate : Text) :
    candidate ∈ found
      ↔ candidate ∈ globalFiles ∧ text <+: candidate
        ∨ ∃ entry ∈ listed listing root, IsNumeric entry ∧ text <+: candidate
          ∧ candidate = entry ++ ("/" : Text) := by
  rw [topLevel_eq_ok h, mem_sort, rootEntries]
  simp only [List.mem_append, List.mem_filter, List.mem_map, List.isPrefixOf_iff_prefix,
    decide_eq_true_eq]
  refine or_congr Iff.rfl ⟨?_, ?_⟩
  · rintro ⟨⟨entry, ⟨hentry, hnumber⟩, rfl⟩, hstarts⟩
    exact ⟨entry, hentry, hnumber, hstarts, rfl⟩
  · rintro ⟨entry, hentry, hnumber, hstarts, rfl⟩
    exact ⟨⟨entry, ⟨hentry, hnumber⟩, rfl⟩, hstarts⟩

theorem mem_filesIn_iff {listing : Listing} {root : PosixPath} {pid start : Text}
    {found : List Text} (h : filesIn listing root pid start = .ok found) (candidate : Text) :
    candidate ∈ found
      ↔ ∃ entry ∈ listed listing (root.child pid), start <+: entry
        ∧ candidate = pid ++ ("/" ++ entry) := by
  rw [filesIn_eq_ok h, mem_sort, processFiles]
  simp only [List.mem_filter, List.mem_map, List.isPrefixOf_iff_prefix]
  refine ⟨?_, ?_⟩
  · rintro ⟨entry, ⟨hentry, hstarts⟩, rfl⟩
    exact ⟨entry, hentry, hstarts, rfl⟩
  · rintro ⟨entry, hentry, hstarts, rfl⟩
    exact ⟨entry, ⟨hentry, hstarts⟩, rfl⟩

theorem mem_procCandidates_iff {config : Config} {listing : Listing} {text : Text}
    {found : List Text} (h : procCandidates config listing text = .ok found) (candidate : Text) :
    candidate ∈ found ↔ Offered config listing text candidate := by
  refine ⟨?_, ?_⟩
  · intro hmem
    rcases procCandidates_cases config listing text with
      ⟨hplain, htop⟩ | ⟨pid, start, htext, hpid, hfiles⟩
    · rw [htop] at h
      rcases (mem_topLevel_iff h candidate).mp hmem with
        ⟨hname, hstarts⟩ | ⟨entry, hentry, hnumber, hstarts, rfl⟩
      · exact .global hplain hname hstarts
      · exact .directory hplain hentry hnumber hstarts
    · rw [hfiles] at h
      obtain ⟨entry, hentry, hstarts, rfl⟩ := (mem_filesIn_iff h candidate).mp hmem
      exact .file htext hpid hentry hstarts
  · intro hoffered
    cases hoffered with
    | global hplain hname hstarts =>
      rw [procCandidates_plain config listing hplain] at h
      exact (mem_topLevel_iff h _).mpr (.inl ⟨hname, hstarts⟩)
    | directory hplain hentry hnumber hstarts =>
      rw [procCandidates_plain config listing hplain] at h
      exact (mem_topLevel_iff h _).mpr (.inr ⟨_, hentry, hnumber, hstarts, rfl⟩)
    | file htext hpid hentry hstarts =>
      rw [htext, procCandidates_slash config listing hpid] at h
      exact (mem_filesIn_iff h _).mpr ⟨_, hentry, hstarts, rfl⟩

/-! ## The line -/

theorem candidates_proc {text : Text} (htext : ∀ c ∈ text, CodePoint.isBlank c = false)
    (config : Config) (listing : Listing) :
    candidates config listing text ("proc " ++ text) = procCandidates config listing text := by
  have hfirst : Text.fields CodePoint.isBlank ("proc " ++ text)
      = Builtin.proc.name :: Text.fields CodePoint.isBlank text := by
    have hletters : Builtin.proc.name.all (!CodePoint.isBlank ·) = true := by decide
    have hplain : ∀ c ∈ Builtin.proc.name, CodePoint.isBlank c = false := by simpa using hletters
    have hspace : CodePoint.isBlank ' ' = true := by decide
    have hword := Text.fields_word_append (t := ' ' :: text) (List.cons_ne_nil _ _) hplain
      (by simpa using hspace)
    rw [Text.fields_cons_separator hspace] at hword
    exact hword
  rw [candidates, hfirst]
  cases text with
  | nil => rfl
  | cons c rest =>
    have hword := Text.fields_word_append (t := []) (List.cons_ne_nil c rest) htext (by simp)
    rw [List.append_nil] at hword
    rw [hword]
    rfl

/-! ## What is accepted -/

/-- The candidate is the directory of a process, and not yet a file. -/
def IsDirectory (config : Config) (listing : Listing) (candidate : Text) : Prop :=
  ∃ entry ∈ listed listing (.ofText config.procRoot), IsNumeric entry
    ∧ candidate = entry ++ ("/" : Text)

/-- How `proc` takes what is offered for a text: as the file that it is written as, unless it is
still a directory; but if the text starts with a slash, not at all. -/
structure Taken (config : Config) (listing : Listing) (text candidate : Text) : Prop where
  accepted : text.head? ≠ some '/' → IsDirectory config listing candidate
    ∨ ∃ file, ProcPath.parse config.globalFiles candidate = .ok file
      ∧ file.relative = "/" ++ candidate
  refused : text.head? = some '/' →
    ProcPath.parse config.globalFiles candidate = .error .procUsage

section

variable {config : Config} {listing : Listing} {text : Text}
  (hglobal : ∀ name ∈ config.globalFiles, IsSegment name)
  (hlisted : ∀ path names, listing path = some names → ∀ name ∈ names, IsSegment name)

include hlisted in
theorem isSegment_of_mem_listed {path : PosixPath} {entry : Text}
    (h : entry ∈ listed listing path) : IsSegment entry := by
  rw [listed] at h
  cases hnames : listing path.text with
  | none =>
    rw [hnames] at h
    cases h
  | some names =>
    rw [hnames] at h
    exact hlisted _ names hnames entry h

include hglobal hlisted

theorem taken_of_offered {candidate : Text} (h : Offered config listing text candidate) :
    Taken config listing text candidate := by
  -- a text without a slash does not start with one
  have hfront : text.any CodePoint.isSlash = false → text.head? ≠ some '/' := by
    intro hplain hhead
    obtain ⟨rest, rfl⟩ := List.head?_eq_some_iff.mp hhead
    cases hplain
  cases h with
  | global hplain hname hstarts =>
    have hparse := ProcPath.parse_supported hname (hglobal candidate hname).noSlash
    exact ⟨fun _ => .inr ⟨_, hparse, rfl⟩, fun hhead => absurd hhead (hfront hplain)⟩
  | directory hplain hentry hnumber hstarts =>
    exact ⟨fun _ => .inl ⟨_, hentry, hnumber, rfl⟩, fun hhead => absurd hhead (hfront hplain)⟩
  | @file pid start entry htext hpid hentry hstarts =>
    have hsegment := isSegment_of_mem_listed hlisted hentry
    subst htext
    cases pid with
    | nil =>
      -- the text starts with the slash at which it is cut
      exact ⟨fun hhead => absurd rfl hhead, fun _ => ProcPath.parse_slash_segment hsegment⟩
    | cons c rest =>
      have hparse : ProcPath.parse config.globalFiles (c :: rest ++ ("/" ++ entry))
          = .ok (.perProcess (c :: rest) entry) :=
        ProcPath.parse_segments ⟨List.cons_ne_nil c rest, hpid⟩ hsegment
      refine ⟨fun _ => .inr ⟨_, hparse, rfl⟩, fun hhead => ?_⟩
      have hslash : c = '/' := Option.some.inj hhead
      rw [hslash] at hpid
      cases hpid

/-- What is offered behind `proc` for a text without white space, in directories whose names are
segments, is the directory of a process, or is accepted by `proc` with the same global files. The
texts that start with a slash are the exception: all that is offered for them is refused. -/
theorem candidates_taken (htext : ∀ c ∈ text, CodePoint.isBlank c = false) {found : List Text}
    (h : candidates config listing text ("proc " ++ text) = .ok found) :
    ∀ candidate ∈ found, Taken config listing text candidate := by
  intro candidate hmem
  rw [candidates_proc htext] at h
  exact taken_of_offered hglobal hlisted ((mem_procCandidates_iff h candidate).mp hmem)

end

def oneProcess (path : Text) : Option (List Text) :=
  if path = "/proc" then some ["1"]
  else if path = "/proc/1" then some ["status"]
  else none

/-- The file of the process is offered and accepted. -/
theorem candidates_taken_status :
    candidates .default oneProcess "1/st" "proc 1/st" = .ok ["1/status"]
      ∧ Taken .default oneProcess "1/st" "1/status" := by
  have hglobal : ∀ name ∈ Config.default.globalFiles, IsSegment name := by decide
  have hlisted : ∀ path names, oneProcess path = some names → ∀ name ∈ names, IsSegment name := by
    intro path names h
    rw [oneProcess] at h
    split at h
    · cases h
      decide
    · split at h
      · cases h
        decide
      · cases h
  have hletters : ("1/st" : Text).all (!CodePoint.isBlank ·) = true := by decide
  have hsorted : candidates .default oneProcess "1/st" "proc 1/st" = .ok (sort ["1/status"]) := rfl
  have hfound : candidates .default oneProcess "1/st" "proc 1/st" = .ok ["1/status"] := by
    rw [hsorted, sort, List.mergeSort_singleton]
  exact ⟨hfound, candidates_taken hglobal hlisted (by simpa using hletters) hfound _
    List.mem_cons_self⟩

/-- The process itself is offered behind a slash at the front, which is no directory of a process, and
which `proc` refuses. -/
theorem candidates_refused_root :
    candidates .default oneProcess "/" "proc /" = .ok ["/1"]
      ∧ ¬ IsDirectory .default oneProcess "/1"
      ∧ ProcPath.parse Config.default.globalFiles "/1" = .error .procUsage := by
  have hsorted : candidates .default oneProcess "/" "proc /" = .ok (sort ["/1"]) := rfl
  refine ⟨by rw [hsorted, sort, List.mergeSort_singleton], ?_, rfl⟩
  rintro ⟨entry, hentry, hnumber, hcandidate⟩
  have hlisted : listed oneProcess (.ofText Config.default.procRoot) = [Text.ofString "1"] := rfl
  rw [hlisted, List.mem_singleton] at hentry
  rw [hentry] at hcandidate
  exact absurd hcandidate (by decide)

end Completion

end LineShell
