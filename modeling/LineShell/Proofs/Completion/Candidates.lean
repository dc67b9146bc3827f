import Mathlib.Data.List.Lex
import Mathlib.Order.Fin.Basic
import LineShell.Proofs.Completion.Context
import LineShell.Proofs.Completion.Directory

/- What completion finds for a text in a line.

   At the first word these are the builtins that start with the text, and behind `proc` the files of
   a process, or the global files and the directories of processes, each as often as it is there.
   They are handed out by their index, in the order of their code points (`Completes`,
   `candidates_completes`). The directory that is looked in is written from the root and the text,
   so the system can be asked for its names whenever nothing is wrong with those two
   (`ProcPath.isPassable_searched`). -/
namespace LineShell

/-! ## Order -/

/-- The lemma of this name about lists is about another order of them than the linear one. -/
theorem Text.cons_le_cons_iff (a b : CodePoint) (s t : Text) :
    a :: s ≤ b :: t ↔ a < b ∨ a = b ∧ s ≤ t := by
  rw [le_iff_lt_or_eq, le_iff_lt_or_eq, List.cons_lt_cons_iff, List.cons.injEq, and_or_left, or_assoc]

theorem Text.le_iff (s t : Text) : Text.le s t = true ↔ s ≤ t := by
  induction s generalizing t with
  | nil =>
    refine iff_of_true rfl ?_
    cases t with
    | nil => exact le_rfl
    | cons b t => exact le_of_lt List.Lex.nil
  | cons a s ih =>
    cases t with
    | nil => simp [Text.le]
    | cons b t =>
      rw [Text.cons_le_cons_iff, ← ih, Text.le]
      simp only [Bool.or_eq_true, Bool.and_eq_true, decide_eq_true_eq, Fin.val_inj, Fin.val_fin_lt]

namespace Completion

theorem sorted_sort (texts : List Text) : (sort texts).Pairwise (· ≤ ·) := by
  have hsorted : (sort texts).Pairwise fun s t => Text.le s t = true := by
    refine List.pairwise_mergeSort ?_ ?_ texts
    · intro s t u hst htu
      rw [Text.le_iff] at hst htu ⊢
      exact hst.trans htu
    · intro s t
      rw [Bool.or_eq_true, Text.le_iff, Text.le_iff]
      exact le_total s t
  exact hsorted.imp fun hle => (Text.le_iff _ _).mp hle

theorem sort_perm (texts : List Text) : (sort texts).Perm texts := List.mergeSort_perm texts Text.le

end Completion

/-! ## The directory -/

namespace PosixPath

theorem isPassable_anchorOf (slashes : Nat) : (anchorOf slashes).IsPassable := by
  unfold anchorOf
  split <;> decide

theorem isPassable_of_mem_segmentsOf {t segment : Text} (ht : t.IsPassable)
    (h : segment ∈ segmentsOf t) : segment.IsPassable :=
  Text.isPassable_of_subset ht (Text.subset_of_mem_fields (List.mem_filter.mp h).1)

theorem isPassable_text {anchor : Text} {segments : List Text} (hanchor : anchor.IsPassable)
    (hsegments : ∀ segment ∈ segments, segment.IsPassable) : (text ⟨anchor, segments⟩).IsPassable := by
  have hslash : Text.IsPassable "/" := by decide
  have hbetween : Text.IsPassable (List.intercalate "/" segments) := by
    refine ⟨fun c hc => ?_, fun hnul => ?_⟩
    · rcases Text.mem_intercalate hc with hone | ⟨segment, hsegment, hmem⟩
      · exact hslash.1 c hone
      · exact (hsegments segment hsegment).1 c hmem
    · rcases Text.mem_intercalate hnul with hone | ⟨segment, hsegment, hmem⟩
      · exact hslash.2 hone
      · exact (hsegments segment hsegment).2 hmem
  rcases text_eq anchor segments with hwritten | ⟨_, hdot⟩
  · rw [hwritten]
    exact Text.isPassable_append hanchor hbetween
  · rw [hdot]
    decide

end PosixPath

namespace ProcPath

open PosixPath

theorem isPassable_searched {root pid : Text} (hroot : root.IsPassable) (hpid : pid.IsPassable) :
    (searched root pid).text.IsPassable := by
  refine isPassable_text (isPassable_anchorOf _) fun segment hsegment => ?_
  rcases List.mem_append.mp hsegment with hmem | hmem
  · exact isPassable_of_mem_segmentsOf hroot hmem
  · exact isPassable_of_mem_segmentsOf hpid hmem

theorem isPassable_root {root : Text} (hroot : root.IsPassable) :
    (PosixPath.ofText root).text.IsPassable :=
  isPassable_text (isPassable_anchorOf _) fun _ hsegment => isPassable_of_mem_segmentsOf hroot hsegment

end ProcPath

namespace Completion

open PosixPath

variable {config : Config} {listing : Listing} {text line : Text} {found : List Text}

/-! ## Candidates -/

theorem exists_procCandidates (hroot : config.procRoot.IsPassable) (htext : text.IsPassable)
    (listing : Listing) : ∃ found, procCandidates config listing text = .ok found := by
  rcases procCandidates_cases config listing text with ⟨_, htop⟩ | ⟨pid, start, rfl, _, hfiles⟩
  · have hentries := entries_of_isPassable (ProcPath.isPassable_root hroot) listing
    rw [htop]
    exact ⟨_, congrArg (Except.map _) hentries⟩
  · have hpid : pid.IsPassable := Text.isPassable_of_subset htext (List.subset_append_left pid _)
    have hentries := entries_of_isPassable (ProcPath.isPassable_searched hroot hpid) listing
    rw [hfiles]
    exact ⟨_, congrArg (Except.map _) hentries⟩

theorem exists_offer (hroot : config.procRoot.IsPassable) (htext : text.IsPassable)
    (listing : Listing) (context : Context) : ∃ found, offer config listing text context = .ok found :=
  match context with
  | .command => ⟨_, rfl⟩
  | .argument => exists_procCandidates hroot htext listing
  | .nothing => ⟨_, rfl⟩

theorem sorted_procCandidates (h : procCandidates config listing text = .ok found) :
    found.Pairwise (· ≤ ·) := by
  rcases procCandidates_cases config listing text with ⟨_, htop⟩ | ⟨pid, start, _, _, hfiles⟩
  · rw [htop] at h
    rw [topLevel_eq_ok h]
    exact sorted_sort _
  · rw [hfiles] at h
    rw [filesIn_eq_ok h]
    exact sorted_sort _

theorem sorted_offer {context : Context} (h : offer config listing text context = .ok found) :
    found.Pairwise (· ≤ ·) := by
  cases context with
  | command =>
    have hnames : Builtin.names.Pairwise (· ≤ ·) := by decide
    cases h
    exact hnames.filter _
  | argument => exact sorted_procCandidates h
  | nothing =>
    cases h
    exact .nil

theorem Offered.starts {candidate : Text} (h : Offered config listing text candidate) :
    text <+: candidate := by
  cases h with
  | global _ _ hstarts => exact hstarts
  | directory _ _ _ hstarts => exact hstarts
  | file htext _ _ hstarts =>
    rw [htext, List.prefix_append_right_inj, List.prefix_append_right_inj]
    exact hstarts

theorem starts_of_mem_offer {context : Context} (h : offer config listing text context = .ok found)
    {candidate : Text} (hmem : candidate ∈ found) : text <+: candidate := by
  cases context with
  | command =>
    cases h
    exact List.isPrefixOf_iff_prefix.mp (List.mem_filter.mp hmem).2
  | argument => exact ((mem_procCandidates_iff h candidate).mp hmem).starts
  | nothing =>
    cases h
    cases hmem

/-- What completion finds for a text in a line. -/
structure Completes (config : Config) (listing : Listing) (text line : Text) (found : List Text) :
    Prop where
  /-- The candidates stand in the order of their code points, -/
  sorted : found.Pairwise (· ≤ ·)
  /-- and each of them starts with the text. -/
  starts : ∀ candidate ∈ found, text <+: candidate
  /-- At the first word they are the builtins that do, -/
  command : (Typed.ofWords line).AtFirst → found = Builtin.names.filter (text.isPrefixOf ·)
  /-- and behind `proc`, after a slash, the files that are listed in the directory before it; -/
  file : (Typed.ofWords line).Behind Builtin.proc.name → ∀ pid start,
    text = pid ++ ("/" ++ start) → pid.any CodePoint.isSlash = false →
      found.Perm (processFiles listing (.ofText config.procRoot) pid start)
  /-- without a slash the global files, and the directories that are listed in the root. -/
  top : (Typed.ofWords line).Behind Builtin.proc.name → text.any CodePoint.isSlash = false →
    found.Perm (rootEntries listing (.ofText config.procRoot) config.globalFiles text)
  /-- Behind any other word there are none. -/
  nothing : ¬(Typed.ofWords line).AtFirst → ¬(Typed.ofWords line).Behind Builtin.proc.name →
    found = []
  /-- They are handed out one after the other, -/
  counted : ∀ (k : Nat) (h : k < found.length),
    complete config listing text line k = .ok (some found[k])
  /-- and then none ever more. -/
  ended : ∀ k : Nat, found.length ≤ k → complete config listing text line k = .ok none

theorem complete_eq (h : candidates config listing text line = .ok found) (k : Nat) :
    complete config listing text line k = .ok found[k]? := by
  rw [complete, h]
  show candidate found k = _
  rw [candidate, if_pos (Int.natCast_nonneg k), Int.toNat_natCast]

theorem completes_of_candidates (h : candidates config listing text line = .ok found) :
    Completes config listing text line found := by
  have hoffer := (candidates_eq_offer config listing text line).symm.trans h
  have hproc : (Typed.ofWords line).Behind Builtin.proc.name →
      procCandidates config listing text = .ok found := by
    intro hbehind
    rw [(Typed.context_eq_argument_iff _).mpr hbehind] at hoffer
    exact hoffer
  refine
    { sorted := sorted_offer hoffer
      starts := fun candidate hmem => starts_of_mem_offer hoffer hmem
      command := ?_, file := ?_, top := ?_, nothing := ?_, counted := ?_, ended := ?_ }
  · intro hfirst
    rw [(Typed.context_eq_command_iff _).mpr hfirst] at hoffer
    exact (Except.ok.inj hoffer).symm
  · rintro hbehind pid start rfl hpid
    have hfiles := hproc hbehind
    rw [procCandidates_slash config listing hpid] at hfiles
    rw [filesIn_eq_ok hfiles]
    exact sort_perm _
  · intro hbehind hplain
    have htop := hproc hbehind
    rw [procCandidates_plain config listing hplain] at htop
    rw [topLevel_eq_ok htop]
    exact sort_perm _
  · intro hfirst hbehind
    rw [Typed.behind_iff] at hbehind
    rw [(Typed.context_eq_nothing_iff _).mpr ⟨hfirst, fun hhead => hbehind ⟨hhead, hfirst⟩⟩] at hoffer
    exact (Except.ok.inj hoffer).symm
  · intro k hk
    rw [complete_eq h, List.getElem?_eq_getElem hk]
  · intro k hk
    rw [complete_eq h, List.getElem?_eq_none hk]

/-- If nothing is wrong with the root and the text, completion finds the builtins at the first word
and what starts with the text in the process tree behind `proc`, and hands it out in order. -/
theorem candidates_completes (config : Config) (listing : Listing) (text line : Text)
    (hroot : config.procRoot.IsPassable) (htext : text.IsPassable) :
    ∃ found, candidates config listing text line = .ok found
      ∧ Completes config listing text line found := by
  obtain ⟨found, hfound⟩ := exists_offer hroot htext listing (Typed.ofWords line).context
  rw [← candidates_eq_offer] at hfound
  exact ⟨found, hfound, completes_of_candidates hfound⟩

/-- After `1/st` the two files of the process that start with `st` are handed out, in their order. -/
theorem candidates_completes_files :
    let tree : Listing := fun path => if path = "/proc/1" then some ["status", "maps", "stat"] else none
    candidates .default tree "1/st" "proc 1/st" = .ok ["1/stat", "1/status"]
      ∧ complete .default tree "1/st" "proc 1/st" 1 = .ok (some "1/status")
      ∧ complete .default tree "1/st" "proc 1/st" 2 = .ok none := by
  intro tree
  obtain ⟨found, hfound, hcompletes⟩ := candidates_completes .default tree "1/st" "proc 1/st"
    (by decide) (by decide)
  have hperm : found.Perm ["1/status", "1/stat"] :=
    hcompletes.file ⟨by decide, .inl (by decide)⟩ "1" "st" rfl (by decide)
  have hordered : (["1/stat", "1/status"] : List Text).Pairwise (· ≤ ·) := by decide
  obtain rfl : found = ["1/stat", "1/status"] :=
    (hperm.trans (.swap _ _ [])).eq_of_pairwise (fun _ _ _ _ => le_antisymm)
      hcompletes.sorted hordered
  exact ⟨hfound, hcompletes.counted 1 (by decide), hcompletes.ended 2 (by decide)⟩

end Completion

end LineShell
