import LineShell.Proofs.Completion.Proc

/- The directory of a process, as completion finds it and as `proc` opens it.

   Completion joins the normal form of the root with the name of the process, and looks for files
   there and nowhere else (`searches_searched`). `proc` writes the names behind the root without its
   slashes at the end, and opens that; the directory is what stands before the last slash
   (`directoryPart_under`). In normal form both have the same segments, and they start alike if the
   root has anything but slashes in it (`anchor_opened_of_ne`) or is made of one slash or of more
   than two. So the two directories are one under all roots but two (`searched_eq_opened_iff`). -/
namespace LineShell

namespace PosixPath

/-! ## Normal forms -/

theorem eq_of_parts {p q : PosixPath} (hanchor : p.anchor = q.anchor)
    (hsegments : p.segments = q.segments) : p = q := by
  cases p
  cases q
  exact congrArg₂ mk hanchor hsegments

theorem segmentsOf_append_slash (s t : Text) :
    segmentsOf (s ++ ("/" ++ t)) = segmentsOf s ++ segmentsOf t := by
  rw [segmentsOf, ProcPath.fields_append_slash, List.filter_append]
  rfl

theorem segmentsOf_append_slashes (s : Text) {slashes : Text}
    (h : ∀ c ∈ slashes, CodePoint.isSlash c = true) :
    segmentsOf (s ++ slashes) = segmentsOf s := by
  induction slashes generalizing s with
  | nil => rw [List.append_nil]
  | cons c slashes ih =>
    obtain ⟨hc, hslashes⟩ := List.forall_mem_cons.mp h
    have hchar : c = '/' := of_decide_eq_true hc
    have hone := segmentsOf_append_slash s slashes
    rw [hchar]
    rw [← List.nil_append slashes, ih [] hslashes] at hone
    exact hone.trans (List.append_nil _)

theorem anchor_ofText (t : Text) :
    (ofText t).anchor = anchorOf (t.takeWhile CodePoint.isSlash).length := rfl

theorem anchor_child (p : PosixPath) (relative : Text) : (p.child relative).anchor = p.anchor := rfl

/-- What stands before the last slash of a path, the slash included. -/
def directoryPart (path : Text) : Text := path.dropEndWhile (!CodePoint.isSlash ·)

theorem directoryPart_append {file : Text} (h : IsSegment file) (directory : Text) :
    directoryPart (directory ++ ("/" ++ file)) = directory ++ ("/" : Text) := by
  have hplain : ∀ c ∈ file.reverse, (!CodePoint.isSlash c) = true := by simpa using h.noSlash
  have hreverse : (directory ++ (("/" : Text) ++ file)).reverse
      = file.reverse ++ ("/" ++ directory.reverse) := by
    rw [List.reverse_append, List.reverse_append, List.append_assoc]
    rfl
  rw [directoryPart, Text.dropEndWhile, hreverse, List.dropWhile_append_of_pos hplain]
  show (("/" : Text) ++ directory.reverse).reverse = directory ++ ("/" : Text)
  rw [List.reverse_append, List.reverse_reverse]
  rfl

theorem takeWhile_slash_append {s : Text} (h : ∃ c ∈ s, CodePoint.isSlash c = false) (t : Text) :
    (s ++ t).takeWhile CodePoint.isSlash = s.takeWhile CodePoint.isSlash := by
  rw [List.takeWhile_append, if_neg]
  intro hlength
  have hall := (List.takeWhile_prefix CodePoint.isSlash).eq_of_length hlength
  obtain ⟨c, hc, hother⟩ := h
  rw [List.takeWhile_eq_self_iff.mp hall c hc] at hother
  cases hother

theorem text_eq (anchor : Text) (segments : List Text) :
    text ⟨anchor, segments⟩ = anchor ++ List.intercalate "/" segments
      ∨ anchor = [] ∧ text ⟨anchor, segments⟩ = "." := by
  rw [text]
  split
  · next hempty =>
    exact .inr ⟨(List.append_eq_nil_iff.mp (List.isEmpty_iff.mp hempty)).1, rfl⟩
  · exact .inl rfl

/-- A path at the root is written differently from one that starts nowhere, or with two slashes. -/
theorem text_ne_of_anchor {anchor : Text} (h : anchor = [] ∨ anchor = "//")
    (segments : List Text) : text ⟨anchor, segments⟩ ≠ text ⟨"/", segments⟩ := by
  have hroot : text ⟨"/", segments⟩ = "/" ++ List.intercalate "/" segments := by
    rcases text_eq "/" segments with hwritten | ⟨hnone, _⟩
    · exact hwritten
    · cases hnone
  intro hsame
  rw [hroot] at hsame
  rcases text_eq anchor segments with hwritten | ⟨_, hdot⟩
  · rw [hwritten] at hsame
    have hanchor : anchor = "/" := List.append_cancel_right hsame
    rw [hanchor] at h
    rcases h with hnone | htwo
    · cases hnone
    · exact absurd htwo (by decide)
  · rw [hdot] at hsame
    exact absurd (List.cons.inj hsame).1 (by decide)

end PosixPath

namespace ProcPath

open PosixPath

/-- The directory that completion searches for the files of a process. -/
def searched (root pid : Text) : PosixPath := (PosixPath.ofText root).child pid

/-- The directory that a file of a process is opened in, in normal form. -/
def opened (root pid file : Text) : PosixPath :=
  .ofText (directoryPart (under root (.perProcess pid file)))

variable {root pid file : Text}

section

variable (hfile : IsSegment file)

include hfile

/-- The name of the process stands behind the root without its slashes at the end. -/
theorem directoryPart_under (root pid : Text) :
    directoryPart (under root (.perProcess pid file))
      = root.dropEndWhile CodePoint.isSlash ++ ("/" ++ (pid ++ ("/" : Text))) := by
  have hunder : under root (.perProcess pid file)
      = (root.dropEndWhile CodePoint.isSlash ++ ("/" ++ pid)) ++ ("/" ++ file) := by
    rw [under_eq, relative]
    simp only [List.append_assoc]
  rw [hunder, directoryPart_append hfile]
  simp only [List.append_assoc]

theorem segments_opened (root pid : Text) :
    (opened root pid file).segments = (searched root pid).segments := by
  obtain ⟨slashes, hroot, hslashes⟩ := Text.exists_dropEndWhile CodePoint.isSlash root
  have hkept : segmentsOf (root.dropEndWhile CodePoint.isSlash) = segmentsOf root := by
    have hsame := segmentsOf_append_slashes (root.dropEndWhile CodePoint.isSlash) hslashes
    rw [← hroot] at hsame
    exact hsame.symm
  have hlast : ∀ c ∈ ("/" : Text), CodePoint.isSlash c = true :=
    List.forall_mem_singleton.mpr (by decide)
  show segmentsOf (directoryPart _) = segmentsOf root ++ segmentsOf pid
  rw [directoryPart_under hfile, segmentsOf_append_slash, segmentsOf_append_slashes pid hlast, hkept]

/-- A root with anything but slashes in it starts the two paths alike. -/
theorem anchor_opened_of_ne (hroot : root.dropEndWhile CodePoint.isSlash ≠ []) (pid : Text) :
    (opened root pid file).anchor = (searched root pid).anchor := by
  obtain ⟨slashes, hkept, _⟩ := Text.exists_dropEndWhile CodePoint.isSlash root
  -- what is kept of the root ends with something else than a slash
  have hother : ∃ c ∈ root.dropEndWhile CodePoint.isSlash, CodePoint.isSlash c = false := by
    refine ⟨_, List.getLast_mem hroot, ?_⟩
    exact Text.getLast?_dropEndWhile CodePoint.isSlash root _ (List.getLast?_eq_some_getLast hroot)
  have hsame : root.takeWhile CodePoint.isSlash
      = (root.dropEndWhile CodePoint.isSlash).takeWhile CodePoint.isSlash := by
    conv_lhs => rw [hkept]
    exact takeWhile_slash_append hother slashes
  rw [opened, searched, anchor_child, anchor_ofText, anchor_ofText, directoryPart_under hfile,
    takeWhile_slash_append hother, hsame]

theorem anchor_opened_of_eq (hroot : root.dropEndWhile CodePoint.isSlash = [])
    (hpid : IsSegment pid) : (opened root pid file).anchor = "/" := by
  have hplain : ∀ c ∈ pid.head?, CodePoint.isSlash c = false := by
    intro c hc
    exact Bool.of_not_eq_true fun hslash => by
      have hany := List.any_eq_true.mpr ⟨c, List.mem_of_mem_head? hc, hslash⟩
      rw [hpid.noSlash] at hany
      cases hany
  have hone : (("/" : Text) ++ (pid ++ ("/" : Text))).takeWhile CodePoint.isSlash = "/" := by
    cases hname : pid with
    | nil => exact absurd hname hpid.ne_nil
    | cons c rest =>
      rw [hname] at hplain
      have hc : CodePoint.isSlash c = false := hplain c rfl
      show (CodePoint.ofChar '/' :: c :: (rest ++ ("/" : Text))).takeWhile CodePoint.isSlash = _
      rw [List.takeWhile_cons_of_pos (by decide), List.takeWhile_cons_of_neg (by rw [hc]; simp)]
      rfl
  rw [opened, anchor_ofText, directoryPart_under hfile, hroot, List.nil_append, hone]
  rfl

end

theorem anchor_of_slashes (h : ∀ c ∈ root, CodePoint.isSlash c = true) :
    (root = [] ∧ (PosixPath.ofText root).anchor = [])
      ∨ (root = "//" ∧ (PosixPath.ofText root).anchor = "//")
      ∨ (root ≠ [] ∧ root ≠ "//" ∧ (PosixPath.ofText root).anchor = "/") := by
  have hall : root.takeWhile CodePoint.isSlash = root := List.takeWhile_eq_self_iff.mpr h
  rw [PosixPath.ofText, hall]
  match root, h with
  | [], _ => exact .inl ⟨rfl, rfl⟩
  | [_], _ => exact .inr (.inr ⟨by simp, by simp [Text.ofString], rfl⟩)
  | [c, d], h =>
    have hc : c = '/' := of_decide_eq_true (h c (by simp))
    have hd : d = '/' := of_decide_eq_true (h d (by simp))
    exact .inr (.inl ⟨by rw [hc, hd]; rfl, rfl⟩)
  | _ :: _ :: _ :: _, _ => exact .inr (.inr ⟨by simp, by simp [Text.ofString], rfl⟩)

/-- The two directories are written alike under all roots but two. -/
theorem text_searched_eq_iff (root : Text) (hpid : IsSegment pid) (hfile : IsSegment file) :
    (searched root pid).text = (opened root pid file).text ↔ root ≠ [] ∧ root ≠ "//" := by
  have hsegments := segments_opened hfile root pid
  by_cases hroot : root.dropEndWhile CodePoint.isSlash = []
  · obtain ⟨slashes, hkept, hslashes⟩ := Text.exists_dropEndWhile CodePoint.isSlash root
    rw [hroot, List.nil_append] at hkept
    rw [← hkept] at hslashes
    have hopened : opened root pid file = ⟨"/", (searched root pid).segments⟩ :=
      eq_of_parts (anchor_opened_of_eq hfile hroot hpid) hsegments
    have hsearched : searched root pid
        = ⟨(PosixPath.ofText root).anchor, (searched root pid).segments⟩ :=
      eq_of_parts (anchor_child _ _) rfl
    rw [hopened, hsearched]
    rcases anchor_of_slashes hslashes with ⟨hnone, hanchor⟩ | ⟨htwo, hanchor⟩
      | ⟨hsome, hnot, hanchor⟩
    · rw [hanchor]
      exact iff_of_false (text_ne_of_anchor (.inl rfl) _) fun h => h.1 hnone
    · rw [hanchor]
      exact iff_of_false (text_ne_of_anchor (.inr rfl) _) fun h => h.2 htwo
    · rw [hanchor]
      exact iff_of_true rfl ⟨hsome, hnot⟩
  · have hsame : opened root pid file = searched root pid :=
      eq_of_parts (anchor_opened_of_ne hfile hroot pid) hsegments
    rw [hsame]
    refine iff_of_true rfl ⟨?_, ?_⟩
    · intro hnone
      rw [hnone] at hroot
      exact hroot rfl
    · intro htwo
      rw [htwo] at hroot
      exact hroot rfl

end ProcPath

namespace Completion

open PosixPath

/-- The listing of one directory: no other can be listed. -/
def only (directory : Text) (listing : Listing) : Listing :=
  fun path => if path = directory then listing path else none

/-- What is typed behind the name of a process and a slash is looked for in one directory. -/
structure Searches (config : Config) (pid directory : Text) : Prop where
  /-- No other directory matters. -/
  confined : ∀ listing start,
    procCandidates config (only directory listing) (pid ++ ("/" ++ start))
      = procCandidates config listing (pid ++ ("/" ++ start))
  /-- Those of its names are offered that start with what is typed, -/
  offers : directory.IsPassable → ∀ listing start, ∃ found,
    procCandidates config listing (pid ++ ("/" ++ start)) = .ok found
      ∧ ∀ candidate, candidate ∈ found
        ↔ ∃ entry ∈ (listing directory).getD [], start <+: entry
          ∧ candidate = pid ++ ("/" ++ entry)
  /-- unless the system cannot be asked for them. -/
  fails : ∀ fault, directory.fault? = some fault → ∀ listing start,
    procCandidates config listing (pid ++ ("/" ++ start)) = .error (.unusableText fault)

theorem entries_only (listing : Listing) (path : PosixPath) :
    entries (only path.text listing) path = entries listing path := by
  rw [entries, entries, only, if_pos rfl]

theorem searches_searched (config : Config) {pid : Text} (hpid : IsSegment pid) :
    Searches config pid (ProcPath.searched config.procRoot pid).text where
  confined listing start := by
    rw [procCandidates_slash config _ hpid.noSlash, procCandidates_slash config _ hpid.noSlash,
      filesIn, filesIn]
    exact congrArg _ (entries_only listing (ProcPath.searched config.procRoot pid))
  offers hpassable listing start := by
    have hlisted := entries_of_isPassable hpassable listing
    have hfiles : ∃ found, filesIn listing (.ofText config.procRoot) pid start = .ok found :=
      ⟨_, congrArg (Except.map _) hlisted⟩
    obtain ⟨found, hfound⟩ := hfiles
    rw [procCandidates_slash config _ hpid.noSlash]
    exact ⟨found, hfound, mem_filesIn_iff hfound⟩
  fails fault hfault listing start := by
    have hlisted : entries listing (ProcPath.searched config.procRoot pid)
        = .error (.unusableText fault) := by
      rw [entries, hfault]
    rw [procCandidates_slash config _ hpid.noSlash, filesIn]
    exact congrArg (Except.map _) hlisted

theorem Searches.unique {config : Config} {pid directory other : Text}
    (h : Searches config pid directory) (hpassable : directory.IsPassable)
    (hother : Searches config pid other) : other = directory := by
  apply Classical.byContradiction
  intro hne
  -- a name that is listed in the directory only is offered, and would not be by the listing of the other
  let listing : Listing := fun _ => some ["a"]
  have hsame := hother.confined listing []
  obtain ⟨found, hfound, hmem⟩ := h.offers hpassable listing []
  obtain ⟨_, hagain, hmemOther⟩ := h.offers hpassable (only other listing) []
  rw [hsame, hfound] at hagain
  cases hagain
  have hoffered := (hmem (pid ++ ("/" ++ "a"))).mpr ⟨"a", by simp [listing], List.nil_prefix, rfl⟩
  obtain ⟨entry, hentry, _⟩ := (hmemOther _).mp hoffered
  rw [only, if_neg (Ne.symm hne)] at hentry
  cases hentry

/-- What is typed behind the name of a process and a slash is looked for in one directory, and the
files of the process are opened in one. Under every root but the empty one and the one of two
slashes they are the same directory; under these two they never are, whatever the process and the
file. -/
theorem searched_eq_opened_iff (config : Config) {pid file : Text} (hpid : IsSegment pid)
    (hfile : IsSegment file) :
    Searches config pid (ProcPath.searched config.procRoot pid).text
      ∧ ((ProcPath.searched config.procRoot pid).text.IsPassable → ∀ directory,
        Searches config pid directory → directory = (ProcPath.searched config.procRoot pid).text)
      ∧ ProcPath.parse config.globalFiles (pid ++ ("/" ++ file)) = .ok (.perProcess pid file)
      ∧ ((ProcPath.searched config.procRoot pid).text
          = (ProcPath.opened config.procRoot pid file).text
        ↔ config.procRoot ≠ [] ∧ config.procRoot ≠ "//") := by
  have hsearches := searches_searched config hpid
  refine ⟨hsearches, ?_, ProcPath.parse_segments hpid hfile,
    ProcPath.text_searched_eq_iff config.procRoot hpid hfile⟩
  intro hpassable directory hdirectory
  exact hsearches.unique hpassable hdirectory

/-- With slashes and dots in the root both are one directory, but under two slashes they are not:
one path keeps them and the other does not. -/
theorem searched_eq_opened_iff_slashes :
    (ProcPath.searched "///./p//" ".").text = (ProcPath.opened "///./p//" "." "status").text
      ∧ (ProcPath.searched "//" "1").text ≠ (ProcPath.opened "//" "1" "status").text := by
  let dotted : Config := ⟨{ procRoot := "///./p//" }, by decide, by decide⟩
  let slashes : Config := ⟨{ procRoot := "//" }, by decide, by decide⟩
  have hdot : IsSegment "." := by decide
  have hone : IsSegment "1" := by decide
  have hfile : IsSegment "status" := by decide
  obtain ⟨_, _, _, hdotted⟩ := searched_eq_opened_iff dotted hdot hfile
  obtain ⟨_, _, _, hslashes⟩ := searched_eq_opened_iff slashes hone hfile
  refine ⟨hdotted.mpr ⟨by decide, by decide⟩, ?_⟩
  intro hsame
  exact (hslashes.mp hsame).2 rfl

end Completion

end LineShell
