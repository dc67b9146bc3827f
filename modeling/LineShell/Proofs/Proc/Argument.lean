import Mathlib.Logic.Relation
import LineShell.Proofs.Proc.Tree
import LineShell.Proofs.Text.Words

/- What the argument of `proc` names.

   An argument without a slash names a file by being its name. The others name a file of a process
   by their first two segments, and slashes beside a slash, slashes in front and all that follows
   the second segment do not count: the arguments that name one file of a process are the
   respellings of its canonical form, the two segments with a slash between them
   (`parse_iff_respelled`). What is named is told from its path under any root (`under_eq_iff`),
   since no segment has a slash. So two arguments have one path only if they are one name, or agree
   in their first two segments (`under_eq_iff_named_alike`). -/
namespace LineShell.ProcPath

open PosixPath Relation

variable {supported : List Text}

/-! ## Names and segments -/

theorem fields_append_slash (s t : Text) :
    Text.fields CodePoint.isSlash (s ++ ("/" ++ t))
      = Text.fields CodePoint.isSlash s ++ Text.fields CodePoint.isSlash t :=
  Text.fields_append_cons (by decide) s t

theorem any_append_slash (s t : Text) : (s ++ (("/" : Text) ++ t)).any CodePoint.isSlash = true := by
  rw [List.any_append]
  exact Bool.or_true _

theorem parse_supported {name : Text} (hname : name ∈ supported)
    (hplain : name.any CodePoint.isSlash = false) :
    parse supported name = .ok (.global name) := by
  rw [parse, hplain, if_pos hname]
  rfl

theorem parse_eq_perProcess_iff {argument pid file : Text} :
    parse supported argument = .ok (.perProcess pid file)
      ↔ argument.any CodePoint.isSlash = true
        ∧ ∃ later, argument.fields CodePoint.isSlash = pid :: file :: later := by
  refine ⟨?_, ?_⟩
  · intro h
    rcases parse_eq_ok h with ⟨_, _, hother⟩ | ⟨_, _, later, hslash, hfields, hfile⟩
    · cases hother
    · cases hfile
      exact ⟨hslash, later, hfields⟩
  · intro h
    obtain ⟨hslash, later, hfields⟩ := h
    rw [parse, if_pos hslash, hfields]

theorem parse_slash_segment {entry : Text} (h : IsSegment entry) :
    parse supported ("/" ++ entry) = .error .procUsage := by
  have hslash : (("/" : Text) ++ entry).any CodePoint.isSlash = true := rfl
  rw [parse, if_pos hslash, fields_slash_segment h]

theorem fields_segment {segment : Text} (h : IsSegment segment) :
    Text.fields CodePoint.isSlash segment = [segment] :=
  (Text.fields_cons_separator (by decide) segment).symm.trans (fields_slash_segment h)

theorem parse_segments {pid entry : Text} (hpid : IsSegment pid) (hentry : IsSegment entry) :
    parse supported (pid ++ ("/" ++ entry)) = .ok (.perProcess pid entry) := by
  apply parse_eq_perProcess_iff.mpr
  refine ⟨any_append_slash pid entry, [], ?_⟩
  rw [fields_append_slash, fields_segment hpid, fields_segment hentry]
  rfl

/-! ## Respellings -/

/-- A change to an argument that does not count: more slashes behind one, a slash in front, or a
slash and any text at the end. -/
inductive Respells : Text → Text → Prop where
  | slashes (before after : Text) {more : Text} (hmore : ∀ c ∈ more, CodePoint.isSlash c = true) :
    Respells (before ++ ("/" ++ after)) (before ++ ("/" ++ (more ++ after)))
  | front (argument : Text) : Respells argument ("/" ++ argument)
  | tail (argument ignored : Text) : Respells argument (argument ++ ("/" ++ ignored))

theorem parse_of_respells {argument other pid file : Text} (h : Respells argument other)
    (hparse : parse supported argument = .ok (.perProcess pid file)) :
    parse supported other = .ok (.perProcess pid file) := by
  obtain ⟨_, later, hfields⟩ := parse_eq_perProcess_iff.mp hparse
  apply parse_eq_perProcess_iff.mpr
  cases h with
  | slashes before after hmore =>
    refine ⟨any_append_slash before _, later, ?_⟩
    rw [fields_append_slash, Text.fields_gap_append hmore, ← fields_append_slash, hfields]
  | front =>
    exact ⟨any_append_slash [] argument, later, (fields_append_slash [] argument).trans hfields⟩
  | tail _ ignored =>
    refine ⟨any_append_slash argument _, later ++ Text.fields CodePoint.isSlash ignored, ?_⟩
    rw [fields_append_slash, hfields]
    rfl

theorem parse_of_respelled {argument other pid file : Text}
    (h : ReflTransGen Respells argument other)
    (hparse : parse supported argument = .ok (.perProcess pid file)) :
    parse supported other = .ok (.perProcess pid file) := by
  induction h with
  | refl => exact hparse
  | tail _ hlast ih => exact parse_of_respells hlast ih

theorem respelled_front {front : Text} (h : ∀ c ∈ front, CodePoint.isSlash c = true)
    (argument : Text) : ReflTransGen Respells argument (front ++ argument) := by
  induction front with
  | nil => exact .refl
  | cons c front ih =>
    obtain ⟨hc, hfront⟩ := List.forall_mem_cons.mp h
    have hchar : c = '/' := of_decide_eq_true hc
    rw [hchar]
    exact (ih hfront).tail (.front (front ++ argument))

theorem exists_slash_append {gap : Text} (hne : gap ≠ [])
    (h : ∀ c ∈ gap, CodePoint.isSlash c = true) :
    ∃ more : Text, gap = "/" ++ more ∧ ∀ c ∈ more, CodePoint.isSlash c = true := by
  cases gap with
  | nil => exact absurd rfl hne
  | cons c more =>
    obtain ⟨hc, hmore⟩ := List.forall_mem_cons.mp h
    have hchar : c = '/' := of_decide_eq_true hc
    exact ⟨more, by rw [hchar]; rfl, hmore⟩

theorem respelled_of_parse {argument pid file : Text}
    (h : parse supported argument = .ok (.perProcess pid file)) :
    ReflTransGen Respells (pid ++ ("/" ++ file)) argument := by
  obtain ⟨_, later, hfields⟩ := parse_eq_perProcess_iff.mp h
  obtain ⟨⟨front, parts⟩, hproper, rfl⟩ := Text.exists_spacing CodePoint.isSlash argument
  -- the two segments are the first two words, so there are slashes between them
  rw [Text.Spacing.fields_text hproper] at hfields
  obtain ⟨⟨pid, gap⟩, rest, rfl, rfl, hsecond⟩ := List.map_eq_cons_iff.mp hfields
  obtain ⟨⟨file, close⟩, parts, rfl, rfl, _⟩ := List.map_eq_cons_iff.mp hsecond
  obtain ⟨hfront, _, hgap, hbehind⟩ := Text.Spacing.isProper_cons_iff.mp hproper
  obtain ⟨hslashes, _, hclose, hrest⟩ := Text.Spacing.isProper_cons_iff.mp hbehind
  obtain ⟨more, rfl, hmore⟩ := exists_slash_append (hgap (List.cons_ne_nil _ _)) hslashes
  let ending : Text := close ++ parts.flatMap fun part => part.1 ++ part.2
  have htext : Text.Spacing.text ⟨front, (pid, "/" ++ more) :: (file, close) :: parts⟩
      = front ++ (pid ++ ("/" ++ (more ++ file))) ++ ending := by
    simp [Text.Spacing.text, ending]
  have hwritten : ReflTransGen Respells (pid ++ ("/" ++ file))
      (front ++ (pid ++ ("/" ++ (more ++ file)))) :=
    (ReflTransGen.single (.slashes pid file hmore)).trans (respelled_front hfront _)
  rw [htext]
  by_cases hnone : close = []
  · -- behind the last word there is no gap, and behind the segments nothing
    have hlast : parts = [] := Classical.byContradiction fun hmany => hclose hmany hnone
    have hending : ending = [] := by simp only [ending, hnone, hlast, List.flatMap_nil, List.nil_append]
    rw [hending, List.append_nil]
    exact hwritten
  · obtain ⟨ignored, hignored, _⟩ := exists_slash_append hnone hrest.front
    have hending : ending = "/" ++ (ignored ++ parts.flatMap fun part => part.1 ++ part.2) := by
      simp only [ending, hignored, List.append_assoc]
    rw [hending]
    exact hwritten.tail (.tail _ _)

/-- The arguments that name a file of a process are the respellings of its two segments. -/
theorem parse_iff_respelled {pid file : Text} (hpid : IsSegment pid) (hfile : IsSegment file)
    (argument : Text) :
    parse supported argument = .ok (.perProcess pid file)
      ↔ ReflTransGen Respells (pid ++ ("/" ++ file)) argument :=
  ⟨respelled_of_parse, fun h => parse_of_respelled h (parse_segments hpid hfile)⟩

/-! ## Paths -/

/-- What an argument can name: a name without a slash, or two segments. -/
def IsNamed : ProcPath → Prop
  | global name => name.any CodePoint.isSlash = false
  | perProcess pid file => IsSegment pid ∧ IsSegment file

theorem isNamed_of_parse {argument : Text} {file : ProcPath}
    (h : parse supported argument = .ok file) : file.IsNamed := by
  rcases parse_eq_ok h with ⟨hplain, _, rfl⟩ | ⟨pid, name, later, _, hfields, rfl⟩
  · exact hplain
  · have hsegment : ∀ segment ∈ [pid, name], IsSegment segment := by
      intro segment hsegment
      apply isSegment_of_mem_fields
      rw [hfields]
      exact List.mem_append_left later hsegment
    exact ⟨hsegment pid List.mem_cons_self, hsegment name (List.mem_cons_of_mem _ List.mem_cons_self)⟩

theorem relative_global_ne {name : Text} (hname : name.any CodePoint.isSlash = false)
    (pid file : Text) : relative (.global name) ≠ relative (.perProcess pid file) := by
  intro h
  rw [relative, relative, List.append_assoc] at h
  rw [List.append_cancel_left h, any_append_slash] at hname
  cases hname

theorem relative_inj {file other : ProcPath} (hfile : file.IsNamed) (hother : other.IsNamed)
    (h : file.relative = other.relative) : file = other := by
  cases file with
  | global name =>
    cases other with
    | global otherName => rw [List.append_cancel_left h]
    | perProcess pid subpath => exact absurd h (relative_global_ne hfile pid subpath)
  | perProcess pid subpath =>
    cases other with
    | global name => exact absurd h.symm (relative_global_ne hother pid subpath)
    | perProcess otherPid otherSubpath =>
      have hfields := congrArg (Text.fields CodePoint.isSlash) h
      rw [fields_perProcess hfile.1 hfile.2, fields_perProcess hother.1 hother.2] at hfields
      cases hfields
      rfl

/-- Distinct files never share a path. -/
theorem under_eq_iff {file other : ProcPath} (hfile : file.IsNamed) (hother : other.IsNamed)
    (root : Text) : file.under root = other.under root ↔ file = other := by
  refine ⟨?_, fun h => by rw [h]⟩
  intro h
  rw [under_eq, under_eq] at h
  exact relative_inj hfile hother (List.append_cancel_left h)

theorem eq_iff_named_alike {a b : Text} {file other : ProcPath}
    (ha : parse supported a = .ok file) (hb : parse supported b = .ok other) :
    file = other
      ↔ (a.any CodePoint.isSlash = false ∧ b.any CodePoint.isSlash = false ∧ a = b)
        ∨ (a.any CodePoint.isSlash = true ∧ b.any CodePoint.isSlash = true
          ∧ (a.fields CodePoint.isSlash).take 2 = (b.fields CodePoint.isSlash).take 2) := by
  rcases parse_eq_ok ha with ⟨haslash, _, rfl⟩ | ⟨pid, name, later, haslash, hafields, rfl⟩
  · rcases parse_eq_ok hb with ⟨hbslash, _, rfl⟩ | ⟨_, _, _, hbslash, _, rfl⟩
    · simp [haslash, hbslash]
    · simp [haslash, hbslash]
  · rcases parse_eq_ok hb with ⟨hbslash, _, rfl⟩ | ⟨_, _, _, hbslash, hbfields, rfl⟩
    · simp [haslash, hbslash]
    · simp [haslash, hbslash, hafields, hbfields]

/-- The arguments that are accepted have a canonical form. Two of them have one path, under one root
or under all, exactly if they are one name, or have slashes both and agree in their first two
segments; the path of a name is never that of a file of a process. An argument with a slash names a
file of a process by two segments, which are its canonical form; the arguments that name this file
are the respellings of the canonical form, so no respelling of an argument names another. -/
theorem under_eq_iff_named_alike {a b : Text} {file other : ProcPath}
    (ha : parse supported a = .ok file) (hb : parse supported b = .ok other) :
    (∀ root, file.under root = other.under root
        ↔ (a.any CodePoint.isSlash = false ∧ b.any CodePoint.isSlash = false ∧ a = b)
          ∨ (a.any CodePoint.isSlash = true ∧ b.any CodePoint.isSlash = true
            ∧ (a.fields CodePoint.isSlash).take 2 = (b.fields CodePoint.isSlash).take 2))
      ∧ (∀ name pid subpath, file = .global name → other = .perProcess pid subpath →
        ∀ root, file.under root ≠ other.under root)
      ∧ (a.any CodePoint.isSlash = true → ∃ pid subpath, file = .perProcess pid subpath
        ∧ IsSegment pid ∧ IsSegment subpath
        ∧ parse supported (pid ++ ("/" ++ subpath)) = .ok file
        ∧ (∀ argument, parse supported argument = .ok file
          ↔ ReflTransGen Respells (pid ++ ("/" ++ subpath)) argument)
        ∧ ∀ argument, ReflTransGen Respells a argument →
          parse supported argument = .ok file) := by
  have hfile := isNamed_of_parse ha
  have hother := isNamed_of_parse hb
  refine ⟨?_, ?_, ?_⟩
  · intro root
    rw [under_eq_iff hfile hother root]
    exact eq_iff_named_alike ha hb
  · intro name pid subpath hglobal hperProcess root hpaths
    have hsame := (under_eq_iff hfile hother root).mp hpaths
    rw [hglobal, hperProcess] at hsame
    cases hsame
  · intro hslash
    rcases parse_eq_ok ha with ⟨hplain, _, _⟩ | ⟨pid, subpath, _, _, _, rfl⟩
    · rw [hslash] at hplain
      cases hplain
    · exact ⟨pid, subpath, rfl, hfile.1, hfile.2, parse_segments hfile.1 hfile.2,
        parse_iff_respelled hfile.1 hfile.2, fun argument h => parse_of_respelled h ha⟩

/-- Slashes and what follows the second segment make no other file, and another segment does. -/
theorem under_eq_iff_named_alike_status :
    parse Config.default.globalFiles "//1//status/x" = .ok (.perProcess "1" "status")
      ∧ parse Config.default.globalFiles "1/maps" = .ok (.perProcess "1" "maps")
      ∧ ReflTransGen Respells "1/status" "//1//status/x"
      ∧ ∀ root, under root (.perProcess "1" "status") ≠ under root (.perProcess "1" "maps") := by
  have ha : parse Config.default.globalFiles "//1//status/x" = .ok (.perProcess "1" "status") := by
    decide
  have hb : parse Config.default.globalFiles "1/maps" = .ok (.perProcess "1" "maps") := by
    decide
  obtain ⟨hpaths, _, hcanonical⟩ := under_eq_iff_named_alike ha hb
  obtain ⟨pid, subpath, hfile, _, _, _, hrespelled, _⟩ := hcanonical (by decide)
  cases hfile
  refine ⟨ha, hb, (hrespelled _).mp ha, ?_⟩
  intro root hsame
  rcases (hpaths root).mp hsame with ⟨hplain, _⟩ | ⟨_, _, hsegments⟩
  · exact absurd hplain (by decide)
  · exact absurd hsegments (by decide)

end LineShell.ProcPath
