import LineShell.Log

/- What a log shows and what it keeps.

   A log is used by logging, filtering and clearing, in any order (`Operation`). What it echoes is
   the visible part of everything that was logged (`visible`), whatever was cleared in between
   (`echoed_performAll`); what it keeps is what was logged since it was last cleared
   (`entries_performAll_clear`). Filtering finds the greatest part of that in which every entry
   meets the criteria (`sublist_filter_iff`), and changes nothing. -/
namespace LineShell

/-- The entry is severe enough and comes from the source, so far as either is asked for. -/
structure Entry.Meets (e : Entry) (minLevel : Option Level) (source : Option Text) : Prop where
  level : ∀ least, minLevel = some least → least.rank ≤ e.level.rank
  source : ∀ wanted, source = some wanted → e.source = wanted

namespace Logger

/-- The lines of the entries that are at the level or above it, in order. -/
def visible (program : Text) (level : Level) : List Entry → Text
  | [] => []
  | e :: later =>
    if level.rank ≤ e.level.rank then
      program ++ ": " ++ e.message ++ "\n" ++ visible program level later
    else visible program level later

theorem visible_append (program : Text) (level : Level) (earlier later : List Entry) :
    visible program level (earlier ++ later)
      = visible program level earlier ++ visible program level later := by
  induction earlier with
  | nil => rfl
  | cons e rest ih =>
    rw [List.cons_append, visible, visible, ih]
    split
    · exact (List.append_assoc _ _ _).symm
    · rfl

theorem echoed_logAll (l : Logger) (entries : List Entry) :
    (l.logAll entries).echoed = l.echoed ++ visible l.program l.level entries := by
  have hvisible : (entries.filter l.echoes).flatMap l.echoLine = visible l.program l.level entries := by
    induction entries with
    | nil => rfl
    | cons e later ih =>
      rw [visible, ← ih]
      split
      · next hsevere =>
        have hechoes : l.echoes e = true := decide_eq_true hsevere
        rw [List.filter_cons_of_pos hechoes, List.flatMap_cons]
        rfl
      · next hlight =>
        rw [List.filter_cons_of_neg (by simpa [echoes, Level.atLeast] using hlight)]
  rw [← hvisible]
  rfl

/-- The log is the earlier one, to which some entries were logged since. -/
def Extends (earlier later : Logger) : Prop := ∃ entries, later = earlier.logAll entries

theorem Extends.refl (l : Logger) : l.Extends l :=
  ⟨[], by simp [logAll]⟩

theorem Extends.trans {first second third : Logger} (h : first.Extends second)
    (hlater : second.Extends third) : first.Extends third := by
  obtain ⟨earlier, rfl⟩ := h
  obtain ⟨later, rfl⟩ := hlater
  exact ⟨earlier ++ later, (first.logAll_append earlier later).symm⟩

/-! ## Operations -/

inductive Operation where
  | log (entry : Entry)
  | filter (minLevel : Option Level) (source : Option Text)
  | clear

def Operation.entry? : Operation → Option Entry
  | .log entry => some entry
  | .filter _ _ => none
  | .clear => none

def perform (l : Logger) : Operation → Logger
  | .log entry => l.log entry
  | .filter _ _ => l
  | .clear => l.clear

def performAll (l : Logger) (operations : List Operation) : Logger := operations.foldl perform l

def logged (operations : List Operation) : List Entry := operations.filterMap Operation.entry?

theorem performAll_cons (l : Logger) (operation : Operation) (later : List Operation) :
    l.performAll (operation :: later) = (l.perform operation).performAll later := rfl

theorem performAll_append (l : Logger) (earlier later : List Operation) :
    l.performAll (earlier ++ later) = (l.performAll earlier).performAll later :=
  List.foldl_append

theorem echoed_perform (l : Logger) (operation : Operation) :
    (l.perform operation).echoed
      = l.echoed ++ visible l.program l.level operation.entry?.toList := by
  cases operation with
  | log entry => exact l.echoed_logAll [entry]
  | filter minLevel source => exact (List.append_nil _).symm
  | clear => exact (List.append_nil _).symm

theorem echoed_performAll (l : Logger) (operations : List Operation) :
    (l.performAll operations).echoed
      = l.echoed ++ visible l.program l.level (logged operations) := by
  induction operations generalizing l with
  | nil => exact (List.append_nil _).symm
  | cons operation later ih =>
    have hlogged : logged (operation :: later) = operation.entry?.toList ++ logged later := by
      rw [logged, List.filterMap_cons]
      cases operation.entry? <;> rfl
    -- no operation changes the name or the level
    have hname : (l.perform operation).program = l.program := by cases operation <;> rfl
    have hlevel : (l.perform operation).level = l.level := by cases operation <;> rfl
    calc ((l.perform operation).performAll later).echoed
        = (l.perform operation).echoed ++ visible (l.perform operation).program
            (l.perform operation).level (logged later) := ih _
      _ = l.echoed ++ visible l.program l.level operation.entry?.toList
            ++ visible l.program l.level (logged later) := by
          rw [echoed_perform, hname, hlevel]
      _ = l.echoed ++ visible l.program l.level (logged (operation :: later)) := by
          rw [hlogged, visible_append, List.append_assoc]

/-- As long as it is not cleared, a log keeps everything. -/
theorem entries_performAll {operations : List Operation} (h : .clear ∉ operations) (l : Logger) :
    (l.performAll operations).entries = l.entries ++ logged operations := by
  induction operations generalizing l with
  | nil => exact (List.append_nil _).symm
  | cons operation later ih =>
    rw [performAll_cons, ih (List.not_mem_of_not_mem_cons h)]
    cases operation with
    | log entry => exact List.append_assoc _ _ _
    | filter minLevel source => rfl
    | clear => exact absurd List.mem_cons_self h

/-- What was logged before a log was cleared is gone, and what is logged afterwards is kept. -/
theorem entries_performAll_clear {later : List Operation} (h : .clear ∉ later)
    (before : List Operation) (l : Logger) :
    (l.performAll (before ++ .clear :: later)).entries = logged later := by
  rw [performAll_append, performAll_cons, entries_performAll h]
  rfl

/-! ## Filtering -/

theorem meets_iff (e : Entry) (minLevel : Option Level) (source : Option Text) :
    (minLevel.all (e.level.atLeast ·) && source.all (e.source = ·)) = true
      ↔ e.Meets minLevel source := by
  rw [Bool.and_eq_true, Option.all_eq_true, Option.all_eq_true]
  simp only [Level.atLeast, decide_eq_true_eq]
  exact ⟨fun h => ⟨h.1, h.2⟩, fun h => ⟨h.level, h.source⟩⟩

/-- Every part of the log in which all entries meet the criteria is a part of what filtering finds,
and nothing else is. -/
theorem sublist_filter_iff (l : Logger) (minLevel : Option Level) (source : Option Text)
    (found : List Entry) :
    List.Sublist found (l.filter minLevel source)
      ↔ List.Sublist found l.entries ∧ ∀ e ∈ found, e.Meets minLevel source := by
  simp only [← meets_iff]
  refine ⟨?_, ?_⟩
  · intro hfound
    refine ⟨hfound.trans List.filter_sublist, fun e he => ?_⟩
    exact (List.mem_filter.mp (hfound.subset he)).2
  · rintro ⟨hpart, hmeets⟩
    rw [← List.filter_eq_self.mpr hmeets]
    exact hpart.filter _

end Logger

end LineShell
