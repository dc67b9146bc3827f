import LineShell.Proofs.Text.Fields

/- Texts that are written from words and gaps.

   A spacing is a gap, and then one word after the other, each with the gap behind it. In a proper
   one the gaps are all separators, the words are not empty and have no separator in them, and only
   the gaps at the two ends may be empty. Every text has a proper spacing (`exists_spacing`), and
   its words are then the fields of the text (`fields_text`). So the fields are the one and only
   list of words that a text is written from (`isWrittenFrom_iff`), and what is written from them
   has them as its fields, whatever the gaps are. A text with a word is a gap, its first word and
   the text of the others (`exists_first_word`). -/
namespace LineShell.Text

/-- A gap, and words, each with the gap behind it. -/
structure Spacing where
  front : Text
  parts : List (Text × Text)

namespace Spacing

def words (s : Spacing) : List Text := s.parts.map (·.1)

/-- The gap in front, and each word and its gap. -/
def text (s : Spacing) : Text := s.front ++ s.parts.flatMap fun part => part.1 ++ part.2

/-- Gaps are all separators and words have none; no word is empty, and no gap between two words. -/
structure IsProper (isSeparator : CodePoint → Bool) (s : Spacing) : Prop where
  front : ∀ c ∈ s.front, isSeparator c = true
  words : ∀ part ∈ s.parts, part.1 ≠ [] ∧ ∀ c ∈ part.1, isSeparator c = false
  gaps : ∀ part ∈ s.parts, ∀ c ∈ part.2, isSeparator c = true
  between : ∀ part ∈ s.parts.dropLast, part.2 ≠ []

variable {isSeparator : CodePoint → Bool} {front gap word : Text} {parts : List (Text × Text)}

theorem isProper_nil_iff :
    IsProper isSeparator ⟨front, []⟩ ↔ ∀ c ∈ front, isSeparator c = true :=
  ⟨IsProper.front, fun h => ⟨h, by simp, by simp, by simp⟩⟩

theorem isProper_cons_iff :
    IsProper isSeparator ⟨front, (word, gap) :: parts⟩
      ↔ (∀ c ∈ front, isSeparator c = true)
        ∧ (word ≠ [] ∧ ∀ c ∈ word, isSeparator c = false)
        ∧ (parts ≠ [] → gap ≠ []) ∧ IsProper isSeparator ⟨gap, parts⟩ := by
  refine ⟨?_, ?_⟩
  · rintro ⟨hfront, hwords, hgaps, hbetween⟩
    refine ⟨hfront, hwords _ List.mem_cons_self, ?_, hgaps _ List.mem_cons_self,
      fun part hpart => hwords part (List.mem_cons_of_mem _ hpart),
      fun part hpart => hgaps part (List.mem_cons_of_mem _ hpart), ?_⟩
    · intro hmore
      refine hbetween (word, gap) ?_
      rw [List.dropLast_cons_of_ne_nil hmore]
      exact List.mem_cons_self
    · intro part hpart
      have hmore : parts ≠ [] := List.ne_nil_of_mem (List.dropLast_subset _ hpart)
      refine hbetween part ?_
      rw [List.dropLast_cons_of_ne_nil hmore]
      exact List.mem_cons_of_mem _ hpart
  · rintro ⟨hfront, hword, hgap, hfirst, hwords, hgaps, hbetween⟩
    refine ⟨hfront, List.forall_mem_cons.mpr ⟨hword, hwords⟩,
      List.forall_mem_cons.mpr ⟨hfirst, hgaps⟩, ?_⟩
    cases parts with
    | nil => simp
    | cons part later =>
      rw [List.dropLast_cons_of_ne_nil (List.cons_ne_nil _ _)]
      exact List.forall_mem_cons.mpr ⟨hgap (List.cons_ne_nil _ _), hbetween⟩

theorem head?_text_behind {later : List (Text × Text)} (hgap : later ≠ [] → gap ≠ [])
    (h : IsProper isSeparator ⟨gap, later⟩) :
    ∀ c ∈ (text ⟨gap, later⟩).head?, isSeparator c = true := by
  intro c hc
  cases gap with
  | cons d gap =>
    have hd : d = c := Option.some.inj hc
    exact h.front c (hd ▸ List.mem_cons_self)
  | nil =>
    -- only the last gap is empty, and behind it nothing stands
    have hnone : later = [] := Classical.byContradiction fun hmore => hgap hmore rfl
    rw [hnone] at hc
    cases hc

theorem text_cons {later : List (Text × Text)} :
    text ⟨front, (word, gap) :: later⟩ = front ++ (word ++ text ⟨gap, later⟩) := by
  simp [text]

/-- Splitting finds the words of a spacing. -/
theorem fields_text {s : Spacing} (h : s.IsProper isSeparator) :
    fields isSeparator s.text = s.words := by
  obtain ⟨front, parts⟩ := s
  induction parts generalizing front with
  | nil =>
    rw [text, fields_gap_append h.front]
    rfl
  | cons part later ih =>
    obtain ⟨word, gap⟩ := part
    obtain ⟨hfront, ⟨hne, hword⟩, hgap, hlater⟩ := isProper_cons_iff.mp h
    rw [text_cons, fields_gap_append hfront,
      fields_word_append hne hword (head?_text_behind hgap hlater), ih gap hlater]
    rfl

end Spacing

variable {isSeparator : CodePoint → Bool}

/-- Every text is words with gaps. -/
theorem exists_spacing (isSeparator : CodePoint → Bool) (t : Text) :
    ∃ s : Spacing, s.IsProper isSeparator ∧ s.text = t := by
  induction t with
  | nil => exact ⟨⟨[], []⟩, Spacing.isProper_nil_iff.mpr (by simp), rfl⟩
  | cons c rest ih =>
    obtain ⟨⟨front, parts⟩, hproper, rfl⟩ := ih
    by_cases hc : isSeparator c = true
    · refine ⟨⟨c :: front, parts⟩, ?_, rfl⟩
      exact { hproper with front := List.forall_mem_cons.mpr ⟨hc, hproper.front⟩ }
    · have hword : ∀ d ∈ [c], isSeparator d = false := by simpa using hc
      cases front with
      | cons d front =>
        -- the character is a word of its own, and the gap in front is now behind it
        refine ⟨⟨[], ([c], d :: front) :: parts⟩, ?_, by simp [Spacing.text]⟩
        exact Spacing.isProper_cons_iff.mpr ⟨by simp, ⟨by simp, hword⟩, by simp, hproper⟩
      | nil =>
        cases parts with
        | nil =>
          refine ⟨⟨[], [([c], [])]⟩, ?_, by simp [Spacing.text]⟩
          exact Spacing.isProper_cons_iff.mpr ⟨by simp, ⟨by simp, hword⟩, by simp, hproper⟩
        | cons part later =>
          obtain ⟨word, gap⟩ := part
          obtain ⟨hfront, ⟨_, hplain⟩, hgap, hlater⟩ := Spacing.isProper_cons_iff.mp hproper
          -- no gap stands in between, so the character starts the first word
          refine ⟨⟨[], (c :: word, gap) :: later⟩, ?_, by simp [Spacing.text]⟩
          refine Spacing.isProper_cons_iff.mpr ⟨hfront, ⟨by simp, ?_⟩, hgap, hlater⟩
          exact List.forall_mem_cons.mpr ⟨hword c List.mem_cons_self, hplain⟩

/-- The text consists of the words and of gaps: `d₀ t₁ d₁ t₂ … tₙ dₙ`. -/
def IsWrittenFrom (isSeparator : CodePoint → Bool) (words : List Text) (t : Text) : Prop :=
  ∃ s : Spacing, s.IsProper isSeparator ∧ s.words = words ∧ s.text = t

/-- A text is written from its fields, and from no other words. -/
theorem isWrittenFrom_iff (words : List Text) (t : Text) :
    IsWrittenFrom isSeparator words t ↔ fields isSeparator t = words := by
  refine ⟨?_, ?_⟩
  · rintro ⟨s, hproper, rfl, rfl⟩
    exact Spacing.fields_text hproper
  · rintro rfl
    obtain ⟨s, hproper, rfl⟩ := exists_spacing isSeparator t
    exact ⟨s, hproper, (Spacing.fields_text hproper).symm, rfl⟩

/-- Behind a gap stands the first word, and behind that the text of the other words. -/
theorem exists_first_word {t word : Text} {others : List Text}
    (h : fields isSeparator t = word :: others) :
    ∃ gap rest, t = gap ++ (word ++ rest) ∧ (∀ c ∈ gap, isSeparator c = true)
      ∧ (∀ c ∈ rest.head?, isSeparator c = true) ∧ fields isSeparator rest = others := by
  obtain ⟨⟨front, parts⟩, hproper, rfl⟩ := exists_spacing isSeparator t
  rw [Spacing.fields_text hproper] at h
  obtain ⟨⟨first, gap⟩, later, rfl, rfl, rfl⟩ := List.map_eq_cons_iff.mp h
  obtain ⟨hfront, _, hgap, hlater⟩ := Spacing.isProper_cons_iff.mp hproper
  exact ⟨front, _, Spacing.text_cons, hfront, Spacing.head?_text_behind hgap hlater,
    Spacing.fields_text hlater⟩

theorem rest_eq_of_first_word {isGap : CodePoint → Bool} {word gap front rest more : Text}
    (hne : word ≠ []) (hword : ∀ c ∈ word, isSeparator c = false ∧ isGap c = false)
    (hgap : ∀ c ∈ gap, isSeparator c = true) (hfront : ∀ c ∈ front, isGap c = true)
    (h : gap ++ (word ++ rest) = front ++ (word ++ more)) : rest = more := by
  obtain ⟨c, later, rfl⟩ := List.exists_cons_of_ne_nil hne
  obtain ⟨hseparator, hother⟩ := hword c List.mem_cons_self
  rcases List.append_eq_append_iff.mp h with ⟨between, rfl, hbetween⟩ | ⟨between, rfl, hbetween⟩
  -- what one gap is longer by would start with the character that the word starts with
  · cases between with
    | nil => exact List.append_cancel_left hbetween
    | cons d between =>
      have hd : isGap d = true := hfront d (by simp)
      rw [← (List.cons.inj hbetween).1, hother] at hd
      cases hd
  · cases between with
    | nil => exact (List.append_cancel_left hbetween).symm
    | cons d between =>
      have hd : isSeparator d = true := hgap d (by simp)
      rw [← (List.cons.inj hbetween).1, hseparator] at hd
      cases hd

end LineShell.Text
