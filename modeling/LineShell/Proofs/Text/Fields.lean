import LineShell.Text.Basic

/- Fields of a text that is given piece by piece.

   A separator in front or at the end is skipped, and a word that a separator follows is the first
   field. With these a text made of words and gaps is split without looking at `Text.pieces` again.
   The other way round, a field is a word: there is no separator in it. -/
namespace LineShell.Text

variable {isSeparator : CodePoint → Bool}

theorem pieces_word_append {word : Text} (hw : ∀ c ∈ word, isSeparator c = false) (t : Text) :
    ∃ first others, pieces isSeparator t = first :: others ∧
      pieces isSeparator (word ++ t) = (word ++ first) :: others := by
  induction word with
  | nil =>
    cases h : pieces isSeparator t with
    | nil => exact absurd h (pieces_ne_nil isSeparator t)
    | cons first others => exact ⟨first, others, rfl, h⟩
  | cons c word ih =>
    obtain ⟨first, others, ht, hwt⟩ := ih fun d hd => hw d (List.mem_cons_of_mem c hd)
    -- the first piece is still open at its front, and the character joins it there
    refine ⟨first, others, ht, ?_⟩
    rw [List.cons_append, pieces, if_neg (by rw [hw c List.mem_cons_self]; simp), hwt]
    rfl

theorem fields_cons_separator {c : CodePoint} (hc : isSeparator c = true) (t : Text) :
    fields isSeparator (c :: t) = fields isSeparator t := by
  simp [fields, pieces, hc]

theorem fields_gap_append {gap : Text} (hgap : ∀ c ∈ gap, isSeparator c = true) (t : Text) :
    fields isSeparator (gap ++ t) = fields isSeparator t := by
  induction gap with
  | nil => rfl
  | cons c gap ih =>
    rw [List.cons_append, fields_cons_separator (hgap c List.mem_cons_self)]
    exact ih fun d hd => hgap d (List.mem_cons_of_mem c hd)

theorem fields_word_append {word t : Text} (hne : word ≠ [])
    (hw : ∀ c ∈ word, isSeparator c = false) (ht : ∀ c ∈ t.head?, isSeparator c = true) :
    fields isSeparator (word ++ t) = word :: fields isSeparator t := by
  obtain ⟨first, others, hfirst, hword⟩ := pieces_word_append hw t
  have hnil : first = [] := by
    cases t with
    | nil => exact (List.cons.inj hfirst).1.symm
    | cons c t =>
      rw [pieces, if_pos (ht c rfl)] at hfirst
      exact (List.cons.inj hfirst).1.symm
  rw [fields, hword, fields, hfirst, hnil]
  simp [hne]

theorem not_separator_of_mem_pieces {t piece : Text} (h : piece ∈ pieces isSeparator t) :
    ∀ c ∈ piece, isSeparator c = false := by
  induction t generalizing piece with
  | nil =>
    rw [pieces, List.mem_singleton] at h
    simp [h]
  | cons d t ih =>
    rw [pieces] at h
    split at h
    · rcases List.mem_cons.mp h with rfl | hlater
      · simp
      · exact ih hlater
    · next hd =>
      have hd : isSeparator d = false := by simpa using hd
      cases hpieces : pieces isSeparator t with
      | nil => exact absurd hpieces (pieces_ne_nil isSeparator t)
      | cons first others =>
        rw [hpieces] at h ih
        rcases List.mem_cons.mp h with rfl | hlater
        · exact List.forall_mem_cons.mpr ⟨hd, ih List.mem_cons_self⟩
        · exact ih (List.mem_cons_of_mem _ hlater)

theorem not_separator_of_mem_fields {t field : Text} (h : field ∈ fields isSeparator t) :
    ∀ c ∈ field, isSeparator c = false :=
  not_separator_of_mem_pieces (List.mem_filter.mp h).1

theorem subset_of_mem_fields {t field : Text} (h : field ∈ fields isSeparator t) : field ⊆ t := by
  intro c hc
  have hflatten : c ∈ (fields isSeparator t).flatten := List.mem_flatten.mpr ⟨field, h, hc⟩
  rw [flatten_fields] at hflatten
  exact (List.mem_filter.mp hflatten).1

theorem fields_eq_nil_iff (t : Text) :
    fields isSeparator t = [] ↔ ∀ c ∈ t, isSeparator c = true := by
  refine ⟨?_, ?_⟩
  · intro hnone
    have hflatten := flatten_fields isSeparator t
    rw [hnone] at hflatten
    simpa using hflatten.symm
  · intro hgap
    have hfields := fields_gap_append hgap []
    rw [List.append_nil] at hfields
    exact hfields

theorem fields_congr {isOther : CodePoint → Bool} {t : Text}
    (h : ∀ c ∈ t, isSeparator c = isOther c) : fields isSeparator t = fields isOther t := by
  have hpieces : pieces isSeparator t = pieces isOther t := by
    induction t with
    | nil => rfl
    | cons c t ih =>
      obtain ⟨hc, ht⟩ := List.forall_mem_cons.mp h
      rw [pieces, pieces, hc, ih ht]
  rw [fields, hpieces, fields]

theorem pieces_append_cons {c : CodePoint} (hc : isSeparator c = true) (s t : Text) :
    pieces isSeparator (s ++ c :: t) = pieces isSeparator s ++ pieces isSeparator t := by
  induction s with
  | nil => simp [pieces, hc]
  | cons d s ih =>
    rw [List.cons_append, pieces, ih, pieces]
    split
    · rfl
    · cases hpieces : pieces isSeparator s with
      | nil => exact absurd hpieces (pieces_ne_nil isSeparator s)
      | cons piece others => rfl

theorem fields_append_cons {c : CodePoint} (hc : isSeparator c = true) (s t : Text) :
    fields isSeparator (s ++ c :: t) = fields isSeparator s ++ fields isSeparator t := by
  rw [fields, pieces_append_cons hc, List.filter_append]
  rfl

theorem fields_append_separator {c : CodePoint} (hc : isSeparator c = true) (t : Text) :
    fields isSeparator (t ++ [c]) = fields isSeparator t := by
  rw [fields_append_cons hc, show fields isSeparator [] = [] from rfl, List.append_nil]

/-! ## Putting pieces together -/

theorem pieces_eq_splitOnP (t : Text) : pieces isSeparator t = t.splitOnP isSeparator := by
  induction t with
  | nil => rfl
  | cons c t ih =>
    rw [pieces, ih, List.splitOnP_cons_eq_if_modifyHead]
    split
    · rfl
    · cases hpieces : t.splitOnP isSeparator with
      | nil => exact absurd hpieces (List.splitOnP_ne_nil isSeparator t)
      | cons piece others => rfl

theorem intercalate_pieces (c : CodePoint) (t : Text) :
    List.intercalate [c] (pieces (· = c) t) = t := by
  rw [pieces_eq_splitOnP]
  exact List.intercalate_splitOn c

theorem pieces_intercalate {c : CodePoint} {texts : List Text} (hne : texts ≠ [])
    (h : ∀ t ∈ texts, c ∉ t) : pieces (· = c) (List.intercalate [c] texts) = texts := by
  rw [pieces_eq_splitOnP]
  exact List.splitOn_intercalate c h hne

theorem mem_intercalate {c : CodePoint} {separator : Text} {texts : List Text}
    (h : c ∈ List.intercalate separator texts) : c ∈ separator ∨ ∃ t ∈ texts, c ∈ t := by
  induction texts with
  | nil => cases h
  | cons t texts ih =>
    by_cases hlast : texts = []
    · subst hlast
      rw [List.intercalate_singleton] at h
      exact .inr ⟨t, List.mem_cons_self, h⟩
    · rw [List.intercalate_cons_of_ne_nil hlast, List.mem_append, List.mem_append] at h
      rcases h with (hfirst | hseparator) | hlater
      · exact .inr ⟨t, List.mem_cons_self, hfirst⟩
      · exact .inl hseparator
      · rcases ih hlater with hseparator | ⟨other, hother, hc⟩
        · exact .inl hseparator
        · exact .inr ⟨other, List.mem_cons_of_mem t hother, hc⟩

end LineShell.Text
