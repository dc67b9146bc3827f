import LineShell.Completion
import LineShell.Line.Token
import LineShell.Proofs.Text.Words

/- Which word of a line is being typed.

   A line is read as words, of which the last may be finished (`Typed`). As long as no word is
   finished the first one is typed (`AtFirst`), and then the argument of the first one (`Behind`).
   Completion reads a line as the words between white space, and takes the last one for finished if
   the line ends in a space (`ofWords`); what it offers depends on that alone (`offers_iff`). The
   shell will read it as tokens, and any delimiter finishes the last one (`ofTokens`). The two come
   to the same for a line in which they find the same first word, unless it has no other word and
   ends in white space that is no space; for a line in which they do not, they never both see an
   argument of `proc` (`agrees_iff`). -/
namespace LineShell

/-- A line that is being typed: its words, and whether the last one is finished. -/
structure Typed where
  words : List Text
  finished : Bool

inductive Context where
  | command
  | argument
  | nothing
  deriving DecidableEq, Repr

namespace Typed

/-- No word is finished: there is none yet, or one that is still typed. -/
def AtFirst (t : Typed) : Prop := t.words = [] ∨ t.words.length = 1 ∧ t.finished = false

instance (t : Typed) : Decidable t.AtFirst :=
  inferInstanceAs (Decidable (t.words = [] ∨ t.words.length = 1 ∧ t.finished = false))

/-- A word is typed behind this first one: there is another word, or the first one is finished. -/
def Behind (t : Typed) (first : Text) : Prop :=
  t.words.head? = some first ∧ (2 ≤ t.words.length ∨ t.finished = true)

theorem behind_iff (t : Typed) (first : Text) :
    t.Behind first ↔ t.words.head? = some first ∧ ¬t.AtFirst := by
  obtain ⟨words, finished⟩ := t
  cases words with
  | nil => simp [Behind]
  | cons word others => cases finished <;> cases others <;> simp [Behind, AtFirst]

/-- The builtins are completed at the first word, and what stands behind `proc`. -/
def context (t : Typed) : Context :=
  if t.AtFirst then .command
  else if t.words.head? = some Builtin.proc.name then .argument
  else .nothing

theorem context_eq_command_iff (t : Typed) : t.context = .command ↔ t.AtFirst := by
  rw [context]
  split
  · next h => exact iff_of_true rfl h
  · next h =>
    refine iff_of_false ?_ h
    split <;> simp

theorem context_eq_argument_iff (t : Typed) :
    t.context = .argument ↔ t.Behind Builtin.proc.name := by
  rw [behind_iff, context]
  split
  · next h => simp [h]
  · next h => simp [h]

theorem context_eq_nothing_iff (t : Typed) :
    t.context = .nothing ↔ ¬t.AtFirst ∧ t.words.head? ≠ some Builtin.proc.name := by
  rw [context]
  split
  · next h => simp [h]
  · next h => simp [h]

theorem context_eq_iff (t u : Typed) : t.context = u.context
    ↔ (t.AtFirst ↔ u.AtFirst) ∧ (t.Behind Builtin.proc.name ↔ u.Behind Builtin.proc.name) := by
  simp only [← context_eq_command_iff, ← context_eq_argument_iff]
  cases t.context <;> cases u.context <;> simp

/-- A line as completion reads it. -/
def ofWords (line : Text) : Typed where
  words := line.fields CodePoint.isBlank
  finished := line.getLast? = some (CodePoint.ofChar ' ')

/-- A line as the shell will read it. -/
def ofTokens (line : Text) : Typed where
  words := Line.tokens line
  finished := line.getLast?.any Line.isDelimiter

end Typed

namespace Completion

/-! ## What is offered -/

def offer (config : Config) (listing : Listing) (text : Text) : Context → Except Crash (List Text)
  | .command => .ok (Builtin.names.filter (text.isPrefixOf ·))
  | .argument => procCandidates config listing text
  | .nothing => .ok []

theorem candidates_eq_offer (config : Config) (listing : Listing) (text line : Text) :
    candidates config listing text line
      = offer config listing text (Typed.ofWords line).context := by
  rw [candidates]
  cases hwords : line.fields CodePoint.isBlank with
  | nil =>
    have hfirst : (Typed.ofWords line).AtFirst := .inl hwords
    rw [(Typed.context_eq_command_iff _).mpr hfirst]
    rfl
  | cons first others =>
    have hhead : (Typed.ofWords line).words.head? = some first := by rw [Typed.ofWords, hwords]; rfl
    have hfirst : (Typed.ofWords line).AtFirst
        ↔ (others.isEmpty && line.getLast? ≠ some (CodePoint.ofChar ' ')) = true := by
      simp [Typed.AtFirst, Typed.ofWords, hwords]
    by_cases hat : (Typed.ofWords line).AtFirst
    · rw [(Typed.context_eq_command_iff _).mpr hat]
      exact if_pos (hfirst.mp hat)
    · refine (if_neg (mt hfirst.mpr hat)).trans ?_
      by_cases hproc : first = Builtin.proc.name
      · rw [hproc] at hhead
        rw [(Typed.context_eq_argument_iff _).mpr ((Typed.behind_iff _ _).mpr ⟨hhead, hat⟩)]
        exact if_pos hproc
      · have hother : (Typed.ofWords line).words.head? ≠ some Builtin.proc.name := by
          simpa [hhead] using hproc
        rw [(Typed.context_eq_nothing_iff _).mpr ⟨hat, hother⟩]
        exact if_neg hproc

/-- Whatever text is completed in the line, and wherever, the candidates are those of the context. -/
def Offers (line : Text) (context : Context) : Prop :=
  ∀ config listing text,
    candidates config listing text line = offer config listing text context

theorem length_offer (context : Context) :
    (offer .default (fun _ => none) [] context).map List.length
      = .ok (match context with
        | .command => 2
        | .argument => 4
        | .nothing => 0) := by
  cases context with
  | command => rfl
  | argument =>
    have hsorted : offer .default (fun _ => none) [] .argument
        = .ok (sort Config.default.globalFiles) := rfl
    rw [hsorted]
    exact congrArg Except.ok (List.length_mergeSort _)
  | nothing => rfl

/-- A line offers what is completed in its context, and nothing else. -/
theorem offers_iff (line : Text) (context : Context) :
    Offers line context ↔ (Typed.ofWords line).context = context := by
  refine ⟨?_, ?_⟩
  · intro h
    have hsame := (candidates_eq_offer .default (fun _ => none) [] line).symm.trans (h _ _ _)
    have hlength := congrArg (Except.map List.length) hsame
    rw [length_offer, length_offer] at hlength
    revert hlength
    cases (Typed.ofWords line).context <;> cases context <;> simp
  · rintro rfl config listing text
    exact candidates_eq_offer config listing text line

theorem offers_command_iff (line : Text) :
    Offers line .command ↔ (Typed.ofWords line).AtFirst := by
  rw [offers_iff, Typed.context_eq_command_iff]

theorem offers_argument_iff (line : Text) :
    Offers line .argument ↔ (Typed.ofWords line).Behind Builtin.proc.name := by
  rw [offers_iff, Typed.context_eq_argument_iff]

/-! ## Two readings of a line -/

/-- The only word has white space behind it, but the line does not end in a space. -/
def LooksUnfinished (line : Text) : Prop :=
  (line.fields CodePoint.isBlank).length = 1
    ∧ ∃ c ∈ line.getLast?, c.isBlank = true ∧ c ≠ CodePoint.ofChar ' '

section

variable {word rest line : Text} {others : List Text}

theorem exists_last_of_rest (hrest : rest ≠ []) (gap word : Text) :
    ∃ c ∈ rest, (gap ++ (word ++ rest)).getLast? = some c := by
  refine ⟨rest.getLast hrest, List.getLast_mem hrest, ?_⟩
  simp [List.getLast?_append, List.getLast?_eq_some_getLast hrest]

theorem exists_last_of_word (hne : word ≠ []) (gap : Text) :
    ∃ c ∈ word, (gap ++ (word ++ [])).getLast? = some c := by
  rw [List.append_nil]
  exact exists_last_of_rest hne [] gap

section

variable {c : CodePoint} (hlast : line.getLast? = some c)

include hlast

theorem atFirst_ofWords_iff (hwords : line.fields CodePoint.isBlank = word :: others) :
    (Typed.ofWords line).AtFirst ↔ others = [] ∧ c ≠ CodePoint.ofChar ' ' := by
  simp [Typed.AtFirst, Typed.ofWords, hwords, hlast]

theorem atFirst_ofTokens_iff (htokens : Line.tokens line = word :: others) :
    (Typed.ofTokens line).AtFirst ↔ others = [] ∧ Line.isDelimiter c = false := by
  simp [Typed.AtFirst, Typed.ofTokens, htokens, hlast]

theorem looksUnfinished_iff (hwords : line.fields CodePoint.isBlank = word :: others) :
    LooksUnfinished line ↔ others = [] ∧ c.isBlank = true ∧ c ≠ CodePoint.ofChar ' ' := by
  simp [LooksUnfinished, hwords, hlast]

end

end

theorem exists_same_rest {line word : Text} {others later : List Text}
    (hwords : line.fields CodePoint.isBlank = word :: others)
    (htokens : Line.tokens line = word :: later) :
    word ≠ [] ∧ (∀ c ∈ word, c.isBlank = false ∧ Line.isDelimiter c = false)
      ∧ ∃ gap rest, line = gap ++ (word ++ rest) ∧ rest.fields CodePoint.isBlank = others
        ∧ rest.fields Line.isDelimiter = later := by
  have hmem : word ∈ line.fields CodePoint.isBlank := hwords ▸ List.mem_cons_self
  have hmemTokens : word ∈ Line.tokens line := htokens ▸ List.mem_cons_self
  have hne : word ≠ [] := Text.ne_nil_of_mem_fields hmem
  have hword : ∀ c ∈ word, c.isBlank = false ∧ Line.isDelimiter c = false := fun c hc =>
    ⟨Text.not_separator_of_mem_fields hmem c hc, Text.not_separator_of_mem_fields hmemTokens c hc⟩
  obtain ⟨gap, rest, hline, hgap, _, hothers⟩ := Text.exists_first_word hwords
  obtain ⟨front, more, hagain, hfront, _, hlater⟩ := Text.exists_first_word htokens
  have hrest : rest = more :=
    Text.rest_eq_of_first_word hne hword hgap hfront (hline.symm.trans hagain)
  exact ⟨hne, hword, gap, rest, hline, hothers, hrest ▸ hlater⟩

/-- Where both find the same first word, the line is read in two ways if it looks unfinished to one.
-/
theorem atFirst_iff_of_same {line : Text}
    (hsame : (Typed.ofWords line).words.head? = (Typed.ofTokens line).words.head?) :
    ((Typed.ofWords line).AtFirst ↔ (Typed.ofTokens line).AtFirst) ↔ ¬LooksUnfinished line := by
  have hsame : (line.fields CodePoint.isBlank).head? = (Line.tokens line).head? := hsame
  cases hwords : line.fields CodePoint.isBlank with
  | nil =>
    rw [hwords] at hsame
    have htokens : Line.tokens line = [] := List.head?_eq_none_iff.mp hsame.symm
    refine iff_of_true (iff_of_true (.inl hwords) (.inl htokens)) ?_
    rintro ⟨hone, _⟩
    rw [hwords] at hone
    cases hone
  | cons word others =>
    rw [hwords] at hsame
    obtain ⟨later, htokens⟩ := List.head?_eq_some_iff.mp hsame.symm
    obtain ⟨hne, hword, gap, rest, rfl, rfl, rfl⟩ := exists_same_rest hwords htokens
    by_cases hrest : rest = []
    · subst hrest
      -- the line ends in the word
      obtain ⟨c, hc, hlast⟩ := exists_last_of_word hne gap
      rw [atFirst_ofWords_iff hlast hwords, atFirst_ofTokens_iff hlast htokens,
        looksUnfinished_iff hlast hwords]
      obtain ⟨hblank, hdelimiter⟩ := hword c hc
      have hspace : c ≠ CodePoint.ofChar ' ' := by
        rintro rfl
        cases hblank
      have hnone : ∀ isSeparator, Text.fields isSeparator [] = [] := fun _ => rfl
      simp [hnone, hdelimiter, hblank, hspace]
    · -- the line ends in what stands behind the word, and if that has no word in it then in a separator
      obtain ⟨c, hc, hlast⟩ := exists_last_of_rest hrest gap word
      rw [atFirst_ofWords_iff hlast hwords, atFirst_ofTokens_iff hlast htokens,
        looksUnfinished_iff hlast hwords]
      have hpast : ¬(rest.fields Line.isDelimiter = [] ∧ Line.isDelimiter c = false) := by
        rintro ⟨hnone, hother⟩
        rw [(Text.fields_eq_nil_iff rest).mp hnone c hc] at hother
        cases hother
      have hend : rest.fields CodePoint.isBlank = [] → c.isBlank = true :=
        fun hnone => (Text.fields_eq_nil_iff rest).mp hnone c hc
      rw [iff_false_right hpast]
      exact not_congr (and_congr_right fun hnone => (and_iff_right (hend hnone)).symm)

/-- What is offered in the line is what the shell would read there. -/
structure Agrees (line : Text) : Prop where
  /-- The builtins are offered as long as no token is finished, -/
  command : Offers line .command ↔ (Typed.ofTokens line).AtFirst
  /-- and the argument of `proc` is completed behind it. -/
  argument : Offers line .argument ↔ (Typed.ofTokens line).Behind Builtin.proc.name

theorem agrees_iff_context (line : Text) :
    Agrees line ↔ (Typed.ofWords line).context = (Typed.ofTokens line).context := by
  rw [Typed.context_eq_iff, ← offers_command_iff, ← offers_argument_iff]
  exact ⟨fun h => ⟨h.command, h.argument⟩, fun h => ⟨h.1, h.2⟩⟩

theorem agrees_iff_of_same {line : Text}
    (hsame : (Typed.ofWords line).words.head? = (Typed.ofTokens line).words.head?) :
    Agrees line ↔ ¬LooksUnfinished line := by
  rw [agrees_iff_context, Typed.context_eq_iff, Typed.behind_iff, Typed.behind_iff, hsame,
    ← atFirst_iff_of_same hsame]
  exact and_iff_left_of_imp fun hfirst => and_congr_right fun _ => not_congr hfirst

theorem agrees_iff_of_ne {line : Text}
    (hne : (Typed.ofWords line).words.head? ≠ (Typed.ofTokens line).words.head?) :
    Agrees line ↔ ((Typed.ofWords line).AtFirst ↔ (Typed.ofTokens line).AtFirst)
      ∧ ¬(Typed.ofWords line).Behind Builtin.proc.name
      ∧ ¬(Typed.ofTokens line).Behind Builtin.proc.name := by
  have hboth : ¬((Typed.ofWords line).Behind Builtin.proc.name
      ∧ (Typed.ofTokens line).Behind Builtin.proc.name) :=
    fun ⟨hwords, htokens⟩ => hne (hwords.1.trans htokens.1.symm)
  rw [agrees_iff_context, Typed.context_eq_iff]
  refine and_congr_right fun _ => ⟨?_, ?_⟩
  · intro hbehind
    exact ⟨fun h => hboth ⟨h, hbehind.mp h⟩, fun h => hboth ⟨hbehind.mpr h, h⟩⟩
  · rintro ⟨hwords, htokens⟩
    exact iff_of_false hwords htokens

theorem agrees_iff_of_plain {line : Text}
    (hplain : ∀ c ∈ line, c.isBlank = Line.isDelimiter c) :
    Agrees line ↔ ¬((Line.tokens line).length = 1
      ∧ ∃ c ∈ line.getLast?, Line.isDelimiter c = true ∧ c ≠ CodePoint.ofChar ' ') := by
  have hwords : line.fields CodePoint.isBlank = Line.tokens line := Text.fields_congr hplain
  rw [agrees_iff_of_same (congrArg List.head? hwords), LooksUnfinished, hwords]
  refine not_congr (and_congr_right fun _ => exists_congr fun c => and_congr_right fun hc => ?_)
  rw [hplain c (List.mem_of_getLast? hc)]

/-- What is offered depends on the words between white space, and on a space at the end: the
builtins as long as no word is finished, and the argument of `proc` behind that word. It is what the
shell would read there if both find the same first word, unless this is the only one and ends in
white space that is no space. If they do not, it is only where both are at the first word, or both
past a first word other than `proc`. -/
theorem agrees_iff (line : Text) :
    (Offers line .command ↔ (Typed.ofWords line).AtFirst)
      ∧ (Offers line .argument ↔ (Typed.ofWords line).Behind Builtin.proc.name)
      ∧ ((Typed.ofWords line).words.head? = (Typed.ofTokens line).words.head? →
        (Agrees line ↔ ¬LooksUnfinished line))
      ∧ ((Typed.ofWords line).words.head? ≠ (Typed.ofTokens line).words.head? →
        (Agrees line ↔ ((Typed.ofWords line).AtFirst ↔ (Typed.ofTokens line).AtFirst)
          ∧ ¬(Typed.ofWords line).Behind Builtin.proc.name
          ∧ ¬(Typed.ofTokens line).Behind Builtin.proc.name))
      ∧ ((∀ c ∈ line, c.isBlank = Line.isDelimiter c) →
        (Agrees line ↔ ¬((Line.tokens line).length = 1
          ∧ ∃ c ∈ line.getLast?, Line.isDelimiter c = true ∧ c ≠ CodePoint.ofChar ' '))) :=
  ⟨offers_command_iff line, offers_argument_iff line, agrees_iff_of_same, agrees_iff_of_ne,
    agrees_iff_of_plain⟩

/-- Behind `proc` and a space the two agree, and between the word and the space a tab does no harm.
A bell is no white space: behind it the whole line is still the first word. -/
theorem agrees_iff_proc : Agrees "proc 1/" ∧ Agrees "proc\t " ∧ ¬Agrees "proc\x07" := by
  obtain ⟨_, _, _, _, hspace⟩ := agrees_iff "proc 1/"
  obtain ⟨_, _, hsame, _, _⟩ := agrees_iff "proc\t "
  obtain ⟨_, _, _, hother, _⟩ := agrees_iff "proc\x07"
  have hplain : ("proc 1/" : Text).all (fun c => c.isBlank = Line.isDelimiter c) = true := by decide
  have hequal : ∀ c ∈ ("proc 1/" : Text), c.isBlank = Line.isDelimiter c :=
    fun c hc => of_decide_eq_true (List.all_eq_true.mp hplain c hc)
  refine ⟨(hspace hequal).mpr ?_, (hsame (by decide)).mpr ?_, ?_⟩
  · rintro ⟨hone, _⟩
    exact absurd hone (by decide)
  · rintro ⟨_, c, hlast, _, hspace⟩
    have hc : CodePoint.ofChar ' ' = c := Option.some.inj hlast
    exact hspace hc.symm
  · intro hagrees
    have hfirst := ((hother (by decide)).mp hagrees).1
    exact absurd hfirst (by decide)

/-- Behind `proc` and a tab, where the next word would start, the builtins are offered once more:
the shell reads a finished token there. -/
theorem proc_tab_not_agrees :
    (Text.pieces Line.isDelimiter "proc\t").getLast? = some []
      ∧ candidates .default (fun _ => none) [] "proc\t" = .ok Builtin.names
      ∧ ¬(Typed.ofTokens "proc\t").AtFirst
      ∧ (Typed.ofTokens "proc\t").Behind Builtin.proc.name
      ∧ ¬Agrees "proc\t" := by
  have hpast : ¬(Typed.ofTokens "proc\t").AtFirst := by decide
  have hoffered : Offers "proc\t" .command := (offers_command_iff _).mpr (by decide)
  refine ⟨by decide, hoffered .default (fun _ => none) [], hpast, ⟨by decide, .inr (by decide)⟩, ?_⟩
  intro hagrees
  exact hpast (hagrees.command.mp hoffered)

end Completion

end LineShell
