import LineShell.Proofs.Line.Arguments

/- What splitting keeps of a line, and where a line can be parted.

   The tokens one after the other are the line without its delimiters (`flatten_tokens`). So a line
   has tokens exactly if it has anything else than delimiters in it, which can be seen without
   splitting it (`hasArguments_iff`); it has arguments then as well, whatever is decoded. No token
   reaches over a delimiter, and the tokens before it and behind it are those of the line
   (`tokens_append_cons`). All this is said in `split_keeps_characters` of lines whose tokens are
   put into slots, in blocks of any size that can be reserved. -/
namespace LineShell.Line

def withoutDelimiters (line : Text) : Text := line.filter (!isDelimiter ·)

theorem flatten_tokens (line : Text) : (tokens line).flatten = withoutDelimiters line :=
  Text.flatten_fields isDelimiter line

theorem tokens_append_cons {delimiter : CodePoint} (h : isDelimiter delimiter = true)
    (before behind : Text) :
    tokens (before ++ delimiter :: behind) = tokens before ++ tokens behind :=
  Text.fields_append_cons h before behind

/-- A line has arguments exactly if it has tokens. -/
theorem hasArguments_iff (line : Text) : hasArguments line = true ↔ tokens line ≠ [] := by
  have hnone : tokens line = [] ↔ ∀ c ∈ line, isDelimiter c = true := Text.fields_eq_nil_iff line
  rw [Ne, hnone]
  simp [hasArguments]

section

variable {growth : Int} {memory : Memory} (hpos : 1 ≤ growth)
  (hunlimited : Storage.Unlimited growth memory) (line : Text)

include hpos hunlimited

theorem result_parse_of_unlimited (decoder : Text → Option Text) :
    (parse decoder growth memory line).result = .ok (arguments decoder (tokens line)) :=
  (result_parse_eq_ok_iff decoder growth memory line _).mpr
    ⟨Storage.account_fault_eq_none hpos hunlimited _, rfl⟩

theorem result_store_of_unlimited : (store growth memory line).result = .ok (tokens line) := by
  rw [store_eq, result_parse_of_unlimited hpos hunlimited, arguments_undecoded]

end

/-- What is kept of a line that is split into these words, with blocks of `growth` slots. -/
structure KeepsCharacters (growth : Int) (memory : Memory) (line : Text) (words : List Text) :
    Prop where
  /-- The slots hold the words in the end. -/
  stored : (store growth memory line).result = .ok words
  /-- The words one after the other are the line without its delimiters. -/
  joined : words.flatten = withoutDelimiters line
  /-- Looking for anything but delimiters finds out whether there are words. -/
  seen : hasArguments line = true ↔ words ≠ []
  /-- There are arguments exactly if there are words, whatever is decoded. -/
  decoded : ∀ decoder, ∃ vector, (parse decoder growth memory line).result = .ok vector
    ∧ (vector ≠ [] ↔ words ≠ [])
  /-- At a delimiter the line can be parted. -/
  parted : ∀ before delimiter behind, isDelimiter delimiter = true →
    line = before ++ delimiter :: behind →
    ∃ first last, (store growth memory before).result = .ok first
      ∧ (store growth memory behind).result = .ok last ∧ words = first ++ last

theorem keepsCharacters_tokens {growth : Int} (hpos : 1 ≤ growth) {memory : Memory}
    (hunlimited : Storage.Unlimited growth memory) (line : Text) :
    KeepsCharacters growth memory line (tokens line) where
  stored := result_store_of_unlimited hpos hunlimited line
  joined := flatten_tokens line
  seen := hasArguments_iff line
  decoded decoder :=
    ⟨_, result_parse_of_unlimited hpos hunlimited line decoder,
      not_congr (arguments_eq_nil_iff decoder (tokens line))⟩
  parted before delimiter behind hdelimiter hline := by
    refine ⟨_, _, result_store_of_unlimited hpos hunlimited before,
      result_store_of_unlimited hpos hunlimited behind, ?_⟩
    rw [hline, tokens_append_cons hdelimiter]

/-- Splitting loses the delimiters of a line and nothing else, if a block has slots and there is no
allocation limit. So there are words exactly if there is anything but delimiters, and exactly if
there are arguments; and the words of a line are those before any of its delimiters and those behind
it. Blocks that cannot be reserved are the exception: with them no line is split at all. -/
theorem split_keeps_characters {growth : Int} (hpos : 1 ≤ growth) (memory : Memory)
    (line : Text) :
    (Storage.Unlimited growth memory → ∃ words, KeepsCharacters growth memory line words)
      ∧ ∀ fault, Storage.FirstBlockFails growth memory fault →
        store growth memory line = ⟨[], .error fault⟩
          ∧ ∀ decoder, parse decoder growth memory line = ⟨[], .error fault⟩ := by
  refine ⟨?_, ?_⟩
  · intro hunlimited
    exact ⟨tokens line, keepsCharacters_tokens hpos hunlimited line⟩
  · intro fault hfails
    have hparse := parse_of_firstBlockFails hfails
    refine ⟨?_, fun decoder => hparse decoder line⟩
    rw [store_eq, hparse]

/-- A bell ends a token and is lost, a form feed stays in one. -/
theorem split_keeps_characters_bell :
    ∃ words, KeepsCharacters 1 {} "\x07ls\x07-\x0c \r\n" words ∧ words.flatten = "ls-\x0c"
      ∧ words ≠ [] := by
  have hpos : (1 : Int) ≤ 1 := by decide
  obtain ⟨hkeeps, _⟩ := split_keeps_characters hpos {} "\x07ls\x07-\x0c \r\n"
  obtain ⟨words, hwords⟩ := hkeeps ⟨⟨rfl, rfl⟩, rfl⟩
  refine ⟨words, hwords, ?_, hwords.seen.mp (by decide)⟩
  rw [hwords.joined]
  decide

/-- Blocks of more slots than the machine counts keep nothing of a line that has words in it, although
nothing limits the storage. -/
theorem store_loses_characters :
    (1 : Int) ≤ 0x8000000000000000 ∧ ({} : Memory).slots = none ∧ hasArguments "a b" = true
      ∧ withoutDelimiters "a b" = "ab"
      ∧ store 0x8000000000000000 {} "a b" = ⟨[], .error .sizeOutOfRange⟩ :=
  ⟨by decide, rfl, by decide, by decide, rfl⟩

end LineShell.Line
