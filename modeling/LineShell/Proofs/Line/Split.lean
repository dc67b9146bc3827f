import LineShell.Line.Arguments
import LineShell.Proofs.Line.Storage
import LineShell.Proofs.Text.Words

/- Splitting a line into tokens.

   The tokens are put into slots one after the other, and slots are added a block at a time whenever
   the last one was filled (`Storage.place`). As long as some slot is free the next token has a
   place, so the slots that are filled are always the tokens so far (`place_eq`), and the loop comes
   to what reading a line without decoding comes to (`store_eq`). Its answer is the one list of
   tokens that the line is written from, and does not depend on the size of a block
   (`split_unique`); blocks without slots have room for no token, and blocks of more slots than the
   machine counts cannot be reserved for any line (`split_hugeBlock`). -/
namespace LineShell

namespace Storage

/-- What is read of a line when its tokens make `arguments` and are stored by this account. -/
def Account.parsed (a : Account) (arguments : List Text) : Line.Parsed where
  entries := a.entries
  result := match a.fault with
    | some fault => .error fault
    | none => .ok arguments

/-- Put the pieces of a line into slots, of which the first `filled` are in use. Empty pieces are
passed over; behind the last slot a block of empty ones is added. The slots in use are the answer.
-/
def place (block : Nat) (limit : Option Nat) :
    (slots : List Text) → (filled : Nat) → List Text → Line.Parsed
  | slots, filled, [] => ⟨[], .ok (slots.take filled)⟩
  | slots, filled, piece :: later =>
    if piece.isEmpty then place block limit slots filled later
    else if slots.length ≤ filled then ⟨[], .error .noSlot⟩
    else
      let slots := slots.set filled piece
      if filled + 1 < slots.length then place block limit slots (filled + 1) later
      else if fits limit (slots.length + block) then
        let grown := slots ++ List.replicate block []
        let rest := place block limit grown (filled + 1) later
        { rest with entries := growthEntry grown.length :: rest.entries }
      else ⟨[], .error .exhausted⟩

theorem take_succ_set {slots : List Text} {filled : Nat} (h : filled < slots.length)
    (token : Text) : (slots.set filled token).take (filled + 1) = slots.take filled ++ [token] := by
  rw [List.take_add_one, List.take_set_of_le (Nat.le_refl filled), List.getElem?_set_self h]
  rfl

/-- The slots in use are the tokens so far, and the next one is always free unless a block has none.
-/
theorem place_eq (block : Nat) (limit : Option Nat) {slots : List Text} {filled : Nat}
    (h : filled ≤ slots.length) (pieces : List Text) :
    place block limit slots filled pieces
      = (fill block limit (pieces.filter (!·.isEmpty)).length filled slots.length).parsed
          (slots.take filled ++ pieces.filter (!·.isEmpty)) := by
  induction pieces generalizing slots filled with
  | nil =>
    rw [place, List.filter_nil, List.append_nil]
    rfl
  | cons piece later ih =>
    rw [place]
    split
    · next hempty =>
      rw [ih h, List.filter_cons_of_neg (by simp [hempty])]
    · next htoken =>
      rw [List.filter_cons_of_pos (by simpa using htoken), List.length_cons, fill]
      split
      · rfl
      · next hroom =>
        have hfree : filled < slots.length := Nat.lt_of_not_le hroom
        simp only [List.length_set]
        split
        · next hmore =>
          rw [ih (by rw [List.length_set]; exact hfree), take_succ_set hfree, List.length_set,
            List.append_assoc]
          rfl
        · split
          · -- all slots are in use, and those of the new block follow them
            have hused : filled + 1 ≤ (slots.set filled piece).length := by
              rw [List.length_set]
              exact hfree
            have hgrown : (slots.set filled piece ++ List.replicate block ([] : Text)).length
                = slots.length + block := by
              rw [List.length_append, List.length_set, List.length_replicate]
            rw [ih (by omega), List.take_append_of_le_length hused, take_succ_set hfree, hgrown,
              List.append_assoc]
            rfl
          · rfl

end Storage

namespace Line

section

variable (decoder : Text → Option Text) (growth : Int) (memory : Memory) (line : Text)

theorem result_parse_eq_ok_iff (vector : List Text) :
    (parse decoder growth memory line).result = .ok vector
      ↔ (Storage.account growth memory (tokens line).length).fault = none
        ∧ arguments decoder (tokens line) = vector := by
  rw [parse]
  cases (Storage.account growth memory (tokens line).length).fault <;> simp

theorem result_parse_eq_error_iff (fault : Storage.Fault) :
    (parse decoder growth memory line).result = .error fault
      ↔ (Storage.account growth memory (tokens line).length).fault = some fault := by
  rw [parse]
  cases (Storage.account growth memory (tokens line).length).fault <;> simp

end

def undecoded : Text → Option Text := fun _ => none

theorem arguments_undecoded (tokens : List Text) : arguments undecoded tokens = tokens := by
  cases tokens with
  | nil => rfl
  | cons command tokens =>
    have hsame : tokens.map (decodeArgument undecoded) = tokens := List.map_id tokens
    rw [arguments, hsame, ite_self]

/-- Split a line by putting its pieces into slots, of which the first block is reserved before. -/
def store (growth : Int) (memory : Memory) (line : Text) : Parsed :=
  if !isMachineSize growth then ⟨[], .error .sizeOutOfRange⟩
  else if !Storage.fits memory.firstBlock growth.toNat then ⟨[], .error .outOfMemory⟩
  else Storage.place growth.toNat memory.slots (List.replicate growth.toNat []) 0
    (line.pieces isDelimiter)

theorem parse_undecoded (growth : Int) (memory : Memory) (line : Text) :
    parse undecoded growth memory line
      = (Storage.account growth memory (tokens line).length).parsed (tokens line) := by
  rw [parse, arguments_undecoded]
  rfl

/-- Putting the tokens into slots comes to the same as reading the line. -/
theorem store_eq (growth : Int) (memory : Memory) (line : Text) :
    store growth memory line = parse undecoded growth memory line := by
  rw [parse_undecoded, store, Storage.account]
  split
  · rfl
  · split
    · rfl
    · rw [Storage.place_eq _ _ (Nat.zero_le _), List.length_replicate]
      rfl

theorem parse_of_firstBlockFails {growth : Int} {memory : Memory} {fault : Storage.Fault}
    (h : Storage.FirstBlockFails growth memory fault) (decoder : Text → Option Text) (line : Text) :
    parse decoder growth memory line = ⟨[], .error fault⟩ := by
  rw [parse, Storage.account_of_firstBlockFails h]
  rfl

theorem parse_slotless {growth : Int} {memory : Memory} (hnone : growth ≤ 0)
    (hreserved : Storage.Reserves growth memory) (line : Text) :
    parse undecoded growth memory line
      = ⟨[], if tokens line = [] then .ok [] else .error .noSlot⟩ := by
  have hblock : growth.toNat = 0 := Int.toNat_eq_zero.mpr hnone
  rw [parse_undecoded, hreserved.account_eq, hblock]
  cases tokens line with
  | nil => rfl
  | cons token later => rfl

/-- What comes of a line that is written from these words, with blocks of `growth` slots. -/
structure SplitsInto (growth : Int) (memory : Memory) (line : Text) (words : List Text) : Prop where
  /-- Filling slots comes to reading the line. -/
  slots : store growth memory line = parse undecoded growth memory line
  /-- Blocks with slots have room for all words, if nothing limits their number. -/
  stored : 1 ≤ growth → Storage.Unlimited growth memory →
    (parse undecoded growth memory line).result = .ok words
  /-- Blocks without slots have room for none. -/
  slotless : growth ≤ 0 → Storage.Reserves growth memory →
    parse undecoded growth memory line = ⟨[], if words = [] then .ok [] else .error .noSlot⟩
  /-- A first block that cannot be reserved fails whatever the words are. -/
  refused : ∀ fault, Storage.FirstBlockFails growth memory fault →
    parse undecoded growth memory line = ⟨[], .error fault⟩

theorem splitsInto_tokens (growth : Int) (memory : Memory) (line : Text) :
    SplitsInto growth memory line (tokens line) where
  slots := store_eq growth memory line
  stored hpos hunlimited := by
    rw [parse_undecoded, Storage.Account.parsed, Storage.account_fault_eq_none hpos hunlimited]
  slotless hnone hreserved := parse_slotless hnone hreserved line
  refused _ hfirst := parse_of_firstBlockFails hfirst undecoded line

/-- There is one list of words that a line is written from. With any block that has slots and without
an allocation limit they are what the line is split into, and every other line that is written from
them as well. -/
theorem split_unique (line : Text) :
    ∃ words, (∀ others, Text.IsWrittenFrom isDelimiter others line ↔ others = words)
      ∧ ∀ written, Text.IsWrittenFrom isDelimiter words written →
        ∀ growth memory, SplitsInto growth memory written words := by
  refine ⟨tokens line, ?_, ?_⟩
  · intro others
    rw [Text.isWrittenFrom_iff]
    exact eq_comm
  · intro written hwritten growth memory
    have htokens : tokens written = tokens line := (Text.isWrittenFrom_iff _ _).mp hwritten
    rw [← htokens]
    exact splitsInto_tokens growth memory written

/-- Two words behind a tab, with blocks of one slot and with blocks of none. -/
theorem split_twoWords :
    (parse undecoded 1 {} "\ta \r\nb").result = .ok ["a", "b"]
      ∧ (parse undecoded 0 {} "a b").result = .error .noSlot := by
  obtain ⟨words, hunique, hsplit⟩ := split_unique "a b"
  have hwords : (["a", "b"] : List Text) = words :=
    (hunique _).mp ((Text.isWrittenFrom_iff _ _).mpr (by decide))
  have hspaced : Text.IsWrittenFrom isDelimiter words "\ta \r\nb" :=
    hwords ▸ (Text.isWrittenFrom_iff _ _).mpr (by decide)
  refine ⟨?_, ?_⟩
  · rw [(hsplit _ hspaced 1 {}).stored (by decide) ⟨⟨rfl, rfl⟩, rfl⟩, ← hwords]
  · have hline : Text.IsWrittenFrom isDelimiter words "a b" := (hunique words).mpr rfl
    rw [(hsplit _ hline 0 {}).slotless (by decide) ⟨rfl, rfl⟩, ← hwords]
    rfl

/-- Blocks of more slots than the machine counts store no line at all, although nothing limits the
storage. -/
theorem split_hugeBlock :
    Text.IsWrittenFrom isDelimiter ["a", "b"] "a b"
      ∧ (1 : Int) ≤ 0x8000000000000000
      ∧ (parse undecoded 0x8000000000000000 {} "a b").result = .error .sizeOutOfRange
      ∧ (parse undecoded 64 {} "a b").result = .ok ["a", "b"] :=
  ⟨(Text.isWrittenFrom_iff _ _).mpr (by decide), by decide, rfl, rfl⟩

end Line

end LineShell
