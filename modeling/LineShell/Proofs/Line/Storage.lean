import LineShell.Line.Storage

/- When the tokens of a line can be stored.

   A growth is asked for as soon as the last slot is filled, so storage that starts with room for a
   token always has a free slot for the next one, and can only be exhausted (`fill_fault`). Without
   a bound it is not even that; with one it has grown as far as that goes (`GrowsUntil`). A line
   that is stored has grown it once for each block that is full (`growths_account`).

   The first block can be reserved for every line or for none (`reserves_or_fails`). If it can, and
   nothing bounds what comes after it, there is no allocation limit (`Unlimited`). -/
namespace LineShell.Storage

/-- The first block can be reserved. -/
structure Reserves (growth : Int) (memory : Memory) : Prop where
  size : isMachineSize growth = true
  first : fits memory.firstBlock growth.toNat = true

/-- There is no allocation limit: the first block can be reserved, and any number of blocks after
it. -/
structure Unlimited (growth : Int) (memory : Memory) : Prop extends Reserves growth memory where
  later : memory.slots = none

/-- The first block cannot be reserved, and so no line at all can be stored. -/
inductive FirstBlockFails (growth : Int) (memory : Memory) : Fault → Prop where
  | sizeOutOfRange (h : isMachineSize growth = false) :
    FirstBlockFails growth memory .sizeOutOfRange
  | outOfMemory (hsize : isMachineSize growth = true)
      (h : fits memory.firstBlock growth.toNat = false) :
    FirstBlockFails growth memory .outOfMemory

theorem account_of_firstBlockFails {growth : Int} {memory : Memory} {fault : Fault}
    (h : FirstBlockFails growth memory fault) (tokens : Nat) :
    account growth memory tokens = ⟨[], some fault⟩ := by
  cases h with
  | sizeOutOfRange hsize => simp [account, hsize]
  | outOfMemory hsize hfirst => simp [account, hsize, hfirst]

theorem reserves_or_fails (growth : Int) (memory : Memory) :
    Reserves growth memory ∨ ∃ fault, FirstBlockFails growth memory fault := by
  cases hsize : isMachineSize growth with
  | false => exact .inr ⟨_, .sizeOutOfRange hsize⟩
  | true =>
    cases hfirst : fits memory.firstBlock growth.toNat with
    | false => exact .inr ⟨_, .outOfMemory hsize hfirst⟩
    | true => exact .inl ⟨hsize, hfirst⟩

theorem Reserves.account_eq {growth : Int} {memory : Memory} (h : Reserves growth memory)
    (tokens : Nat) :
    account growth memory tokens = fill growth.toNat memory.slots tokens 0 growth.toNat := by
  rw [account, h.size, h.first]
  rfl

theorem account_cases (growth : Int) (memory : Memory) (tokens : Nat) :
    (∃ fault, FirstBlockFails growth memory fault ∧ account growth memory tokens = ⟨[], some fault⟩)
      ∨ account growth memory tokens = fill growth.toNat memory.slots tokens 0 growth.toNat := by
  rcases reserves_or_fails growth memory with hreserved | ⟨fault, hfails⟩
  · exact .inr (hreserved.account_eq tokens)
  · exact .inl ⟨fault, hfails, account_of_firstBlockFails hfails tokens⟩

/-! ## The blocks behind the first -/

theorem fill_fault_eq_none {block : Nat} (hblock : 0 < block) (remaining count capacity : Nat)
    (hroom : count < capacity) : (fill block none remaining count capacity).fault = none := by
  induction remaining generalizing count capacity with
  | zero => rfl
  | succ remaining ih =>
    rw [fill, if_neg (by omega)]
    split
    · next h => exact ih (count + 1) capacity h
    · have hfits : fits none (capacity + block) = true := rfl
      rw [if_pos hfits]
      exact ih (count + 1) (capacity + block) (by omega)

/-- As long as a slot is free, growing is all that can fail. -/
theorem fill_fault {block : Nat} (hblock : 0 < block) (limit : Option Nat)
    (remaining count capacity : Nat) (hroom : count < capacity) :
    (fill block limit remaining count capacity).fault = none
      ∨ (fill block limit remaining count capacity).fault = some .exhausted := by
  induction remaining generalizing count capacity with
  | zero => exact .inl rfl
  | succ remaining ih =>
    rw [fill, if_neg (by omega)]
    split
    · next h => exact ih (count + 1) capacity h
    · split
      -- a block has at least one slot, so there is room again after growing
      · exact ih (count + 1) (capacity + block) (by omega)
      · exact .inr rfl

/-- The capacities that storage grows to, one block after the other, until there is no memory for the
next one. -/
inductive GrowsUntil (block : Nat) (limit : Option Nat) : (capacity : Nat) → List Nat → Prop where
  | exhausted {capacity : Nat} (h : fits limit (capacity + block) = false) :
    GrowsUntil block limit capacity []
  | grows {capacity : Nat} {later : List Nat} (h : fits limit (capacity + block) = true)
      (hlater : GrowsUntil block limit (capacity + block) later) :
    GrowsUntil block limit capacity ((capacity + block) :: later)

theorem growsUntil_of_fill {block : Nat} {limit : Option Nat} {remaining count capacity : Nat}
    (h : (fill block limit remaining count capacity).fault = some .exhausted) :
    GrowsUntil block limit capacity (fill block limit remaining count capacity).growths := by
  induction remaining generalizing count capacity with
  | zero => cases h
  | succ remaining ih =>
    rw [fill] at h ⊢
    split at h
    · cases h
    · next hroom =>
      rw [if_neg hroom]
      split at h
      · next hfree =>
        rw [if_pos hfree]
        exact ih h
      · next hfull =>
        rw [if_neg hfull]
        split at h
        · next hfits =>
          rw [if_pos hfits]
          exact .grows hfits (ih h)
        · next hlimit =>
          rw [if_neg hlimit]
          exact .exhausted (Bool.eq_false_iff.mpr hlimit)

theorem filled_eq {block count filled : Nat} (hlow : block * filled ≤ count)
    (hroom : count < block * (filled + 1)) : count / block = filled :=
  Nat.div_eq_of_lt_le (by rwa [Nat.mul_comm]) (by rwa [Nat.mul_comm])

theorem lt_filled {block count filled : Nat} (hblock : 0 < block)
    (hfull : ¬ count + 1 < block * (filled + 1)) (remaining : Nat) :
    filled + 1 ≤ (count + 1 + remaining) / block := by
  rw [Nat.le_div_iff_mul_le hblock, Nat.mul_comm]
  omega

/-- Storage that has room for all tokens has grown by one block for each block that they fill. -/
theorem growths_fill {block : Nat} (hblock : 0 < block) {limit : Option Nat}
    {remaining count : Nat} (filled : Nat) (hlow : block * filled ≤ count)
    (hroom : count < block * (filled + 1))
    (h : (fill block limit remaining count (block * (filled + 1))).fault = none) :
    (fill block limit remaining count (block * (filled + 1))).growths
      = (List.range' (filled + 2) ((count + remaining) / block - filled)).map (block * ·) := by
  induction remaining generalizing count filled with
  | zero =>
    have hfilled : (count + 0) / block = filled := filled_eq hlow hroom
    rw [hfilled, Nat.sub_self]
    rfl
  | succ remaining ih =>
    have hcount : count + (remaining + 1) = count + 1 + remaining := by omega
    rw [fill, if_neg (by omega)] at h ⊢
    rw [hcount]
    split at h
    · next hfree =>
      rw [if_pos hfree]
      exact ih filled (by omega) hfree h
    · next hfull =>
      rw [if_neg hfull]
      split at h
      · next hfits =>
        rw [if_pos hfits]
        -- the token fills a block, and the next one starts with a free slot
        have hgrown : block * (filled + 1) + block = block * (filled + 1 + 1) := rfl
        have hmore := lt_filled hblock hfull remaining
        have hblocks : (count + 1 + remaining) / block - filled
            = (count + 1 + remaining) / block - (filled + 1) + 1 := by omega
        rw [hblocks, List.range'_succ, List.map_cons]
        exact congrArg (block * (filled + 1 + 1) :: ·) (ih (filled + 1) (by omega) (by omega) h)
      · cases h

/-! ## The account -/

theorem account_fault_eq_none {growth : Int} {memory : Memory} (hpos : 1 ≤ growth)
    (h : Unlimited growth memory) (tokens : Nat) :
    (account growth memory tokens).fault = none := by
  rw [h.account_eq, h.later]
  exact fill_fault_eq_none (by omega) tokens 0 growth.toNat (by omega)

theorem account_fault_eq_some_iff {growth : Int} (hpos : 1 ≤ growth) (memory : Memory)
    (tokens : Nat) {fault : Fault} (hfault : fault ≠ .exhausted) :
    (account growth memory tokens).fault = some fault ↔ FirstBlockFails growth memory fault := by
  refine ⟨fun h => ?_, fun h => by rw [account_of_firstBlockFails h]⟩
  rcases account_cases growth memory tokens with ⟨other, hfails, haccount⟩ | haccount
  · rw [haccount] at h
    exact Option.some.inj h ▸ hfails
  · -- the first block is there and has a free slot, so only growing can have failed
    have hblock : 0 < growth.toNat := by omega
    have hfill := fill_fault hblock memory.slots tokens 0 growth.toNat hblock
    rw [← haccount, h] at hfill
    rcases hfill with hnone | hexhausted
    · cases hnone
    · exact absurd (Option.some.inj hexhausted) hfault

theorem growsUntil_of_account {growth : Int} {memory : Memory} {tokens : Nat}
    (h : (account growth memory tokens).fault = some .exhausted) :
    GrowsUntil growth.toNat memory.slots growth.toNat (account growth memory tokens).growths := by
  rcases account_cases growth memory tokens with ⟨fault, hfails, haccount⟩ | haccount
  · rw [haccount] at h
    cases Option.some.inj h
    cases hfails
  · rw [haccount] at h ⊢
    exact growsUntil_of_fill h

/-- A line that is stored has grown the storage by one block for each block that its tokens fill. -/
theorem growths_account {growth : Int} (hpos : 1 ≤ growth) {memory : Memory} {tokens : Nat}
    (h : (account growth memory tokens).fault = none) :
    (account growth memory tokens).growths
      = (List.range' 2 (tokens / growth.toNat)).map (growth.toNat * ·) := by
  rcases account_cases growth memory tokens with ⟨fault, _, haccount⟩ | haccount
  · rw [haccount] at h
    cases h
  · rw [haccount] at h ⊢
    have hblock : 0 < growth.toNat := by omega
    have hgrowths := growths_fill hblock 0 (Nat.zero_le 0) (by omega) (by simpa using h)
    simpa using hgrowths

end LineShell.Storage
