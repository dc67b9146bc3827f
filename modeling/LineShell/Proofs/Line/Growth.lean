import LineShell.Proofs.Line.Split

/- How far the storage of a line grows when there is a greatest number of slots.

   The token that fills the last slot asks for the next block at once, whether or not another token
   comes. So a line needs one block for each block that its tokens fill, and one more
   (`fill_fault_eq_none_iff`); it is stored if the last of them fits, and the records name the
   capacities in between. If it does not fit, the records name every capacity beyond the first block
   that does (`mem_of_growsUntil`). Both are put together in `parse_bounded`. -/
namespace LineShell

namespace Storage

theorem fits_of_le {limit : Option Nat} {fewer more : Nat} (hle : fewer ≤ more)
    (h : fits limit more = true) : fits limit fewer = true := by
  cases limit with
  | none => rfl
  | some limit =>
    have hmore : more ≤ limit := of_decide_eq_true h
    exact decide_eq_true (Nat.le_trans hle hmore)

/-- Storage has room for tokens if they do not fill the blocks that are there, or else if the block
behind the last one that they fill fits. -/
theorem fill_fault_eq_none_iff {block : Nat} (hblock : 0 < block) {limit : Option Nat}
    {remaining count : Nat} (filled : Nat) (hlow : block * filled ≤ count)
    (hroom : count < block * (filled + 1)) :
    (fill block limit remaining count (block * (filled + 1))).fault = none
      ↔ (count + remaining) / block = filled
        ∨ fits limit (block * ((count + remaining) / block + 1)) = true := by
  induction remaining generalizing count filled with
  | zero =>
    exact iff_of_true rfl (.inl (filled_eq hlow hroom))
  | succ remaining ih =>
    have hcount : count + (remaining + 1) = count + 1 + remaining := by omega
    rw [fill, if_neg (by omega), hcount]
    split
    · next hfree => exact ih filled (by omega) hfree
    · next hfull =>
      -- this token fills a block, so at least one block more is filled in the end
      have hgrown : block * (filled + 1) + block = block * (filled + 1 + 1) := rfl
      have hmore := lt_filled hblock hfull remaining
      have hother : (count + 1 + remaining) / block ≠ filled := by omega
      rw [hgrown]
      split
      · next hfits =>
        refine Iff.trans (ih (filled + 1) (by omega) (by omega)) ⟨?_, ?_⟩
        · rintro (hlast | hlast)
          · rw [hlast]
            exact .inr hfits
          · exact .inr hlast
        · rintro (hlast | hlast)
          · exact absurd hlast hother
          · exact .inr hlast
      · next hlimit =>
        -- the last block is this one or one behind it, and does not fit either
        refine iff_of_false (by simp) ?_
        rintro (hlast | hlast)
        · exact hother hlast
        · exact hlimit (fits_of_le (Nat.mul_le_mul_left block (by omega)) hlast)

/-- The capacities that storage grows to before it is exhausted are all that there is memory for. -/
theorem mem_of_growsUntil {block : Nat} {limit : Option Nat} {capacity : Nat} {growths : List Nat}
    (h : GrowsUntil block limit capacity growths) (grown : Nat) :
    grown ∈ growths
      ↔ ∃ blocks, 1 ≤ blocks ∧ grown = capacity + blocks * block ∧ fits limit grown = true := by
  induction h with
  | @exhausted capacity hlimit =>
    refine iff_of_false List.not_mem_nil ?_
    rintro ⟨blocks, hblocks, rfl, hfits⟩
    have hnext : capacity + block ≤ capacity + blocks * block :=
      Nat.add_le_add_left (Nat.le_mul_of_pos_left block hblocks) capacity
    rw [fits_of_le hnext hfits] at hlimit
    cases hlimit
  | @grows capacity later hfits _ ih =>
    rw [List.mem_cons, ih]
    refine ⟨?_, ?_⟩
    · rintro (rfl | ⟨blocks, hblocks, rfl, hgrown⟩)
      · exact ⟨1, Nat.le_refl 1, by rw [Nat.one_mul], hfits⟩
      · refine ⟨blocks + 1, by omega, ?_, hgrown⟩
        rw [Nat.succ_mul]
        omega
    · rintro ⟨blocks, hblocks, rfl, hgrown⟩
      obtain ⟨more, rfl⟩ := Nat.exists_eq_add_of_le hblocks
      cases more with
      | zero => exact .inl (by rw [Nat.add_zero, Nat.one_mul])
      | succ more =>
        refine .inr ⟨more + 1, by omega, ?_, hgrown⟩
        rw [Nat.add_mul, Nat.one_mul]
        omega

theorem pairwise_of_growsUntil {block : Nat} (hblock : 0 < block) {limit : Option Nat}
    {capacity : Nat} {growths : List Nat} (h : GrowsUntil block limit capacity growths) :
    growths.Pairwise (· < ·) := by
  induction h with
  | exhausted => exact .nil
  | @grows capacity later _ hlater ih =>
    refine List.pairwise_cons.mpr ⟨?_, ih⟩
    intro grown hgrown
    obtain ⟨blocks, hblocks, rfl, _⟩ := (mem_of_growsUntil hlater grown).mp hgrown
    exact Nat.lt_add_of_pos_right (Nat.mul_pos hblocks hblock)

/-- The tokens fill no block, or the block behind the last one that they fill is within the limit. -/
def HasRoom (block limit tokens : Nat) : Prop :=
  tokens / block = 0 ∨ block * (tokens / block + 1) ≤ limit

theorem HasRoom.mono {block limit larger tokens fewer : Nat} (h : HasRoom block limit tokens)
    (hlimit : limit ≤ larger) (hfewer : fewer ≤ tokens) : HasRoom block larger fewer := by
  have hblocks : fewer / block ≤ tokens / block := Nat.div_le_div_right hfewer
  rcases h with hnone | hlast
  · exact .inl (Nat.eq_zero_of_le_zero (hnone ▸ hblocks))
  · have hneeded : block * (fewer / block + 1) ≤ block * (tokens / block + 1) :=
      Nat.mul_le_mul_left block (by omega)
    exact .inr (by omega)

theorem hasRoom_block_iff {block : Nat} (hblock : 0 < block) (limit : Nat) :
    HasRoom block limit block ↔ 2 * block ≤ limit := by
  rw [HasRoom, Nat.div_self hblock, Nat.mul_comm block]
  simp

variable {growth : Int} {firstBlock : Option Nat} {limit tokens : Nat}

theorem account_fault_eq_none_iff (hpos : 1 ≤ growth)
    (hreserved : Reserves growth ⟨firstBlock, some limit⟩) :
    (account growth ⟨firstBlock, some limit⟩ tokens).fault = none
      ↔ HasRoom growth.toNat limit tokens := by
  have hblock : 0 < growth.toNat := by omega
  have hfill := @fill_fault_eq_none_iff growth.toNat hblock (some limit) tokens 0 0 (Nat.zero_le 0)
    (by omega)
  rw [hreserved.account_eq, HasRoom]
  simpa [fits] using hfill

theorem account_of_not_hasRoom (hpos : 1 ≤ growth)
    (hreserved : Reserves growth ⟨firstBlock, some limit⟩)
    (h : ¬ HasRoom growth.toNat limit tokens) :
    ∃ capacities : List Nat,
      account growth ⟨firstBlock, some limit⟩ tokens = ⟨capacities, some .exhausted⟩
      ∧ capacities.Pairwise (· < ·)
      ∧ ∀ capacity, capacity ∈ capacities
        ↔ ∃ blocks, 1 ≤ blocks ∧ capacity = (blocks + 1) * growth.toNat ∧ capacity ≤ limit := by
  have hblock : 0 < growth.toNat := by omega
  have hfault : (account growth ⟨firstBlock, some limit⟩ tokens).fault = some .exhausted := by
    have hfill := fill_fault hblock (some limit) tokens 0 growth.toNat hblock
    rw [← account_fault_eq_none_iff hpos hreserved] at h
    rw [hreserved.account_eq] at h ⊢
    exact hfill.resolve_left h
  have hgrowths := growsUntil_of_account hfault
  refine ⟨_, ?_, pairwise_of_growsUntil hblock hgrowths, ?_⟩
  · rw [← hfault]
  · intro capacity
    rw [mem_of_growsUntil hgrowths]
    refine exists_congr fun blocks => ?_
    rw [Nat.succ_mul, Nat.add_comm (blocks * growth.toNat)]
    simp [fits]

end Storage

namespace Line

/-- What splitting a line comes to when its storage can grow to `limit` slots. -/
structure SplitsWithin (growth : Int) (firstBlock : Option Nat) (limit : Nat) (line : Text) :
    Prop where
  /-- With room for it the line is stored, and each block that its tokens fill has made the storage
  grow by one block. -/
  stored : Storage.HasRoom growth.toNat limit (tokens line).length →
    parse undecoded growth ⟨firstBlock, some limit⟩ line
      = ⟨(List.range' 2 ((tokens line).length / growth.toNat)).map fun blocks =>
            Storage.growthEntry (growth.toNat * blocks),
          .ok (tokens line)⟩
  /-- Without, it fails behind the last capacity that is within the limit. -/
  exhausted : ¬ Storage.HasRoom growth.toNat limit (tokens line).length →
    ∃ capacities : List Nat, parse undecoded growth ⟨firstBlock, some limit⟩ line
        = ⟨capacities.map Storage.growthEntry, .error .exhausted⟩
      ∧ capacities.Pairwise (· < ·)
      ∧ ∀ capacity, capacity ∈ capacities
        ↔ ∃ blocks, 1 ≤ blocks ∧ capacity = (blocks + 1) * growth.toNat ∧ capacity ≤ limit
  /-- As many tokens as the first block has slots need a second one. -/
  full : (tokens line).length = growth.toNat →
    ((parse undecoded growth ⟨firstBlock, some limit⟩ line).result = .ok (tokens line)
      ↔ 2 * growth.toNat ≤ limit)
  /-- A line with no more tokens and a limit that is no smaller does not fail if this one does not. -/
  mono : (parse undecoded growth ⟨firstBlock, some limit⟩ line).result = .ok (tokens line) →
    ∀ (larger : Nat) (shorter : Text), limit ≤ larger →
      (tokens shorter).length ≤ (tokens line).length →
      (parse undecoded growth ⟨firstBlock, some larger⟩ shorter).result = .ok (tokens shorter)

theorem stored_iff_hasRoom {growth : Int} (hpos : 1 ≤ growth) {firstBlock : Option Nat}
    {limit : Nat} (hreserved : Storage.Reserves growth ⟨firstBlock, some limit⟩) (line : Text) :
    (parse undecoded growth ⟨firstBlock, some limit⟩ line).result = .ok (tokens line)
      ↔ Storage.HasRoom growth.toNat limit (tokens line).length := by
  rw [result_parse_eq_ok_iff, arguments_undecoded,
    ← Storage.account_fault_eq_none_iff hpos hreserved]
  exact and_iff_left rfl

/-- Splitting a line when storage can grow to `limit` slots and no further, in blocks of which the
first can be reserved. Only the number of tokens decides whether it is stored, and how often it has
grown the storage then. -/
theorem parse_bounded {growth : Int} (hpos : 1 ≤ growth) {firstBlock : Option Nat} {limit : Nat}
    (hreserved : Storage.Reserves growth ⟨firstBlock, some limit⟩) (line : Text) :
    SplitsWithin growth firstBlock limit line where
  stored := by
    intro hroom
    have hfault := (Storage.account_fault_eq_none_iff hpos hreserved).mpr hroom
    rw [parse_undecoded, Storage.Account.parsed, hfault, Storage.Account.entries,
      Storage.growths_account hpos hfault, List.map_map]
    rfl
  exhausted := by
    intro hroom
    obtain ⟨capacities, haccount, hsorted, hmem⟩ :=
      Storage.account_of_not_hasRoom hpos hreserved hroom
    refine ⟨capacities, ?_, hsorted, hmem⟩
    rw [parse_undecoded, haccount]
    rfl
  full := by
    intro hfull
    rw [stored_iff_hasRoom hpos hreserved, hfull]
    exact Storage.hasRoom_block_iff (by omega) limit
  mono := by
    intro hstored larger shorter hlarger hshorter
    -- another limit does not matter to the first block
    have hlarge : Storage.Reserves growth ⟨firstBlock, some larger⟩ :=
      ⟨hreserved.size, hreserved.first⟩
    rw [stored_iff_hasRoom hpos hreserved] at hstored
    rw [stored_iff_hasRoom hpos hlarge]
    exact hstored.mono hlarger hshorter

/-- Five tokens in blocks of two slots fill two blocks and need three: six slots are enough for
them, five are not. -/
theorem parse_bounded_fiveTokens :
    (1 : Int) ≤ 2 ∧ (∀ limit, Storage.Reserves 2 ⟨some 1000, some limit⟩)
      ∧ parse undecoded 2 ⟨some 1000, some 6⟩ "a b c d e"
        = ⟨[Storage.growthEntry 4, Storage.growthEntry 6], .ok ["a", "b", "c", "d", "e"]⟩
      ∧ ∃ capacities : List Nat, parse undecoded 2 ⟨some 1000, some 5⟩ "a b c d e"
          = ⟨capacities.map Storage.growthEntry, .error .exhausted⟩ ∧ 4 ∈ capacities := by
  have hpos : (1 : Int) ≤ 2 := by decide
  have hreserved : ∀ limit, Storage.Reserves 2 ⟨some 1000, some limit⟩ := fun _ => ⟨rfl, rfl⟩
  have hcount : (tokens "a b c d e").length = 5 := by decide
  refine ⟨hpos, hreserved, ?_, ?_⟩
  · have hsplits := parse_bounded hpos (hreserved 6) "a b c d e"
    exact hsplits.stored (.inr (by rw [hcount]; decide))
  · have hsplits := parse_bounded hpos (hreserved 5) "a b c d e"
    obtain ⟨capacities, hparse, _, hmem⟩ := hsplits.exhausted (by
      rw [Storage.HasRoom, hcount]
      decide)
    exact ⟨capacities, hparse, (hmem 4).mpr ⟨1, by decide, by decide, by decide⟩⟩

end Line

end LineShell
