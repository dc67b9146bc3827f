import LineShell.Proofs.Child.Foreground

/- Wait statuses as words of 32 bits, and the first of them that reports an end.

   The system hands a status over as a signed number; what it reports stands in its bits, which are
   the same for negative numbers (`toInt_emod`, `toInt_ediv`). The low seven bits are all set in a
   status that reports a stop or a resumption, and such a status is passed over by one more wait
   (`await_append_of_stops`). So the first of the others is what a run comes to, read by its bits,
   and nothing behind it matters (`run_first_end`); without one the run ends with the wait that
   finds no status. -/
namespace LineShell

/-- A status as the system hands it over. -/
abbrev WaitStatus := BitVec 32

namespace WaitStatus

/-- The bits that tell what has happened to the child. -/
def lowBits (s : WaitStatus) : BitVec 7 := s.extractLsb' 0 7

def codeBits (s : WaitStatus) : BitVec 8 := s.extractLsb' 8 8

/-- The child has come to its end: not all of the low bits are set. -/
def ReportsEnd (s : WaitStatus) : Prop := s.lowBits ≠ BitVec.allOnes 7

instance : DecidablePred ReportsEnd :=
  fun s => inferInstanceAs (Decidable (s.lowBits ≠ BitVec.allOnes 7))

/-- The end that is reported: an exit if no low bit is set, and else the signal that they are. -/
def outcome (s : WaitStatus) : Outcome :=
  if s.lowBits = 0 then .exited s.codeBits.toNat else .killed s.lowBits.toNat

/-- The child was stopped: the low byte is that of a stop. -/
def IsStopped (s : WaitStatus) : Prop := s.extractLsb' 0 8 = 0x7F

/-- The child was resumed: there is one status for that. -/
def IsContinued (s : WaitStatus) : Prop := s = 0xFFFF

/-! ## Bits of a signed number -/

theorem toInt_emod (s : WaitStatus) : s.toInt % 128 = s.lowBits.toNat := by
  have hs := s.isLt
  rw [lowBits, BitVec.extractLsb'_toNat, BitVec.toInt_eq_toNat_cond, Nat.shiftRight_zero]
  split <;> omega

theorem toInt_ediv (s : WaitStatus) : s.toInt / 256 % 256 = s.codeBits.toNat := by
  have hs := s.isLt
  rw [codeBits, BitVec.extractLsb'_toNat, BitVec.toInt_eq_toNat_cond, Nat.shiftRight_eq_div_pow]
  split <;> omega

theorem lowBits_eq_zero_iff (s : WaitStatus) : s.lowBits = 0 ↔ s.toInt % 128 = 0 := by
  rw [toInt_emod, ← BitVec.toNat_inj, Int.natCast_eq_zero]
  rfl

theorem not_reportsEnd_iff (s : WaitStatus) : ¬s.ReportsEnd ↔ Foreground.IsStop s.toInt := by
  rw [ReportsEnd, Classical.not_not, Foreground.IsStop, toInt_emod, ← BitVec.toNat_inj]
  have hones : (BitVec.allOnes 7).toNat = 127 := rfl
  omega

theorem ofStatus?_of_reportsEnd {s : WaitStatus} (h : s.ReportsEnd) :
    Outcome.ofStatus? s.toInt = some s.outcome := by
  have hend : ¬s.toInt % 128 = 127 := fun hstop => (not_reportsEnd_iff s).mpr hstop h
  rw [Outcome.ofStatus?, outcome, toInt_ediv]
  by_cases hexit : s.toInt % 128 = 0
  · rw [if_pos hexit, if_pos ((lowBits_eq_zero_iff s).mpr hexit)]
  · rw [if_neg hexit, if_neg hend, if_neg fun hzero => hexit ((lowBits_eq_zero_iff s).mp hzero),
      toInt_emod]

theorem ofStatus?_of_not_reportsEnd {s : WaitStatus} (h : ¬s.ReportsEnd) :
    Outcome.ofStatus? s.toInt = none :=
  (Foreground.ofStatus?_eq_none_iff s.toInt).mpr ((not_reportsEnd_iff s).mp h)

/-- An exit code has one byte, and a signal is none of the two patterns that are not one. -/
theorem outcome_bounds {s : WaitStatus} (h : s.ReportsEnd) :
    (∃ code : Nat, code ≤ 255 ∧ s.outcome = .exited code)
      ∨ ∃ signal : Nat, 1 ≤ signal ∧ signal ≤ 126 ∧ s.outcome = .killed signal := by
  rw [outcome]
  split
  · have hcode := s.codeBits.isLt
    exact .inl ⟨s.codeBits.toNat, by omega, rfl⟩
  · next hzero =>
    have hlow := s.lowBits.isLt
    rw [← BitVec.toNat_inj] at hzero
    rw [ReportsEnd, Ne, ← BitVec.toNat_inj] at h
    have hnone : (0 : BitVec 7).toNat = 0 := rfl
    have hones : (BitVec.allOnes 7).toNat = 127 := rfl
    exact .inr ⟨s.lowBits.toNat, by omega, by omega, rfl⟩

theorem not_reportsEnd {s : WaitStatus} (h : s.IsStopped ∨ s.IsContinued) : ¬s.ReportsEnd := by
  rw [not_reportsEnd_iff, Foreground.IsStop, toInt_emod, lowBits, BitVec.extractLsb'_toNat,
    Nat.shiftRight_zero]
  rcases h with hstopped | hcontinued
  · have hbyte := congrArg BitVec.toNat hstopped
    rw [BitVec.extractLsb'_toNat, Nat.shiftRight_zero] at hbyte
    have hvalue : (0x7F : BitVec 8).toNat = 127 := rfl
    omega
  · rw [hcontinued]
    rfl

end WaitStatus

/-! ## Statuses of exits and of signals -/

namespace Outcome

theorem ofStatus?_code {code : Nat} (h : code ≤ 255) :
    ofStatus? (code * 256) = some (.exited code) := by
  have hlow : (code * 256 : Int) % 128 = 0 := by omega
  have hcode : (code * 256 : Int) / 256 % 256 = code := by omega
  rw [ofStatus?, if_pos hlow, hcode]

theorem ofStatus?_signal {signal : Nat} (hpos : 1 ≤ signal) (hle : signal ≤ 126) (core : Bool) :
    ofStatus? (signal + if core then 128 else 0) = some (.killed signal) := by
  have hlow : (signal + if core then 128 else 0 : Int) % 128 = signal := by
    cases core <;> simp only [Bool.false_eq_true, if_true, if_false] <;> omega
  rw [ofStatus?, hlow, if_neg (by omega), if_neg (by omega)]

end Outcome

/-! ## Waiting -/

namespace Foreground

theorem await_cons_of_stop {status : Int} (h : IsStop status) (later : List Int) :
    await (status :: later) = ((await later).1, (await later).2 + 1) := by
  rw [await, (ofStatus?_eq_none_iff status).mpr h]

/-- Each stop takes one more wait and nothing else. -/
theorem await_append_of_stops {stops : List Int} (h : ∀ status ∈ stops, IsStop status)
    (later : List Int) :
    await (stops ++ later) = ((await later).1, (await later).2 + stops.length) := by
  induction stops with
  | nil => rfl
  | cons status stops ih =>
    obtain ⟨hstop, hstops⟩ := List.forall_mem_cons.mp h
    rw [List.cons_append, await_cons_of_stop hstop, ih hstops, List.length_cons, Nat.add_assoc]

theorem await_cons_of_end {status : Int} {outcome : Outcome}
    (h : Outcome.ofStatus? status = some outcome) (later : List Int) :
    await (status :: later) = (some outcome, 1) := by
  rw [await, h]

section

variable {stops later : List WaitStatus} (hstops : ∀ t ∈ stops, ¬t.ReportsEnd)

include hstops

theorem isStop_of_mem_map : ∀ status ∈ stops.map BitVec.toInt, IsStop status := by
  intro status hstatus
  obtain ⟨t, ht, rfl⟩ := List.mem_map.mp hstatus
  exact (WaitStatus.not_reportsEnd_iff t).mp (hstops t ht)

theorem await_first_end {s : WaitStatus} (hend : s.ReportsEnd) :
    await ((stops ++ s :: later).map BitVec.toInt) = (some s.outcome, stops.length + 1) := by
  rw [List.map_append, List.map_cons, await_append_of_stops (isStop_of_mem_map hstops),
    await_cons_of_end (WaitStatus.ofStatus?_of_reportsEnd hend), List.length_map, Nat.add_comm]

theorem await_no_end : await (stops.map BitVec.toInt) = (none, stops.length + 1) := by
  have hwaits := await_append_of_stops (isStop_of_mem_map hstops) []
  rw [List.append_nil, List.length_map, Nat.add_comm] at hwaits
  exact hwaits

end

/-- A run comes to the first status that reports an end, after one wait for each status up to it,
whatever follows; the bits of the status are the exit code, or the signal. If no status reports an
end, the child is lost in the wait behind the last. And a status is read as what it is made of: a
code in its second byte, a signal with or without the bit of a core dump; while a stop and a
resumption are read as no end. -/
theorem run_first_end {world : World} {program : Text} {arguments : List Text} (hname : program ≠ [])
    (hpassable : ∀ a ∈ program :: arguments, a.IsPassable) {output : Bytes}
    {statuses : List WaitStatus}
    (hruns : world.program? (program :: arguments)
      = some (.runs output (statuses.map BitVec.toInt))) :
    (∀ stops s later, statuses = stops ++ s :: later → (∀ t ∈ stops, ¬t.ReportsEnd) →
        s.ReportsEnd →
        run world (program :: arguments)
            = { spawned := [program :: arguments], waits := stops.length + 1, output,
                ending := .finished s.outcome }
          ∧ ((∃ code : Nat, code ≤ 255 ∧ s.outcome = .exited code)
            ∨ ∃ signal : Nat, 1 ≤ signal ∧ signal ≤ 126 ∧ s.outcome = .killed signal))
      ∧ ((∀ t ∈ statuses, ¬t.ReportsEnd) →
        run world (program :: arguments)
          = { spawned := [program :: arguments], waits := statuses.length + 1, output,
              ending := .lost })
      ∧ (∀ code : Nat, code ≤ 255 → Outcome.ofStatus? (code * 256) = some (.exited code))
      ∧ (∀ (signal : Nat) (core : Bool), 1 ≤ signal → signal ≤ 126 →
        Outcome.ofStatus? (signal + if core then 128 else 0) = some (.killed signal))
      ∧ ∀ s : WaitStatus, s.IsStopped ∨ s.IsContinued → Outcome.ofStatus? s.toInt = none := by
  have hhanded := (refusal?_eq_none_iff program arguments).mpr ⟨hpassable, hname⟩
  refine ⟨?_, ?_, fun _ => Outcome.ofStatus?_code,
    fun _ core hpos hle => Outcome.ofStatus?_signal hpos hle core,
    fun _ h => WaitStatus.ofStatus?_of_not_reportsEnd (WaitStatus.not_reportsEnd h)⟩
  · intro stops s later hsplit hstops hend
    refine ⟨?_, WaitStatus.outcome_bounds hend⟩
    rw [run_of_runs hhanded hruns, hsplit, endingOf, ← await_fst, await_first_end hstops hend]
    rfl
  · intro hstops
    rw [run_of_runs hhanded hruns, endingOf, ← await_fst, await_no_end hstops]
    rfl

/-- A child that is stopped and resumed, with high bits set in one of the statuses, before a signal
kills it; the exit behind that is not waited for. -/
theorem run_first_end_segv :
    let statuses : List WaitStatus := [0x137F, 0xFFFF, 0x8000057F, 0x8B, 0x100]
    let world : World := { program? := fun _ => some (.runs [] (statuses.map BitVec.toInt)) }
    run world ["sleep", "1"]
      = { spawned := [["sleep", "1"]], waits := 4, ending := .finished (.killed 11) } := by
  intro statuses world
  have hpassable : ∀ a ∈ (["sleep", "1"] : List Text), a.IsPassable := by decide
  have hstops : ∀ t ∈ ([0x137F, 0xFFFF, 0x8000057F] : List WaitStatus), ¬t.ReportsEnd :=
    List.forall_mem_cons.mpr ⟨by decide, List.forall_mem_cons.mpr ⟨by decide,
      List.forall_mem_singleton.mpr (by decide)⟩⟩
  have hruns : world.program? ["sleep", "1"] = some (.runs [] (statuses.map BitVec.toInt)) := rfl
  have hrun := (run_first_end (by decide) hpassable hruns).1 _ 0x8B [0x100] rfl hstops (by decide)
  exact hrun.1

end Foreground

end LineShell
