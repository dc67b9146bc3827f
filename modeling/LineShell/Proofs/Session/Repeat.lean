import LineShell.Proofs.Session.Frame
import LineShell.Proofs.Session.History

/- Builtins do not look back.

   Of the past a command is given only the number of writes so far, and that matters for a write
   that fails. Where every write goes through, a file is printed the same whenever it is
   (`dump_of_serves`), so a line of a builtin has one effect, whatever the session has seen and
   whichever programs there are (`ofLine_of_builtin`). Programs print nothing into the builtin
   output. What stands there at the end of a history is therefore one stretch for each line, and
   equal lines have equal stretches (`execute_repeats`). -/
namespace LineShell

/-- The world has these files and this memory, and every write to the builtin output goes through. -/
structure World.Serves (world : World) (files : Text → Option File) (memory : Memory) : Prop where
  files : world.file? = files
  memory : world.memory = memory
  writes : world.failingWrite = none

def World.ofFiles (files : Text → Option File) (memory : Memory) : World where
  file? := files
  memory := memory

/-! ## Printing a file -/

namespace Copy

theorem copy_none (next : Nat) (path : Text) (file : File) :
    copy none next path file = copy none 0 path file := by
  rw [copy_of_goes next path file (by simp), copy_of_goes 0 path file (by simp)]

theorem dump_of_serves {world : World} {files : Text → Option File} {memory : Memory}
    (h : world.Serves files memory) (next : Nat) (path : Text) :
    dump world next path = dump (.ofFiles files memory) 0 path := by
  simp only [dump, h.files, h.writes, World.ofFiles, copy_none next]

end Copy

/-! ## Lines -/

namespace Effect

theorem head?_tokens_of_builtinOutput {world : World} (config : Config) (written : Nat) {line : Text}
    (hprints : (ofLine world config written line).builtinOutput ≠ []) :
    (Line.tokens line).head? = some Builtin.proc.name := by
  obtain ⟨argument, path, hsplit, _⟩ := opens_of_builtinOutput world config written hprints
  have hread := (Line.read_eq_ok_iff_split _ _ _ (Builtin.proc.name_ne_echoName _)).mpr hsplit
  rw [← Line.head?_arguments Escape.decode, ((Line.read_eq_ok_iff _ _ _ _).mp hread).2]
  rfl

variable {world : World} {files : Text → Option File} {memory : Memory}
  (h : world.Serves files memory) (config : Config) (written : Nat)

include h

theorem ofProc_of_serves (arguments : List Text) :
    ofProc world config written arguments = ofProc (.ofFiles files memory) config 0 arguments := by
  simp only [ofProc, Copy.dump_of_serves h]

theorem ofArguments_of_serves (b : Builtin) (arguments : List Text) :
    ofArguments world config written (b.name :: arguments)
      = ofArguments (.ofFiles files memory) config 0 (b.name :: arguments) := by
  cases b with
  | exit => rw [ofArguments_exit, ofArguments_exit]
  | proc => rw [ofArguments_proc, ofArguments_proc, ofProc_of_serves h]

theorem read_of_serves (line : Text) :
    Line.read world config line = Line.read (.ofFiles files memory) config line := by
  rw [Line.read, h.memory]
  rfl

/-- A line whose arguments are those of a builtin has the effect that it has in the world with nothing
but the files, before anything was written. -/
theorem ofLine_of_builtin {line : Text} {b : Builtin}
    (hbuiltin : (Line.tokens line).head? = some b.name) :
    ofLine world config written line = ofLine (.ofFiles files memory) config 0 line := by
  have hread := read_of_serves h config line
  have hmemory : world.memory = (World.ofFiles files memory).memory := h.memory
  cases hother : Line.read (.ofFiles files memory) config line with
  | error fault =>
    rw [ofLine_of_error _ config written (hread.trans hother), ofLine_of_error _ config 0 hother,
      hmemory]
  | ok arguments =>
    rw [ofLine_of_ok _ config written (hread.trans hother), ofLine_of_ok _ config 0 hother, hmemory]
    -- decoding leaves the command alone, so the first argument is the builtin's name
    have hhead : arguments.head? = some b.name := by
      rw [← ((Line.read_eq_ok_iff _ _ _ _).mp hother).2, Line.head?_arguments, hbuiltin]
    obtain ⟨later, rfl⟩ := List.head?_eq_some_iff.mp hhead
    rw [ofVector, ofVector, ofArguments_of_serves h]

theorem builtinOutput_of_serves (line : Text) :
    (ofLine world config written line).builtinOutput
      = (ofLine (.ofFiles files memory) config 0 line).builtinOutput := by
  by_cases hproc : (Line.tokens line).head? = some Builtin.proc.name
  · rw [ofLine_of_builtin h config written hproc]
  · have hnone : ∀ other count, (ofLine other config count line).builtinOutput = [] := by
      intro other count
      apply Classical.byContradiction
      intro hprints
      exact hproc (head?_tokens_of_builtinOutput config count hprints)
    rw [hnone, hnone]

end Effect

/-! ## Sessions -/

/-- The bytes that a line prints with these files and this memory, if every write goes through. -/
def Line.printed (files : Text → Option File) (memory : Memory) (config : Config) (line : Text) :
    Bytes :=
  (Effect.ofLine (.ofFiles files memory) config 0 line).builtinOutput

namespace Session

variable {files : Text → Option File} {memory : Memory} {config : Config}

theorem builtinOutput_execute {world : World} (h : world.Serves files memory) (s : Session)
    (line : Text) :
    (s.execute world config line).2.builtinOutput
      = s.builtinOutput ++ Line.printed files memory config line := by
  rw [Line.printed, ← Effect.builtinOutput_of_serves h config s.writes line]
  exact Effect.builtinOutput_add s _

theorem builtinOutput_of_leaves {steps : List Step} {s : Session} (h : Leaves config steps s)
    (hserves : ∀ step ∈ steps, step.world.Serves files memory) :
    s.builtinOutput = steps.flatMap (Line.printed files memory config ·.line) := by
  induction h with
  | start => rfl
  | @step steps s before step returns ih =>
    have hlast := hserves step (List.mem_append_right _ List.mem_cons_self)
    have hbefore := ih fun other hother => hserves other (List.mem_append_left _ hother)
    calc (s.execute step.world config step.line).2.builtinOutput
        = s.builtinOutput ++ Line.printed files memory config step.line :=
          builtinOutput_execute hlast s step.line
      _ = steps.flatMap (Line.printed files memory config ·.line)
            ++ Line.printed files memory config step.line := by rw [hbefore]
      _ = (steps ++ [step]).flatMap (Line.printed files memory config ·.line) := by
          rw [List.flatMap_append, List.flatMap_singleton]

/-- With the same files and memory, and when every write goes through, a line of a builtin ends in
one way, prints the same bytes and makes the same entries in any two sessions, whatever they have
seen and whichever programs there are. And every line of a history prints what it prints anywhere
else, so that a file which is printed again is printed alike. -/
theorem execute_repeats (files : Text → Option File) (memory : Memory) (config : Config) :
    (∀ line b, (Line.tokens line).head? = some (Builtin.name b) →
      ∃ ending bytes entries, ∀ world, World.Serves world files memory → ∀ s : Session,
        (s.execute world config line).1 = ending
          ∧ (s.execute world config line).2.builtinOutput = s.builtinOutput ++ bytes
          ∧ (s.execute world config line).2.logger = s.logger.logAll entries)
      ∧ ∀ steps s, Leaves config steps s →
        (∀ step ∈ steps, step.world.Serves files memory) →
        s.builtinOutput = steps.flatMap (Line.printed files memory config ·.line)
          ∧ ∀ before step later, steps = before ++ step :: later → ∃ t, Leaves config before t
            ∧ (t.execute step.world config step.line).2.builtinOutput
              = t.builtinOutput ++ Line.printed files memory config step.line := by
  refine ⟨?_, ?_⟩
  · intro line b hbuiltin
    let effect := Effect.ofLine (.ofFiles files memory) config 0 line
    refine ⟨effect.ending, effect.builtinOutput, effect.entries, ?_⟩
    intro world hserves s
    have hexecute : s.execute world config line = (effect.ending, s.add effect) := by
      rw [execute, Effect.ofLine_of_builtin hserves config s.writes hbuiltin]
    rw [hexecute]
    exact ⟨rfl, Effect.builtinOutput_add s effect, rfl⟩
  · intro steps s h hserves
    refine ⟨builtinOutput_of_leaves h hserves, ?_⟩
    rintro before step later rfl
    obtain ⟨t, hbefore⟩ := exists_leaves_of_append h
    have hstep := hserves step (List.mem_append_right _ List.mem_cons_self)
    exact ⟨t, hbefore, builtinOutput_execute hstep t step.line⟩

def brokenFiles (path : Text) : Option File :=
  if path = "/proc/loadavg" then some { content := [0x61, 0x62] }
  else if path = "/proc/mounts" then
    some ⟨[0x61, 0x62], some ⟨0, .numbered 5 "Input/output error"⟩⟩
  else none

/-- The second is printed before and behind the first, with a child that is killed, a refused status
and an unknown escape in between; and then `exit` ends as it does at the start. -/
theorem execute_repeats_broken :
    let quiet : World := { file? := brokenFiles }
    let deadly : World := { file? := brokenFiles, program? := fun _ => some (.runs [0x78] [9]) }
    let steps : List Step :=
      [⟨quiet, "proc mounts"⟩, ⟨deadly, "crash"⟩, ⟨quiet, "exit x"⟩, ⟨deadly, "echo \\q"⟩,
        ⟨deadly, "proc loadavg"⟩, ⟨deadly, "\tproc mounts\n"⟩]
    ∃ s, Leaves .default steps s ∧ s.builtinOutput = [0x0A, 0x61, 0x62, 0x0A, 0x0A]
      ∧ (s.execute quiet .default "exit 3").1
        = ((start .default).execute deadly .default "exit 3").1 := by
  intro quiet deadly steps
  have hquiet : quiet.Serves brokenFiles {} := ⟨rfl, rfl, rfl⟩
  have hdeadly : deadly.Serves brokenFiles {} := ⟨rfl, rfl, rfl⟩
  have hserves : ∀ step ∈ steps, step.world.Serves brokenFiles {} := by
    simp only [steps, List.forall_mem_cons]
    exact ⟨hquiet, hdeadly, hquiet, hdeadly, hdeadly, hdeadly, by simp⟩
  have hleaves : Leaves .default steps _ :=
    Leaves.start |>.step _ (.of_carryOn rfl) |>.step _ (.of_carryOn rfl)
      |>.step _ (.of_carryOn rfl) |>.step _ (.of_carryOn rfl) |>.step _ (.of_carryOn rfl)
      |>.step _ (.of_carryOn rfl)
  obtain ⟨hbuiltin, hhistory⟩ := execute_repeats brokenFiles {} .default
  obtain ⟨houtput, _⟩ := hhistory steps _ hleaves hserves
  obtain ⟨ending, _, _, hexit⟩ := hbuiltin "exit 3" .exit (by decide)
  refine ⟨_, hleaves, houtput.trans (by decide +kernel), ?_⟩
  exact (hexit quiet hquiet _).1.trans (hexit deadly hdeadly _).1.symm

end Session

end LineShell
