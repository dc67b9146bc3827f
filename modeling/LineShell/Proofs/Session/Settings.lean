import LineShell.Proofs.Session.Crash
import LineShell.Proofs.Session.Reads

/- The settings that do not change what a shell does.

   The name of the program, the prompt, the level of the log and the size of a block of storage are
   only for show: two configurations that differ in nothing else (`Config.Alike`) do the same with
   every line. Of the records only the prompts and the growths of the storage can tell them apart
   (`Session.Agree`), and this is kept by every turn and so by every run (`ofConfig_alike`). Blocks
   of more slots than the machine counts are the exception: with them no line can be stored. -/
namespace LineShell

/-- The configurations have everything in common that commands look at. -/
structure Config.Alike (a b : Config) : Prop where
  procRoot : a.procRoot = b.procRoot
  pathCapacity : a.pathCapacity = b.pathCapacity
  globalFiles : a.globalFiles = b.globalFiles

def Entry.isGrowth (e : Entry) : Bool :=
  e.level = .debug && e.source = "tokenizer"
    && (("argument storage grown to " : Text).isPrefixOf e.message)

def Entry.others (entries : List Entry) : List Entry := entries.filter (!·.isGrowth)

theorem Entry.others_append (earlier later : List Entry) :
    others (earlier ++ later) = others earlier ++ others later :=
  List.filter_append _ _

/-- The records of the two sessions are the same, except for prompts, growths of the storage, and what
the log echoes. -/
structure Session.Agree (s t : Session) : Prop where
  entries : Entry.others s.logger.entries = Entry.others t.logger.entries
  commands : s.output.filter (·.origin ≠ .prompt) = t.output.filter (·.origin ≠ .prompt)
  writes : s.writes = t.writes
  spawned : s.spawned = t.spawned
  waits : s.waits = t.waits
  last : s.last = t.last

/-! ## Lines -/

theorem Storage.isGrowth_growthEntry (capacity : Nat) : (growthEntry capacity).isGrowth = true := by
  have hprefix : ("argument storage grown to " : Text) <+: (growthEntry capacity).message := by
    rw [growthEntry, Entry.debug, List.append_assoc]
    exact List.prefix_append _ _
  rw [Entry.isGrowth, List.isPrefixOf_iff_prefix.mpr hprefix]
  rfl

theorem Storage.others_entries (a : Account) : Entry.others a.entries = [] := by
  refine List.filter_eq_nil_iff.mpr fun entry hentry => ?_
  obtain ⟨capacity, _, rfl⟩ := List.mem_map.mp hentry
  rw [isGrowth_growthEntry]
  decide

theorem Effect.ofVector_alike {a b : Config} (h : a.Alike b) (world : World) (written : Nat)
    (arguments : List Text) :
    ofVector world a written arguments = ofVector world b written arguments := by
  cases arguments with
  | nil => rfl
  | cons command arguments =>
    simp only [ofVector, ofArguments, ofProc, h.procRoot, h.pathCapacity, h.globalFiles]

/-- The effects are the same, except for records of growth. -/
structure Effect.Agree (e f : Effect) : Prop where
  entries : Entry.others e.entries = Entry.others f.entries
  rest : f = { e with entries := f.entries }

theorem Effect.Agree.ending {e f : Effect} (h : e.Agree f) : e.ending = f.ending := by
  rw [h.rest]

theorem Effect.ofLine_alike {a b : Config} (h : a.Alike b) {world : World}
    (ha : Storage.Unlimited a.argGrowth world.memory)
    (hb : Storage.Unlimited b.argGrowth world.memory) (written : Nat) (line : Text) :
    (ofLine world a written line).Agree (ofLine world b written line) := by
  rw [ofLine_of_ok world a written (Line.read_of_unlimited ha line),
    ofLine_of_ok world b written (Line.read_of_unlimited hb line), ofVector_alike h]
  refine ⟨?_, rfl⟩
  simp only [after, Entry.others_append, Storage.others_entries]

namespace Session.Agree

variable {s t : Session}

theorem prompt (h : s.Agree t) (first second : Bytes) :
    (s.prompt first).Agree (t.prompt second) where
  entries := h.entries
  commands := by
    simp only [Session.prompt, List.filter_append, h.commands]
    rfl
  writes := h.writes
  spawned := h.spawned
  waits := h.waits
  last := h.last

theorem log (h : s.Agree t) (entry : Entry) :
    Agree { s with logger := s.logger.log entry } { t with logger := t.logger.log entry } where
  entries := by simp only [Logger.log, Logger.logAll, Entry.others_append, h.entries]
  commands := h.commands
  writes := h.writes
  spawned := h.spawned
  waits := h.waits
  last := h.last

theorem add (h : s.Agree t) {e f : Effect} (heffect : e.Agree f) : (s.add e).Agree (t.add f) := by
  rw [heffect.rest]
  exact {
    entries := by
      simp only [Session.add, Logger.logAll, Entry.others_append, h.entries, heffect.entries]
    commands := by simp only [Session.add, List.filter_append, h.commands]
    writes := congrArg (· + e.writes) h.writes
    spawned := congrArg (· ++ e.spawned) h.spawned
    waits := congrArg (· + e.waits) h.waits
    last := congrArg e.outcome.or h.last }

end Session.Agree

/-! ## Runs -/

namespace Run

/-- The runs end in the same way after the same number of reads, and leave sessions that agree. -/
structure Agree (first second : Run) : Prop where
  ending : first.ending = second.ending
  reads : first.reads = second.reads
  session : first.session.Agree second.session

section

variable {worlds : Nat → World} {a b : Config} (h : a.Alike b)
  (ha : ∀ number, Storage.Unlimited a.argGrowth (worlds number).memory)
  (hb : ∀ number, Storage.Unlimited b.argGrowth (worlds number).memory)

include h ha hb

theorem keeps_agree (number : Nat) : Keeps (worlds number) a b Session.Agree where
  newline hsession := hsession.prompt _ _
  log entry hsession := hsession.log entry
  ending line hsession := by
    rw [hsession.writes]
    exact (Effect.ofLine_alike h (ha number) (hb number) _ line).ending
  add line hsession := by
    rw [hsession.writes]
    exact hsession.add (Effect.ofLine_alike h (ha number) (hb number) _ line)

theorem loop_alike (hpromptA : a.prompt.IsEncodable) (hpromptB : b.prompt.IsEncodable)
    (terminal : Bool) {s t : Session} (hsession : s.Agree t) (taken reads : Nat)
    (readings : List Reading) :
    (loop worlds a terminal s taken reads readings).Agree
      (loop worlds b terminal t taken reads readings) := by
  induction readings generalizing s t taken reads with
  | nil => exact ⟨rfl, rfl, hsession⟩
  | cons reading later ih =>
    rw [loop, loop, printPrompt_of_encodable hpromptA, printPrompt_of_encodable hpromptB]
    cases hturnB : turn (worlds taken) b terminal (t.prompt b.prompt.bytes) reading with
    | mk next ending? =>
      obtain ⟨other, hturnA, hnext⟩ := exists_turn_of_keeps
        (keeps_agree h ha hb taken) (hsession.prompt a.prompt.bytes b.prompt.bytes) hturnB
      simp only [hturnA, hturnB]
      cases ending? with
      | none => exact ih hnext _ (reads + 1)
      | some ending => exact ⟨rfl, rfl, hnext⟩

/-- What is only for show changes nothing: a run ends in the same way after as many reads, with the
same output of commands, the same children and the same log but for the growths of its storage. -/
theorem ofConfig_alike (hpromptA : a.prompt.IsEncodable) (hpromptB : b.prompt.IsEncodable)
    (arguments : List Text) (input : Input) :
    (ofConfig worlds a arguments input).Agree (ofConfig worlds b arguments input) := by
  have hstart : (Session.start a).Agree (.start b) := ⟨rfl, rfl, rfl, rfl, rfl, rfl⟩
  unfold ofConfig
  split
  · exact loop_alike h ha hb hpromptA hpromptB input.terminal hstart 0 0 input.readings
  · exact ⟨rfl, rfl, hstart.log _⟩

end

def verbose : Config :=
  ⟨{ programName := "sh", prompt := "> ", argGrowth := 1, logLevel := .debug }, by decide, by decide⟩

/-- Beside the default ones: a program that ends with another status at each line, a file that does
not exist, and a status, with interrupts between them. -/
theorem ofConfig_alike_verbose :
    let worlds : Nat → World := fun number => { program? := fun _ => some (.runs [] [256 * number]) }
    let input : Input :=
      { text := "echo a\\q b\nproc 1/stat\necho\nexit 7\n", interrupts := [0, 2] }
    Config.default.Alike verbose
      ∧ (∀ number, Storage.Unlimited Config.default.argGrowth (worlds number).memory)
      ∧ (∀ number, Storage.Unlimited verbose.argGrowth (worlds number).memory)
      ∧ Config.default.prompt.IsEncodable ∧ verbose.prompt.IsEncodable
      ∧ (ofConfig worlds .default [] input).Agree (ofConfig worlds verbose [] input)
      ∧ (ofConfig worlds verbose [] input).ending = .exited 7
      ∧ (ofConfig worlds verbose [] input).session.last = some (.exited 2) := by
  intro worlds input
  have halike : Config.default.Alike verbose := ⟨rfl, rfl, rfl⟩
  have hdefault : ∀ number, Storage.Unlimited Config.default.argGrowth (worlds number).memory :=
    fun _ => ⟨⟨rfl, rfl⟩, rfl⟩
  have hverbose : ∀ number, Storage.Unlimited verbose.argGrowth (worlds number).memory :=
    fun _ => ⟨⟨rfl, rfl⟩, rfl⟩
  have hpromptA : Config.default.prompt.IsEncodable :=
    (Encoding.rawBytes_fault?_eq_none_iff _).mp (by decide)
  have hpromptB : verbose.prompt.IsEncodable :=
    (Encoding.rawBytes_fault?_eq_none_iff _).mp (by decide)
  exact ⟨halike, hdefault, hverbose, hpromptA, hpromptB,
    ofConfig_alike halike hdefault hverbose hpromptA hpromptB [] input, by decide +kernel,
    by decide +kernel⟩

/-- The size of a block is not only for show when the machine cannot count its slots: a session that
stops by default fails then, though nothing limits the memory. -/
theorem ofConfig_hugeBlocks :
    let input : Input := { text := "exit\n" }
    Config.default.Alike hugeBlocks ∧ Config.default.prompt = hugeBlocks.prompt
      ∧ Config.default.prompt.IsEncodable
      ∧ ofConfig (fun _ => {}) .default [] input
        = ⟨.returned 0, (Session.start .default).prompt [0x24, 0x20], 1⟩
      ∧ ofConfig (fun _ => {}) hugeBlocks [] input
        = ⟨.crashed .sizeOutOfRange, (Session.start hugeBlocks).prompt [0x24, 0x20], 1⟩ :=
  ⟨⟨rfl, rfl, rfl⟩, rfl, (Encoding.rawBytes_fault?_eq_none_iff _).mp (by decide),
    by decide +kernel, by decide +kernel⟩

end Run

end LineShell
