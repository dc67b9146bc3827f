import LineShell.Proofs.Session.Child
import LineShell.Proofs.Session.Crash

/- What the system is handed of a line that could itself be handed to it.

   Escapes can stand for any byte, NUL included, and yet no escape in such a line makes a vector
   that is rejected before the system sees it (`Line.refusal?_eq_none`). So a program's vector
   always gets there, and if the program is not started it is the system that says why
   (`Line.isHandedOver_of_passable`). The storage of the line is what can still fail: it cannot be
   had for blocks of more slots than the machine counts (`Line.not_isHandedOver_hugeBlocks`). -/
namespace LineShell

namespace Line

/-- What reading a line comes to whose arguments are all accepted: only the first block can be
missing. -/
structure ReadsAccepted (growth : Int) (memory : Memory) (line : Text) : Prop where
  stored : Storage.Unlimited growth memory →
    ∃ arguments, (parse Escape.decode growth memory line).result = .ok arguments
      ∧ (parse undecoded growth memory line).result = .ok (tokens line)
      ∧ Accepted (tokens line) arguments
  refused : ∀ fault, Storage.FirstBlockFails growth memory fault →
    parse Escape.decode growth memory line = ⟨[], .error fault⟩

/-- The vector of a program reaches the system, and nothing but the system keeps it from being
started. -/
structure IsHandedOver (world : World) (config : Config) (s : Session) (line command : Text)
    (arguments : List Text) : Prop where
  accepted : Accepted (tokens line) (command :: arguments)
  spawned : (s.execute world config line).2.spawned = s.spawned ++ [command :: arguments]
  notStarted : ∀ error, (Foreground.run world (command :: arguments)).ending = .notStarted error →
    ∃ cause, error = .notStarted command (.system cause)
      ∧ (world.program? (command :: arguments) = some (.refused cause)
        ∨ world.program? (command :: arguments) = none ∧ cause = .noEntry)

section

variable {line : Text} (hline : line.IsPassable)

include hline

theorem readsAccepted {growth : Int} (hpos : 1 ≤ growth) (memory : Memory) :
    ReadsAccepted growth memory line where
  stored := by
    intro hunlimited
    have hfault := Storage.account_fault_eq_none hpos hunlimited (tokens line).length
    have hread : ∀ decoder,
        (parse decoder growth memory line).result = .ok (arguments decoder (tokens line)) :=
      fun decoder => (result_parse_eq_ok_iff decoder growth memory line _).mpr ⟨hfault, rfl⟩
    refine ⟨_, hread Escape.decode, ?_, accepted_arguments hline⟩
    rw [hread undecoded, arguments_undecoded]
  refused := by
    intro fault hfirst
    rw [parse, Storage.account_of_firstBlockFails hfirst]
    rfl

theorem accepted_of_read {world : World} {config : Config} {vector : List Text}
    (hread : Line.read world config line = .ok vector) : Accepted (tokens line) vector := by
  obtain ⟨_, rfl⟩ := (Line.read_eq_ok_iff _ _ _ _).mp hread
  exact accepted_arguments hline

/-- Nothing is wrong with the vector of such a line. -/
theorem refusal?_eq_none {world : World} {config : Config} {command : Text} {arguments : List Text}
    (hread : Line.read world config line = .ok (command :: arguments)) :
    Foreground.refusal? command arguments = none := by
  have haccepted := accepted_of_read hline hread
  exact (Foreground.refusal?_eq_none_iff command arguments).mpr
    ⟨haccepted.passable, haccepted.command_ne_nil command rfl⟩

/-- A line that can be passed to the system is read as arguments that can be, of which only those
are empty that were decoded to something behind a NUL; and what it is read as reaches the system if
it is a program's vector. -/
theorem isHandedOver_of_passable :
    (∀ (growth : Int) (memory : Memory), 1 ≤ growth → ReadsAccepted growth memory line)
      ∧ ∀ (world : World) (config : Config) (s : Session) (command : Text) (arguments : List Text),
        Line.read world config line = .ok (command :: arguments) → command ∉ Builtin.names →
        IsHandedOver world config s line command arguments := by
  refine ⟨fun growth memory hpos => readsAccepted hline hpos memory, ?_⟩
  intro world config s command arguments hread hprogram
  have hhanded := refusal?_eq_none hline hread
  refine ⟨accepted_of_read hline hread, ?_, fun error => ?_⟩
  · rw [Session.spawned_execute, Line.handed?_of_program hprogram hread, if_pos hhanded]
    rfl
  · exact (Foreground.ending_run_eq_notStarted_iff hhanded error).mp

end

/-- Arguments that end at a NUL, that are nothing but one, and that are a byte beyond ASCII; and no
program of the name. -/
theorem isHandedOver_of_passable_nul :
    let line : Text := "echo a\\x00b \\x00 \\0777"
    let arguments : List Text := ["a", [], [.ofByte 0xFF]]
    line.IsPassable
      ∧ ReadsAccepted 1 {} line
      ∧ Line.read {} .default line = .ok ("echo" :: arguments)
      ∧ (("echo" : Text) ∉ Builtin.names)
      ∧ IsHandedOver {} .default (Session.start .default) line "echo" arguments := by
  intro line arguments
  have hline : line.IsPassable := by decide
  have hread : Line.read {} .default line = .ok ("echo" :: arguments) := by rfl
  have hprogram : ("echo" : Text) ∉ Builtin.names := by decide
  exact ⟨hline, (isHandedOver_of_passable hline).1 1 {} (by decide), hread, hprogram,
    (isHandedOver_of_passable hline).2 {} .default (Session.start .default) "echo" arguments hread
      hprogram⟩

/-- In blocks of more slots than the machine counts no line is stored: a program of one word is not
handed over, though nothing limits the memory and the system would start it. -/
theorem not_isHandedOver_hugeBlocks :
    let world : World := { program? := fun _ => some (.runs [] [0]) }
    let line : Text := "ls"
    line.IsPassable ∧ 1 ≤ hugeBlocks.argGrowth ∧ world.memory.slots = none
      ∧ tokens line = ["ls"] ∧ line ∉ Builtin.names
      ∧ (Session.start hugeBlocks).execute world hugeBlocks line
        = (.crashed .sizeOutOfRange, Session.start hugeBlocks)
      ∧ ∀ arguments, ¬ IsHandedOver world hugeBlocks (Session.start hugeBlocks) line line arguments := by
  intro world line
  have hexecute : (Session.start hugeBlocks).execute world hugeBlocks line
      = (.crashed .sizeOutOfRange, Session.start hugeBlocks) := by rfl
  refine ⟨by decide, by decide, rfl, by decide, by decide, hexecute, ?_⟩
  intro arguments hhanded
  have hspawned := hhanded.spawned
  rw [hexecute] at hspawned
  cases hspawned

end Line

end LineShell
