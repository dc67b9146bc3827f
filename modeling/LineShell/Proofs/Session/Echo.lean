import LineShell.Proofs.Child.Foreground
import LineShell.Proofs.Escape.Spelling
import LineShell.Proofs.Session.Line

/- What `echo` is handed.

   A line of `echo` and spelled arguments is split into as many tokens, each token is decoded to its
   bytes, none of the decoded arguments is split again or refused, and so the system is given the
   bytes that were spelled (`spawned_echo`). -/
namespace LineShell

open Escape

theorem Line.arguments_echo (decoder : Text → Option Text) {tail : Text}
    (htail : ∀ c ∈ tail.head?, Line.isDelimiter c = true) :
    Line.arguments decoder (Line.tokens (Line.echoName ++ tail))
      = Line.echoName :: (Line.tokens tail).map (Line.decodeArgument decoder) := by
  have hname : ∀ c ∈ Line.echoName, Line.isDelimiter c = false := by
    intro c hc
    have hall : Line.echoName.all (!Line.isDelimiter ·) = true := by decide
    simpa using List.all_eq_true.mp hall c hc
  have htokens : Line.tokens (Line.echoName ++ tail) = Line.echoName :: Line.tokens tail :=
    Text.fields_word_append (by decide) hname htail
  rw [htokens, Line.arguments, if_pos rfl]

/-- The arguments of `echo` as the system sees them. -/
def echoVector (arguments : List Bytes) : List Text :=
  Line.echoName :: arguments.map fun bs => bs.map CodePoint.ofByte

theorem passable_of_mem_echoVector {arguments : List Bytes} (hnul : ∀ bs ∈ arguments, 0 ∉ bs) :
    ∀ a ∈ echoVector arguments, a.IsPassable := by
  intro a ha
  rcases List.mem_cons.mp ha with rfl | ha
  · exact (Text.fault?_eq_none_iff Line.echoName).mp (by decide)
  · obtain ⟨bs, hbs, rfl⟩ := List.mem_map.mp ha
    exact Text.isPassable_map_ofByte (hnul bs hbs)

theorem encode_echoVector (arguments : List Bytes) :
    (echoVector arguments).map Encoding.rawBytes.encode
      = (Text.bytes Line.echoName :: arguments).map .ok := by
  have hargument : ∀ bs : Bytes,
      Encoding.rawBytes.encode (bs.map CodePoint.ofByte) = .ok bs := by
    intro bs
    exact (Encoding.encode_rawBytes_iff _ _).mpr
      ⟨Text.isEncodable_map_ofByte bs, Text.bytes_map_ofByte bs⟩
  have hname : Encoding.rawBytes.encode Line.echoName = .ok (Text.bytes Line.echoName) := by decide
  rw [echoVector, List.map_cons, hname, List.map_cons, List.map_map]
  congr 1
  apply List.map_congr_left
  intro bs _
  exact hargument bs

/-- Any bytes but NUL reach the system through `echo`, however each of them is spelled: executing the
line hands over one vector, and its encoding is the name and the bytes. -/
theorem spawned_echo {world : World} {config : Config}
    (hstorage : Storage.Unlimited config.argGrowth world.memory) (s : Session)
    {arguments : List Bytes} (hnul : ∀ bs ∈ arguments, 0 ∉ bs) {tail : Text}
    (hspelled : SpellsArguments arguments tail) :
    ∃ vector, (s.execute world config (("echo" : Text) ++ tail)).2.spawned = s.spawned ++ [vector]
      ∧ vector.map Encoding.rawBytes.encode
        = (Text.bytes ("echo" : Text) :: arguments).map .ok := by
  have hread : Line.read world config (Line.echoName ++ tail) = .ok (echoVector arguments) := by
    rw [Line.read_of_unlimited hstorage,
      Line.arguments_echo _ (head_delimiter_of_spells hspelled), tokens_spelled hspelled hnul]
    rfl
  have hhanded := (Foreground.refusal?_eq_none_iff Line.echoName _).mpr
    ⟨passable_of_mem_echoVector hnul, by decide⟩
  -- `echo` is no builtin, so the arguments are a program's and go to the system as they are
  obtain ⟨entries, heffect⟩ := Effect.ofLine_of_read world config s.writes hread
  refine ⟨echoVector arguments, ?_, encode_echoVector arguments⟩
  show s.spawned ++ (Effect.ofLine world config s.writes (Line.echoName ++ tail)).spawned = _
  rw [heffect, Effect.spawned_after, Effect.ofArguments_program _ _ _ (by decide),
    Effect.spawned_ofProgram, Foreground.spawned_run hhanded]
  rfl

/-- Four spellings side by side, the octal one of a number above 255, and an empty argument. -/
theorem spawned_echo_mixed :
    let arguments : List Bytes := [[0x41, 0xFF, 0x09, 0xEE], []]
    let tail : Text := " A\\0777\\t\\xeE\t \\x00\n"
    Storage.Unlimited Config.default.argGrowth {} ∧ (∀ bs ∈ arguments, 0 ∉ bs)
      ∧ SpellsArguments arguments tail
      ∧ ∃ vector,
          ((Session.start .default).execute {} .default (("echo" : Text) ++ tail)).2.spawned
            = [] ++ [vector]
          ∧ vector.map Encoding.rawBytes.encode
            = (Text.bytes ("echo" : Text) :: arguments).map .ok := by
  intro arguments tail
  have hplain : SpellsByte 0x41 (['A'] : Text) :=
    .plain 0x41 'A' (by decide) (by decide) (by decide) rfl
  have hoctal : SpellsByte 0xFF (['\\', '0', '7', '7', '7'] : Text) :=
    .octal 0xFF 511 (by decide) rfl
  have hnamed : SpellsByte 0x09 (['\\', 't'] : Text) := .named 0x09 't' (by decide)
  have hhex : SpellsByte 0xEE (['\\', 'x', 'e', 'E'] : Text) :=
    .hex 0xEE 'e' 'E' (.inl rfl) (.inr rfl)
  have hbytes := Spells.cons hplain (.cons hoctal (.cons hnamed (.cons hhex .nil)))
  have hword : SpellsArgument [0x41, 0xFF, 0x09, 0xEE] ("A\\0777\\t\\xeE" : Text) :=
    .bytes (by simp) hbytes
  have hgap : ∀ gap : Text, gap.all Line.isDelimiter = true
      → ∀ c ∈ gap, Line.isDelimiter c = true := fun _ h => List.all_eq_true.mp h
  have hend : SpellsArguments [] ("\n" : Text) := .nil (hgap _ rfl)
  have hsecond : SpellsArguments [[]] ("\t \\x00\n" : Text) :=
    @SpellsArguments.cons [] [] ("\t " : Text) _ _ (by decide) (hgap _ rfl) .empty hend
  have hspelled : SpellsArguments arguments tail :=
    @SpellsArguments.cons _ _ (" " : Text) _ _ (by decide) (hgap _ rfl) hword hsecond
  have hstorage : Storage.Unlimited Config.default.argGrowth {} := ⟨⟨rfl, rfl⟩, rfl⟩
  have hnul : ∀ bs ∈ arguments, 0 ∉ bs := by decide
  exact ⟨hstorage, hnul, hspelled, spawned_echo hstorage (Session.start .default) hnul hspelled⟩

end LineShell
