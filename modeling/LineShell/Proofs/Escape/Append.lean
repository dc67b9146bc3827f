import LineShell.Proofs.Escape.Scan

/- Decoding a text in two parts.

   What a character means depends on everything before it, through what is pending
   (`Pending.after`). So a text can be cut where nothing is pending, or where the escape that is
   pending has nothing more to take from what follows. The last piece of the first part tells which
   texts it would have taken from (`Piece.Continues`). Where the second part is none of these, the
   pieces of the whole are those of the parts (`pieces_append`), and so are the decoded text and the
   warnings (`decodedToken_append`). -/
namespace LineShell.Escape

/-! ## The scan of two texts -/

def Pending.after : Pending → Text → Pending
  | pending, [] => pending
  | pending, c :: rest => after (step pending c).2 rest

/-- The pieces that are complete at the end of a text. -/
def completed : Pending → Text → List Piece
  | _, [] => []
  | pending, c :: rest => (step pending c).1 ++ completed (step pending c).2 rest

theorem scan_append (pending : Pending) (a b : Text) :
    scan pending (a ++ b) = completed pending a ++ scan (pending.after a) b := by
  induction a generalizing pending with
  | nil => rfl
  | cons c rest ih =>
    rw [List.cons_append, scan, ih, completed, Pending.after, List.append_assoc]

theorem scan_eq_completed (pending : Pending) (a : Text) :
    scan pending a = completed pending a ++ close (pending.after a) := by
  have happend := scan_append pending a []
  rwa [List.append_nil] at happend

/-! ## Where an escape is open -/

/-- A pending number has room for another digit. -/
def Pending.HasRoom : Pending → Prop
  | .idle | .backslash => True
  | .octal digits => digits.length < 3
  | .hex digits => digits.length < 2

theorem hasRoom_start (c : CodePoint) : (start c).2.HasRoom := by
  rw [start]
  split <;> trivial

theorem hasRoom_select (c : CodePoint) : (select c).2.HasRoom := by
  rw [select]
  split
  · exact Nat.zero_lt_succ 2
  · split
    · exact Nat.zero_lt_succ 1
    · split <;> trivial

theorem hasRoom_step (pending : Pending) (c : CodePoint) : (step pending c).2.HasRoom := by
  cases pending with
  | idle => exact hasRoom_start c
  | backslash => exact hasRoom_select c
  | octal digits =>
    rw [step]
    split
    · exact hasRoom_start c
    · split
      · next hroom =>
        show (digits ++ [c]).length < 3
        rw [List.length_append, List.length_singleton]
        omega
      · trivial
  | hex digits =>
    rw [step]
    split
    · exact hasRoom_start c
    · split
      · next hroom =>
        show (digits ++ [c]).length < 2
        rw [List.length_append, List.length_singleton]
        omega
      · trivial

theorem hasRoom_after {pending : Pending} (h : pending.HasRoom) (a : Text) :
    (pending.after a).HasRoom := by
  induction a generalizing pending with
  | nil => exact h
  | cons c rest ih => exact ih (hasRoom_step pending c)

/-- A text that would have joined the piece before it: any character joins a lone backslash, and a
digit joins a number that has room for it. -/
def Piece.Continues : Piece → Text → Prop
  | .lone, t => t ≠ []
  | .octal digits, t => digits.length < 3 ∧ ∃ c ∈ t.head?, (octalDigit? c).isSome
  | .hex digits, t => digits.length < 2 ∧ ∃ c ∈ t.head?, (hexDigit? c).isSome
  | .unknown letter, t => letter = 'x' ∧ ∃ c ∈ t.head?, (hexDigit? c).isSome
  | .plain _, _ | .named _ _, _ => False

theorem scan_of_other {digit? : CodePoint → Option Nat} {grow : Text → Pending} {limit : Nat}
    (h : Reads digit? grow limit) (digits : Text) {t : Text}
    (ht : ¬ ∃ c ∈ t.head?, (digit? c).isSome) :
    scan (grow digits) t = close (grow digits) ++ pieces t := by
  cases t with
  | nil => exact (List.append_nil _).symm
  | cons c rest =>
    have hother : digit? c = none := by
      apply Option.not_isSome_iff_eq_none.mp
      intro hdigit
      exact ht ⟨c, rfl, hdigit⟩
    rw [scan, h.other digits c hother, List.append_assoc, scan_start, pieces]

theorem scan_of_not_continues {pending : Pending} (hroom : pending.HasRoom) {t : Text}
    (h : ∀ piece ∈ (close pending).getLast?, ¬ piece.Continues t) :
    scan pending t = close pending ++ pieces t := by
  cases pending with
  | idle => rfl
  | backslash =>
    have hnil : t = [] := Classical.not_not.mp (h .lone rfl)
    rw [hnil]
    rfl
  | octal digits =>
    have hother := h (.octal digits) rfl
    exact scan_of_other reads_octal digits fun hdigit => hother ⟨hroom, hdigit⟩
  | hex digits =>
    refine scan_of_other reads_hex digits fun hdigit => ?_
    cases digits with
    | nil => exact h (.unknown 'x') rfl ⟨rfl, hdigit⟩
    | cons d digits => exact h (.hex (d :: digits)) rfl ⟨hroom, hdigit⟩

/-! ## Two parts -/

/-- A text is scanned in two parts if the second does not continue the last piece of the first. -/
theorem pieces_append {a b : Text} (h : ∀ piece ∈ (pieces a).getLast?, ¬ piece.Continues b) :
    pieces (a ++ b) = pieces a ++ pieces b := by
  have hpieces : pieces a = completed .idle a ++ close (Pending.idle.after a) :=
    scan_eq_completed .idle a
  have hclose : ∀ piece ∈ (close (Pending.idle.after a)).getLast?, ¬ piece.Continues b := by
    intro piece hpiece
    refine h piece ?_
    rw [hpieces, List.getLast?_append, Option.mem_def.mp hpiece]
    rfl
  have hidle : Pending.idle.HasRoom := trivial
  have hroom := hasRoom_after hidle a
  calc pieces (a ++ b)
      = completed .idle a ++ scan (Pending.idle.after a) b := scan_append .idle a b
    _ = completed .idle a ++ (close (Pending.idle.after a) ++ pieces b) := by
        rw [scan_of_not_continues hroom hclose]
    _ = pieces a ++ pieces b := by rw [← List.append_assoc, ← hpieces]

/-- A text that is cut where no escape is open decodes part by part, and is warned about part by
part. -/
theorem decodedToken_append {a b : Text}
    (h : ∀ piece ∈ (pieces a).getLast?, ¬ piece.Continues b) :
    decodedToken (a ++ b) = decodedToken a ++ decodedToken b
      ∧ warnings (a ++ b) = warnings a ++ warnings b := by
  have hpieces := pieces_append h
  refine ⟨?_, ?_⟩
  · simp only [decodedToken_eq]
    rw [hpieces, List.flatMap_append]
  · simp only [warnings]
    rw [hpieces, List.filterMap_append]

/-- The first part ends in an `x` without digits, and no digit follows it: the escape is unknown,
whatever follows. -/
theorem decodedToken_append_atLetter :
    let a : Text := "\\\\n\\07\\x"
    let b : Text := "g\\q\\x41"
    (∀ piece ∈ (pieces a).getLast?, ¬ piece.Continues b)
      ∧ decodedToken (a ++ b) = decodedToken a ++ decodedToken b
      ∧ decodedToken (a ++ b) = "\\n\x07\\xg\\qA"
      ∧ warnings (a ++ b) = warnings a ++ warnings b
      ∧ (warnings a).length = 1 ∧ (warnings b).length = 1 := by
  intro a b
  have h : ∀ piece ∈ (pieces a).getLast?, ¬ piece.Continues b := by
    have hlast : (pieces a).getLast? = some (.unknown 'x') := by decide
    rw [hlast]
    rintro piece hpiece
    cases hpiece
    rintro ⟨_, c, hc, hdigit⟩
    cases hc
    exact absurd hdigit (by decide)
  obtain ⟨hdecoded, hwarnings⟩ := decodedToken_append h
  exact ⟨h, hdecoded, by decide, hwarnings, by decide, by decide⟩

end LineShell.Escape
