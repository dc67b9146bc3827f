import LineShell.Proofs.Escape.Raw

/- How long a decoded token is.

   Each piece stands for no more characters than it is written with, and for fewer if it is a known
   escape (`length_decoded_lt`). So decoding makes a token shorter or leaves it as it is, and does
   the latter exactly if nothing in it is known (`noLonger_decodedToken`). Counted in bytes nothing
   becomes longer either, which is seen best where the escapes are read byte by byte
   (`length_decodeBytes_le`). -/
namespace LineShell.Escape

/-! ## Characters -/

/-- A known escape: by a letter, or by a number. -/
def Piece.IsKnown : Piece → Prop
  | .named _ _ | .octal _ | .hex _ => True
  | .plain _ | .unknown _ | .lone => False

theorem decoded_eq_source {piece : Piece} (h : ¬ piece.IsKnown) : piece.decoded = piece.source := by
  cases piece with
  | plain c => rfl
  | unknown c => rfl
  | lone => rfl
  | named _ _ => exact absurd trivial h
  | octal _ => exact absurd trivial h
  | hex _ => exact absurd trivial h

/-- A known escape is written with a backslash at least, and stands for one character. -/
theorem length_decoded_lt {piece : Piece} (h : piece.IsKnown) :
    piece.decoded.length < piece.source.length := by
  cases piece with
  | named letter meaning => exact Nat.lt_succ_self 1
  | octal digits => exact Nat.succ_lt_succ (Nat.zero_lt_succ _)
  | hex digits => exact Nat.succ_lt_succ (Nat.zero_lt_succ _)
  | plain _ => exact absurd h id
  | unknown _ => exact absurd h id
  | lone => exact absurd h id

theorem length_decoded_le (piece : Piece) : piece.decoded.length ≤ piece.source.length := by
  by_cases h : piece.IsKnown
  · exact Nat.le_of_lt (length_decoded_lt h)
  · rw [decoded_eq_source h]

theorem decoded_ne_nil (piece : Piece) : piece.decoded ≠ [] := by
  cases piece <;> exact List.cons_ne_nil _ _

theorem decodedToken_ne_nil {token : Text} (h : token ≠ []) : decodedToken token ≠ [] := by
  intro hnil
  rw [decodedToken_eq, List.flatMap_eq_nil_iff] at hnil
  have hpieces : pieces token = [] :=
    List.eq_nil_iff_forall_not_mem.mpr fun piece hpiece => decoded_ne_nil piece (hnil piece hpiece)
  apply h
  rw [← source_pieces token, hpieces]
  rfl

theorem length_flatMap_decoded_le (ps : List Piece) :
    (ps.flatMap Piece.decoded).length ≤ (ps.flatMap Piece.source).length := by
  induction ps with
  | nil => exact Nat.le_refl 0
  | cons piece later ih =>
    have hpiece := length_decoded_le piece
    simp only [List.flatMap_cons, List.length_append]
    omega

/-- What one piece loses no other piece makes up for. -/
theorem not_isKnown_of_length_eq {ps : List Piece}
    (h : (ps.flatMap Piece.decoded).length = (ps.flatMap Piece.source).length) :
    ∀ piece ∈ ps, ¬ piece.IsKnown := by
  induction ps with
  | nil => exact fun piece hpiece => absurd hpiece List.not_mem_nil
  | cons first later ih =>
    have hfirst := length_decoded_le first
    have hlater := length_flatMap_decoded_le later
    simp only [List.flatMap_cons, List.length_append] at h
    refine List.forall_mem_cons.mpr ⟨?_, ih (by omega)⟩
    intro hknown
    have hless := length_decoded_lt hknown
    omega

theorem flatMap_decoded_eq_source {ps : List Piece} (h : ∀ piece ∈ ps, ¬ piece.IsKnown) :
    ps.flatMap Piece.decoded = ps.flatMap Piece.source := by
  induction ps with
  | nil => rfl
  | cons first later ih =>
    obtain ⟨hfirst, hlater⟩ := List.forall_mem_cons.mp h
    rw [List.flatMap_cons, List.flatMap_cons, decoded_eq_source hfirst, ih hlater]

/-! ## Bytes -/

/-- Reading escapes byte by byte never gives more bytes. -/
theorem length_decodeBytes_le (bytes : Bytes) : (decodeBytes bytes).length ≤ bytes.length := by
  fun_induction decodeBytes bytes with
  | case1 => exact Nat.le_refl 0
  | case2 b => exact Nat.le_refl 1
  | case3 b letter rest _ ih => exact Nat.succ_le_succ ih
  | case4 b rest _ ih =>
    have htaken := length_takeDigits_le octalValue? 3 rest
    simp only [List.length_cons]
    omega
  | case5 b letter rest _ _ _ ih =>
    have htaken := length_takeDigits_le hexValue? 2 rest
    simp only [List.length_cons]
    omega
  | case6 b letter rest _ _ _ byte _ ih =>
    simp only [List.length_cons]
    omega
  | case7 b letter rest _ _ _ _ ih =>
    simp only [List.length_cons]
    omega

/-- If the token can be encoded then so can the argument, in as many bytes or fewer. -/
def TakesNoMoreBytes (token argument : Text) : Prop :=
  ∀ bytes, Encoding.rawBytes.encode token = .ok bytes →
    ∃ fewer, Encoding.rawBytes.encode argument = .ok fewer ∧ fewer.length ≤ bytes.length

theorem TakesNoMoreBytes.refl (token : Text) : TakesNoMoreBytes token token :=
  fun bytes hbytes => ⟨bytes, hbytes, Nat.le_refl _⟩

theorem takesNoMoreBytes_decodedToken (token : Text) :
    TakesNoMoreBytes token (decodedToken token) := by
  intro bytes hbytes
  obtain ⟨hencodable, rfl⟩ := (Encoding.encode_rawBytes_iff _ _).mp hbytes
  refine ⟨_, (Encoding.encode_rawBytes_iff _ _).mpr ⟨isEncodable_decodedToken hencodable, rfl⟩, ?_⟩
  rw [decodedToken_eq, bytes_decoded]
  exact length_decodeBytes_le token.bytes

theorem takesNoMoreBytes_takeWhile {token decoded : Text} (h : TakesNoMoreBytes token decoded)
    (p : CodePoint → Bool) : TakesNoMoreBytes token (decoded.takeWhile p) := by
  intro bytes hbytes
  obtain ⟨fewer, hfewer, hle⟩ := h bytes hbytes
  obtain ⟨hencodable, rfl⟩ := (Encoding.encode_rawBytes_iff _ _).mp hfewer
  have hkept : Text.IsEncodable (decoded.takeWhile p) :=
    fun c hc => hencodable c (List.takeWhile_subset p hc)
  refine ⟨_, (Encoding.encode_rawBytes_iff _ _).mpr ⟨hkept, rfl⟩, Nat.le_trans ?_ hle⟩
  have hsplit := Text.bytes_append (decoded.takeWhile p) (decoded.dropWhile p)
  rw [List.takeWhile_append_dropWhile] at hsplit
  rw [hsplit, List.length_append]
  exact Nat.le_add_right _ _

/-! ## Tokens -/

/-- What decoding makes of a token. -/
structure NoLonger (token decoded : Text) : Prop where
  length_le : decoded.length ≤ token.length
  bytes_le : TakesNoMoreBytes token decoded
  /-- Something that is changed has become shorter. -/
  length_eq_iff : decoded.length = token.length ↔ decoded = token
  /-- Nothing is changed exactly if nothing in it is known. -/
  eq_iff : decoded = token ↔ ∀ piece ∈ pieces token, ¬ piece.IsKnown

theorem noLonger_decodedToken (token : Text) : NoLonger token (decodedToken token) := by
  have hsource := source_pieces token
  have hkept : (∀ piece ∈ pieces token, ¬ piece.IsKnown) → decodedToken token = token := by
    intro hunknown
    rw [decodedToken_eq, flatMap_decoded_eq_source hunknown, hsource]
  have hlength : (decodedToken token).length = token.length →
      ∀ piece ∈ pieces token, ¬ piece.IsKnown := by
    intro heq
    apply not_isKnown_of_length_eq
    rw [← decodedToken_eq, hsource, heq]
  refine ⟨?_, takesNoMoreBytes_decodedToken token, ?_, ?_⟩
  · have hle := length_flatMap_decoded_le (pieces token)
    rwa [← decodedToken_eq, hsource] at hle
  · exact ⟨fun heq => hkept (hlength heq), congrArg List.length⟩
  · exact ⟨fun heq => hlength (congrArg List.length heq), hkept⟩

end LineShell.Escape
