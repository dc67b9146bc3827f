import LineShell.Proofs.Escape.Scan
import LineShell.Proofs.Line.Arguments
import LineShell.Proofs.Text.Fields

/- Ways to write bytes as arguments of `echo`.

   `SpellsByte` lists the spellings of one byte that no neighbour can change: two hexadecimal digits,
   three octal ones, the letter that names it, or the character itself. A spelling contributes one
   piece whatever stands after it (`pieces_spelling`), so spellings written one after the other
   decode byte by byte, and a line of arguments, each after a gap, decodes argument by argument
   (`tokens_spelled`, `decodeArgument_spelled`). -/
namespace LineShell.Escape

/-! ## One byte -/

/-- The hexadecimal digit of a value below 16, in either case. -/
def IsHexDigit (value : Nat) (c : CodePoint) : Prop :=
  c = CodePoint.ofChar (Nat.digitChar value) ∨ c = CodePoint.ofChar (Nat.digitChar value).toUpper

def namedBytes : List (UInt8 × Char) :=
  [(0x5C, '\\'), (0x07, 'a'), (0x08, 'b'), (0x1B, 'e'), (0x0C, 'f'), (0x0A, 'n'), (0x0D, 'r'),
    (0x09, 't'), (0x0B, 'v')]

/-- The spellings of a byte: hexadecimal with two digits, octal with three digits for a number that
is the byte modulo 256, by a letter, and plain for a visible ASCII character but the backslash. -/
inductive SpellsByte : UInt8 → Text → Prop where
  | hex (b : UInt8) (high low : CodePoint) :
    IsHexDigit (b.toNat / 16) high → IsHexDigit (b.toNat % 16) low →
    SpellsByte b ['\\', 'x', high, low]
  | octal (b : UInt8) (n : Nat) : n < 512 → n % 256 = b.toNat →
    SpellsByte b
      ['\\', '0', Nat.digitChar (n / 64), Nat.digitChar (n / 8 % 8), Nat.digitChar (n % 8)]
  | named (b : UInt8) (letter : Char) : (b, letter) ∈ namedBytes → SpellsByte b ['\\', letter]
  | plain (b : UInt8) (c : Char) : 0x21 ≤ c.toNat → c.toNat ≤ 0x7E → c ≠ '\\' →
    b.toNat = c.toNat → SpellsByte b [c]

theorem leading_eq {digit? : CodePoint → Option Nat} {digits : Text}
    (h : ∀ c ∈ digits, (digit? c).isSome = true) (rest : Text) :
    leading digit? digits.length (digits ++ rest) = digits := by
  rw [leading, List.takeWhile_append_of_pos h, List.take_left']
  rfl

/-- The visible characters of ASCII. -/
def IsVisible (c : CodePoint) : Prop := 0x21 ≤ c.val ∧ c.val ≤ 0x7E

instance (c : CodePoint) : Decidable (IsVisible c) := instDecidableAnd

theorem hexDigit?_of_isHexDigit {value : Nat} {c : CodePoint} (hlt : value < 16)
    (h : IsHexDigit value c) : hexDigit? c = some value ∧ IsVisible c := by
  have hlower : ∀ v : Fin 16, hexDigit? (CodePoint.ofChar (Nat.digitChar v.val)) = some v.val ∧
      IsVisible (CodePoint.ofChar (Nat.digitChar v.val)) := by decide
  have hupper : ∀ v : Fin 16,
      hexDigit? (CodePoint.ofChar (Nat.digitChar v.val).toUpper) = some v.val ∧
      IsVisible (CodePoint.ofChar (Nat.digitChar v.val).toUpper) := by decide
  rcases h with rfl | rfl
  · exact hlower ⟨value, hlt⟩
  · exact hupper ⟨value, hlt⟩

theorem octalDigit?_digitChar {value : Nat} (hlt : value < 8) :
    octalDigit? (CodePoint.ofChar (Nat.digitChar value)) = some value ∧
      IsVisible (CodePoint.ofChar (Nat.digitChar value)) := by
  have hall : ∀ v : Fin 8, octalDigit? (CodePoint.ofChar (Nat.digitChar v.val)) = some v.val ∧
      IsVisible (CodePoint.ofChar (Nat.digitChar v.val)) := by decide
  exact hall ⟨value, hlt⟩

/-- A spelling makes one piece, which stands for the byte, and the scan goes on after it. -/
theorem pieces_spelling {b : UInt8} {spelling : Text} (h : SpellsByte b spelling) :
    ∃ piece : Piece, piece.decoded = [CodePoint.ofByte b] ∧
      ∀ rest, pieces (spelling ++ rest) = piece :: pieces rest := by
  have hb := b.toNat_lt
  cases h with
  | hex high low hhigh hlow =>
    have hh := (hexDigit?_of_isHexDigit (by omega) hhigh).1
    have hl := (hexDigit?_of_isHexDigit (by omega) hlow).1
    -- two digits are all that the escape takes, so a third one behind it cannot join them
    refine ⟨.hex [high, low], ?_, fun rest => ?_⟩
    · have hvalue : digitsValue 16 hexDigit? [high, low] = b.toNat := by
        simp only [digitsValue, List.foldl, hh, hl, Option.getD_some]; omega
      rw [Piece.decoded, hvalue, UInt8.ofNat_toNat]
    · have hdigits : ∀ c ∈ [high, low], (hexDigit? c).isSome = true := by simp [hh, hl]
      have hleading : leading hexDigit? 2 ([high, low] ++ rest) = [high, low] :=
        leading_eq hdigits rest
      show scan .idle ('\\' :: 'x' :: ([high, low] ++ rest)) = _
      rw [scan_hex, hleading]
      rfl
  | octal n hn hmod =>
    have h2 := (octalDigit?_digitChar (show n / 64 < 8 by omega)).1
    have h1 := (octalDigit?_digitChar (show n / 8 % 8 < 8 by omega)).1
    have h0 := (octalDigit?_digitChar (show n % 8 < 8 by omega)).1
    -- from here on only the values of the digits matter
    generalize CodePoint.ofChar (Nat.digitChar (n / 64)) = high at h2
    generalize CodePoint.ofChar (Nat.digitChar (n / 8 % 8)) = middle at h1
    generalize CodePoint.ofChar (Nat.digitChar (n % 8)) = low at h0
    refine ⟨.octal [high, middle, low], ?_, fun rest => ?_⟩
    · have hvalue : digitsValue 8 octalDigit? [high, middle, low] = n := by
        simp only [digitsValue, List.foldl, h2, h1, h0, Option.getD_some]; omega
      have hbyte : UInt8.ofNat n = b := by
        rw [← UInt8.toNat_inj, UInt8.toNat_ofNat']; omega
      rw [Piece.decoded, hvalue, hbyte]
    · have hdigits : ∀ c ∈ [high, middle, low], (octalDigit? c).isSome = true := by
        simp [h2, h1, h0]
      have hleading : leading octalDigit? 3 ([high, middle, low] ++ rest) = [high, middle, low] :=
        leading_eq hdigits rest
      show scan .idle ('\\' :: '0' :: ([high, middle, low] ++ rest)) = _
      rw [scan_octal, hleading]
      rfl
  | named letter hmem =>
    have hall : ∀ name ∈ namedBytes,
        meaning? (CodePoint.ofChar name.2) = some (CodePoint.ofByte name.1) := by decide
    have hmeaning := hall _ hmem
    exact ⟨.named letter (CodePoint.ofByte b), rfl, fun rest => scan_named hmeaning rest⟩
  | plain c hlow hhigh hc hval =>
    have hascii : CodePoint.ofByte b = CodePoint.ofChar c := by
      rw [CodePoint.eq_ofChar_iff, CodePoint.ofByte_val, if_pos (by omega), hval]
    have hne : CodePoint.ofChar c ≠ '\\' := fun h => hc (by
      rw [CodePoint.eq_ofChar_iff] at h
      exact Char.toNat_inj.mp h)
    refine ⟨.plain c, ?_, fun rest => scan_plain hne rest⟩
    rw [Piece.decoded, hascii]

theorem visible_of_spellsByte {b : UInt8} {spelling : Text} (h : SpellsByte b spelling) :
    spelling ≠ [] ∧ ∀ c ∈ spelling, IsVisible c := by
  have hb := b.toNat_lt
  have hslash : IsVisible '\\' := by decide
  have hx : IsVisible 'x' := by decide
  have hzero : IsVisible '0' := by decide
  cases h with
  | hex high low hhigh hlow =>
    have hh := (hexDigit?_of_isHexDigit (by omega) hhigh).2
    have hl := (hexDigit?_of_isHexDigit (by omega) hlow).2
    simp [hslash, hx, hh, hl]
  | octal n hn hmod =>
    have h2 := (octalDigit?_digitChar (show n / 64 < 8 by omega)).2
    have h1 := (octalDigit?_digitChar (show n / 8 % 8 < 8 by omega)).2
    have h0 := (octalDigit?_digitChar (show n % 8 < 8 by omega)).2
    simp [hslash, hzero, h2, h1, h0]
  | named letter hmem =>
    have hall : ∀ name ∈ namedBytes, IsVisible (CodePoint.ofChar name.2) := by decide
    simp [hslash, hall _ hmem]
  | plain c hlow hhigh hc hval =>
    have hc : IsVisible c := ⟨hlow, hhigh⟩
    simp [hc]

/-! ## Arguments -/

/-- Spellings of bytes, one after the other. -/
inductive Spells : Bytes → Text → Prop where
  | nil : Spells [] []
  | cons {b : UInt8} {bs : Bytes} {spelling t : Text} :
    SpellsByte b spelling → Spells bs t → Spells (b :: bs) (spelling ++ t)

/-- The spellings of an argument. An empty one is written as a NUL, at which decoding cuts. -/
inductive SpellsArgument : Bytes → Text → Prop where
  | empty : SpellsArgument [] ['\\', 'x', '0', '0']
  | bytes {bs : Bytes} {t : Text} : bs ≠ [] → Spells bs t → SpellsArgument bs t

/-- The spellings of a list of arguments, each after a gap of delimiters. The end of a line, if it
has one, is a gap with nothing after it. -/
inductive SpellsArguments : List Bytes → Text → Prop where
  | nil {gap : Text} : (∀ c ∈ gap, Line.isDelimiter c = true) → SpellsArguments [] gap
  | cons {bs : Bytes} {arguments : List Bytes} {gap word t : Text} :
    gap ≠ [] → (∀ c ∈ gap, Line.isDelimiter c = true) → SpellsArgument bs word →
    SpellsArguments arguments t → SpellsArguments (bs :: arguments) (gap ++ word ++ t)

theorem decodedToken_spelled {bs : Bytes} {t : Text} (h : Spells bs t) :
    decodedToken t = bs.map CodePoint.ofByte := by
  rw [decodedToken_eq]
  induction h with
  | nil => rfl
  | cons hb _ ih =>
    obtain ⟨piece, hdecoded, hpieces⟩ := pieces_spelling hb
    rw [hpieces, List.flatMap_cons, hdecoded, ih, List.map_cons]
    rfl

theorem visible_of_spells {bs : Bytes} {t : Text} (h : Spells bs t) : ∀ c ∈ t, IsVisible c := by
  induction h with
  | nil => exact fun c hc => absurd hc List.not_mem_nil
  | cons hb _ ih =>
    intro c hc
    rcases List.mem_append.mp hc with h | h
    · exact (visible_of_spellsByte hb).2 c h
    · exact ih c h

theorem word_of_spellsArgument {bs : Bytes} {t : Text} (h : SpellsArgument bs t) :
    t ≠ [] ∧ ∀ c ∈ t, Line.isDelimiter c = false := by
  have hvisible : t ≠ [] ∧ ∀ c ∈ t, IsVisible c := by
    cases h with
    | empty =>
      refine ⟨by simp, ?_⟩
      intro c hc
      simp only [List.mem_cons, List.not_mem_nil, or_false] at hc
      rcases hc with rfl | rfl | rfl | rfl <;> decide
    | bytes hne hspells =>
      refine ⟨?_, visible_of_spells hspells⟩
      cases hspells with
      | nil => exact absurd rfl hne
      | cons hb _ => exact fun hnil => (visible_of_spellsByte hb).1 (List.append_eq_nil_iff.mp hnil).1
  refine ⟨hvisible.1, fun c hc => ?_⟩
  have hc := hvisible.2 c hc
  rw [IsVisible] at hc
  simp only [Line.isDelimiter, CodePoint.eq_ofChar_iff, Bool.or_eq_false_iff, decide_eq_false_iff_not]
  refine ⟨⟨⟨⟨?_, ?_⟩, ?_⟩, ?_⟩, ?_⟩ <;> (intro hval; rw [hval] at hc; revert hc; decide)

theorem decodeArgument_eq {t : Text} (h : CodePoint.ofChar '\x00' ∉ decodedToken t) :
    Line.decodeArgument decode t = decodedToken t := by
  rcases Line.decodeArgument_cases t with ⟨hdecode, hkept⟩ | ⟨_, hcut⟩
  · rw [hkept, decodedToken, hdecode]
    rfl
  · rw [hcut]
    refine List.takeWhile_eq_self_iff.mpr fun c hc => ?_
    rw [decide_eq_true_eq]
    intro hzero
    subst hzero
    exact h hc

/-- A spelled argument without NUL decodes to its bytes. -/
theorem decodeArgument_spelled {bs : Bytes} {t : Text} (h : SpellsArgument bs t) (hnul : 0 ∉ bs) :
    Line.decodeArgument decode t = bs.map CodePoint.ofByte := by
  cases h with
  | empty => decide
  | bytes _ hspells =>
    have hdecoded := decodedToken_spelled hspells
    rw [← hdecoded]
    refine decodeArgument_eq ?_
    rw [hdecoded]
    exact (Text.isPassable_map_ofByte hnul).2

theorem head_delimiter_of_spells {arguments : List Bytes} {t : Text}
    (h : SpellsArguments arguments t) : ∀ c ∈ t.head?, Line.isDelimiter c = true := by
  intro c hc
  cases h with
  | nil hdelimiters => exact hdelimiters c (List.mem_of_mem_head? hc)
  | @cons _ _ gap word t hgap hdelimiters =>
    cases gap with
    | nil => exact absurd rfl hgap
    | cons d gap =>
      have hd : d = c := Option.some.inj hc
      exact hdelimiters c (hd ▸ List.mem_cons_self)

/-- The tokens of spelled arguments decode to the arguments. -/
theorem tokens_spelled {arguments : List Bytes} {t : Text} (h : SpellsArguments arguments t)
    (hnul : ∀ bs ∈ arguments, 0 ∉ bs) :
    (Line.tokens t).map (Line.decodeArgument decode)
      = arguments.map fun bs => bs.map CodePoint.ofByte := by
  induction h with
  | @nil gap hdelimiters =>
    rw [Line.tokens, ← List.append_nil gap, Text.fields_gap_append hdelimiters]
    rfl
  | @cons bs arguments gap word t hgap hdelimiters hword hrest ih =>
    obtain ⟨hne, hplain⟩ := word_of_spellsArgument hword
    rw [Line.tokens, List.append_assoc, Text.fields_gap_append hdelimiters,
      Text.fields_word_append hne hplain (head_delimiter_of_spells hrest), List.map_cons, List.map_cons,
      decodeArgument_spelled hword (hnul bs List.mem_cons_self), ← Line.tokens,
      ih fun bs hbs => hnul bs (List.mem_cons_of_mem _ hbs)]

end LineShell.Escape
