import LineShell.Proofs.Escape.Scan

/- Escapes read byte by byte.

   `echo` gives its arguments to a program as bytes, so the escapes can also be read after the
   encoding: `decodeBytes` is the same grammar over bytes, as a program that knew no code points
   would read it. The main statement (`rawBytes_encode_decodedToken`) is that it makes no
   difference: decoding a token and encoding the result gives the bytes that `decodeBytes` makes of
   the encoded token. The two readers do not go in step where an unknown escape stands before a
   character of several bytes; there `decodeBytes` keeps the first of them with the backslash and
   copies the others, and none of them is a backslash (`high_of_mem_bytes`). -/
namespace LineShell.Escape

/-! ## The grammar over bytes -/

def octalValue? (b : UInt8) : Option Nat :=
  if 0x30 ≤ b.toNat ∧ b.toNat < 0x38 then some (b.toNat - 0x30) else none

def hexValue? (b : UInt8) : Option Nat :=
  if 0x30 ≤ b.toNat ∧ b.toNat < 0x3A then some (b.toNat - 0x30)
  else if 0x41 ≤ b.toNat ∧ b.toNat < 0x47 then some (b.toNat - 0x41 + 10)
  else if 0x61 ≤ b.toNat ∧ b.toNat < 0x67 then some (b.toNat - 0x61 + 10)
  else none

/-- The bytes that letters name, each after the byte of the letter. -/
def byteNames : List (UInt8 × UInt8) :=
  [(0x5C, 0x5C), (0x61, 0x07), (0x62, 0x08), (0x65, 0x1B), (0x66, 0x0C), (0x6E, 0x0A),
    (0x72, 0x0D), (0x74, 0x09), (0x76, 0x0B)]

/-- The values of at most `limit` digits in front, and the bytes after them. -/
def takeDigits (value? : UInt8 → Option Nat) : (limit : Nat) → Bytes → List Nat × Bytes
  | 0, bytes => ([], bytes)
  | _ + 1, [] => ([], [])
  | limit + 1, b :: rest =>
    match value? b with
    | none => ([], b :: rest)
    | some value => (value :: (takeDigits value? limit rest).1, (takeDigits value? limit rest).2)

def number (base : Nat) (values : List Nat) : Nat :=
  values.foldl (fun n value => base * n + value) 0

theorem length_takeDigits_le (value? : UInt8 → Option Nat) (limit : Nat) (bytes : Bytes) :
    (takeDigits value? limit bytes).2.length ≤ bytes.length := by
  induction limit generalizing bytes with
  | zero => exact Nat.le_refl _
  | succ limit ih =>
    cases bytes with
    | nil => exact Nat.le_refl _
    | cons b rest =>
      rw [takeDigits]
      split
      · exact Nat.le_refl _
      · exact Nat.le_succ_of_le (ih rest)

/-- The bytes of an argument after decoding: a backslash (0x5C) starts an escape, with `0` (0x30)
an octal one, with `x` (0x78) and a digit a hexadecimal one. -/
def decodeBytes : Bytes → Bytes
  | [] => []
  | [b] => [b]
  | b :: letter :: rest =>
    if b ≠ 0x5C then b :: decodeBytes (letter :: rest)
    else if letter = 0x30 then
      .ofNat (number 8 (takeDigits octalValue? 3 rest).1)
        :: decodeBytes (takeDigits octalValue? 3 rest).2
    else if letter = 0x78 ∧ (takeDigits hexValue? 2 rest).1 ≠ [] then
      .ofNat (number 16 (takeDigits hexValue? 2 rest).1)
        :: decodeBytes (takeDigits hexValue? 2 rest).2
    else match byteNames.lookup letter with
      | some byte => byte :: decodeBytes rest
      | none => 0x5C :: letter :: decodeBytes rest
termination_by bytes => bytes.length
decreasing_by
  all_goals
    have octal := length_takeDigits_le octalValue? 3 rest
    have hex := length_takeDigits_le hexValue? 2 rest
    simp only [List.length_cons]
    omega

theorem decodeBytes_cons {b : UInt8} (h : b ≠ 0x5C) (bytes : Bytes) :
    decodeBytes (b :: bytes) = b :: decodeBytes bytes := by
  cases bytes with
  | nil => simp [decodeBytes]
  | cons letter rest => rw [decodeBytes, if_pos h]

theorem decodeBytes_append {bytes : Bytes} (h : ∀ b ∈ bytes, b ≠ 0x5C) (rest : Bytes) :
    decodeBytes (bytes ++ rest) = bytes ++ decodeBytes rest := by
  induction bytes with
  | nil => rfl
  | cons b bytes ih =>
    rw [List.cons_append, decodeBytes_cons (h b List.mem_cons_self), List.cons_append,
      ih fun c hc => h c (List.mem_cons_of_mem b hc)]

/-! ## Characters and their bytes -/

theorem toNat_ofNat_ascii {c : CodePoint} (h : c.val < 0x80) : (UInt8.ofNat c.val).toNat = c.val := by
  rw [UInt8.toNat_ofNat']; omega

theorem byte_ne {c : CodePoint} {d : Char} (hc : c.val < 0x80) (hd : d.toNat < 0x80) (h : c ≠ d) :
    UInt8.ofNat c.val ≠ .ofNat d.toNat := by
  rw [Ne, ← UInt8.toNat_inj, toNat_ofNat_ascii hc, UInt8.toNat_ofNat']
  rw [Ne, CodePoint.eq_ofChar_iff] at h
  omega

theorem bytes_cases (c : CodePoint) :
    (c.val < 0x80 ∧ c.bytes = [.ofNat c.val]) ∨
      (0x80 ≤ c.val ∧ ∃ b more, c.bytes = b :: more ∧ 0x80 ≤ b.toNat ∧ ∀ d ∈ more, 0x80 ≤ d.toNat) := by
  by_cases h : c.val < 0x80
  · exact .inl ⟨h, CodePoint.bytes_ascii h⟩
  · have hhigh := CodePoint.high_of_mem_bytes (c := c) (by omega)
    refine .inr ⟨by omega, ?_⟩
    cases hbytes : c.bytes with
    | nil =>
      rw [CodePoint.bytes] at hbytes
      split at hbytes
      · cases hbytes
      · have hlength := CodePoint.length_utf8 c
        rw [hbytes, CodePoint.utf8Size] at hlength
        repeat' split at hlength
        all_goals cases hlength
    | cons b more =>
      rw [hbytes] at hhigh
      exact ⟨b, more, rfl, hhigh b List.mem_cons_self, fun d hd => hhigh d (List.mem_cons_of_mem b hd)⟩

theorem ne_backslash_of_high {b : UInt8} (h : 0x80 ≤ b.toNat) : b ≠ 0x5C := by
  intro hb
  subst hb
  exact absurd h (by decide)

/-- Two readings of digits are the same one, of characters and of bytes. -/
structure SameDigits (digit? : CodePoint → Option Nat) (value? : UInt8 → Option Nat) : Prop where
  ascii : ∀ c : CodePoint, c.val < 0x80 → value? (.ofNat c.val) = digit? c
  high : ∀ c : CodePoint, 0x80 ≤ c.val → digit? c = none
  highByte : ∀ b : UInt8, 0x80 ≤ b.toNat → value? b = none

theorem sameDigits_octal : SameDigits octalDigit? octalValue? where
  ascii := by
    intro c hc
    rw [octalValue?, octalDigit?, toNat_ofNat_ascii hc]
    split <;> split <;> first | rfl | omega
  high := by
    intro c hc
    rw [octalDigit?, if_neg (by omega)]
  highByte := by
    intro b hb
    rw [octalValue?, if_neg (by omega)]

theorem sameDigits_hex : SameDigits hexDigit? hexValue? where
  ascii := by
    intro c hc
    rw [hexValue?, hexDigit?, toNat_ofNat_ascii hc]
    repeat' split
    all_goals first | rfl | omega | (congr 1; omega)
  high := by
    intro c hc
    rw [hexDigit?, if_neg (by omega), if_neg (by omega), if_neg (by omega)]
  highByte := by
    intro b hb
    rw [hexValue?, if_neg (by omega), if_neg (by omega), if_neg (by omega)]

theorem takeDigits_bytes {digit? : CodePoint → Option Nat} {value? : UInt8 → Option Nat}
    (same : SameDigits digit? value?) (limit : Nat) (t : Text) :
    takeDigits value? limit t.bytes
      = ((leading digit? limit t).map fun c => (digit? c).getD 0,
          Text.bytes (t.drop (leading digit? limit t).length)) := by
  induction limit generalizing t with
  | zero => simp [takeDigits, leading]
  | succ limit ih =>
    cases t with
    | nil => rfl
    | cons c rest =>
      rw [Text.bytes_cons]
      cases hc : digit? c with
      | some value =>
        -- a digit is ASCII, and so one byte
        have hascii : c.val < 0x80 := by
          apply Classical.byContradiction
          intro hnot
          rw [same.high c (by omega)] at hc
          cases hc
        have hleading : leading digit? (limit + 1) (c :: rest) = c :: leading digit? limit rest := by
          simp [leading, hc]
        rw [CodePoint.bytes_ascii hascii, List.singleton_append, takeDigits, same.ascii c hascii, hc,
          hleading]
        simp only [ih rest, List.map_cons, List.length_cons, List.drop_succ_cons, hc,
          Option.getD_some]
      | none =>
        have hleading : leading digit? (limit + 1) (c :: rest) = [] := by simp [leading, hc]
        rw [hleading]
        rcases bytes_cases c with ⟨hascii, hb⟩ | ⟨_, b, more, hb, hhigh, _⟩
        · rw [hb, List.singleton_append, takeDigits, same.ascii c hascii, hc]
          simp [Text.bytes_cons, hb]
        · rw [hb, List.cons_append, takeDigits, same.highByte b hhigh]
          simp [Text.bytes_cons, hb]

theorem number_map (base : Nat) (digit? : CodePoint → Option Nat) (digits : Text) :
    number base (digits.map fun c => (digit? c).getD 0) = digitsValue base digit? digits := by
  rw [number, digitsValue, List.foldl_map]

theorem byteNames_lookup_ascii {c : CodePoint} (h : c.val < 0x80) :
    byteNames.lookup (.ofNat c.val) = (meaning? c).map (.ofNat ·.val) := by
  have all : ∀ n : Fin 0x80, byteNames.lookup (.ofNat n.val)
      = (meaning? (n.castLE (by decide))).map (.ofNat ·.val) := by decide
  exact all ⟨c.val, h⟩

theorem byteNames_lookup_high {b : UInt8} (h : 0x80 ≤ b.toNat) : byteNames.lookup b = none := by
  rw [List.lookup_eq_none_iff]
  intro name hname
  have hlow : (byteNames.all fun name => name.1.toNat < 0x80) = true := by decide
  have hkey := of_decide_eq_true (List.all_eq_true.mp hlow name hname)
  rw [bne_iff_ne]
  intro hequal
  subst hequal
  omega

theorem ascii_of_meaning? {c meaning : CodePoint} (h : meaning? c = some meaning) :
    c.val < 0x80 ∧ meaning.val < 0x80 := by
  have hall : (letters.all fun name => name.1.val < 0x80 ∧ name.2.val < 0x80) = true := by decide
  obtain ⟨before, after, hletters, _⟩ := List.lookup_eq_some_iff.mp h
  have hmem : (c, meaning) ∈ letters := by rw [hletters]; simp
  exact of_decide_eq_true (List.all_eq_true.mp hall _ hmem)

/-! ## Decoding and encoding commute -/

theorem decodeBytes_octal (t : Text) :
    decodeBytes (Text.bytes ('\\' :: '0' :: t))
      = .ofNat (digitsValue 8 octalDigit? (leading octalDigit? 3 t))
        :: decodeBytes (Text.bytes (t.drop (leading octalDigit? 3 t).length)) := by
  show decodeBytes (0x5C :: 0x30 :: t.bytes) = _
  rw [decodeBytes, if_neg (by decide), if_pos rfl, takeDigits_bytes sameDigits_octal, number_map]

theorem decodeBytes_hex {t : Text} (h : leading hexDigit? 2 t ≠ []) :
    decodeBytes (Text.bytes ('\\' :: 'x' :: t))
      = .ofNat (digitsValue 16 hexDigit? (leading hexDigit? 2 t))
        :: decodeBytes (Text.bytes (t.drop (leading hexDigit? 2 t).length)) := by
  show decodeBytes (0x5C :: 0x78 :: t.bytes) = _
  rw [decodeBytes, if_neg (by decide), if_neg (by decide), takeDigits_bytes sameDigits_hex,
    if_pos ⟨rfl, by simpa using h⟩, number_map]

/-- The byte after a backslash is kept if it begins nothing, and so are the bytes of the same
character after it. -/
theorem decodeBytes_unknown {c : CodePoint} {t : Text} (h0 : c ≠ '0')
    (hx : c = 'x' → leading hexDigit? 2 t = []) (hm : meaning? c = none) :
    decodeBytes (Text.bytes ('\\' :: c :: t)) = 0x5C :: c.bytes ++ decodeBytes t.bytes := by
  show decodeBytes (0x5C :: Text.bytes (c :: t)) = _
  rw [Text.bytes_cons]
  rcases bytes_cases c with ⟨hascii, hb⟩ | ⟨_, b, more, hb, hhigh, hmore⟩
  · have hzero : UInt8.ofNat c.val ≠ 0x30 := byte_ne hascii (by decide) h0
    have hhex : ¬(UInt8.ofNat c.val = 0x78 ∧ (takeDigits hexValue? 2 t.bytes).1 ≠ []) := by
      intro hstarts
      obtain ⟨hc, hdigits⟩ := hstarts
      have hcx : c = 'x' := Classical.byContradiction fun hne =>
        absurd hc (byte_ne hascii (by decide) hne)
      rw [takeDigits_bytes sameDigits_hex, hx hcx] at hdigits
      exact hdigits rfl
    rw [hb, List.singleton_append, decodeBytes, if_neg (by decide), if_neg hzero, if_neg hhex,
      byteNames_lookup_ascii hascii, hm]
    rfl
  · have hzero : b ≠ 0x30 := by rintro rfl; exact absurd hhigh (by decide)
    have hhex : ¬(b = 0x78 ∧ (takeDigits hexValue? 2 (more ++ t.bytes)).1 ≠ []) := by
      rintro ⟨rfl, _⟩; exact absurd hhigh (by decide)
    rw [hb, List.cons_append, decodeBytes, if_neg (by decide), if_neg hzero, if_neg hhex,
      byteNames_lookup_high hhigh]
    -- the other bytes of the character hold no backslash
    rw [decodeBytes_append fun d hd => ne_backslash_of_high (hmore d hd)]
    rfl

theorem ne_backslash_of_mem_bytes {c : CodePoint} (h : c ≠ '\\') : ∀ b ∈ c.bytes, b ≠ 0x5C := by
  intro b hb
  rcases bytes_cases c with ⟨hascii, hc⟩ | ⟨hhigh, _⟩
  · rw [hc, List.mem_singleton] at hb
    rw [hb]
    exact byte_ne hascii (by decide) h
  · exact ne_backslash_of_high (CodePoint.high_of_mem_bytes hhigh b hb)

theorem bytes_decoded (token : Text) :
    Text.bytes ((pieces token).flatMap Piece.decoded) = decodeBytes token.bytes := by
  induction token using token_induction with
  | nil => simp [pieces, scan, close, Text.bytes, decodeBytes]
  | plain c t hc ih =>
    rw [pieces, scan_plain hc, List.flatMap_cons, Text.bytes_append, Text.bytes_cons c t,
      decodeBytes_append (ne_backslash_of_mem_bytes hc), ← ih, pieces]
    simp [Piece.decoded, Text.bytes]
  | lone =>
    show Text.bytes ['\\'] = decodeBytes [0x5C]
    rw [decodeBytes]
    rfl
  | octal t ih =>
    rw [pieces, scan_octal, List.flatMap_cons, Text.bytes_append, decodeBytes_octal, ← ih, pieces,
      Piece.decoded, Text.bytes_cons, CodePoint.bytes_ofByte]
    rfl
  | hex t ih =>
    rw [pieces, scan_hex, List.flatMap_append, Text.bytes_append]
    cases hdigits : leading hexDigit? 2 t with
    | nil =>
      -- without a digit after it, the `x` is kept like a letter that names nothing
      rw [hdigits] at ih
      rw [decodeBytes_unknown (by decide) (fun _ => hdigits) (by decide)]
      replace ih : Text.bytes ((pieces t).flatMap Piece.decoded) = decodeBytes (Text.bytes t) := ih
      rw [← ih]
      rfl
    | cons d digits =>
      rw [hdigits] at ih
      rw [decodeBytes_hex (by rw [hdigits]; simp), hdigits, ← ih, pieces]
      show Text.bytes [CodePoint.ofByte _] ++ _ = _
      rw [Text.bytes_cons, CodePoint.bytes_ofByte]
      rfl
  | named c meaning t hm ih =>
    have hascii := ascii_of_meaning? hm
    have hother := not_numeric_of_meaning? hm
    have hzero : UInt8.ofNat c.val ≠ 0x30 := byte_ne hascii.1 (by decide) hother.1
    have hhex : UInt8.ofNat c.val ≠ 0x78 := byte_ne hascii.1 (by decide) hother.2
    rw [pieces, scan_named hm, List.flatMap_cons, Text.bytes_append, ← pieces, ih]
    show Text.bytes [meaning] ++ _ = decodeBytes (0x5C :: Text.bytes (c :: t))
    rw [Text.bytes_cons c t, CodePoint.bytes_ascii hascii.1, List.singleton_append, decodeBytes,
      if_neg (by decide), if_neg hzero, if_neg (fun h => hhex h.1), byteNames_lookup_ascii hascii.1,
      hm, Text.bytes_cons, CodePoint.bytes_ascii hascii.2]
    rfl
  | unknown c t h0 hx hm ih =>
    rw [pieces, scan_unknown h0 hx hm, List.flatMap_cons, Text.bytes_append, ← pieces, ih,
      decodeBytes_unknown h0 (fun h => absurd h hx) hm]
    show Text.bytes ['\\', c] ++ _ = _
    rw [Text.bytes_cons, Text.bytes_cons]
    simp [Text.bytes]
    rfl

/-! ## Where decoded characters come from -/

/-- A character of the token, or one that stands for a byte. -/
def From (token : Text) (c : CodePoint) : Prop := c ∈ token ∨ ∃ b, c = CodePoint.ofByte b

theorem from_append {token here rest : Text} (hhere : ∀ c ∈ here, From token c)
    (hsub : rest ⊆ token) (hrest : ∀ c ∈ (pieces rest).flatMap Piece.decoded, From rest c) :
    ∀ c ∈ here ++ (pieces rest).flatMap Piece.decoded, From token c := by
  intro c hc
  rcases List.mem_append.mp hc with h | h
  · exact hhere c h
  · rcases hrest c h with hmem | hbyte
    · exact .inl (hsub hmem)
    · exact .inr hbyte

theorem from_of_mem_decoded (token : Text) :
    ∀ c ∈ (pieces token).flatMap Piece.decoded, From token c := by
  induction token using token_induction with
  | nil => exact fun c hc => absurd hc List.not_mem_nil
  | plain c t hc ih =>
    rw [pieces, scan_plain hc, List.flatMap_cons]
    exact from_append (by simp [Piece.decoded, From]) (List.subset_cons_self c t) ih
  | lone => exact fun c hc => .inl hc
  | octal t ih =>
    rw [pieces, scan_octal, List.flatMap_cons]
    refine from_append (fun c hc => ?_) (fun c hc => ?_) ih
    · exact .inr ⟨_, List.mem_singleton.mp hc⟩
    · exact List.mem_cons_of_mem _ (List.mem_cons_of_mem _ (List.mem_of_mem_drop hc))
  | hex t ih =>
    rw [pieces, scan_hex, List.flatMap_append]
    refine from_append (fun c hc => ?_) (fun c hc => ?_) ih
    · cases hdigits : leading hexDigit? 2 t with
      | nil =>
        rw [hdigits] at hc
        have hfront : (['\\', 'x'] : Text) <+: '\\' :: 'x' :: t := List.prefix_append _ t
        exact .inl (hfront.subset hc)
      | cons digit digits =>
        rw [hdigits] at hc
        exact .inr ⟨_, List.mem_singleton.mp hc⟩
    · exact List.mem_cons_of_mem _ (List.mem_cons_of_mem _ (List.mem_of_mem_drop hc))
  | named c meaning t hm ih =>
    rw [pieces, scan_named hm, List.flatMap_cons]
    refine from_append (fun d hd => ?_) (fun d hd => ?_) ih
    · rw [List.mem_singleton.mp hd]
      exact .inr ⟨_, (CodePoint.ofByte_of_ascii (ascii_of_meaning? hm).2).symm⟩
    · exact List.mem_cons_of_mem _ (List.mem_cons_of_mem _ hd)
  | unknown c t h0 hx hm ih =>
    rw [pieces, scan_unknown h0 hx hm, List.flatMap_cons]
    refine from_append (fun d hd => ?_) (fun d hd => ?_) ih
    · have hfront : (['\\', c] : Text) <+: '\\' :: c :: t := List.prefix_append _ t
      exact .inl (hfront.subset hd)
    · exact List.mem_cons_of_mem _ (List.mem_cons_of_mem _ hd)

theorem isEncodable_decodedToken {token : Text} (h : token.IsEncodable) :
    (decodedToken token).IsEncodable := by
  intro c hc
  rw [decodedToken_eq] at hc
  rcases from_of_mem_decoded token c hc with hmem | ⟨b, rfl⟩
  · exact h c hmem
  · exact CodePoint.isEncodable_ofByte b

/-- Decoding a token and encoding the result is encoding the token and decoding its bytes, for every
token whose surrogates all stand for bytes; and the result is such a token again. -/
theorem rawBytes_encode_decodedToken {token : Text}
    (h : ∀ c ∈ token, c.isSurrogate = true → c.isRawByte = true) :
    (∀ c ∈ decodedToken token, c.isSurrogate = true → c.isRawByte = true) ∧
      ∃ bytes, Encoding.rawBytes.encode token = .ok bytes ∧
        Encoding.rawBytes.encode (decodedToken token) = .ok (decodeBytes bytes) := by
  have hresult : (decodedToken token).IsEncodable := isEncodable_decodedToken h
  refine ⟨hresult, token.bytes, ?_, ?_⟩
  · rw [Encoding.encode_rawBytes_iff]
    exact ⟨h, rfl⟩
  · rw [Encoding.encode_rawBytes_iff]
    refine ⟨hresult, ?_⟩
    rw [decodedToken_eq, bytes_decoded]

/-- An unknown escape before a character of two bytes, one before a raw byte, an octal number beyond
one byte with a digit behind it, and a backslash at the end. -/
theorem rawBytes_encode_decodedToken_mixed :
    let token : Text := ['\\', 'é', '\\', .ofByte 0xC3, '\\', '0', '7', '7', '7', '8', '\\']
    (∀ c ∈ token, c.isSurrogate = true → c.isRawByte = true) ∧
      Encoding.rawBytes.encode (decodedToken token)
        = .ok (decodeBytes
            [0x5C, 0xC3, 0xA9, 0x5C, 0xC3, 0x5C, 0x30, 0x37, 0x37, 0x37, 0x38, 0x5C]) ∧
      Encoding.rawBytes.encode (decodedToken token)
        = .ok [0x5C, 0xC3, 0xA9, 0x5C, 0xC3, 0xFF, 0x38, 0x5C] := by
  intro token
  have h : ∀ c ∈ token, c.isSurrogate = true → c.isRawByte = true := by
    intro c hc hs
    have hall : token.all (fun d => !d.isSurrogate || d.isRawByte) = true := by decide
    simpa [hs] using List.all_eq_true.mp hall c hc
  have hsource : Encoding.rawBytes.encode token
      = .ok [0x5C, 0xC3, 0xA9, 0x5C, 0xC3, 0x5C, 0x30, 0x37, 0x37, 0x37, 0x38, 0x5C] := by decide
  obtain ⟨bytes, hbytes, hresult⟩ := (rawBytes_encode_decodedToken h).2
  rw [hsource] at hbytes
  cases hbytes
  exact ⟨h, hresult, by decide⟩

end LineShell.Escape
