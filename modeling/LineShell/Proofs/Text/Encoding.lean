import Mathlib.Data.List.TakeWhile
import LineShell.Text.Passable

/- Which texts can be encoded and passed on, said by their code points.

   `Encoding.fault?` looks for the first offender; here it is shown to find one exactly if there is
   one (`fault?_eq_none_iff`), so "can be encoded" becomes a property of each code point by itself
   and goes through decoding. The second half is about bytes: a byte comes back
   from its code point (`bytes_ofByte`), and a byte below 0x80 comes from nothing but the ASCII
   character of its number (`bytes_ascii`, `high_of_mem_bytes`). -/
namespace LineShell

/-- A code point with bytes of its own: any but a surrogate that stands for no byte. -/
def CodePoint.IsEncodable (c : CodePoint) : Prop := c.isSurrogate = true → c.isRawByte = true

/-- No surrogate in the text but those that stand for a byte. -/
def Text.IsEncodable (t : Text) : Prop := ∀ c ∈ t, c.IsEncodable

/-- A text that the system accepts as a path or an argument. -/
def Text.IsPassable (t : Text) : Prop := t.IsEncodable ∧ CodePoint.ofChar '\x00' ∉ t

/-! ## Faults -/

namespace Encoding

theorem fault?_eq_none_iff (e : Encoding) (t : Text) :
    e.fault? t = none ↔ ∀ c ∈ t, e.offends c = false := by
  have hdrop : t.dropWhile (!e.offends ·) = [] ↔ ∀ c ∈ t, e.offends c = false := by
    rw [List.dropWhile_eq_nil_iff]; simp
  rw [← hdrop, fault?]
  split
  · next h => simp [h]
  · next h => simp [h]

theorem rawBytes_fault?_eq_none_iff (t : Text) :
    rawBytes.fault? t = none ↔ t.IsEncodable := by
  rw [fault?_eq_none_iff]
  refine forall_congr' fun c => imp_congr_right fun _ => ?_
  simp only [offends, CodePoint.IsEncodable]
  cases c.isSurrogate <;> cases c.isRawByte <;> simp

theorem encode_rawBytes_iff (t : Text) (bytes : Bytes) :
    rawBytes.encode t = .ok bytes ↔ t.IsEncodable ∧ t.bytes = bytes := by
  rw [← rawBytes_fault?_eq_none_iff, encode]
  cases rawBytes.fault? t <;> simp

end Encoding

/-- What `Text.fault?` leaves through is what the system accepts. -/
theorem Text.fault?_eq_none_iff (t : Text) : t.fault? = none ↔ t.IsPassable := by
  rw [IsPassable, ← Encoding.rawBytes_fault?_eq_none_iff, Text.fault?]
  cases Encoding.rawBytes.fault? t <;> simp

instance (t : Text) : Decidable t.IsPassable :=
  decidable_of_iff (t.fault? = none) (Text.fault?_eq_none_iff t)

/-- A NUL is what is wrong only if nothing else is. -/
theorem Text.fault?_eq_embeddedNul_iff (t : Text) :
    t.fault? = some .embeddedNul ↔ t.IsEncodable ∧ CodePoint.ofChar '\x00' ∈ t := by
  rw [← Encoding.rawBytes_fault?_eq_none_iff, Text.fault?]
  cases Encoding.rawBytes.fault? t <;> simp

/-- Plain UTF-8 refuses more than the encoding that keeps raw bytes. -/
theorem Text.isEncodable_of_no_surrogate {t : Text} (h : ∀ c ∈ t, c.isSurrogate = false) :
    t.IsEncodable := by
  intro c hc hs
  rw [h c hc] at hs
  cases hs

/-! ## Bytes -/

namespace CodePoint

theorem eq_ofChar_iff (c : CodePoint) (d : Char) : c = ofChar d ↔ c.val = d.toNat := by
  rw [Fin.ext_iff]; rfl

theorem isSurrogate_iff (c : CodePoint) :
    c.isSurrogate = true ↔ 0xD800 ≤ c.val ∧ c.val ≤ 0xDFFF := by
  simp only [isSurrogate, Bool.and_eq_true, decide_eq_true_eq]

theorem isRawByte_iff (c : CodePoint) : c.isRawByte = true ↔ 0xDC80 ≤ c.val ∧ c.val ≤ 0xDCFF := by
  simp only [isRawByte, Bool.and_eq_true, decide_eq_true_eq]

theorem ofByte_val (b : UInt8) :
    (ofByte b).val = if b.toNat < 0x80 then b.toNat else 0xDC00 + b.toNat := rfl

theorem isEncodable_ofByte (b : UInt8) : (ofByte b).IsEncodable := by
  have hb := b.toNat_lt
  rw [IsEncodable, isSurrogate_iff, isRawByte_iff, ofByte_val]
  split <;> omega

theorem ofByte_eq_nul_iff (b : UInt8) : ofByte b = ofChar '\x00' ↔ b = 0 := by
  rw [eq_ofChar_iff, ofByte_val, ← UInt8.toNat_inj]
  have hb := b.toNat_lt
  show _ = 0 ↔ b.toNat = 0
  split <;> omega

theorem ofByte_of_ascii {c : CodePoint} (h : c.val < 0x80) : ofByte (.ofNat c.val) = c := by
  have hn : (UInt8.ofNat c.val).toNat = c.val := by
    rw [UInt8.toNat_ofNat']; omega
  rw [Fin.ext_iff, ofByte_val, hn, if_pos h]

theorem bytes_ascii {c : CodePoint} (h : c.val < 0x80) : c.bytes = [.ofNat c.val] := by
  have hraw : ¬c.isRawByte = true := by rw [isRawByte_iff]; omega
  simp [bytes, hraw, utf8, h]

/-- The code point of a byte is encoded as that byte. -/
theorem bytes_ofByte (b : UInt8) : (ofByte b).bytes = [b] := by
  have hb := b.toNat_lt
  by_cases h : b.toNat < 0x80
  · have hv : (ofByte b).val = b.toNat := by rw [ofByte_val, if_pos h]
    rw [bytes_ascii (by omega), hv, UInt8.ofNat_toNat]
  · have hv : (ofByte b).val = 0xDC00 + b.toNat := by rw [ofByte_val, if_neg h]
    have hraw : (ofByte b).isRawByte = true := by rw [isRawByte_iff]; omega
    rw [bytes, if_pos hraw, hv, Nat.add_sub_cancel_left, UInt8.ofNat_toNat]

/-- No byte of a character beyond ASCII is an ASCII byte. -/
theorem high_of_mem_bytes {c : CodePoint} (h : 0x80 ≤ c.val) : ∀ b ∈ c.bytes, 0x80 ≤ b.toNat := by
  have hc := c.isLt
  intro b hb
  rw [bytes] at hb
  split at hb
  · next hraw =>
    rw [isRawByte_iff] at hraw
    rw [List.mem_singleton.mp hb, UInt8.toNat_ofNat']
    omega
  · simp only [utf8] at hb
    split at hb
    · omega
    -- what is left is a leading byte or one that continues a character
    all_goals
      repeat' split at hb
      all_goals
        simp only [List.mem_cons, List.not_mem_nil, or_false] at hb
        rcases hb with rfl | rfl | rfl | rfl <;> (rw [UInt8.toNat_ofNat']; omega)

end CodePoint

namespace Text

theorem bytes_cons (c : CodePoint) (t : Text) : bytes (c :: t) = c.bytes ++ bytes t :=
  List.flatMap_cons

theorem bytes_append (s t : Text) : bytes (s ++ t) = bytes s ++ bytes t := List.flatMap_append

theorem bytes_map_ofByte (bs : Bytes) : bytes (bs.map CodePoint.ofByte) = bs := by
  induction bs with
  | nil => rfl
  | cons b bs ih => rw [List.map_cons, bytes_cons, ih, CodePoint.bytes_ofByte]; rfl

theorem isEncodable_map_ofByte (bs : Bytes) : IsEncodable (bs.map CodePoint.ofByte) := by
  intro c hc
  obtain ⟨b, _, rfl⟩ := List.mem_map.mp hc
  exact CodePoint.isEncodable_ofByte b

theorem isPassable_of_subset {s t : Text} (ht : t.IsPassable) (h : s ⊆ t) : s.IsPassable :=
  ⟨fun c hc => ht.1 c (h hc), fun hnul => ht.2 (h hnul)⟩

theorem isPassable_append {s t : Text} (hs : s.IsPassable) (ht : t.IsPassable) :
    (s ++ t).IsPassable := by
  refine ⟨List.forall_mem_append.mpr ⟨hs.1, ht.1⟩, fun hnul => ?_⟩
  exact (List.mem_append.mp hnul).elim hs.2 ht.2

theorem isPassable_map_ofByte {bs : Bytes} (h : 0 ∉ bs) : IsPassable (bs.map CodePoint.ofByte) := by
  refine ⟨isEncodable_map_ofByte bs, fun hmem => ?_⟩
  obtain ⟨b, hb, hnul⟩ := List.mem_map.mp hmem
  rw [CodePoint.ofByte_eq_nul_iff] at hnul
  exact h (hnul ▸ hb)

end Text

end LineShell
