import LineShell.Escape
import LineShell.Proofs.Text.Encoding

/- The scan of a token, one escape at a time.

   `Escape.scan` reads one character at a time and keeps what is pending. Here it is described by
   whole escapes: what a backslash and what follows it contribute, and where the scan goes on. A
   numeric escape takes the digits that stand there, up to its limit (`leading`), whatever comes
   after them. `token_induction` is the induction that goes with this description. -/
namespace LineShell.Escape

/-- The digits at the start of a text, at most `limit` of them. -/
def leading (digit? : CodePoint → Option Nat) (limit : Nat) (t : Text) : Text :=
  (t.takeWhile fun c => (digit? c).isSome).take limit

/-! ## Numeric escapes -/

section
variable {digit? : CodePoint → Option Nat} {grow : Text → Pending} {limit : Nat}

/-- A numeric escape reads on as `step` says: a digit is added, the last one it has room for ends
it, and what is no digit closes it and stands for itself. -/
structure Reads (digit? : CodePoint → Option Nat) (grow : Text → Pending) (limit : Nat) : Prop where
  other : ∀ digits c, digit? c = none →
    step (grow digits) c = (close (grow digits) ++ (start c).1, (start c).2)
  more : ∀ digits c, (digit? c).isNone = false → digits.length + 1 < limit →
    step (grow digits) c = ([], grow (digits ++ [c]))
  last : ∀ digits c, (digit? c).isNone = false → digits.length + 1 = limit →
    step (grow digits) c = (close (grow (digits ++ [c])), .idle)

theorem scan_start (c : CodePoint) (t : Text) :
    (start c).1 ++ scan (start c).2 t = scan .idle (c :: t) := rfl

theorem scan_reads (h : Reads digit? grow limit) (t digits : Text) (hroom : digits.length < limit) :
    scan (grow digits) t
      = close (grow (digits ++ leading digit? (limit - digits.length) t))
        ++ scan .idle (t.drop (leading digit? (limit - digits.length) t).length) := by
  induction t generalizing digits with
  | nil => simp [leading, scan, close]
  | cons c rest ih =>
    cases hc : digit? c with
    | none =>
      -- the escape is closed, and the character is read again as the first of what follows
      have hnil : leading digit? (limit - digits.length) (c :: rest) = [] := by
        simp [leading, hc]
      rw [scan, h.other digits c hc, hnil]
      simp only [List.append_nil, List.length_nil, List.drop_zero, List.append_assoc]
      rw [scan_start]
    | some value =>
      have hdigit : (digit? c).isNone = false := by rw [hc]; rfl
      have hcons : leading digit? (limit - digits.length) (c :: rest)
          = c :: leading digit? (limit - (digits ++ [c]).length) rest := by
        rw [leading, List.takeWhile_cons, if_pos (by rw [hc]; rfl), List.take_cons (by omega), leading]
        simp only [List.length_append, List.length_singleton]
        rw [Nat.sub_sub]
      rw [hcons, List.length_cons, List.drop_succ_cons, List.append_cons]
      by_cases hlast : digits.length + 1 = limit
      · -- no room is left, so no digit of the rest is taken
        have hfull : limit - (digits ++ [c]).length = 0 := by
          simp only [List.length_append, List.length_singleton]; omega
        rw [scan, h.last digits c hdigit hlast, hfull]
        simp [leading]
      · rw [scan, h.more digits c hdigit (by omega), List.nil_append]
        exact ih (digits ++ [c]) (by simp only [List.length_append, List.length_singleton]; omega)

end

theorem reads_octal : Reads octalDigit? .octal 3 where
  other := by
    intro digits c h
    simp [step, h]
  more := by
    intro digits c h hroom
    rw [step, if_neg (by rw [h]; simp), if_pos (by omega)]
  last := by
    intro digits c h hfull
    rw [step, if_neg (by rw [h]; simp), if_neg (by omega)]
    rfl

theorem reads_hex : Reads hexDigit? .hex 2 where
  other := by
    intro digits c h
    simp [step, h]
  more := by
    intro digits c h hroom
    rw [step, if_neg (by rw [h]; simp), if_pos (by omega)]
  last := by
    intro digits c h hfull
    rw [step, if_neg (by rw [h]; simp), if_neg (by omega)]
    cases digits <;> rfl

/-! ## Whole escapes -/

theorem scan_plain {c : CodePoint} (h : c ≠ '\\') (t : Text) :
    scan .idle (c :: t) = .plain c :: scan .idle t := by
  rw [scan, step, start, if_neg h]
  rfl

theorem scan_octal (t : Text) :
    scan .idle ('\\' :: '0' :: t)
      = .octal (leading octalDigit? 3 t)
        :: scan .idle (t.drop (leading octalDigit? 3 t).length) :=
  scan_reads reads_octal t [] (by decide)

theorem scan_hex (t : Text) :
    scan .idle ('\\' :: 'x' :: t)
      = close (.hex (leading hexDigit? 2 t))
        ++ scan .idle (t.drop (leading hexDigit? 2 t).length) :=
  scan_reads reads_hex t [] (by decide)

/-- The first characters of numeric escapes name nothing, so the order in which `select` asks does
not matter. -/
theorem not_numeric_of_meaning? {c meaning : CodePoint} (h : meaning? c = some meaning) :
    c ≠ '0' ∧ c ≠ 'x' := by
  refine ⟨?_, ?_⟩
  · intro hc
    subst hc
    rw [show meaning? '0' = none by decide] at h
    cases h
  · intro hc
    subst hc
    rw [show meaning? 'x' = none by decide] at h
    cases h

theorem scan_named {c meaning : CodePoint} (h : meaning? c = some meaning) (t : Text) :
    scan .idle ('\\' :: c :: t) = .named c meaning :: scan .idle t := by
  have hother := not_numeric_of_meaning? h
  have hselect : select c = ([.named c meaning], .idle) := by
    rw [select, if_neg hother.1, if_neg hother.2, h]
  show scan .backslash (c :: t) = _
  rw [scan, step, hselect]
  rfl

theorem scan_unknown {c : CodePoint} (h0 : c ≠ '0') (hx : c ≠ 'x') (h : meaning? c = none)
    (t : Text) : scan .idle ('\\' :: c :: t) = .unknown c :: scan .idle t := by
  have hselect : select c = ([.unknown c], .idle) := by
    rw [select, if_neg h0, if_neg hx, h]
  show scan .backslash (c :: t) = _
  rw [scan, step, hselect]
  rfl

/-- Induction over a token by what the scan meets first in it. -/
theorem token_induction {P : Text → Prop} (nil : P [])
    (plain : ∀ (c : CodePoint) t, c ≠ '\\' → P t → P (c :: t))
    (lone : P ['\\'])
    (octal : ∀ t, P (t.drop (leading octalDigit? 3 t).length) → P ('\\' :: '0' :: t))
    (hex : ∀ t, P (t.drop (leading hexDigit? 2 t).length) → P ('\\' :: 'x' :: t))
    (named : ∀ c meaning t, meaning? c = some meaning → P t → P ('\\' :: c :: t))
    (unknown : ∀ (c : CodePoint) t, c ≠ '0' → c ≠ 'x' → meaning? c = none → P t →
      P ('\\' :: c :: t))
    (token : Text) : P token := by
  -- a numeric escape takes several characters at once, so the length is what gets smaller
  have bounded : ∀ n, ∀ t : Text, t.length ≤ n → P t := by
    intro n
    induction n with
    | zero =>
      intro t ht
      rw [List.eq_nil_of_length_eq_zero (Nat.le_zero.mp ht)]
      exact nil
    | succ n ih =>
      intro t ht
      cases t with
      | nil => exact nil
      | cons c rest =>
        rw [List.length_cons] at ht
        by_cases hc : c = '\\'
        · subst hc
          cases rest with
          | nil => exact lone
          | cons c rest =>
            rw [List.length_cons] at ht
            have hdrop : ∀ k, P (rest.drop k) := fun k =>
              ih _ (by rw [List.length_drop]; omega)
            by_cases h0 : c = '0'
            · exact h0 ▸ octal rest (hdrop _)
            by_cases hx : c = 'x'
            · exact hx ▸ hex rest (hdrop _)
            cases hm : meaning? c with
            | none => exact unknown c rest h0 hx hm (hdrop 0)
            | some meaning => exact named c meaning rest hm (hdrop 0)
        · exact plain c rest hc (ih rest (by omega))
  exact bounded token.length token (Nat.le_refl _)

/-! ## The decoded token -/

/-- A token after decoding, whether or not the decoder changed it. -/
def decodedToken (token : Text) : Text := (decode token).getD token

theorem pieces_plain {token : Text} (h : (CodePoint.ofChar '\\') ∉ token) :
    pieces token = token.map .plain := by
  induction token with
  | nil => rfl
  | cons c rest ih =>
    rw [List.mem_cons, not_or] at h
    rw [pieces, scan_plain (Ne.symm h.1), List.map_cons, ← ih h.2, pieces]

/-- A token without a backslash decodes to itself, so the decoder's answer is the same text with
and without its test for backslashes. -/
theorem decodedToken_eq (token : Text) :
    decodedToken token = (pieces token).flatMap Piece.decoded := by
  rw [decodedToken, decode]
  split
  · rfl
  · next h =>
    rw [pieces_plain (by simpa using h), Option.getD_none, List.flatMap_map]
    exact (List.flatMap_singleton' token).symm

end LineShell.Escape
