import LineShell.Proofs.Escape.Scan

/- The unknown escapes of a token.

   `unknownEscapes` finds them by looking at two characters at a time and without any state: what
   follows a backslash is passed over with it, so a backslash is only met where an escape starts.
   The digits of a numeric escape need not be counted for this, since they are no backslashes. The
   warnings of the scan are about these escapes, one each and in their order (`warnings_eq`). -/
namespace LineShell.Escape

/-- Whether a backslash before the letter makes a known escape: the letter names a character, or it
is `0`, or it is `x` and a hexadecimal digit follows. -/
def isKnown (letter : CodePoint) (rest : Text) : Bool :=
  (meaning? letter).isSome || letter = '0'
    || (letter = 'x' && rest.head?.any fun c => (hexDigit? c).isSome)

/-- The characters that stand behind a backslash for nothing known, from left to right. -/
def unknownEscapes : Text → List CodePoint
  | [] => []
  | [_] => []
  | c :: letter :: rest =>
    if c ≠ '\\' then unknownEscapes (letter :: rest)
    else if isKnown letter rest then unknownEscapes rest
    else letter :: unknownEscapes rest

def unknownMessage (letter : CodePoint) : Text := "unknown escape sequence '\\" ++ [letter] ++ "'"

theorem unknownEscapes_cons {c : CodePoint} (h : c ≠ '\\') (t : Text) :
    unknownEscapes (c :: t) = unknownEscapes t := by
  cases t with
  | nil => rfl
  | cons letter rest => rw [unknownEscapes, if_pos h]

theorem unknownEscapes_append {digits : Text} (h : ∀ c ∈ digits, c ≠ '\\') (t : Text) :
    unknownEscapes (digits ++ t) = unknownEscapes t := by
  induction digits with
  | nil => rfl
  | cons c later ih =>
    rw [List.cons_append, unknownEscapes_cons (h c List.mem_cons_self)]
    exact ih fun d hd => h d (List.mem_cons_of_mem c hd)

theorem unknownEscapes_known {letter : CodePoint} {rest : Text} (h : isKnown letter rest = true) :
    unknownEscapes ('\\' :: letter :: rest) = unknownEscapes rest := by
  rw [unknownEscapes, if_neg (by simp), if_pos h]

theorem unknownEscapes_unknown {letter : CodePoint} {rest : Text}
    (h : isKnown letter rest = false) :
    unknownEscapes ('\\' :: letter :: rest) = letter :: unknownEscapes rest := by
  rw [unknownEscapes, if_neg (by simp), if_neg (by rw [h]; exact Bool.false_ne_true)]

theorem unknownEscapes_drop_leading {digit? : CodePoint → Option Nat}
    (h : digit? '\\' = none) (limit : Nat) (t : Text) :
    unknownEscapes (t.drop (leading digit? limit t).length) = unknownEscapes t := by
  have htaken : leading digit? limit t <+: t :=
    (List.take_prefix _ _).trans (List.takeWhile_prefix _)
  have hdigits : ∀ c ∈ leading digit? limit t, c ≠ '\\' := by
    intro c hc hslash
    have hsome := List.mem_takeWhile_imp (List.mem_of_mem_take hc)
    rw [hslash, h] at hsome
    cases hsome
  conv => rhs; rw [← List.prefix_iff_eq_append.mp htaken, unknownEscapes_append hdigits]

theorem warnings_scan (token : Text) :
    (scan .idle token).filterMap Piece.warning? = (unknownEscapes token).map unknownMessage := by
  induction token using token_induction with
  | nil => rfl
  | plain c t hc ih =>
    rw [scan_plain hc, unknownEscapes_cons hc]
    exact ih
  | lone => rfl
  | octal t ih =>
    have hdigits := unknownEscapes_drop_leading (show octalDigit? '\\' = none by decide) 3 t
    rw [scan_octal, unknownEscapes_known rfl, ← hdigits]
    exact ih
  | hex t ih =>
    rw [scan_hex, List.filterMap_append, ih, unknownEscapes_drop_leading (by decide)]
    cases t with
    | nil => rfl
    | cons c rest =>
      cases hc : hexDigit? c with
      | none =>
        -- no digit follows the `x`, so it is the letter of an unknown escape
        have hleading : leading hexDigit? 2 (c :: rest) = [] := by simp [leading, hc]
        have hunknown : isKnown 'x' (c :: rest) = false := by simp [isKnown, hc]; decide
        rw [hleading, unknownEscapes_unknown hunknown]
        rfl
      | some value =>
        have hleading : leading hexDigit? 2 (c :: rest) = c :: leading hexDigit? 1 rest := by
          simp [leading, hc]
        have hknown : isKnown 'x' (c :: rest) = true := by simp [isKnown, hc]
        rw [hleading, unknownEscapes_known hknown]
        rfl
  | named c meaning t h ih =>
    rw [scan_named h, unknownEscapes_known (by simp [isKnown, h])]
    exact ih
  | unknown c t h0 hx h ih =>
    rw [scan_unknown h0 hx h, unknownEscapes_unknown (by simp [isKnown, h0, hx, h]),
      List.map_cons, ← ih]
    rfl

/-- A token is warned about once for each of its unknown escapes, from left to right. -/
theorem warnings_eq (token : Text) : warnings token = (unknownEscapes token).map unknownMessage :=
  warnings_scan token

end LineShell.Escape
