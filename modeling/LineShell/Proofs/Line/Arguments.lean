import Mathlib.Data.List.Forall2
import LineShell.Proofs.Escape.Size
import LineShell.Proofs.Line.Split

/- The arguments of a line, each with the token that it comes from.

   An argument is its token, or behind `echo` what is left of it after decoding. Decoding makes no
   token longer and its NUL ends the argument, so the arguments fit where the tokens were
   (`noLonger_decode`). And nothing comes of a token that the system accepts which the system would
   not accept: a code point that cannot be encoded is never decoded to, and a NUL is cut off
   (`isPassable_decodeArgument`). Only so can an argument be empty, since no token is
   (`decodeArgument_eq_nil_iff`). -/
namespace LineShell.Line

open Escape (decode decodedToken TakesNoMoreBytes NoLonger)

/-! ## Arguments and tokens -/

section

variable (decoder : Text → Option Text) (tokens : List Text)

theorem forall₂_arguments {R : Text → Text → Prop} (hsame : ∀ token, R token token)
    (hdecoded : ∀ token, R token (decodeArgument decoder token)) :
    List.Forall₂ R tokens (arguments decoder tokens) := by
  cases tokens with
  | nil => exact .nil
  | cons command later =>
    refine .cons (hsame command) ?_
    split
    · exact List.forall₂_map_right_iff.mpr (List.forall₂_same.mpr fun token _ => hdecoded token)
    · exact List.forall₂_same.mpr fun token _ => hsame token

theorem getElem?_arguments (i : Nat) :
    (arguments decoder tokens)[i]?
      = tokens[i]?.map (if tokens.head? = some echoName ∧ 1 ≤ i then decodeArgument decoder else id) := by
  cases tokens with
  | nil => rfl
  | cons command later =>
    rw [arguments]
    cases i with
    | zero => simp
    | succ i =>
      by_cases hecho : command = echoName
      · simp [hecho]
      · simp [hecho]

theorem head?_arguments : (arguments decoder tokens).head? = tokens.head? := by
  cases tokens <;> rfl

theorem arguments_eq_tokens {tokens : List Text} (h : tokens.head? ≠ some echoName) :
    arguments decoder tokens = tokens := by
  cases tokens with
  | nil => rfl
  | cons command later =>
    have hcommand : command ≠ echoName := by simpa using h
    rw [arguments, if_neg hcommand]

theorem length_arguments : (arguments decoder tokens).length = tokens.length := by
  have hpaired := forall₂_arguments decoder tokens (R := fun _ _ => True) (fun _ => trivial)
    fun _ => trivial
  exact hpaired.length_eq.symm

theorem arguments_eq_nil_iff : arguments decoder tokens = [] ↔ tokens = [] := by
  rw [← List.length_eq_zero_iff, length_arguments, List.length_eq_zero_iff]

end

theorem command_ne_nil_of_arguments {decoder : Text → Option Text} {line command : Text}
    (h : (arguments decoder (tokens line)).head? = some command) : command ≠ [] := by
  rw [head?_arguments] at h
  exact Text.ne_nil_of_mem_fields (List.mem_of_head? h)

/-- A token that the decoder has nothing for is kept, NUL or not; only what is decoded is cut. -/
theorem decodeArgument_cases (token : Text) :
    (decode token = none ∧ decodeArgument decode token = token)
      ∨ (decode token = some (decodedToken token)
        ∧ decodeArgument decode token
          = (decodedToken token).takeWhile (· ≠ CodePoint.ofChar '\x00')) := by
  rw [decodeArgument, decodedToken]
  cases decode token with
  | none => exact .inl ⟨rfl, rfl⟩
  | some decoded => exact .inr ⟨rfl, rfl⟩

/-! ## Their size -/

theorem takesNoMoreBytes_decodeArgument (token : Text) :
    TakesNoMoreBytes token (decodeArgument decode token) := by
  rcases decodeArgument_cases token with ⟨_, hkept⟩ | ⟨_, hdecoded⟩
  · rw [hkept]
    exact .refl token
  · rw [hdecoded]
    exact Escape.takesNoMoreBytes_takeWhile (Escape.takesNoMoreBytes_decodedToken token) _

/-- Decoding a token with a backslash makes it no longer, and leaves it as it is exactly if its
length stays the same, and exactly if no escape in it is known. No argument of a line takes more
bytes than the token in its place. -/
theorem noLonger_decode :
    (∀ token : Text, CodePoint.ofChar '\\' ∈ token →
        ∃ decoded, decode token = some decoded ∧ NoLonger token decoded)
      ∧ ∀ growth memory line arguments,
        (parse decode growth memory line).result = .ok arguments →
        List.Forall₂ TakesNoMoreBytes (tokens line) arguments := by
  refine ⟨?_, ?_⟩
  · intro token hbackslash
    have hdecode : decode token = some (decodedToken token) := by
      rw [Escape.decodedToken_eq, decode, if_pos (List.contains_iff_mem.mpr hbackslash)]
    exact ⟨_, hdecode, Escape.noLonger_decodedToken token⟩
  · intro growth memory line vector hparse
    obtain ⟨_, rfl⟩ := (result_parse_eq_ok_iff decode growth memory line vector).mp hparse
    exact forall₂_arguments decode _ .refl takesNoMoreBytes_decodeArgument

/-- An octal number beyond one byte and an unknown escape behind it: seven characters become three,
and the first of these takes one byte. -/
theorem noLonger_decode_echo :
    let token : Text := "\\0777\\q"
    let decoded : Text := [.ofByte 0xFF, '\\', 'q']
    CodePoint.ofChar '\\' ∈ token ∧ decode token = some decoded ∧ NoLonger token decoded
      ∧ (parse decode 64 {} "echo \\0777\\q").result = .ok ["echo", decoded]
      ∧ List.Forall₂ TakesNoMoreBytes ["echo", token] ["echo", decoded] := by
  intro token decoded
  have hbackslash : CodePoint.ofChar '\\' ∈ token := by decide
  have hdecode : decode token = some decoded := by decide
  have htokens : tokens "echo \\0777\\q" = (["echo", token] : List Text) := by decide
  have hparse : (parse decode 64 {} "echo \\0777\\q").result = .ok ["echo", decoded] := by decide
  obtain ⟨_, hsome, hlonger⟩ := noLonger_decode.1 token hbackslash
  cases hdecode.symm.trans hsome
  have harguments := noLonger_decode.2 64 {} "echo \\0777\\q" ["echo", decoded] hparse
  rw [htokens] at harguments
  exact ⟨hbackslash, hdecode, hlonger, hparse, harguments⟩

/-! ## What the system makes of them -/

theorem isPassable_of_mem_tokens {line token : Text} (hline : line.IsPassable)
    (h : token ∈ tokens line) : token.IsPassable :=
  Text.isPassable_of_subset hline (Text.subset_of_mem_fields h)

/-- Whatever bytes the escapes in a token stand for, its argument can be passed if the token can. -/
theorem isPassable_decodeArgument {token : Text} (h : token.IsPassable) :
    (decodeArgument decode token).IsPassable := by
  rcases decodeArgument_cases token with ⟨_, hkept⟩ | ⟨_, hdecoded⟩
  · rw [hkept]
    exact h
  · rw [hdecoded]
    have hencodable := Escape.isEncodable_decodedToken h.1
    refine ⟨fun c hc => hencodable c (List.takeWhile_subset _ hc), fun hnul => ?_⟩
    have hother := List.mem_takeWhile_imp hnul
    exact of_decide_eq_true hother rfl

/-- An argument is empty only if its token decodes to something that starts with NUL. -/
theorem decodeArgument_eq_nil_iff {token : Text} (h : token ≠ []) :
    decodeArgument decode token = []
      ↔ ∃ decoded, decode token = some decoded ∧ decoded.head? = some (CodePoint.ofChar '\x00') := by
  rcases decodeArgument_cases token with ⟨hdecode, hkept⟩ | ⟨hdecode, hdecoded⟩
  · rw [hkept, hdecode]
    simp [h]
  · obtain ⟨first, later, hfirst⟩ := List.exists_cons_of_ne_nil (Escape.decodedToken_ne_nil h)
    rw [hdecoded, hdecode, hfirst]
    simp [List.takeWhile_cons]

/-- A vector that the system does not reject for its texts, made of these tokens. -/
structure Accepted (tokens arguments : List Text) : Prop where
  length_eq : arguments.length = tokens.length
  passable : ∀ a ∈ arguments, a.IsPassable
  command_ne_nil : ∀ command ∈ arguments.head?, command ≠ []
  /-- An argument is empty exactly if it stands behind `echo` and is decoded to something that
  starts with NUL. -/
  empty_iff : ∀ i : Nat, arguments[i]? = some []
    ↔ arguments.head? = some echoName ∧ 1 ≤ i
      ∧ ∃ token, tokens[i]? = some token
        ∧ ∃ decoded, decode token = some decoded ∧ decoded.head? = some (CodePoint.ofChar '\x00')

theorem accepted_arguments {line : Text} (hline : line.IsPassable) :
    Accepted (tokens line) (arguments decode (tokens line)) where
  length_eq := length_arguments decode (tokens line)
  passable := by
    intro a ha
    obtain ⟨i, hi⟩ := List.mem_iff_getElem?.mp ha
    rw [getElem?_arguments, Option.map_eq_some_iff] at hi
    obtain ⟨token, htoken, rfl⟩ := hi
    have hpassable := isPassable_of_mem_tokens hline (List.mem_of_getElem? htoken)
    split
    · exact isPassable_decodeArgument hpassable
    · exact hpassable
  command_ne_nil _ hcommand := command_ne_nil_of_arguments hcommand
  empty_iff := by
    intro i
    have hne : ∀ token, (tokens line)[i]? = some token → token ≠ [] :=
      fun token htoken => Text.ne_nil_of_mem_fields (List.mem_of_getElem? htoken)
    rw [getElem?_arguments, head?_arguments, Option.map_eq_some_iff]
    split
    · next hdecoded =>
      simp only [hdecoded.1, hdecoded.2, true_and]
      exact exists_congr fun token => and_congr_right fun htoken =>
        decodeArgument_eq_nil_iff (hne token htoken)
    · next hkept =>
      refine iff_of_false ?_ fun h => hkept ⟨h.1, h.2.1⟩
      rintro ⟨token, htoken, hnil⟩
      exact hne token htoken hnil

end LineShell.Line
