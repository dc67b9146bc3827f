import Mathlib.Data.List.DropRight
import LineShell.Text.Basic

/- What is left off at the ends of a text.

   Leaving off the longest stretch at the end parts a text in two: what is left off has nothing but
   characters of that kind, and what is kept does not end with one. So doing it again changes
   nothing, and nothing of a text is left off that has none of them in it, whatever stood around it.
   -/
namespace LineShell.Text

variable (p : CodePoint → Bool)

theorem exists_dropEndWhile (t : Text) :
    ∃ rest, t = t.dropEndWhile p ++ rest ∧ ∀ c ∈ rest, p c = true :=
  ⟨t.rtakeWhile p, List.rdropWhile_append_rtakeWhile.symm, fun _ => List.mem_rtakeWhile_imp⟩

theorem getLast?_dropEndWhile (t : Text) : ∀ c ∈ (t.dropEndWhile p).getLast?, p c = false := by
  intro c hc
  obtain ⟨hne, rfl⟩ := List.mem_getLast?_eq_getLast hc
  exact eq_false_of_ne_true (List.rdropWhile_last_not p t hne)

theorem dropEndWhile_dropEndWhile (t : Text) :
    (t.dropEndWhile p).dropEndWhile p = t.dropEndWhile p :=
  List.rdropWhile_idempotent p t

theorem dropEndWhile_eq_nil_iff (t : Text) : t.dropEndWhile p = [] ↔ ∀ c ∈ t, p c = true :=
  List.rdropWhile_eq_nil_iff

section

variable {p} {body : Text} (hne : body ≠ []) (hbody : ∀ c ∈ body, p c = false)

include hne hbody

theorem dropWhile_append_body {front : Text} (hfront : ∀ c ∈ front, p c = true) (rest : Text) :
    (front ++ (body ++ rest)).dropWhile p = body ++ rest := by
  rw [List.dropWhile_append_of_pos hfront]
  cases body with
  | nil => exact absurd rfl hne
  | cons c body =>
    have hc : p c = false := hbody c List.mem_cons_self
    exact List.dropWhile_cons_of_neg (by simp [hc])

theorem dropEndWhile_body_append {rest : Text} (hrest : ∀ c ∈ rest, p c = true) :
    (body ++ rest).dropEndWhile p = body := by
  have hreverse : body.reverse ≠ [] := by simpa using hne
  have hback : ∀ c ∈ rest.reverse, p c = true := by simpa using hrest
  have hdropped := dropWhile_append_body hreverse (by simpa using hbody) hback []
  rw [dropEndWhile, List.reverse_append, ← List.append_nil body.reverse, hdropped, List.append_nil,
    List.reverse_reverse]

end

end LineShell.Text
