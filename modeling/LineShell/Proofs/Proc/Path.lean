import LineShell.Proc.Path
import LineShell.Proofs.Text.Encoding

/- How the argument of `proc` becomes a path, and where that fails.

   A path that is found is plain UTF-8 and fits (`checkCapacity_eq_ok_iff`). Two failures are no
   reports: a path that has no UTF-8 form, since its size is asked for first, and one that does not
   fit a limit too long to be written (`checkCapacity_eq_crash_iff`). -/
namespace LineShell.ProcPath

/-- Whether the path has a UTF-8 form: it holds no surrogate at all. -/
def IsPlain (path : Text) : Prop := ∀ c ∈ path, c.isSurrogate = false

instance (path : Text) : Decidable (IsPlain path) :=
  decidable_of_iff (path.all (!·.isSurrogate) = true) (by simp [IsPlain])

/-- Whether the path and its terminator fit the capacity. -/
def Fits (capacity : Int) (path : Text) : Prop := (path.utf8Size : Int) + 1 ≤ capacity

theorem strict_fault?_eq_none_iff (path : Text) :
    Encoding.strict.fault? path = none ↔ IsPlain path :=
  Encoding.fault?_eq_none_iff .strict path

theorem checkCapacity_eq_ok_iff (capacity : Int) (path result : Text) :
    checkCapacity capacity path = .ok result
      ↔ IsPlain path ∧ Fits capacity path ∧ result = path := by
  rw [← strict_fault?_eq_none_iff, checkCapacity, Fits]
  cases Encoding.strict.fault? path with
  | some fault => simp
  | none =>
    simp only [true_and]
    split
    · next h => simp [h, eq_comm]
    · next h => split <;> simp [h]

theorem checkCapacity_eq_crash_iff (capacity : Int) (path : Text) (crash : Crash) :
    checkCapacity capacity path = .error (.crash crash)
      ↔ (∃ fault, Encoding.strict.fault? path = some fault ∧
            crash = .unusableText (.unencodable fault)) ∨
          (IsPlain path ∧ ¬Fits capacity path ∧ Numeral.isWritable (capacity - 1) = false ∧
            crash = .unwritableNumber) := by
  rw [← strict_fault?_eq_none_iff, checkCapacity, Fits]
  cases Encoding.strict.fault? path with
  | some fault =>
    refine ⟨?_, ?_⟩
    · intro h
      cases h
      exact .inl ⟨fault, rfl, rfl⟩
    · intro hfails
      rcases hfails with ⟨_, hfault, rfl⟩ | ⟨hnone, _⟩
      · cases hfault
        rfl
      · cases hnone
  | none =>
    simp only [true_and, reduceCtorEq, false_and, exists_false, false_or]
    split
    · next h => simp [h]
    · next h =>
      cases Numeral.isWritable (capacity - 1) with
      | true => simp [h]
      | false =>
        refine ⟨?_, ?_⟩
        · intro hcrash
          cases hcrash
          exact ⟨h, rfl, rfl⟩
        · intro hfails
          obtain ⟨_, _, rfl⟩ := hfails
          rfl

theorem checkCapacity_eq_reported_iff (capacity : Int) (path : Text) (error : ShellError) :
    checkCapacity capacity path = .error (.reported error)
      ↔ IsPlain path ∧ ¬Fits capacity path ∧ Numeral.isWritable (capacity - 1) = true
          ∧ error = .pathTooLong path.utf8Size capacity := by
  rw [← strict_fault?_eq_none_iff, checkCapacity, Fits]
  cases Encoding.strict.fault? path with
  | some fault => simp
  | none =>
    simp only [true_and]
    split
    · next h => simp [h]
    · next h => cases Numeral.isWritable (capacity - 1) <;> simp [h, eq_comm]

theorem resolve_pair (root : Text) (capacity : Int) (supported : List Text)
    (command argument : Text) :
    resolve root capacity supported [command, argument] =
      match parse supported argument with
      | .error error => .error (.reported error)
      | .ok file => checkCapacity capacity (file.under root) := rfl

theorem resolve_eq_usage {arguments : List Text} (h : arguments.length ≠ 2) (root : Text)
    (capacity : Int) (supported : List Text) :
    resolve root capacity supported arguments = .error (.reported .procUsage) := by
  match arguments, h with
  | [], _ => rfl
  | [_], _ => rfl
  | [_, _], h => exact absurd rfl h
  | _ :: _ :: _ :: _, _ => rfl

end LineShell.ProcPath
