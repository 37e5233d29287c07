import ImportFinder.Failure

/-!
# What an exit code tells

The exit code of a failure is decided by the causes in it, and only where there is
none of them by what its message says. A failure with a cause that has an exit
code of its own (`Failure.isClassified`) is never taken for misuse of the command
line, whatever paths its message mentions; any other failure is if a phrase of
misuse stands in its message (`exitCode_eq_usage_iff`).

Failures come out of sequences of steps, so what such a sequence ends with is
stated first, for steps of any kind (`bind_eq_ok_iff`, `bind_eq_error_iff`).
-/

namespace ImportFinder

/-! ### Steps that may fail -/

section

variable {ε α β : Type}

/-- A sequence of two steps succeeds if both do. -/
theorem bind_eq_ok_iff {x : Except ε α} {f : α → Except ε β} {b : β} :
    (x >>= f) = .ok b ↔ ∃ a, x = .ok a ∧ f a = .ok b := by
  cases x <;> simp [bind, Except.bind]

/-- A sequence of two steps fails if the first does, or the second behind it. -/
theorem bind_eq_error_iff {x : Except ε α} {f : α → Except ε β} {e : ε} :
    (x >>= f) = .error e ↔ x = .error e ∨ ∃ a, x = .ok a ∧ f a = .error e := by
  cases x <;> simp [bind, Except.bind]

theorem eq_ok_of_toOption {x : Except ε α} {a : α} (h : x.toOption = some a) : x = .ok a := by
  cases x with
  | error e => exact absurd h (by simp [Except.toOption])
  | ok b => rw [Option.some.inj h]

theorem pure_eq_ok_iff {a b : α} : (pure a : Except ε α) = .ok b ↔ a = b := by
  simp [pure, Except.pure]

end

/-! ### Causes and exit codes -/

namespace Failure

variable {c : Cause} {f : Failure} {label details : Text}

@[simp]
theorem has_within : (f.within label).has c = f.has c := by
  rw [within, has]

@[simp]
theorem has_because {d : Cause} : (because d details).has c = d.countsAs c := by
  rw [because, has, has]

/-- Whether a failure carries a cause that has an exit code of its own. -/
def isClassified (f : Failure) : Bool :=
  f.has .rootNotFound || f.has .emptyTarget || f.has .invalidConfig

@[simp]
theorem isClassified_within : (f.within label).isClassified = f.isClassified := by
  simp [isClassified]

/-- A joined failure carries the causes of its parts. -/
theorem has_joined_iff {all : List Failure} :
    (joined all).has c = true ↔ ∃ f ∈ all, f.has c = true := by
  rw [has]
  induction all with
  | nil => simp [anyHas]
  | cons g more ih => simp [anyHas, ih]

theorem join?_eq_some_iff {all : List Failure} :
    join? all = some f ↔ all ≠ [] ∧ f = joined all := by
  cases all <;> simp [join?, eq_comm]

end Failure

/-- A failure is taken for misuse of the command line if it carries no cause with
    an exit code of its own, and a phrase of misuse stands in its message. -/
theorem exitCode_eq_usage_iff {f : Failure} : exitCode (some f) = .usage ↔
    f.isClassified = false ∧ usagePhrases.any (Text.occursIn · f.message) = true := by
  rw [exitCode, Failure.isClassified]
  cases f.has .rootNotFound <;> cases f.has .emptyTarget <;> cases f.has .invalidConfig <;> simp

end ImportFinder
