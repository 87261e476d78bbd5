import Mathlib.Logic.Basic

/-!
# Checks that end a computation

A computation that returns an error as soon as a check fails succeeds exactly when
every check passes.
-/

namespace Kcf.Data

universe u v

variable {ε : Type u} {α : Type v}

/-- A check in front of a computation. -/
theorem guard_eq_ok {failed : Prop} [Decidable failed] {error : ε} {rest : Except ε α}
    {value : α} :
    (if failed then .error error else rest) = .ok value ↔ ¬failed ∧ rest = .ok value := by
  by_cases holds : failed <;> simp [holds]

end Kcf.Data
