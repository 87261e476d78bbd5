import Mathlib.Data.UInt

/-!
# Counters of machine words

A counter that is never raised beyond its largest value never wraps.
-/

namespace Kcf.Data

/-- A counter below its largest value counts. -/
theorem UInt64.toNat_add_one {value : UInt64} (room : value ≠ 0xffffffffffffffff) :
    (value + 1).toNat = value.toNat + 1 := by
  have bound : value.toNat ≠ 18446744073709551615 := fun equal => room (UInt64.toNat_inj.mp equal)
  have limit := value.toNat_lt
  have one : (1 : UInt64).toNat = 1 := rfl
  rw [UInt64.toNat_add, one]
  omega

theorem UInt64.lt_add_one {value : UInt64} (room : value ≠ 0xffffffffffffffff) :
    value < value + 1 := by
  rw [UInt64.lt_iff_toNat_lt, toNat_add_one room]
  exact Nat.lt_succ_self _

theorem UInt64.add_one_ne_zero {value : UInt64} (room : value ≠ 0xffffffffffffffff) :
    value + 1 ≠ 0 := by
  intro zero
  have later := UInt64.lt_add_one room
  rw [zero] at later
  exact absurd later UInt64.not_lt_zero

/-- How many counts lie strictly between two. -/
theorem UInt64.toNat_gap {first second : UInt64} (later : first < second) :
    (second - first - 1).toNat = second.toNat - first.toNat - 1 := by
  have order := UInt64.lt_iff_toNat_lt.mp later
  have difference := UInt64.toNat_sub_of_le _ _ (UInt64.le_of_lt later)
  have one : (1 : UInt64).toNat = 1 := rfl
  have positive : 1 ≤ second - first := by
    rw [UInt64.le_iff_toNat_le, difference, one]
    omega
  rw [UInt64.toNat_sub_of_le _ _ positive, difference, one]

/-- A counter that has not wrapped shows how often it was raised. -/
theorem UInt64.toNat_ofNat_of_lt {count : Nat} (few : count < 2 ^ 64) :
    (UInt64.ofNat count).toNat = count := by
  rw [UInt64.toNat_ofNat']
  exact Nat.mod_eq_of_lt few

theorem UInt64.ofNat_inj {first second : Nat} (few : first < 2 ^ 64) (also : second < 2 ^ 64)
    (same : UInt64.ofNat first = UInt64.ofNat second) : first = second := by
  rw [← toNat_ofNat_of_lt few, same, toNat_ofNat_of_lt also]

end Kcf.Data
