import Mathlib.Data.UInt
import Mathlib.Data.List.Basic

/-!
# Layout of records in memory

Rounding up to an alignment, the same with masks on machine words, and the layout of a
record: each member is at the next multiple of its alignment, and the size is rounded up
to the alignment of the record.
-/

namespace Kcf.Data

open List

/-! ## Rounding -/

/-- The next multiple of an alignment. -/
def roundUp (n align : Nat) : Nat := (n + align - 1) / align * align

section Rounding

variable {n m align : Nat}

theorem dvd_roundUp (n align : Nat) : align ∣ roundUp n align := Nat.dvd_mul_left _ _

theorem le_roundUp (positive : 0 < align) : n ≤ roundUp n align := by
  have rest := Nat.div_add_mod (n + align - 1) align
  have small := Nat.mod_lt (n + align - 1) positive
  rw [roundUp, Nat.mul_comm]
  omega

theorem roundUp_one (n : Nat) : roundUp n 1 = n := by
  rw [roundUp, Nat.add_sub_cancel, Nat.div_one, Nat.mul_one]

end Rounding

/-! ## Masks -/

/-- A mask and its complement divide the bits of a word. -/
theorem UInt64.toNat_and_add_and_not (word mask : UInt64) :
    (word &&& ~~~mask).toNat + (word &&& mask).toNat = word.toNat := by
  have disjoint : (word.toBitVec &&& ~~~mask.toBitVec) &&& (word.toBitVec &&& mask.toBitVec) =
      0 := by
    ext index
    simp only [BitVec.getElem_and, BitVec.getElem_not]
    cases word.toBitVec[index] <;> cases mask.toBitVec[index] <;> simp
  have joined : (word.toBitVec &&& ~~~mask.toBitVec) ||| (word.toBitVec &&& mask.toBitVec) =
      word.toBitVec := by
    ext index
    simp only [BitVec.getElem_or, BitVec.getElem_and, BitVec.getElem_not]
    cases word.toBitVec[index] <;> cases mask.toBitVec[index] <;> rfl
  have sum := BitVec.toNat_add_of_and_eq_zero disjoint
  rw [BitVec.add_eq_or_of_and_eq_zero _ _ disjoint, joined] at sum
  exact sum.symm

/-- The larger of two words. -/
theorem UInt64.toNat_ite_lt (first second : UInt64) :
    (if first < second then second else first).toNat = max first.toNat second.toNat := by
  split
  next less => exact (Nat.max_eq_right (Nat.le_of_lt (UInt64.lt_iff_toNat_lt.mp less))).symm
  next less => exact (Nat.max_eq_left (Nat.not_lt.mp (mt UInt64.lt_iff_toNat_lt.mpr less))).symm

section Words

variable {word align : UInt64}

theorem UInt64.toNat_pred (positive : 0 < align.toNat) : (align - 1).toNat = align.toNat - 1 := by
  have one : (1 : UInt64) ≤ align := UInt64.le_iff_toNat_le.mpr positive
  exact UInt64.toNat_sub_of_le _ _ one

/-- `word & ~(align - 1)`. -/
theorem UInt64.toNat_and_not_pred (power : align.toNat.isPowerOfTwo) :
    (word &&& ~~~(align - 1)).toNat = word.toNat / align.toNat * align.toNat := by
  have parts := UInt64.toNat_and_add_and_not word (align - 1)
  have rest := Nat.div_add_mod word.toNat align.toNat
  have low : (word &&& (align - 1)).toNat = word.toNat % align.toNat := by
    have positive := Nat.pos_of_isPowerOfTwo power
    obtain ⟨shift, same⟩ := power
    rw [UInt64.toNat_and, toNat_pred positive, same, Nat.and_two_pow_sub_one_eq_mod]
  rw [low] at parts
  rw [Nat.mul_comm]
  omega

/-- `align & (align - 1)` tells powers of two. -/
theorem UInt64.and_pred_eq_zero_iff (positive : align ≠ 0) :
    align &&& (align - 1) = 0 ↔ align.toNat.isPowerOfTwo := by
  have value : align.toNat ≠ 0 := fun zero => positive (UInt64.toNat_inj.mp zero)
  rw [← Nat.and_sub_one_eq_zero_iff_isPowerOfTwo value, ← UInt64.toNat_inj, UInt64.toNat_and,
    toNat_pred (Nat.pos_of_ne_zero value)]
  rfl

/-- An alignment that is a word divides the number of words. -/
theorem UInt64.dvd_size (power : align.toNat.isPowerOfTwo) :
    align.toNat ∣ 18446744073709551616 := by
  have bound := align.toNat_lt
  obtain ⟨shift, same⟩ := power
  rw [same] at bound ⊢
  have small : shift < 64 := (Nat.pow_lt_pow_iff_right (by decide)).mp bound
  exact Nat.pow_dvd_pow 2 (Nat.le_of_lt small)

/-- `(word + align - 1) & ~(align - 1)`, as long as the sum without its last unit is a word. -/
theorem UInt64.toNat_align (power : align.toNat.isPowerOfTwo)
    (room : word.toNat + align.toNat - 1 < UInt64.size) :
    ((word + align - 1) &&& ~~~(align - 1)).toNat = roundUp word.toNat align.toNat := by
  have positive := Nat.pos_of_isPowerOfTwo power
  have sum : (word + align - 1).toNat = word.toNat + align.toNat - 1 := by
    have size : UInt64.size = 18446744073709551616 := rfl
    have one : (1 : UInt64).toNat = 1 := rfl
    rw [UInt64.toNat_sub, UInt64.toNat_add, one]
    omega
  rw [toNat_and_not_pred power, sum, roundUp]

/-- If it is none, the rounded number is no word either. -/
theorem UInt64.size_le_roundUp (power : align.toNat.isPowerOfTwo)
    (beyond : UInt64.size ≤ word.toNat + align.toNat - 1) :
    UInt64.size ≤ roundUp word.toNat align.toNat := by
  have positive := Nat.pos_of_isPowerOfTwo power
  have enough := le_roundUp (n := word.toNat) positive
  obtain ⟨count, least⟩ := dvd_roundUp word.toNat align.toNat
  obtain ⟨total, size⟩ := dvd_size power
  have words : UInt64.size = align.toNat * total := size
  rw [words] at beyond ⊢
  rw [least] at enough ⊢
  by_contra fewer
  have less : count < total := Nat.lt_of_mul_lt_mul_left (Nat.not_le.mp fewer)
  have next := Nat.mul_le_mul_left align.toNat less
  rw [Nat.mul_succ] at next
  omega

end Words

/-! ## Records -/

/-- A member of a record. -/
structure Member where
  size : Nat
  align : Nat
  power : align.isPowerOfTwo

/-- The members of a record, in order. -/
abbrev Record (Field : Type) := List (Field × Member)

namespace Record

variable {Field : Type}

/-- Where the members end if they are laid out from this offset on. -/
def finish (start : Nat) : Record Field → Nat
  | [] => start
  | (_, member) :: rest => finish (roundUp start member.align + member.size) rest

def alignOf : Record Field → Nat
  | [] => 1
  | (_, member) :: rest => max member.align (alignOf rest)

def sizeOf (record : Record Field) : Nat := roundUp (finish 0 record) (alignOf record)

def offsetFrom [DecidableEq Field] (start : Nat) : Record Field → Field → Nat
  | [], _ => start
  | (name, member) :: rest, field =>
    if name = field then roundUp start member.align
    else offsetFrom (roundUp start member.align + member.size) rest field

def offsetOf [DecidableEq Field] (record : Record Field) (field : Field) : Nat :=
  offsetFrom 0 record field

theorem alignOf_power (record : Record Field) : record.alignOf.isPowerOfTwo := by
  induction record with
  | nil => exact Nat.isPowerOfTwo_one
  | cons entry rest ih =>
    rcases max_choice entry.2.align (alignOf rest) with same | same
    · exact (congrArg Nat.isPowerOfTwo same).mpr entry.2.power
    · exact (congrArg Nat.isPowerOfTwo same).mpr ih

theorem alignOf_append (front : Record Field) (field : Field) (last : Member) :
    alignOf (front ++ [(field, last)]) = max last.align (alignOf front) := by
  induction front with
  | nil => rfl
  | cons entry front ih =>
    rw [cons_append, alignOf, ih, alignOf]
    exact max_left_comm _ _ _

theorem finish_append (start : Nat) (front : Record Field) (field : Field) (last : Member) :
    finish start (front ++ [(field, last)]) =
      roundUp (finish start front) last.align + last.size := by
  induction front generalizing start with
  | nil => rfl
  | cons entry front ih => exact ih _

theorem le_finish (start : Nat) (record : Record Field) : start ≤ finish start record := by
  induction record generalizing start with
  | nil => exact Nat.le_refl start
  | cons entry rest ih =>
    have first := le_roundUp (n := start) (Nat.pos_of_isPowerOfTwo entry.2.power)
    have later := ih (roundUp start entry.2.align + entry.2.size)
    rw [finish]
    omega

variable [DecidableEq Field]

/-- Members keep their offsets when others follow. -/
theorem offsetFrom_append {field : Field} {front : Record Field}
    (member : field ∈ front.map Prod.fst) (start : Nat) (rest : Record Field) :
    offsetFrom start (front ++ rest) field = offsetFrom start front field := by
  induction front generalizing start with
  | nil => cases member
  | cons entry front ih =>
    rw [cons_append, offsetFrom, offsetFrom]
    by_cases same : entry.1 = field
    · rw [if_pos same, if_pos same]
    · rw [if_neg same, if_neg same]
      refine ih ?_ _
      exact (mem_cons.mp member).resolve_left fun first => same first.symm

theorem offsetFrom_last {field : Field} {front : Record Field}
    (new : field ∉ front.map Prod.fst) (start : Nat) (last : Member) :
    offsetFrom start (front ++ [(field, last)]) field =
      roundUp (finish start front) last.align := by
  induction front generalizing start with
  | nil => exact if_pos rfl
  | cons entry front ih =>
    have other : entry.1 ≠ field := fun same => new (same ▸ mem_cons_self)
    rw [cons_append, offsetFrom, if_neg other]
    exact ih (fun member => new (mem_cons_of_mem _ member)) _

end Record

end Kcf.Data
