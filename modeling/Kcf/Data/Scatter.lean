import Mathlib.Data.List.Basic

/-!
# Parts of a list

Reading and overwriting a part of a list, and writing several parts that do not
overlap: each of them is read back, and the rest of the list stays as it was.
-/

namespace Kcf.Data

open List

variable {α : Type}

/-- So many items from an offset on. -/
def slice (items : List α) (offset size : Nat) : List α := (items.drop offset).take size

/-- Overwrite part of a list. -/
def splice (items : List α) (offset : Nat) (part : List α) : List α :=
  items.take offset ++ part ++ items.drop (offset + part.length)

section Splice

variable {items part : List α} {offset : Nat}

theorem length_slice {size : Nat} (inside : offset + size ≤ items.length) :
    (slice items offset size).length = size := by
  rw [slice, length_take, length_drop]
  omega

theorem length_splice (inside : offset + part.length ≤ items.length) :
    (splice items offset part).length = items.length := by
  simp only [splice, length_append, length_take, length_drop]
  omega

/-- Items outside of the part stay. -/
theorem getElem?_splice (inside : offset + part.length ≤ items.length) {index : Nat}
    (outside : index < offset ∨ offset + part.length ≤ index) :
    (splice items offset part)[index]? = items[index]? := by
  rcases outside with before | behind
  · have front : index < (items.take offset ++ part).length := by
      simp only [length_append, length_take]
      omega
    have first : index < (items.take offset).length := by
      rw [length_take]
      omega
    rw [splice, getElem?_append_left front, getElem?_append_left first, getElem?_take_of_lt before]
  · have length : (items.take offset ++ part).length = offset + part.length := by
      simp only [length_append, length_take]
      omega
    rw [splice, getElem?_append_right (by omega), length, getElem?_drop]
    congr 1
    omega

theorem getElem?_slice (items : List α) (offset size index : Nat) :
    (slice items offset size)[index]? = if index < size then items[offset + index]? else none := by
  rw [slice, getElem?_take]
  split
  · rw [getElem?_drop]
  · rfl

/-- What was written is read back. -/
theorem slice_splice (inside : offset + part.length ≤ items.length) :
    slice (splice items offset part) offset part.length = part := by
  have front : (items.take offset).length = offset := by
    rw [length_take]
    omega
  rw [slice, splice, append_assoc, drop_append_of_le_length (by omega),
    drop_of_length_le (by omega), nil_append, take_left]

/-- A part that was not written keeps its items. -/
theorem slice_splice_of_disjoint (inside : offset + part.length ≤ items.length) {other size : Nat}
    (disjoint : other + size ≤ offset ∨ offset + part.length ≤ other) :
    slice (splice items offset part) other size = slice items other size := by
  apply ext_getElem?
  intro index
  rw [getElem?_slice, getElem?_slice]
  split
  next within => exact getElem?_splice inside (by omega)
  · rfl

end Splice

/-! ## Several parts -/

/-- Overwrite several parts, one after another. -/
def scatter (writes : List (Nat × List α)) (items : List α) : List α :=
  writes.foldl (fun items write => splice items write.1 write.2) items

/-- Two parts that do not overlap. -/
def Apart (first second : Nat × List α) : Prop :=
  first.1 + first.2.length ≤ second.1 ∨ second.1 + second.2.length ≤ first.1

section Scatter

variable {writes : List (Nat × List α)} {items : List α}

section

variable (inside : ∀ write ∈ writes, write.1 + write.2.length ≤ items.length)
include inside

theorem length_scatter : (scatter writes items).length = items.length := by
  induction writes generalizing items with
  | nil => rfl
  | cons write writes ih =>
    have length := length_splice (inside write mem_cons_self)
    have later := ih fun other member => length ▸ inside other (mem_cons_of_mem _ member)
    exact later.trans length

/-- Items outside of all parts stay. -/
theorem getElem?_scatter
    {index : Nat}
    (outside : ∀ write ∈ writes, index < write.1 ∨ write.1 + write.2.length ≤ index) :
    (scatter writes items)[index]? = items[index]? := by
  induction writes generalizing items with
  | nil => rfl
  | cons write writes ih =>
    have here := inside write mem_cons_self
    have length := length_splice here
    have later := ih (fun other member => length ▸ inside other (mem_cons_of_mem _ member))
      fun other member => outside other (mem_cons_of_mem _ member)
    exact later.trans (getElem?_splice here (outside write mem_cons_self))

/-- A part that no later write overlaps keeps its items. -/
theorem slice_scatter_of_disjoint {offset size : Nat}
    (apart : ∀ write ∈ writes, offset + size ≤ write.1 ∨ write.1 + write.2.length ≤ offset) :
    slice (scatter writes items) offset size = slice items offset size := by
  induction writes generalizing items with
  | nil => rfl
  | cons write writes ih =>
    have here := inside write mem_cons_self
    have length := length_splice here
    have later := ih (fun other member => length ▸ inside other (mem_cons_of_mem _ member))
      fun other member => apart other (mem_cons_of_mem _ member)
    exact later.trans (slice_splice_of_disjoint here (apart write mem_cons_self))

/-- Every part that was written is read back. -/
theorem slice_scatter
    (apart : writes.Pairwise Apart) :
    ∀ write ∈ writes, slice (scatter writes items) write.1 write.2.length = write.2 := by
  induction writes generalizing items with
  | nil => simp
  | cons write writes ih =>
    rw [pairwise_cons] at apart
    have here := inside write mem_cons_self
    have length := length_splice here
    have rest : ∀ other ∈ writes,
        other.1 + other.2.length ≤ (splice items write.1 write.2).length :=
      fun other member => length ▸ inside other (mem_cons_of_mem _ member)
    intro other member
    rcases mem_cons.mp member with rfl | later
    · exact (slice_scatter_of_disjoint rest fun next member => apart.1 next member).trans
        (slice_splice here)
    · exact ih rest apart.2 other later

end

end Scatter

end Kcf.Data
