import Mathlib.Data.List.Basic
import Mathlib.Data.List.ReduceOption

/-!
# Round-robin stores

A store with a fixed number of places that are filled in turn: a new entry takes
the place of the oldest one.  Nothing here depends on what is stored.
-/

namespace Kcf.Data

open List

universe u

/-- `capacity` places and the one that is filled next. -/
structure Ring (α : Type u) (capacity : Nat) where
  slots : List (Option α)
  next : Nat
  length_slots : slots.length = capacity
  next_lt : next < capacity

namespace Ring

variable {α : Type u} {capacity : Nat}

/-- No place is filled. -/
def empty (positive : 0 < capacity) : Ring α capacity where
  slots := replicate capacity none
  next := 0
  length_slots := length_replicate
  next_lt := positive

/-- Fill the next place. -/
def push (ring : Ring α capacity) (entry : α) : Ring α capacity where
  slots := ring.slots.set ring.next (some entry)
  next := (ring.next + 1) % capacity
  length_slots := by rw [length_set, ring.length_slots]
  next_lt := Nat.mod_lt _ (Nat.zero_lt_of_lt ring.next_lt)

/-- The filled places, in the order of the places. -/
def entries (ring : Ring α capacity) : List α := ring.slots.reduceOption

/-- The places in the order in which they are filled again. -/
def order (ring : Ring α capacity) : List (Option α) :=
  ring.slots.drop ring.next ++ ring.slots.take ring.next

theorem order_push (ring : Ring α capacity) (entry : α) :
    (ring.push entry).order = ring.order.tail ++ [some entry] := by
  have inside : ring.next < ring.slots.length := by
    rw [ring.length_slots]
    exact ring.next_lt
  have shape : ring.slots.set ring.next (some entry) =
      ring.slots.take ring.next ++ some entry :: ring.slots.drop (ring.next + 1) :=
    set_eq_take_append_cons_drop.trans (if_pos inside)
  have split : ring.order.tail = ring.slots.drop (ring.next + 1) ++ ring.slots.take ring.next := by
    rw [order, drop_eq_getElem_cons inside]
    rfl
  have taken : (ring.slots.take ring.next).length = ring.next :=
    length_take_of_le (Nat.le_of_lt inside)
  rw [split]
  unfold order push
  dsimp only
  rw [shape]
  rcases Nat.lt_or_ge (ring.next + 1) capacity with more | last
  · rw [Nat.mod_eq_of_lt more, drop_append, take_append, taken]
    simp [drop_eq_nil_of_le, take_of_length_le, taken]
  · have full : ring.next + 1 = capacity := Nat.le_antisymm ring.next_lt last
    have rest : ring.slots.drop (ring.next + 1) = [] :=
      drop_eq_nil_of_le (by rw [ring.length_slots]; exact last)
    have wraps : (ring.next + 1) % capacity = 0 := by rw [full, Nat.mod_self]
    rw [wraps, rest]
    simp

/-- The store holds the last entries of a history, oldest first. -/
def Holds (ring : Ring α capacity) (history : List α) : Prop :=
  ring.order = replicate (capacity - history.length) none ++
    (history.drop (history.length - capacity)).map some

theorem holds_empty (positive : 0 < capacity) : (empty positive : Ring α capacity).Holds [] := by
  simp [Holds, order, empty]

variable {ring : Ring α capacity} {history : List α}

theorem Holds.push (holds : ring.Holds history)
    (entry : α) : (ring.push entry).Holds (history ++ [entry]) := by
  unfold Holds at *
  rw [order_push, holds, length_append, length_singleton]
  rcases Nat.lt_or_ge history.length capacity with room | full
  · -- an empty place is filled
    have one : capacity - history.length = (capacity - (history.length + 1)) + 1 := by omega
    rw [one, replicate_succ, cons_append, tail_cons,
      Nat.sub_eq_zero_of_le (Nat.le_of_lt room), Nat.sub_eq_zero_of_le room]
    simp
  · -- the oldest entry is replaced
    have none : capacity - history.length = 0 := Nat.sub_eq_zero_of_le full
    have none' : capacity - (history.length + 1) = 0 := by omega
    have positive := Nat.zero_lt_of_lt ring.next_lt
    have later : history.length + 1 - capacity = (history.length - capacity) + 1 := by omega
    rw [none, none', later, drop_append_of_le_length (by omega), map_append]
    simp [tail_drop, map_drop]

/-- The filled places are exactly the last entries of the history. -/
theorem Holds.perm (holds : ring.Holds history) :
    ring.entries.Perm (history.drop (history.length - capacity)) := by
  have turned : ring.slots.Perm ring.order := by
    unfold order
    exact (perm_append_comm.trans (by rw [take_append_drop])).symm
  have reduced : ring.order.reduceOption = history.drop (history.length - capacity) := by
    rw [holds, reduceOption_append, reduceOption_replicate_none]
    simp [reduceOption]
  rw [← reduced]
  exact turned.filterMap id

theorem Holds.mem_iff (holds : ring.Holds history)
    (entry : α) : entry ∈ ring.entries ↔ entry ∈ history.drop (history.length - capacity) :=
  holds.perm.mem_iff

end Ring

end Kcf.Data
