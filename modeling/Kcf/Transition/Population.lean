import Mathlib.Algebra.BigOperators.Group.Finset.Piecewise
import Mathlib.Data.Fintype.Card
import Mathlib.Tactic.Common

/-!
# Counting the members of a population

A state often holds one local state per process.  The number of processes whose
local state has some property changes by at most one when a single process moves.
-/

namespace Kcf.Transition

open Function

universe u v

variable {Member : Type u} {Local : Type v} [Fintype Member]

/-- How many members have a local state with the property. -/
def population (states : Member → Local) (property : Local → Prop)
    [DecidablePred property] : Nat :=
  (Finset.univ.filter fun member => property (states member)).card

theorem population_le_card (states : Member → Local) (property : Local → Prop)
    [DecidablePred property] : population states property ≤ Fintype.card Member :=
  Finset.card_le_univ _

/-- Replacing one local state moves the count by that member's contribution. -/
theorem population_update [DecidableEq Member] (states : Member → Local)
    (property : Local → Prop) [DecidablePred property] (member : Member) (value : Local) :
    population (update states member value) property +
        (if property (states member) then 1 else 0) =
      population states property + (if property value then 1 else 0) := by
  have split : ∀ assignment : Member → Local,
      population assignment property =
        (if property (assignment member) then 1 else 0) +
          ∑ other ∈ Finset.univ.erase member,
            if property (assignment other) then 1 else 0 := by
    intro assignment
    rw [population, Finset.card_filter, ← Finset.add_sum_erase _ _ (Finset.mem_univ member)]
  have others : ∑ other ∈ Finset.univ.erase member,
        (if property (update states member value other) then 1 else 0) =
      ∑ other ∈ Finset.univ.erase member, if property (states other) then 1 else 0 := by
    apply Finset.sum_congr rfl
    intro other membership
    rw [update_of_ne (Finset.ne_of_mem_erase membership)]
  rw [split states, split (update states member value), others, update_self]
  omega

variable {states : Member → Local} {property : Local → Prop} [DecidablePred property]

/-- A member with the property makes the count positive. -/
theorem population_pos {member : Member} (holds : property (states member)) :
    0 < population states property :=
  Finset.card_pos.mpr ⟨member, by simpa using holds⟩

theorem population_eq_zero (none : ∀ member, ¬property (states member)) :
    population states property = 0 := by
  simpa [population, Finset.filter_eq_empty_iff] using none

end Kcf.Transition
