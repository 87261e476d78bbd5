import Kcf.Transition.System

/-!
# States on the way

What a run has met, and what holds at every moment of it.
-/

namespace Kcf.Transition.System

universe u v

variable {State : Type u} {Label : Type v} (system : System State Label)

/-- A run through a state with the property. -/
def Passes (start : State) (labels : List Label) (finish : State) (property : State → Prop) :
    Prop :=
  ∃ before middle after, labels = before ++ after ∧ system.Run start before middle ∧
    system.Run middle after finish ∧ property middle

/-- The property holds at every moment of the run. -/
def Always (start : State) (labels : List Label) (finish : State) (property : State → Prop) :
    Prop :=
  ∀ before middle after, labels = before ++ after → system.Run start before middle →
    system.Run middle after finish → property middle

variable {system} {start middle finish : State} {labels : List Label} {label : Label}
variable {property other : State → Prop}

theorem Passes.last (run : system.Run start labels finish) (holds : property finish) :
    system.Passes start labels finish property :=
  ⟨labels, finish, [], (List.append_nil _).symm, run, .nil _, holds⟩

theorem Passes.snoc (passes : system.Passes start labels middle property)
    (step : system.step middle label finish) :
    system.Passes start (labels ++ [label]) finish property := by
  obtain ⟨before, state, after, rfl, first, second, holds⟩ := passes
  exact ⟨before, state, after ++ [label], List.append_assoc .., first, .snoc second step, holds⟩

/-- What always holds, holds where the run passes. -/
theorem Passes.and_always (passes : system.Passes start labels finish property)
    (always : system.Always start labels finish other) :
    ∃ state, property state ∧ other state := by
  obtain ⟨before, state, after, split, first, second, holds⟩ := passes
  exact ⟨state, holds, always before state after split first second⟩

end Kcf.Transition.System
