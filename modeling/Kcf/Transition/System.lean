import Mathlib.Logic.Relation

/-!
# Labelled transition systems

A component is described by its initial states and by a labelled step relation.
This module names no component: it supplies reachability, runs, and the rules by
which a step lemma is lifted to whole runs.
-/

namespace Kcf.Transition

universe u v

/-- A labelled transition system. -/
structure System (State : Type u) (Label : Type v) where
  initial : State → Prop
  step : State → Label → State → Prop

namespace System

variable {State : Type u} {Label : Type v} (system : System State Label)

/-- A finite run, with its labels in execution order. -/
inductive Run : State → List Label → State → Prop where
  | nil (state : State) : Run state [] state
  | snoc {start middle finish : State} {labels : List Label} {label : Label} :
      Run start labels middle → system.step middle label finish →
      Run start (labels ++ [label]) finish

/-- States reached by some run from an initial state. -/
def Reachable (state : State) : Prop :=
  ∃ start labels, system.initial start ∧ system.Run start labels state

/-- A property of states that every step preserves. -/
def Preserves (property : State → Prop) : Prop :=
  ∀ ⦃state label next⦄, system.step state label next → property state → property next

/-- The same system with only the steps that meet a side condition. -/
def restrict (condition : State → Label → Prop) : System State Label where
  initial := system.initial
  step state label next := condition state label ∧ system.step state label next

variable {system}

theorem Run.single {state next : State} {label : Label}
    (step : system.step state label next) : system.Run state [label] next :=
  .snoc (.nil state) step

theorem Run.append {start middle finish : State} {first second : List Label}
    (before : system.Run start first middle)
    (after : system.Run middle second finish) :
    system.Run start (first ++ second) finish := by
  induction after with
  | nil => simpa using before
  | snoc _ step ih =>
    rw [← List.append_assoc]
    exact .snoc ih step

/-- A run that a partial step function computes. -/
theorem Run.of_foldlM {step : State → Label → Option State}
    (sound : ∀ ⦃state label next⦄, step state label = some next → system.step state label next)
    {start finish : State} {labels : List Label}
    (computed : labels.foldlM step start = some finish) :
    system.Run start labels finish := by
  induction labels generalizing start with
  | nil =>
    cases computed
    exact .nil _
  | cons label labels ih =>
    rw [List.foldlM_cons] at computed
    obtain ⟨middle, first, rest⟩ := Option.bind_eq_some_iff.mp computed
    exact (Run.single (sound first)).append (ih rest)

/-- A run that a total step function computes. -/
theorem Run.foldl {step : State → Label → State}
    (sound : ∀ state label, system.step state label (step state label))
    (start : State) (labels : List Label) :
    system.Run start labels (labels.foldl step start) := by
  induction labels generalizing start with
  | nil => exact .nil start
  | cons label labels ih => exact (Run.single (sound start label)).append (ih (step start label))

/-- Run rule: a preserved property of the first state holds in the last one. -/
theorem Run.invariant {property : State → Prop}
    (preserves : system.Preserves property)
    {start finish : State} {labels : List Label}
    (run : system.Run start labels finish) (holds : property start) :
    property finish := by
  induction run with
  | nil => exact holds
  | snoc _ step ih => exact preserves step ih

theorem Reachable.of_initial {state : State} (initial : system.initial state) :
    system.Reachable state :=
  ⟨state, [], initial, .nil state⟩

theorem Reachable.step {state next : State} {label : Label}
    (reachable : system.Reachable state) (step : system.step state label next) :
    system.Reachable next := by
  obtain ⟨start, labels, initial, run⟩ := reachable
  exact ⟨start, labels ++ [label], initial, .snoc run step⟩

theorem Reachable.run {state next : State} {labels : List Label}
    (reachable : system.Reachable state) (run : system.Run state labels next) :
    system.Reachable next := by
  obtain ⟨start, earlier, initial, before⟩ := reachable
  exact ⟨start, earlier ++ labels, initial, before.append run⟩

/-- Invariant rule: a property that holds initially and is preserved by every
step holds in every reachable state. -/
theorem Reachable.invariant {property : State → Prop}
    (holds : ∀ ⦃state⦄, system.initial state → property state)
    (preserves : system.Preserves property)
    {state : State} (reachable : system.Reachable state) : property state := by
  obtain ⟨start, labels, initial, run⟩ := reachable
  exact run.invariant preserves (holds initial)

end System

end Kcf.Transition
