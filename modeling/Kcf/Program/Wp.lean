import Mathlib.Logic.Basic

/-!
# Weakest preconditions

Programs over a state that may be cut off at any point: a run that waits for more input,
or that is followed no further, ends in the state that it has reached.  What a program
guarantees is stated by a postcondition for its result and by a property of the states in
which it may be cut off.
-/

namespace Kcf.Program

/-- A program over a state; the error is that it was cut off. -/
abbrev Stateful (σ α : Type) := EStateM Unit σ α

variable {σ α β : Type}

/-- The states from which a program ends in `post`, and is cut off in `cut` only. -/
def wp (cut : σ → Prop) (program : Stateful σ α) (post : α → σ → Prop) (state : σ) : Prop :=
  match program state with
  | .ok value next => post value next
  | .error _ next => cut next

/-- Repeats the body until it yields a value, `fuel` times at most. -/
def iterate (body : β → Stateful σ (β ⊕ α)) : Nat → β → Stateful σ α
  | 0, _ => throw ()
  | fuel + 1, locals => do
    match ← body locals with
    | .inl locals => iterate body fuel locals
    | .inr value => return value

section

variable {cut : σ → Prop} {post : α → σ → Prop} {state : σ}

theorem wp_pure {value : α} (holds : post value state) : wp cut (pure value) post state := holds

theorem wp_bind {program : Stateful σ β} {rest : β → Stateful σ α}
    (holds : wp cut program (fun value => wp cut (rest value) post) state) :
    wp cut (program >>= rest) post state := by
  simp only [wp, bind, EStateM.bind] at holds ⊢
  cases run : program state with
  | ok value next =>
    rw [run] at holds
    exact holds
  | error e next =>
    rw [run] at holds
    exact holds

theorem wp_get {post : σ → σ → Prop} (holds : post state state) : wp cut get post state := holds

theorem wp_modify {change : σ → σ} {post : PUnit → σ → Prop} (holds : post ⟨⟩ (change state)) :
    wp cut (modify change) post state := holds

theorem wp_throw (holds : cut state) : wp cut (throw () : Stateful σ α) post state := holds

theorem wp.mono {program : Stateful σ α} {weaker : α → σ → Prop}
    (holds : wp cut program post state)
    (implies : ∀ value next, post value next → weaker value next) :
    wp cut program weaker state := by
  unfold wp at holds ⊢
  split at holds
  · exact implies _ _ holds
  · exact holds

theorem wp_ite {condition : Prop} [Decidable condition] {first second : Stateful σ α}
    (yes : condition → wp cut first post state) (no : ¬condition → wp cut second post state) :
    wp cut (if condition then first else second) post state := by
  split
  · exact yes ‹_›
  · exact no ‹_›

end

/-- The program keeps an invariant. -/
def Keeps (cut invariant : σ → Prop) (program : Stateful σ α) : Prop :=
  ∀ ⦃state⦄, invariant state → wp cut program (fun _ => invariant) state

namespace Keeps

variable {cut invariant : σ → Prop} {program other : Stateful σ α} {rest : α → Stateful σ β}

theorem pure (value : α) : Keeps cut invariant (pure value : Stateful σ α) :=
  fun _ holds => wp_pure holds

theorem bind (first : Keeps cut invariant program)
    (second : ∀ value, Keeps cut invariant (rest value)) :
    Keeps cut invariant (program >>= rest) :=
  fun _ holds => wp_bind ((first holds).mono fun value _ holds => second value holds)

theorem ite {condition : Prop} [Decidable condition] (yes : Keeps cut invariant program)
    (no : Keeps cut invariant other) :
    Keeps cut invariant (if condition then program else other) :=
  fun _ holds => wp_ite (fun _ => yes holds) (fun _ => no holds)

theorem foldlM {step : β → α → Stateful σ β}
    (each : ∀ acc item, Keeps cut invariant (step acc item))
    (items : List α) (acc : β) : Keeps cut invariant (items.foldlM step acc) := by
  induction items generalizing acc with
  | nil => exact .pure acc
  | cons item items ih =>
    rw [List.foldlM_cons]
    exact (each acc item).bind ih

end Keeps

section

variable {cut : σ → Prop} {state : σ}

/-- Loop rule: the body keeps the invariant until it yields a value. -/
theorem wp_iterate (invariant : β → σ → Prop) {body : β → Stateful σ (β ⊕ α)}
    {post : α → σ → Prop} (stops : ∀ locals state, invariant locals state → cut state)
    (keeps : ∀ locals state, invariant locals state →
      wp cut (body locals) (fun result next =>
        match result with
        | .inl locals => invariant locals next
        | .inr value => post value next) state)
    (fuel : Nat) {locals : β} (holds : invariant locals state) :
    wp cut (iterate body fuel locals) post state := by
  induction fuel generalizing locals state with
  | zero => exact stops locals state holds
  | succ fuel ih =>
    refine wp_bind ((keeps locals state holds).mono fun result next holds => ?_)
    cases result with
    | inl locals => exact ih holds
    | inr value => exact holds

/-- Loop rule for a pass over a list with an accumulator. -/
theorem wp_foldlM (invariant : List α → β → σ → Prop) {step : β → α → Stateful σ β}
    {post : β → σ → Prop}
    (keeps : ∀ item rest acc state, invariant (item :: rest) acc state →
      wp cut (step acc item) (invariant rest) state)
    (ends : ∀ acc state, invariant [] acc state → post acc state)
    {items : List α} {acc : β} (holds : invariant items acc state) :
    wp cut (items.foldlM step acc) post state := by
  induction items generalizing acc state with
  | nil => exact ends acc state holds
  | cons item rest ih =>
    rw [List.foldlM_cons]
    exact wp_bind ((keeps item rest acc state holds).mono fun acc next holds => ih holds)

end

end Kcf.Program
