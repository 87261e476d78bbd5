import Kcf.Data.Guard
import Kcf.Errno
import Kcf.Network.Control.Frame

/-!
# The state of an Action server

`ActionServer::Core`: each definition is one section of the source that runs under the
mutex of the core.  A section that returns an error before it changes anything is an
`Except`; the others return the new core and what they answer.
-/

namespace Kcf.Action

open Errno
open Kcf.Network (ActionState)

/-- `ActionHeader`. -/
structure Header where
  goalId : UInt64 := 0
  feedbackSequence : UInt64 := 0
  state : ActionState := .idle
  cancelRequested : Bool := false
  deriving DecidableEq

/-- `ActionServer::Core`. -/
structure Core (Goal Feedback Result : Type) [Inhabited Feedback] where
  header : Header := {}
  goal : Option Goal := none
  feedback : Feedback := default
  result : Option Result := none
  previousId : UInt64 := 0
  decisionId : UInt64 := 0
  decisionCode : Int32 := 0
  revision : UInt64 := 0
  publishing : Bool := false

/-- `ActionGoalResponse`, which is also `ActionCancelResponse`. -/
structure GoalResponse where
  goalId : UInt64
  resultCode : Int32 := 0
  accepted : Bool := false
  deriving DecidableEq

/-- `ActionResultResponse`. -/
structure ResultResponse (Result : Type) [Inhabited Result] where
  goalId : UInt64
  state : ActionState := .idle
  ready : Bool := false
  resultCode : Int32 := 0
  result : Result := default

/-- The goal is being worked on. -/
def Header.IsActive (header : Header) : Prop := header.state = .accepted ∨ header.state = .running
  deriving Decidable

/-- The calls of the application. -/
inductive Operation (Feedback Result : Type) where
  | start (id : UInt64)
  | publishFeedback (id : UInt64) (feedback : Feedback)
  | succeed (id : UInt64) (result : Result)
  | fail (id : UInt64) (result : Result)
  | canceled (id : UInt64) (result : Result)

/-- How a call ends a goal. -/
def Operation.outcome {Feedback Result : Type} :
    Operation Feedback Result → Option (UInt64 × ActionState × Result)
  | .start _ | .publishFeedback _ _ => none
  | .succeed id result => some (id, .succeeded, result)
  | .fail id result => some (id, .failed, result)
  | .canceled id result => some (id, .canceled, result)

/-- The goal that a call adds feedback to. -/
def Operation.feeds {Feedback Result : Type} : Operation Feedback Result → Bool
  | .publishFeedback _ _ => true
  | _ => false

namespace Core

variable {Goal Feedback Result : Type} [Inhabited Feedback]
variable (core : Core Goal Feedback Result) (id : UInt64)

/-! ## Requests of clients -/

/-- The first section of `GoalRequest`: the answers that need no decision. -/
def screen : Option GoalResponse :=
  if id = 0 then some { goalId := id, resultCode := errorCode einval }
  else if id = core.header.goalId ∨ id = core.previousId then
    some { goalId := id, accepted := true }
  else if id = core.decisionId then
    some { goalId := id, resultCode := core.decisionCode, accepted := core.decisionCode = 0 }
  else if core.header.IsActive then some { goalId := id, resultCode := errorCode ebusy }
  else none

/-- The second section of `GoalRequest`, if the callback refused the goal. -/
def reject (code : Int32) : Core Goal Feedback Result :=
  { core with decisionId := id, decisionCode := code }

/-- The second section of `GoalRequest`, if the callback took the goal. -/
def accept (goal : Goal) : Core Goal Feedback Result :=
  { core with
    decisionId := id
    decisionCode := 0
    previousId := core.header.goalId
    header := { goalId := id, state := .accepted }
    goal := some goal
    feedback := default
    result := none
    revision := core.revision + 1 }

/-- The section of `CancelRequest`: an answer, or a change and the callback. -/
def cancelRequest : Except GoalResponse (Core Goal Feedback Result) :=
  if id = 0 ∨ id ≠ core.header.goalId then
    .error { goalId := id, resultCode := errorCode enoent }
  else if core.header.cancelRequested then .error { goalId := id, accepted := true }
  else if ¬core.header.IsActive then
    .error { goalId := id, resultCode := errorCode einval }
  else
    .ok
      { core with
        header := { core.header with cancelRequested := true }
        revision := core.revision + 1 }

/-- `GetResult`. -/
def getResult [Inhabited Result] : ResultResponse Result :=
  if id = 0 ∨ id ≠ core.header.goalId then
    { goalId := id, resultCode := errorCode enoent }
  else
    match core.result with
    | none => { goalId := id, state := core.header.state, resultCode := errorCode einprogress }
    | some saved => { goalId := id, state := core.header.state, result := saved, ready := true }

/-! ## Calls of the application -/

/-- The section of `Start`. -/
def start : Except Int32 (Core Goal Feedback Result) :=
  if id = 0 ∨ id ≠ core.header.goalId then .error (errorCode enoent)
  else if core.header.state ≠ .accepted ∨ core.header.cancelRequested then
    .error (errorCode einval)
  else
    .ok
      { core with
        header := { core.header with state := .running }
        revision := core.revision + 1 }

/-- The section of `PublishFeedback`. -/
def publishFeedback (feedback : Feedback) : Except Int32 (Core Goal Feedback Result) :=
  if id = 0 ∨ id ≠ core.header.goalId then .error (errorCode enoent)
  else if core.header.state ≠ .running then .error (errorCode einval)
  else if core.header.feedbackSequence = 0xffffffffffffffff then
    .error (errorCode eoverflow)
  else
    .ok
      { core with
        feedback
        header := { core.header with feedbackSequence := core.header.feedbackSequence + 1 }
        revision := core.revision + 1 }

/-- The section of `Finish`. -/
def finish (value : Result) (terminal : ActionState) :
    Except Int32 (Core Goal Feedback Result) :=
  if id = 0 ∨ id ≠ core.header.goalId then .error (errorCode enoent)
  else if terminal = .canceled ∧ (¬core.header.cancelRequested ∨ ¬core.header.IsActive) then
    .error (errorCode einval)
  else if terminal ≠ .canceled ∧ core.header.state ≠ .running then
    .error (errorCode einval)
  else
    .ok
      { core with
        result := some value
        header := { core.header with state := terminal }
        revision := core.revision + 1 }

/-- `Start`, `PublishFeedback`, `Succeed`, `Fail` and `Canceled`, up to `Flush`. -/
def perform : Operation Feedback Result → Except Int32 (Core Goal Feedback Result)
  | .start id => core.start id
  | .publishFeedback id feedback => core.publishFeedback id feedback
  | .succeed id result => core.finish id result .succeeded
  | .fail id result => core.finish id result .failed
  | .canceled id result => core.finish id result .canceled

/-! ## What the calls change -/

/-- A call that takes effect, its guard and its change. -/
inductive Performed : Operation Feedback Result → Core Goal Feedback Result → Prop where
  | start {id : UInt64} : id ≠ 0 → id = core.header.goalId → core.header.state = .accepted →
      core.header.cancelRequested = false →
      Performed (.start id)
        { core with
          header := { core.header with state := .running }
          revision := core.revision + 1 }
  | feed {id : UInt64} {feedback : Feedback} : id ≠ 0 → id = core.header.goalId →
      core.header.state = .running → core.header.feedbackSequence ≠ 0xffffffffffffffff →
      Performed (.publishFeedback id feedback)
        { core with
          feedback
          header := { core.header with feedbackSequence := core.header.feedbackSequence + 1 }
          revision := core.revision + 1 }
  | finish {operation : Operation Feedback Result} {id : UInt64} {terminal : ActionState}
      {value : Result} : operation.outcome = some (id, terminal, value) →
      id ≠ 0 → id = core.header.goalId → terminal.IsTerminal = true →
      (terminal = .canceled ∧ core.header.cancelRequested = true ∧ core.header.IsActive ∨
        terminal ≠ .canceled ∧ core.header.state = .running) →
      Performed operation
        { core with
          result := some value
          header := { core.header with state := terminal }
          revision := core.revision + 1 }

variable {core}

variable {operation : Operation Feedback Result} {next : Core Goal Feedback Result}

theorem Performed.of_finish {id : UInt64} {terminal : ActionState} {value : Result}
    (outcome : operation.outcome = some (id, terminal, value))
    (isTerminal : terminal.IsTerminal = true) (done : core.finish id value terminal = .ok next) :
    core.Performed operation next := by
  simp only [Core.finish, Data.guard_eq_ok, not_or, not_not] at done
  obtain ⟨⟨nonzero, current⟩, refused, early, ⟨⟩⟩ := done
  refine .finish outcome nonzero current isTerminal ?_
  by_cases canceled : terminal = .canceled
  · left
    have guard := not_or.mp fun guard => refused ⟨canceled, guard⟩
    exact ⟨canceled, not_not.mp guard.1, not_not.mp guard.2⟩
  · right
    exact ⟨canceled, not_not.mp fun waiting => early ⟨canceled, waiting⟩⟩

theorem performed (done : core.perform operation = .ok next) : core.Performed operation next := by
  cases operation with
  | start id =>
    simp only [perform, Core.start, Data.guard_eq_ok, not_or, not_not] at done
    obtain ⟨⟨nonzero, current⟩, ⟨accepted, kept⟩, ⟨⟩⟩ := done
    exact .start nonzero current accepted (Bool.eq_false_of_not_eq_true kept)
  | publishFeedback id feedback =>
    simp only [perform, Core.publishFeedback, Data.guard_eq_ok, not_or, not_not] at done
    obtain ⟨⟨nonzero, current⟩, running, room, ⟨⟩⟩ := done
    exact .feed nonzero current running room
  | succeed | fail | canceled => exact .of_finish rfl rfl done

theorem Performed.revision (performed : core.Performed operation next) :
    next.revision = core.revision + 1 ∧ next.publishing = core.publishing := by
  cases performed <;> exact ⟨rfl, rfl⟩

/-- A request to cancel that takes effect. -/
theorem cancelRequest_ok {id : UInt64} (done : core.cancelRequest id = .ok next) :
    core.header.IsActive ∧ core.header.cancelRequested = false ∧
      next =
        { core with
          header := { core.header with cancelRequested := true }
          revision := core.revision + 1 } := by
  simp only [cancelRequest, Data.guard_eq_ok, not_not] at done
  obtain ⟨_, fresh, active, ⟨⟩⟩ := done
  exact ⟨active, Bool.eq_false_of_not_eq_true fresh, rfl⟩

/-- Only a goal with a new id goes to the callback, and only if no goal is active. -/
theorem screen_none {id : UInt64} (asked : core.screen id = none) :
    id ≠ 0 ∧ id ≠ core.header.goalId ∧ id ≠ core.previousId ∧ id ≠ core.decisionId ∧
      ¬core.header.IsActive := by
  unfold screen at asked
  split_ifs at asked with zero known decided active
  obtain ⟨current, previous⟩ := not_or.mp known
  exact ⟨zero, current, previous, decided, active⟩

end Core

end Kcf.Action
