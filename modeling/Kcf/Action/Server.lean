import Kcf.Action.Core
import Kcf.Transition.System
import Mathlib.Logic.Function.Basic

/-!
# An Action server and its threads

The thread of the Service server runs `GoalRequest`, `CancelRequest` and `GetResult`, one
request after another; any number of application threads run the other calls.  A section
under the mutex is one step, and so is a `Publish`.  The callbacks run between the
sections; whatever they call is the step of another thread.
-/

namespace Kcf.Action

open Kcf.Network (ActionState)
open Kcf.Transition

/-- `ActionStatus` as `Flush` captures it, with the revision it observed.  `change` and
`joined` record how often the status had changed, and how often a `Flush` had left its
change to another thread. -/
structure Snapshot (Feedback : Type) where
  change : Nat
  joined : Nat
  revision : UInt64
  header : Header
  feedback : Feedback
  deriving DecidableEq

/-- Where a thread is.  `own` is the number of the change that it has made. -/
inductive Thread (Goal Feedback : Type) where
  | idle
  | deciding (id : UInt64) (goal : Goal)
  | canceling (id : UInt64) (own : Nat)
  | flushing (own : Nat)
  | publishing (own : Nat) (snapshot : Snapshot Feedback)
  | checking (own : Nat) (snapshot : Snapshot Feedback) (code : Int32)
  deriving DecidableEq

/-- What the Service thread answers. -/
inductive Reply (Result : Type) [Inhabited Result] where
  | goal (response : GoalResponse)
  | cancel (response : GoalResponse)
  | result (response : ResultResponse Result)

/-- `ActionServer` with its threads; the Service thread is `none`.  The other fields
record what happened: the decisions of `on_goal`, the calls that ended a goal, how many
calls of `PublishFeedback` stored a feedback for the current goal (whatever their `Flush`
returns), the number of changes with header and feedback after each of them, how often
`Flush` returned at `if (publishing) return 0`, what was published, and what the calls of
the application returned for their change. -/
structure Server (ι Goal Feedback Result : Type) [Inhabited Feedback] [Inhabited Result] where
  core : Core Goal Feedback Result := {}
  threads : Option ι → Thread Goal Feedback := fun _ => .idle
  reply : Option (Reply Result) := none
  decisions : List (UInt64 × Goal × Int32) := []
  outcomes : List (UInt64 × ActionState × Result) := []
  fed : Nat := 0
  changes : Nat := 0
  held : List (Header × Feedback) := [({}, default)]
  joined : Nat := 0
  published : List (Snapshot Feedback) := []
  returned : List (ι × Nat × Int32) := []

namespace Server

variable {ι Goal Feedback Result : Type} [DecidableEq ι] [Inhabited Feedback] [Inhabited Result]
variable (server : Server ι Goal Feedback Result)

/-- A thread goes on. -/
def goto (thread : Option ι) (place : Thread Goal Feedback) : Server ι Goal Feedback Result :=
  { server with threads := Function.update server.threads thread place }

/-- A change. -/
def commit (core : Core Goal Feedback Result) : Server ι Goal Feedback Result :=
  { server with
    core
    changes := server.changes + 1
    held := server.held ++ [(core.header, core.feedback)] }

/-! ## The Service thread -/

/-- `GoalRequest` up to the callback. -/
def screenGoal (id : UInt64) (goal : Goal) : Server ι Goal Feedback Result :=
  match server.core.screen id with
  | some response => { server with reply := some (.goal response) }
  | none => server.goto none (.deciding id goal)

/-- `GoalRequest` after the callback; one that throws counts as `-EFAULT`. -/
def settleGoal (id : UInt64) (goal : Goal) (code : Int32) : Server ι Goal Feedback Result :=
  let server := { server with decisions := server.decisions ++ [(id, goal, code)] }
  if code ≠ 0 then
    { server.goto none .idle with
      core := server.core.reject id code
      reply := some (.goal { goalId := id, resultCode := code }) }
  else
    { (server.commit (server.core.accept id goal)).goto none
        (.flushing (server.changes + 1)) with
      fed := 0
      reply := some (.goal { goalId := id, accepted := true }) }

/-- `CancelRequest` up to the callback. -/
def requestCancel (id : UInt64) : Server ι Goal Feedback Result :=
  match server.core.cancelRequest id with
  | .error response => { server with reply := some (.cancel response) }
  | .ok core => (server.commit core).goto none (.canceling id (server.changes + 1))

/-- `CancelRequest` after the callback, which may have thrown. -/
def settleCancel (id : UInt64) (own : Nat) (threw : Bool) : Server ι Goal Feedback Result :=
  { server.goto none (.flushing own) with
    reply := some (.cancel
      { goalId := id
        resultCode := if threw then errorCode Errno.efault else 0
        accepted := true }) }

/-- `GetResult`. -/
def answerResult (id : UInt64) : Server ι Goal Feedback Result :=
  { server with reply := some (.result (server.core.getResult id)) }

/-! ## The application -/

/-- A call of the application up to `Flush`. -/
def mutate (thread : ι) (operation : Operation Feedback Result) :
    Server ι Goal Feedback Result :=
  match server.core.perform operation with
  | .error _ => server
  | .ok core =>
    { (server.commit core).goto (some thread) (.flushing (server.changes + 1)) with
      outcomes := server.outcomes ++ operation.outcome.toList
      fed := if operation.feeds then server.fed + 1 else server.fed }

/-! ## `Flush` -/

/-- The current status. -/
def snapshot : Snapshot Feedback :=
  ⟨server.changes, server.joined, server.core.revision, server.core.header,
    server.core.feedback⟩

/-- `Flush` returns, and so does the call of an application thread. -/
def leave (thread : Option ι) (own : Nat) (code : Int32) : Server ι Goal Feedback Result :=
  { server.goto thread .idle with
    returned := server.returned ++ (thread.map (·, own, code)).toList }

/-- The first section of `Flush`. -/
def flush (thread : Option ι) (own : Nat) : Server ι Goal Feedback Result :=
  if server.core.publishing then
    { server.leave thread own 0 with joined := server.joined + 1 }
  else
    { server.goto thread (.publishing own server.snapshot) with
      core := { server.core with publishing := true } }

/-- `Publish` returns. -/
def publish (thread : Option ι) (own : Nat) (snapshot : Snapshot Feedback) (code : Int32) :
    Server ι Goal Feedback Result :=
  { server.goto thread (.checking own snapshot code) with
    published := if code = 0 then server.published ++ [snapshot] else server.published }

/-- The section of `Flush` after `Publish`. -/
def recheck (thread : Option ι) (own : Nat) (snapshot : Snapshot Feedback) (code : Int32) :
    Server ι Goal Feedback Result :=
  if code ≠ 0 ∨ snapshot.revision = server.core.revision then
    { server.leave thread own code with core := { server.core with publishing := false } }
  else server.goto thread (.publishing own server.snapshot)

/-- What happens to a server. -/
inductive Label (ι Goal Feedback Result : Type) where
  | goal (id : UInt64) (goal : Goal)
  | decided (code : Int32)
  | cancel (id : UInt64)
  | canceled (threw : Bool)
  | result (id : UInt64)
  | replied
  | operation (thread : ι) (operation : Operation Feedback Result)
  | flush (thread : Option ι)
  | publish (thread : Option ι) (code : Int32)
  | recheck (thread : Option ι)

/-- One step of one thread, if it is possible. -/
def advance (server : Server ι Goal Feedback Result) :
    Label ι Goal Feedback Result → Option (Server ι Goal Feedback Result)
  | .goal id goal =>
    match server.threads none, server.reply with
    | .idle, none => some (server.screenGoal id goal)
    | _, _ => none
  | .decided code =>
    match server.threads none with
    | .deciding id goal => some (server.settleGoal id goal code)
    | _ => none
  | .cancel id =>
    match server.threads none, server.reply with
    | .idle, none => some (server.requestCancel id)
    | _, _ => none
  | .canceled threw =>
    match server.threads none with
    | .canceling id own => some (server.settleCancel id own threw)
    | _ => none
  | .result id =>
    match server.threads none, server.reply with
    | .idle, none => some (server.answerResult id)
    | _, _ => none
  | .replied =>
    match server.threads none, server.reply with
    | .idle, some _ => some { server with reply := none }
    | _, _ => none
  | .operation thread operation =>
    match server.threads (some thread) with
    | .idle => some (server.mutate thread operation)
    | _ => none
  | .flush thread =>
    match server.threads thread with
    | .flushing own => some (server.flush thread own)
    | _ => none
  | .publish thread code =>
    match server.threads thread with
    | .publishing own snapshot => some (server.publish thread own snapshot code)
    | _ => none
  | .recheck thread =>
    match server.threads thread with
    | .checking own snapshot code => some (server.recheck thread own snapshot code)
    | _ => none

/-- A server whose first status `creator` is about to publish, in `Create`. -/
def create (creator : ι) : Server ι Goal Feedback Result :=
  ({} : Server ι Goal Feedback Result).goto (some creator) (.flushing 0)

def Created (server : Server ι Goal Feedback Result) : Prop :=
  ∃ creator : ι, server = create creator

/-- The runs of a server. -/
def acting (ι Goal Feedback Result : Type) [DecidableEq ι] [Inhabited Feedback]
    [Inhabited Result] :
    System (Server ι Goal Feedback Result) (Label ι Goal Feedback Result) where
  initial := Created
  step server label next := server.advance label = some next

variable {labels : List (Label ι Goal Feedback Result)}

theorem reachable_of_advance {creator : ι} {server : Server ι Goal Feedback Result}
    (computed : labels.foldlM advance (create creator) = some server) :
    (acting ι Goal Feedback Result).Reachable server :=
  ⟨_, labels, ⟨creator, rfl⟩, .of_foldlM (fun _ _ _ => id) computed⟩

/-- One step that passes a test. -/
def advanceIf (test : Server ι Goal Feedback Result → Label ι Goal Feedback Result → Bool)
    (server : Server ι Goal Feedback Result) (label : Label ι Goal Feedback Result) :
    Option (Server ι Goal Feedback Result) :=
  if test server label then server.advance label else none

/-- A computed run whose steps pass a test. -/
theorem reachable_of_test
    {condition : Server ι Goal Feedback Result → Label ι Goal Feedback Result → Prop}
    {test : Server ι Goal Feedback Result → Label ι Goal Feedback Result → Bool}
    (sound : ∀ server label, test server label = true → condition server label)
    {server next : Server ι Goal Feedback Result}
    (reachable : ((acting ι Goal Feedback Result).restrict condition).Reachable server)
    (computed : labels.foldlM (advanceIf test) server = some next) :
    ((acting ι Goal Feedback Result).restrict condition).Reachable next := by
  refine reachable.run (.of_foldlM ?_ computed)
  intro state label next done
  rw [advanceIf, Option.ite_none_right_eq_some] at done
  exact ⟨sound state label done.1, done.2⟩

/-! ## What a step does -/

/-- Every way in which a step can go. -/
inductive Effect : Label ι Goal Feedback Result → Server ι Goal Feedback Result → Prop where
  | answered {id goal response} : server.core.screen id = some response →
      Effect (.goal id goal) { server with reply := some (.goal response) }
  | asked {id goal} : server.threads none = .idle → server.core.screen id = none →
      Effect (.goal id goal) (server.goto none (.deciding id goal))
  | rejected {id goal code} : server.threads none = .deciding id goal → code ≠ 0 →
      Effect (.decided code)
        { server.goto none .idle with
          core := server.core.reject id code
          decisions := server.decisions ++ [(id, goal, code)]
          reply := some (.goal { goalId := id, resultCode := code }) }
  | accepted {id goal} : server.threads none = .deciding id goal →
      Effect (.decided 0)
        { (server.commit (server.core.accept id goal)).goto none
            (.flushing (server.changes + 1)) with
          decisions := server.decisions ++ [(id, goal, 0)]
          fed := 0
          reply := some (.goal { goalId := id, accepted := true }) }
  | spared {id response} : server.core.cancelRequest id = .error response →
      Effect (.cancel id) { server with reply := some (.cancel response) }
  | canceling {id core} : server.threads none = .idle →
      server.core.cancelRequest id = .ok core →
      Effect (.cancel id) ((server.commit core).goto none (.canceling id (server.changes + 1)))
  | canceled {id own threw} : server.threads none = .canceling id own →
      Effect (.canceled threw) (server.settleCancel id own threw)
  | looked {id} : Effect (.result id) (server.answerResult id)
  | replied : Effect .replied { server with reply := none }
  | refused {thread operation code} : server.core.perform operation = .error code →
      Effect (.operation thread operation) server
  | performed {thread operation core} : server.threads (some thread) = .idle →
      server.core.perform operation = .ok core →
      Effect (.operation thread operation)
        { (server.commit core).goto (some thread) (.flushing (server.changes + 1)) with
          outcomes := server.outcomes ++ operation.outcome.toList
          fed := if operation.feeds then server.fed + 1 else server.fed }
  | joined {thread own} : server.threads thread = .flushing own →
      server.core.publishing = true →
      Effect (.flush thread) { server.leave thread own 0 with joined := server.joined + 1 }
  | drains {thread own} : server.threads thread = .flushing own →
      server.core.publishing = false →
      Effect (.flush thread)
        { server.goto thread (.publishing own server.snapshot) with
          core := { server.core with publishing := true } }
  | published {thread own snapshot} : server.threads thread = .publishing own snapshot →
      Effect (.publish thread 0)
        { server.goto thread (.checking own snapshot 0) with
          published := server.published ++ [snapshot] }
  | failed {thread own snapshot code} : server.threads thread = .publishing own snapshot →
      code ≠ 0 →
      Effect (.publish thread code) (server.goto thread (.checking own snapshot code))
  | drained {thread own snapshot code} :
      server.threads thread = .checking own snapshot code →
      code ≠ 0 ∨ snapshot.revision = server.core.revision →
      Effect (.recheck thread)
        { server.leave thread own code with
          core := { server.core with publishing := false } }
  | outdated {thread own snapshot} : server.threads thread = .checking own snapshot 0 →
      snapshot.revision ≠ server.core.revision →
      Effect (.recheck thread) (server.goto thread (.publishing own server.snapshot))

variable {server}

theorem Effect.of_advance {label : Label ι Goal Feedback Result}
    {next : Server ι Goal Feedback Result} (step : server.advance label = some next) :
    server.Effect label next := by
  cases label <;> dsimp only [advance] at step <;> split at step <;> cases step
  next id goal _ _ idle _ =>
    unfold screenGoal
    cases asked : server.core.screen id with
    | some response => exact .answered asked
    | none => exact .asked idle asked
  next code _ id goal deciding =>
    unfold settleGoal
    by_cases refused : code ≠ 0
    · rw [if_pos refused]
      exact .rejected deciding refused
    · rw [if_neg refused, not_not.mp refused]
      exact .accepted deciding
  next id _ _ idle _ =>
    unfold requestCancel
    cases done : server.core.cancelRequest id with
    | error response => exact .spared done
    | ok core => exact .canceling idle done
  next canceling => exact .canceled canceling
  next => exact .looked
  next => exact .replied
  next thread operation _ idle =>
    unfold mutate
    cases done : server.core.perform operation with
    | error code => exact .refused done
    | ok core => exact .performed idle done
  next flushing =>
    unfold Server.flush
    by_cases busy : server.core.publishing
    · rw [if_pos busy]
      exact .joined flushing busy
    · rw [if_neg busy]
      exact .drains flushing (Bool.eq_false_of_not_eq_true busy)
  next thread code _ own snapshot publishing =>
    unfold Server.publish
    by_cases success : code = 0
    · rw [if_pos success, success]
      exact .published publishing
    · rw [if_neg success]
      exact .failed publishing success
  next thread _ own snapshot code checking =>
    unfold Server.recheck
    by_cases done : code ≠ 0 ∨ snapshot.revision = server.core.revision
    · rw [if_pos done]
      exact .drained checking done
    · rw [if_neg done]
      obtain ⟨success, newer⟩ := not_or.mp done
      rw [not_not.mp success] at checking
      exact .outdated checking newer

end Server

end Kcf.Action
