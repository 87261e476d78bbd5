import Kcf.Action.Server
import Kcf.Data.Counter

/-!
# The life of a goal

What the state of an Action server can look like, and how it can change, whatever the
threads do.  `GoalRequest` writes the header without a second look at it; nothing can
have made a goal active since the first one, because only a goal that is active can
be moved by another thread.
-/

namespace Kcf.Action

open Function
open Kcf.Network (ActionState)
open Kcf.Transition

/-- The changes that a header can see. -/
inductive Header.Moves (before after : Header) : Prop where
  | kept : after.goalId = before.goalId → after.state = before.state → Moves before after
  | accepted : before.state = .idle ∨ before.state.IsTerminal = true →
      after.goalId ≠ 0 → after.goalId ≠ before.goalId → after.state = .accepted →
      Moves before after
  | started : after.goalId = before.goalId → before.state = .accepted →
      before.cancelRequested = false → after.state = .running → Moves before after
  | finished : after.goalId = before.goalId → before.state = .running →
      after.state.IsTerminal = true → Moves before after
  | canceled : after.goalId = before.goalId → before.state = .accepted →
      after.state = .canceled → Moves before after

/-- What holds of a core between any two sections. -/
structure Core.Coherent {Goal Feedback Result : Type} [Inhabited Feedback]
    (core : Core Goal Feedback Result) : Prop where
  idle_iff : core.header.goalId = 0 ↔ core.header.state = .idle
  result_iff : core.result.isSome = true ↔ core.header.state.IsTerminal = true
  canceled : core.header.state = .canceled → core.header.cancelRequested = true

/-- Everything but the memory of the last decision and the flag of `Flush` is the same. -/
structure Core.SameStatus {Goal Feedback Result : Type} [Inhabited Feedback]
    (core next : Core Goal Feedback Result) : Prop where
  header : next.header = core.header
  goal : next.goal = core.goal
  feedback : next.feedback = core.feedback
  result : next.result = core.result
  previousId : next.previousId = core.previousId
  revision : next.revision = core.revision

/-- A header is idle, active or terminal. -/
theorem Header.not_isActive_iff (header : Header) :
    ¬header.IsActive ↔ header.state = .idle ∨ header.state.IsTerminal = true := by
  unfold IsActive
  cases header.state <;> decide

section

variable {Goal Feedback Result : Type} [Inhabited Feedback]
variable {core next : Core Goal Feedback Result}

theorem Core.SameStatus.refl (core : Core Goal Feedback Result) : core.SameStatus core :=
  ⟨rfl, rfl, rfl, rfl, rfl, rfl⟩

theorem Core.SameStatus.trans {last : Core Goal Feedback Result} (first : core.SameStatus next)
    (second : next.SameStatus last) : core.SameStatus last where
  header := second.header.trans first.header
  goal := second.goal.trans first.goal
  feedback := second.feedback.trans first.feedback
  result := second.result.trans first.result
  previousId := second.previousId.trans first.previousId
  revision := second.revision.trans first.revision

theorem Core.Coherent.of_sameStatus (coherent : core.Coherent) (same : core.SameStatus next) :
    next.Coherent := by
  constructor
  case idle_iff => rw [same.header]; exact coherent.idle_iff
  case result_iff => rw [same.header, same.result]; exact coherent.result_iff
  case canceled => rw [same.header]; exact coherent.canceled

theorem Core.Coherent.accept {id : UInt64} {goal : Goal} (nonzero : id ≠ 0) :
    (core.accept id goal).Coherent where
  idle_iff := by
    constructor
    · intro zero
      exact absurd zero nonzero
    · intro idle
      cases idle
  result_iff := by
    constructor
    · intro set
      cases set
    · intro terminal
      cases terminal
  canceled := nofun

variable {operation : Operation Feedback Result}

/-- A call works on a goal that is active, and keeps its id. -/
theorem Core.Performed.isActive (performed : core.Performed operation next) :
    core.header.IsActive ∧ next.header.goalId = core.header.goalId := by
  cases performed with
  | start _ _ accepted => exact ⟨.inl accepted, rfl⟩
  | feed _ _ running => exact ⟨.inr running, rfl⟩
  | finish _ _ _ _ guard =>
    rcases guard with ⟨_, _, active⟩ | ⟨_, running⟩
    · exact ⟨active, rfl⟩
    · exact ⟨.inr running, rfl⟩

theorem Core.Coherent.goalId_ne_zero (coherent : core.Coherent) (active : core.header.IsActive) :
    core.header.goalId ≠ 0 := by
  intro zero
  have idle := coherent.idle_iff.mp zero
  rcases active with accepted | running
  · cases accepted.symm.trans idle
  · cases running.symm.trans idle

theorem Core.Coherent.perform (coherent : core.Coherent)
    (performed : core.Performed operation next) : next.Coherent := by
  have nonzero := coherent.goalId_ne_zero performed.isActive.1
  have idle {state : ActionState} (busy : state ≠ .idle) : core.header.goalId = 0 ↔ state = .idle :=
    ⟨fun zero => absurd zero nonzero, fun same => absurd same busy⟩
  cases performed with
  | start _ _ accepted kept =>
    refine ⟨idle nofun, ?_, nofun⟩
    rw [coherent.result_iff, accepted]
    exact ⟨nofun, nofun⟩
  | feed _ _ running =>
    refine ⟨idle ?_, coherent.result_iff, coherent.canceled⟩
    rw [running]
    decide
  | @finish operation id terminal value _ _ _ isTerminal guard =>
    refine ⟨idle ?_, ⟨fun _ => isTerminal, fun _ => rfl⟩, ?_⟩
    · rintro rfl
      cases isTerminal
    · intro canceled
      rcases guard with ⟨_, requested, _⟩ | ⟨other, _⟩
      · exact requested
      · exact absurd canceled other

/-- The sequence counts the feedbacks. -/
theorem Core.Performed.fed (performed : core.Performed operation next) {fed : Nat}
    (count : core.header.feedbackSequence.toNat = fed) :
    next.header.feedbackSequence.toNat = if operation.feeds then fed + 1 else fed := by
  cases performed with
  | start => exact count
  | feed _ _ _ room =>
    rw [← count]
    exact Data.UInt64.toNat_add_one room
  | @finish operation id terminal value outcome =>
    cases operation with
    | start | publishFeedback => cases outcome
    | succeed | fail | canceled => exact count

theorem Core.Performed.moves
    (performed : core.Performed operation next) : core.header.Moves next.header := by
  cases performed with
  | start _ _ accepted kept => exact .started rfl accepted kept rfl
  | feed => exact .kept rfl rfl
  | finish _ _ _ isTerminal guard =>
    rcases guard with ⟨rfl, _, accepted | running⟩ | ⟨_, running⟩
    · exact .canceled rfl accepted rfl
    · exact .finished rfl running isTerminal
    · exact .finished rfl running isTerminal

end

namespace Server

variable {ι Goal Feedback Result : Type} [Inhabited Feedback] [Inhabited Result]
variable {server next : Server ι Goal Feedback Result} {label : Label ι Goal Feedback Result}

/-- What holds between any two steps. -/
structure Coherent (server : Server ι Goal Feedback Result) : Prop where
  core : server.core.Coherent
  fed : server.core.header.feedbackSequence.toNat = server.fed
  deciding : ∀ id goal, server.threads none = .deciding id goal →
    id ≠ 0 ∧ id ≠ server.core.header.goalId ∧ id ≠ server.core.previousId ∧
      ¬server.core.header.IsActive

theorem Coherent.of_sameStatus (coherent : server.Coherent)
    (same : server.core.SameStatus next.core) (fed : next.fed = server.fed)
    (threads : ∀ id goal, next.threads none = .deciding id goal →
      server.threads none = .deciding id goal) : next.Coherent where
  core := coherent.core.of_sameStatus same
  fed := by rw [same.header, fed, coherent.fed]
  deciding := by
    intro id goal deciding
    rw [same.header, same.previousId]
    exact coherent.deciding id goal (threads id goal deciding)

variable [DecidableEq ι]

/-- Who moves elsewhere is not deciding. -/
theorem deciding_of_moved {thread : Option ι} {place : Thread Goal Feedback}
    (moved : next.threads = update server.threads thread place)
    (elsewhere : ∀ id goal, place ≠ .deciding id goal) (id : UInt64) (goal : Goal)
    (deciding : next.threads none = .deciding id goal) :
    server.threads none = .deciding id goal := by
  rw [moved] at deciding
  by_cases here : none = thread
  · subst here
    rw [update_self] at deciding
    exact absurd deciding (elsewhere id goal)
  · rwa [update_of_ne here] at deciding

theorem Coherent.effect (coherent : server.Coherent) (effect : server.Effect label next) :
    next.Coherent := by
  cases effect with
  | answered | spared | looked | replied => exact coherent.of_sameStatus (.refl _) rfl fun _ _ => id
  | refused => exact coherent
  | @asked id goal idle asked =>
    refine ⟨coherent.core, coherent.fed, ?_⟩
    intro other value deciding
    change update server.threads none _ none = _ at deciding
    rw [update_self] at deciding
    cases deciding
    obtain ⟨nonzero, current, previous, _, active⟩ := Core.screen_none asked
    exact ⟨nonzero, current, previous, active⟩
  | rejected =>
    exact coherent.of_sameStatus ⟨rfl, rfl, rfl, rfl, rfl, rfl⟩ rfl (deciding_of_moved rfl nofun)
  | @accepted id goal deciding =>
    obtain ⟨nonzero, _⟩ := coherent.deciding id goal deciding
    refine ⟨.accept nonzero, rfl, ?_⟩
    intro other value still
    change update server.threads none _ none = _ at still
    rw [update_self] at still
    cases still
  | @canceling id core idle done =>
    obtain ⟨active, _, rfl⟩ := Core.cancelRequest_ok done
    refine ⟨⟨?_, coherent.core.result_iff, fun _ => rfl⟩, coherent.fed, ?_⟩
    · exact coherent.core.idle_iff
    · intro other value still
      change update server.threads none _ none = _ at still
      rw [update_self] at still
      cases still
  | canceled => exact coherent.of_sameStatus (.refl _) rfl (deciding_of_moved rfl nofun)
  | @performed thread operation core idle done =>
    have performed := Core.performed done
    refine ⟨coherent.core.perform performed, ?_, ?_⟩
    · exact performed.fed coherent.fed
    · intro id goal deciding
      change update server.threads (some thread) (.flushing (server.changes + 1)) none =
        _ at deciding
      rw [update_of_ne (Option.some_ne_none thread).symm] at deciding
      obtain ⟨_, _, _, inactive⟩ := coherent.deciding id goal deciding
      exact absurd performed.isActive.1 inactive
  | joined => exact coherent.of_sameStatus (.refl _) rfl (deciding_of_moved rfl nofun)
  | drains | drained =>
    exact coherent.of_sameStatus ⟨rfl, rfl, rfl, rfl, rfl, rfl⟩ rfl (deciding_of_moved rfl nofun)
  | published | failed | outdated =>
    exact coherent.of_sameStatus (.refl _) rfl (deciding_of_moved rfl nofun)

theorem Coherent.moves (coherent : server.Coherent) (effect : server.Effect label next) :
    server.core.header.Moves next.core.header := by
  cases effect with
  | @accepted id goal deciding =>
    obtain ⟨nonzero, current, _, inactive⟩ := coherent.deciding id goal deciding
    exact .accepted ((Header.not_isActive_iff _).mp inactive) nonzero current rfl
  | performed _ done => exact (Core.performed done).moves
  | canceling _ done =>
    obtain ⟨_, _, rfl⟩ := Core.cancelRequest_ok done
    exact .kept rfl rfl
  | _ => exact .kept rfl rfl

/-- The goals that were accepted. -/
def accepted (server : Server ι Goal Feedback Result) : List UInt64 :=
  server.decisions.filterMap fun (id, _, code) => if code = 0 then some id else none

/-- While no goal is active only a new goal changes the status. -/
theorem Effect.inactive (effect : server.Effect label next)
    (inactive : ¬server.core.header.IsActive) :
    server.core.SameStatus next.core ∧ next.accepted = server.accepted ∨
      ∃ id, next.accepted = server.accepted ++ [id] := by
  cases effect with
  | @rejected id goal code deciding refused =>
    refine .inl ⟨⟨rfl, rfl, rfl, rfl, rfl, rfl⟩, ?_⟩
    simp [Server.accepted, refused]
  | @accepted id goal deciding =>
    refine .inr ⟨id, ?_⟩
    simp [Server.accepted]
  | performed _ done => exact absurd (Core.performed done).isActive.1 inactive
  | canceling _ done => exact absurd (Core.cancelRequest_ok done).1 inactive
  | _ => exact .inl ⟨⟨rfl, rfl, rfl, rfl, rfl, rfl⟩, rfl⟩

/-- While a goal is active no other one is accepted. -/
theorem Coherent.active (coherent : server.Coherent) (effect : server.Effect label next)
    (active : server.core.header.IsActive) :
    next.core.header.goalId = server.core.header.goalId ∧ next.accepted = server.accepted := by
  cases effect with
  | @rejected id goal code deciding refused =>
    refine ⟨rfl, ?_⟩
    simp [Server.accepted, refused]
  | @accepted id goal deciding => exact absurd active (coherent.deciding id goal deciding).2.2.2
  | performed _ done => exact ⟨(Core.performed done).isActive.2, rfl⟩
  | canceling _ done =>
    obtain ⟨_, _, rfl⟩ := Core.cancelRequest_ok done
    exact ⟨rfl, rfl⟩
  | _ => exact ⟨rfl, rfl⟩

theorem Coherent.accepted_length (coherent : server.Coherent)
    (effect : server.Effect label next) : server.accepted.length ≤ next.accepted.length := by
  by_cases active : server.core.header.IsActive
  · rw [(coherent.active effect active).2]
  · rcases effect.inactive active with ⟨_, same⟩ | ⟨id, more⟩
    · rw [same]
    · rw [more, List.length_append]
      exact Nat.le_add_right _ _

theorem Coherent.of_created (created : server.Created) : server.Coherent := by
  obtain ⟨creator, rfl⟩ := created
  refine ⟨⟨⟨fun _ => rfl, fun _ => rfl⟩, ⟨nofun, nofun⟩, nofun⟩, rfl, ?_⟩
  intro id goal deciding
  change update (fun _ => Thread.idle) (some creator) (.flushing 0) none = _ at deciding
  rw [update_of_ne (Option.some_ne_none creator).symm] at deciding
  cases deciding

theorem preserves_coherent : (acting ι Goal Feedback Result).Preserves Coherent :=
  fun _ _ _ step coherent => coherent.effect (Effect.of_advance step)

theorem Coherent.of_reachable (reachable : (acting ι Goal Feedback Result).Reachable server) :
    server.Coherent :=
  reachable.invariant (fun _ created => of_created created) preserves_coherent

/-- A terminal goal keeps its status until another goal is accepted. -/
theorem Coherent.run {labels : List (Label ι Goal Feedback Result)} (coherent : server.Coherent)
    (terminal : server.core.header.state.IsTerminal = true)
    (run : (acting ι Goal Feedback Result).Run server labels next) :
    next.Coherent ∧ (server.core.SameStatus next.core ∧ next.accepted = server.accepted ∨
      server.accepted.length < next.accepted.length) := by
  induction run with
  | nil => exact ⟨coherent, .inl ⟨.refl _, rfl⟩⟩
  | snoc _ step ih =>
    have effect := Effect.of_advance step
    obtain ⟨before, kept⟩ := ih
    refine ⟨before.effect effect, ?_⟩
    rcases kept with ⟨same, unchanged⟩ | more
    · have inactive : ¬server.core.header.IsActive :=
        (Header.not_isActive_iff _).mpr (.inr terminal)
      rw [← same.header] at inactive
      rcases effect.inactive inactive with ⟨still, also⟩ | ⟨id, more⟩
      · exact .inl ⟨same.trans still, also.trans unchanged⟩
      · right
        rw [more, unchanged, List.length_append]
        exact Nat.lt_succ_self _
    · exact .inr (more.trans_le (before.accepted_length effect))

/-- The code that a call gets without having changed anything. -/
def refusal (server : Server ι Goal Feedback Result) :
    Label ι Goal Feedback Result → Option Int32
  | .goal id _ => (server.core.screen id).map GoalResponse.resultCode
  | .decided code => if code ≠ 0 then some code else none
  | .cancel id =>
    match server.core.cancelRequest id with
    | .error response => some response.resultCode
    | .ok _ => none
  | .result id => some (server.core.getResult id).resultCode
  | .operation _ operation =>
    match server.core.perform operation with
    | .error code => some code
    | .ok _ => none
  | _ => none

/-- A call that is refused leaves the status alone; only a refusal of `on_goal` itself is
remembered. -/
theorem Effect.refused_same (effect : server.Effect label next) {code : Int32}
    (refused : server.refusal label = some code) :
    server.core.SameStatus next.core ∧
      (next.core = server.core ∨ label = .decided code) := by
  cases effect with
  | @rejected id goal other _ failed =>
    simp only [refusal, if_pos failed, Option.some.injEq] at refused
    exact ⟨⟨rfl, rfl, rfl, rfl, rfl, rfl⟩, .inr (by rw [refused])⟩
  | accepted => cases refused
  | canceling _ done => simp [refusal, done] at refused
  | performed _ done => simp [refusal, done] at refused
  | answered | asked | spared | looked | refused => exact ⟨.refl _, .inl rfl⟩
  | _ => cases refused

/-- The life of a goal under every interleaving: its id, its result and the request to
cancel agree with its state; the state changes only as it should, and not at all through
a call that is refused; no goal is accepted while another one is active; a terminal goal
stays as it is until another one is accepted; and the sequence counts the calls of
`PublishFeedback` that stored a feedback for the goal, also if their `Flush` then fails. -/
theorem goal_lifecycle (reachable : (acting ι Goal Feedback Result).Reachable server) :
    (server.core.header.goalId = 0 ↔ server.core.header.state = .idle) ∧
      (server.core.result.isSome = true ↔ server.core.header.state.IsTerminal = true) ∧
      (server.core.header.state = .canceled → server.core.header.cancelRequested = true) ∧
      server.core.header.feedbackSequence.toNat = server.fed ∧
      (∀ label next, (acting ι Goal Feedback Result).step server label next →
        server.core.header.Moves next.core.header ∧
          (server.core.header.IsActive → next.accepted = server.accepted) ∧
          ∀ code, server.refusal label = some code →
            server.core.SameStatus next.core ∧
              (next.core = server.core ∨ label = .decided code)) ∧
      ∀ labels later, (acting ι Goal Feedback Result).Run server labels later →
        server.core.header.state.IsTerminal = true → later.accepted = server.accepted →
        later.core.header.state = server.core.header.state ∧
          later.core.result = server.core.result := by
  have coherent := Coherent.of_reachable reachable
  refine ⟨coherent.core.idle_iff, coherent.core.result_iff, coherent.core.canceled,
    coherent.fed, ?_, ?_⟩
  · intro label next step
    have effect := Effect.of_advance step
    refine ⟨coherent.moves effect, fun active => (coherent.active effect active).2, ?_⟩
    intro code refused
    exact effect.refused_same refused
  · intro labels later run terminal unchanged
    rcases (coherent.run terminal run).2 with ⟨same, _⟩ | more
    · rw [same.header, same.result]
      exact ⟨rfl, rfl⟩
    · rw [unchanged] at more
      exact absurd more (Nat.lt_irrefl _)

/-- A goal that is accepted, started, gets a feedback and succeeds; another one is refused
while it runs. -/
def soloRun : List (Label Unit Nat Nat Nat) :=
  [.flush (some ()), .publish (some ()) 0, .recheck (some ()), .goal 5 70, .decided 0,
    .flush none, .publish none 0, .recheck none, .replied, .operation () (.start 5),
    .goal 6 71, .replied, .flush (some ()), .publish (some ()) 0, .recheck (some ()),
    .operation () (.publishFeedback 5 1), .flush (some ()), .publish (some ()) 0,
    .recheck (some ()), .operation () (.succeed 5 9)]

theorem goal_lifecycle_solo : ∃ server : Server Unit Nat Nat Nat,
    (acting Unit Nat Nat Nat).Reachable server ∧ server.accepted = [5] ∧ server.fed = 1 ∧
      server.core.header.feedbackSequence.toNat = 1 ∧
      ∀ labels later, (acting Unit Nat Nat Nat).Run server labels later →
        later.accepted = [5] →
        later.core.header.state = .succeeded ∧ later.core.result = some 9 := by
  have computed : (soloRun.foldlM advance (create ())).map
      (fun server => (server.accepted, server.fed, server.core.header.state,
        server.core.result)) = some ([5], 1, .succeeded, some 9) := by
    decide
  obtain ⟨server, run, fields⟩ := Option.map_eq_some_iff.mp computed
  simp only [Prod.mk.injEq] at fields
  obtain ⟨accepted, fed, state, result⟩ := fields
  have reachable := reachable_of_advance run
  obtain ⟨_, _, _, count, _, stays⟩ := goal_lifecycle reachable
  refine ⟨server, reachable, accepted, fed, count.trans fed, ?_⟩
  intro labels later more unchanged
  rw [← state, ← result]
  exact stays labels later more (by rw [state]; rfl) (unchanged.trans accepted.symm)

end Server

end Kcf.Action
