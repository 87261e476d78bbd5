import Kcf.Action.Lifecycle
import Kcf.Data.Snoc

/-!
# Repeated goals

`GoalRequest` remembers three goals: the current one, the one accepted before it, and the
last one that `on_goal` decided.  The three memories overlap and change at different
points; each of them agrees with the record of the decisions, so that a goal which is
asked for again gets the answer of the call that decided it.
-/

namespace Kcf.Action

open List
open Kcf.Network (ActionState)
open Kcf.Transition

/-- A call does not change what is known of other goals. -/
theorem Core.Performed.memory {Goal Feedback Result : Type} [Inhabited Feedback]
    {core next : Core Goal Feedback Result} {operation : Operation Feedback Result}
    (performed : core.Performed operation next) :
    next.previousId = core.previousId ∧ next.decisionId = core.decisionId ∧
      next.decisionCode = core.decisionCode := by
  cases performed <;> exact ⟨rfl, rfl, rfl⟩

/-- What the call that decides a goal answers. -/
def GoalResponse.ofDecision (id : UInt64) (code : Int32) : GoalResponse :=
  { goalId := id, resultCode := code, accepted := code = 0 }

namespace Server

variable {ι Goal Feedback Result : Type} [Inhabited Feedback] [Inhabited Result]
variable {server next : Server ι Goal Feedback Result} {label : Label ι Goal Feedback Result}

/-- The code of the last decision on a goal. -/
def verdict (server : Server ι Goal Feedback Result) (id : UInt64) : Option Int32 :=
  server.decisions.foldl (fun last (decided, _, code) => if decided = id then some code else last)
    none

/-- The current goal, the one accepted before it, and the last one that was decided. -/
def Recalls (server : Server ι Goal Feedback Result) (id : UInt64) : Prop :=
  server.accepted.getLast? = some id ∨ server.accepted.dropLast.getLast? = some id ∨
    ∃ goal code, server.decisions.getLast? = some (id, goal, code)

/-- The memories of the core agree with the record. -/
structure Memory (server : Server ι Goal Feedback Result) : Prop where
  coherent : server.Coherent
  nonzero : ∀ decision ∈ server.decisions, decision.1 ≠ 0
  current : server.core.header.goalId = server.accepted.getLast?.getD 0
  previous : server.core.previousId = server.accepted.dropLast.getLast?.getD 0
  last : (server.decisions = [] ∧ server.core.decisionId = 0) ∨
    ∃ goal, server.decisions.getLast? =
      some (server.core.decisionId, goal, server.core.decisionCode)
  taken : server.core.header.goalId ≠ 0 → server.verdict server.core.header.goalId = some 0
  replaced : server.core.previousId ≠ 0 → server.verdict server.core.previousId = some 0

section Records

variable {id : UInt64} {goal : Goal} {code : Int32}

theorem verdict_append (record : next.decisions = server.decisions ++ [(id, goal, code)])
    (other : UInt64) :
    next.verdict other = if id = other then some code else server.verdict other := by
  rw [verdict, record, foldl_append]
  rfl

theorem accepted_append (record : next.decisions = server.decisions ++ [(id, goal, code)]) :
    next.accepted = server.accepted ++ if code = 0 then [id] else [] := by
  rw [accepted, record, filterMap_append]
  by_cases success : code = 0
  · simp [accepted, success]
  · simp [accepted, success]

/-- An accepted goal was decided, so its id is not zero. -/
theorem Memory.accepted_ne_zero (memory : server.Memory) (member : id ∈ server.accepted) :
    id ≠ 0 := by
  obtain ⟨⟨decided, goal, code⟩, recorded, same⟩ := mem_filterMap.mp member
  obtain ⟨_, equal⟩ := Option.ite_none_right_eq_some.mp same
  rw [← Option.some.inj equal]
  exact memory.nonzero _ recorded

end Records

/-! ## Answers -/

variable {id : UInt64} {goal : Goal}

section

variable (memory : server.Memory)
include memory

theorem Memory.answer_current (nonzero : id ≠ 0)
    (known : id = server.core.header.goalId ∨ id = server.core.previousId) :
    server.verdict id = some 0 ∧ server.core.screen id = some (.ofDecision id 0) := by
  refine ⟨?_, ?_⟩
  · rcases known with rfl | rfl
    · exact memory.taken nonzero
    · exact memory.replaced nonzero
  · rw [Core.screen, if_neg nonzero, if_pos known]
    rfl

/-- A goal that is remembered gets the answer of the call that decided it. -/
theorem Memory.screen_recalled (recalls : server.Recalls id) :
    ∃ code, server.verdict id = some code ∧ server.core.screen id = some (.ofDecision id code) := by
  rcases recalls with current | previous | ⟨goal, code, last⟩
  · have same := memory.current
    rw [current, Option.getD_some] at same
    exact ⟨0, memory.answer_current (memory.accepted_ne_zero (mem_of_getLast? current))
      (.inl same.symm)⟩
  · have same := memory.previous
    rw [previous, Option.getD_some] at same
    have member := mem_of_mem_dropLast (mem_of_getLast? previous)
    exact ⟨0, memory.answer_current (memory.accepted_ne_zero member) (.inr same.symm)⟩
  · have nonzero : id ≠ 0 := memory.nonzero _ (mem_of_getLast? last)
    obtain ⟨earlier, record⟩ := getLast?_eq_some_iff.mp last
    have verdict : server.verdict id = some code := by
      rw [Server.verdict, record, foldl_append]
      exact if_pos rfl
    rcases memory.last with ⟨none, _⟩ | ⟨goal', equal⟩
    · rw [none] at last
      cases last
    · rw [last] at equal
      simp only [Option.some.injEq, Prod.mk.injEq] at equal
      obtain ⟨decided, _, same⟩ := equal
      by_cases known : id = server.core.header.goalId ∨ id = server.core.previousId
      · exact ⟨0, memory.answer_current nonzero known⟩
      · refine ⟨code, verdict, ?_⟩
        rw [Core.screen, if_neg nonzero, if_neg known, if_pos decided, ← same]
        rfl

/-- A goal that is not remembered is refused by `GoalRequest` itself or decided. -/
theorem Memory.screen_new (new : ¬server.Recalls id) :
    server.core.screen id =
      if id = 0 then some { goalId := id, resultCode := errorCode Errno.einval }
      else if server.core.header.IsActive then
        some { goalId := id, resultCode := errorCode Errno.ebusy }
      else none := by
  by_cases zero : id = 0
  · rw [Core.screen, if_pos zero, if_pos zero]
  have last {ids : List UInt64} (same : id = ids.getLast?.getD 0) : ids.getLast? = some id := by
    cases found : ids.getLast? with
    | none =>
      rw [found] at same
      exact absurd same zero
    | some other =>
      rw [found] at same
      exact congrArg some same.symm
  have unknown : ¬(id = server.core.header.goalId ∨ id = server.core.previousId) := by
    rintro (rfl | rfl)
    · exact new (.inl (last memory.current))
    · exact new (.inr (.inl (last memory.previous)))
  have undecided : id ≠ server.core.decisionId := by
    rintro rfl
    rcases memory.last with ⟨_, none⟩ | ⟨goal, found⟩
    · exact zero none
    · exact new (.inr (.inr ⟨goal, _, found⟩))
  rw [Core.screen, if_neg zero, if_neg unknown, if_neg undecided, if_neg zero]

/-! ## Steps -/

/-- Nothing that `GoalRequest` remembers changes. -/
theorem Memory.keep (coherent : next.Coherent)
    (decisions : next.decisions = server.decisions)
    (current : next.core.header.goalId = server.core.header.goalId)
    (previous : next.core.previousId = server.core.previousId)
    (decisionId : next.core.decisionId = server.core.decisionId)
    (decisionCode : next.core.decisionCode = server.core.decisionCode) : next.Memory := by
  have accepted : next.accepted = server.accepted := by
    rw [Server.accepted, decisions, Server.accepted]
  have verdicts : ∀ id, next.verdict id = server.verdict id := fun id => by
    rw [verdict, decisions, verdict]
  constructor
  case coherent => exact coherent
  case nonzero => rw [decisions]; exact memory.nonzero
  case current => rw [current, accepted]; exact memory.current
  case previous => rw [previous, accepted]; exact memory.previous
  case last => rw [decisions, decisionId, decisionCode]; exact memory.last
  case taken => rw [current, verdicts]; exact memory.taken
  case replaced => rw [previous, verdicts]; exact memory.replaced

theorem Memory.reject {code : Int32}
    (deciding : server.threads none = .deciding id goal) (refused : code ≠ 0)
    (coherent : next.Coherent) (core : next.core = server.core.reject id code)
    (record : next.decisions = server.decisions ++ [(id, goal, code)]) : next.Memory := by
  obtain ⟨nonzero, current, previous, _⟩ := memory.coherent.deciding id goal deciding
  have accepted : next.accepted = server.accepted := by
    rw [accepted_append record, if_neg refused, append_nil]
  constructor
  case coherent => exact coherent
  case nonzero =>
    rw [record]
    exact Data.forall_snoc memory.nonzero nonzero
  case current => rw [core, accepted]; exact memory.current
  case previous => rw [core, accepted]; exact memory.previous
  case last =>
    rw [record, core, getLast?_concat]
    exact .inr ⟨goal, rfl⟩
  case taken =>
    rw [core, verdict_append record]
    exact fun known => (if_neg current).trans (memory.taken known)
  case replaced =>
    rw [core, verdict_append record]
    exact fun known => (if_neg previous).trans (memory.replaced known)

theorem Memory.accept
    (deciding : server.threads none = .deciding id goal) (coherent : next.Coherent)
    (core : next.core = server.core.accept id goal)
    (record : next.decisions = server.decisions ++ [(id, goal, 0)]) : next.Memory := by
  obtain ⟨nonzero, current, _⟩ := memory.coherent.deciding id goal deciding
  have accepted : next.accepted = server.accepted ++ [id] := by
    rw [accepted_append record, if_pos rfl]
  constructor
  case coherent => exact coherent
  case nonzero =>
    rw [record]
    exact Data.forall_snoc memory.nonzero nonzero
  case current => rw [core, accepted, getLast?_concat]; rfl
  case previous =>
    rw [core, accepted, dropLast_concat]
    exact memory.current
  case last =>
    rw [record, core, getLast?_concat]
    exact .inr ⟨goal, rfl⟩
  case taken =>
    rw [core, verdict_append record]
    exact fun _ => if_pos rfl
  case replaced =>
    rw [core, verdict_append record]
    exact fun known => (if_neg current).trans (memory.taken known)

end

variable [DecidableEq ι]

theorem Memory.effect (memory : server.Memory) (effect : server.Effect label next) :
    next.Memory := by
  have coherent := memory.coherent.effect effect
  cases effect with
  | rejected deciding refused => exact memory.reject deciding refused coherent rfl rfl
  | accepted deciding => exact memory.accept deciding coherent rfl rfl
  | performed _ done =>
    have performed := Core.performed done
    obtain ⟨previous, decisionId, decisionCode⟩ := performed.memory
    exact memory.keep coherent rfl performed.isActive.2 previous decisionId decisionCode
  | canceling _ done =>
    obtain ⟨_, _, rfl⟩ := Core.cancelRequest_ok done
    exact memory.keep coherent rfl rfl rfl rfl rfl
  | _ => exact memory.keep coherent rfl rfl rfl rfl rfl

theorem Memory.of_created (created : server.Created) : server.Memory := by
  have coherent := Coherent.of_created created
  obtain ⟨creator, rfl⟩ := created
  exact ⟨coherent, forall_mem_nil _, rfl, rfl, .inl ⟨rfl, rfl⟩, fun known => absurd rfl known,
    fun known => absurd rfl known⟩

theorem preserves_memory : (acting ι Goal Feedback Result).Preserves Memory :=
  fun _ _ _ step memory => memory.effect (Effect.of_advance step)

theorem Memory.of_reachable (reachable : (acting ι Goal Feedback Result).Reachable server) :
    server.Memory :=
  reachable.invariant (fun _ created => of_created created) preserves_memory

/-! ## Whole runs -/

/-- The answer of the first section of `GoalRequest`, if it gives one. -/
theorem Effect.answers {response : GoalResponse} (effect : server.Effect (.goal id goal) next)
    (answer : server.core.screen id = some response) :
    next = { server with reply := some (.goal response) } := by
  cases effect with
  | answered other =>
    rw [answer] at other
    cases other
    rfl
  | asked _ other =>
    rw [answer] at other
    cases other

/-- Otherwise `on_goal` is called. -/
theorem Effect.asks (effect : server.Effect (.goal id goal) next)
    (asked : server.core.screen id = none) : next.threads none = .deciding id goal := by
  cases effect with
  | answered other =>
    rw [asked] at other
    cases other
  | asked => exact Function.update_self none _ server.threads

/-- The call that decides a goal answers with the decision. -/
theorem Effect.decides {code : Int32} (effect : server.Effect (.decided code) next)
    (deciding : server.threads none = .deciding id goal) :
    next.decisions = server.decisions ++ [(id, goal, code)] ∧
      next.reply = some (.goal (.ofDecision id code)) := by
  cases effect with
  | rejected other refused =>
    rw [deciding] at other
    cases other
    refine ⟨rfl, ?_⟩
    simp [GoalResponse.ofDecision, refused]
  | accepted other =>
    rw [deciding] at other
    cases other
    exact ⟨rfl, rfl⟩

/-- Decisions on goals under every interleaving: a goal that is current, was accepted
before it or was decided last is answered like in the call that decided it, without
`on_goal`; no goal is active while `on_goal` runs, and its decision is recorded and
answered; a goal that `GoalRequest` refuses by itself is not remembered, and unless its id
is zero it goes to `on_goal` whenever it is asked for again without an active goal. -/
theorem goal_decisions_stable (reachable : (acting ι Goal Feedback Result).Reachable server) :
    (∀ id, server.Recalls id → ∃ code, server.verdict id = some code ∧
      ∀ goal next, (acting ι Goal Feedback Result).step server (.goal id goal) next →
        next = { server with reply := some (.goal (.ofDecision id code)) }) ∧
    (∀ id goal, server.threads none = .deciding id goal → ¬server.core.header.IsActive ∧
      ∀ code next, (acting ι Goal Feedback Result).step server (.decided code) next →
        next.decisions = server.decisions ++ [(id, goal, code)] ∧
          next.reply = some (.goal (.ofDecision id code))) ∧
    ∀ id goal response next, ¬server.Recalls id →
      (acting ι Goal Feedback Result).step server (.goal id goal) next →
      next.reply = some (.goal response) →
      next = { server with reply := some (.goal response) } ∧
        (id = 0 ∧ response.resultCode = errorCode Errno.einval ∨
          id ≠ 0 ∧ response.resultCode = errorCode Errno.ebusy ∧
            ∀ labels later goal last, (acting ι Goal Feedback Result).Run next labels later →
              ¬later.Recalls id → ¬later.core.header.IsActive →
              (acting ι Goal Feedback Result).step later (.goal id goal) last →
              last.threads none = .deciding id goal) := by
  have memory := Memory.of_reachable reachable
  refine ⟨?_, ?_, ?_⟩
  · intro id recalls
    obtain ⟨code, verdict, answer⟩ := memory.screen_recalled recalls
    exact ⟨code, verdict, fun goal next step => (Effect.of_advance step).answers answer⟩
  · intro id goal deciding
    refine ⟨(memory.coherent.deciding id goal deciding).2.2.2, ?_⟩
    exact fun code next step => (Effect.of_advance step).decides deciding
  · intro id goal response next new step replied
    have later_asks : id ≠ 0 → ∀ labels later goal last,
        (acting ι Goal Feedback Result).Run next labels later → ¬later.Recalls id →
        ¬later.core.header.IsActive →
        (acting ι Goal Feedback Result).step later (.goal id goal) last →
        last.threads none = .deciding id goal := by
      intro nonzero labels later goal last run unknown inactive asked
      have answer := (Memory.of_reachable ((reachable.step step).run run)).screen_new unknown
      rw [if_neg nonzero, if_neg inactive] at answer
      exact (Effect.of_advance asked).asks answer
    have answer := memory.screen_new new
    have effect := Effect.of_advance step
    by_cases zero : id = 0
    · rw [if_pos zero] at answer
      have equal := effect.answers answer
      subst equal
      cases replied
      exact ⟨rfl, .inl ⟨zero, rfl⟩⟩
    · rw [if_neg zero] at answer
      by_cases active : server.core.header.IsActive
      · rw [if_pos active] at answer
        have equal := effect.answers answer
        subst equal
        cases replied
        exact ⟨rfl, .inr ⟨zero, rfl, later_asks zero⟩⟩
      · rw [if_neg active] at answer
        have silent : server.reply = none := by
          dsimp only [acting, advance] at step
          split at step <;> cases step
          assumption
        cases effect with
        | answered other =>
          rw [answer] at other
          cases other
        | asked => cases silent.symm.trans replied

/-- A goal is accepted, and another one is refused while it is active. -/
def repeatedRun : List (Label Unit Nat Nat Nat) :=
  [.flush (some ()), .publish (some ()) 0, .recheck (some ()), .goal 5 70, .decided 0,
    .flush none, .publish none 0, .recheck none, .replied, .goal 6 71, .replied]

theorem goal_decisions_stable_repeated : ∃ server : Server Unit Nat Nat Nat,
    (acting Unit Nat Nat Nat).Reachable server ∧ server.Recalls 5 ∧
      ∀ goal next, (acting Unit Nat Nat Nat).step server (.goal 5 goal) next →
        next.reply = some (.goal { goalId := 5, accepted := true }) := by
  have computed : (repeatedRun.foldlM advance (create ())).map
      (fun server => (server.accepted, server.verdict 5)) = some ([5], some 0) := by
    decide
  obtain ⟨server, run, fields⟩ := Option.map_eq_some_iff.mp computed
  simp only [Prod.mk.injEq] at fields
  obtain ⟨accepted, verdict⟩ := fields
  have reachable := reachable_of_advance run
  have recalls : server.Recalls 5 := .inl (by rw [accepted]; rfl)
  refine ⟨server, reachable, recalls, fun goal next step => ?_⟩
  obtain ⟨code, decided, answers⟩ := (goal_decisions_stable reachable).1 5 recalls
  rw [verdict] at decided
  cases decided
  rw [answers goal next step]
  rfl

/-- The id zero is refused with `-EINVAL` and never decided. -/
theorem zero_goal_never_decided : ∃ server next : Server Unit Nat Nat Nat,
    (acting Unit Nat Nat Nat).Reachable server ∧
      (acting Unit Nat Nat Nat).step server (.goal 0 7) next ∧
      next.reply = some (.goal { goalId := 0, resultCode := errorCode Errno.einval }) ∧
      ∀ labels later, (acting Unit Nat Nat Nat).Run next labels later →
        ∀ decision ∈ later.decisions, decision.1 ≠ 0 := by
  have reachable : (acting Unit Nat Nat Nat).Reachable (create ()) := .of_initial ⟨(), rfl⟩
  have step : (acting Unit Nat Nat Nat).step (create ()) (.goal 0 7)
      ((create ()).screenGoal 0 7) := rfl
  refine ⟨create (), _, reachable, step, rfl, fun labels later run => ?_⟩
  exact (Memory.of_reachable ((reachable.step step).run run)).nonzero

end Server

end Kcf.Action
