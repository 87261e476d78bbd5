import Kcf.Data.Counter
import Kcf.Process.Runtime

/-!
# The exit contract of a process runtime

Which callbacks of the element are called and in which order, what `Run` returns, and what
the runtime shows afterwards, for every interleaving of `Run` with the other threads.
-/

namespace Kcf.Process

open Kcf.Transition List Errno

/-! ## What a log blames -/

def setupError : Event → Option Int32
  | .setupEnded outcome => if outcome.code = 0 then none else some outcome.code
  | _ => none

def loopError : Event → Option Int32
  | .loopEnded outcome => if outcome.code = 0 then none else some outcome.code
  | _ => none

def shutdownError : Event → Option Int32
  | .shutdownEnded true => some (errorCode efault)
  | _ => none

/-- The Setup error, else the first Loop error, else the exception of Shutdown. -/
def blame (log : List Event) : Option Int32 :=
  (log.findSome? setupError).or ((log.findSome? loopError).or (log.findSome? shutdownError))

/-- What `Run` should return. -/
def verdict (reason : Int32) (log : List Event) : Int32 :=
  if reason < 0 then reason else (blame log).getD 0

/-- The Loop calls that returned `0`. -/
def cycles (log : List Event) : Nat := log.count (.loopEnded (.returned 0))

/-- No more cycles than the heartbeat can count. -/
def Countable (log : List Event) : Prop := cycles log ≤ 0xffffffffffffffff
  deriving Decidable

/-- No Loop call before Setup has returned `0`, and none after Shutdown. -/
def Ordered (log : List Event) : Prop :=
  ∀ before after, log = before ++ .loop :: after →
    .setupEnded (.returned 0) ∈ before ∧ .shutdown ∉ before

/-- Nothing has failed so far. -/
structure Blameless (log : List Event) : Prop where
  setup : log.findSome? setupError = none
  loop : log.findSome? loopError = none
  shutdown : log.findSome? shutdownError = none

variable {log : List Event} {event : Event}

theorem Ordered.snoc (ordered : Ordered log)
    (allowed : event = .loop → .setupEnded (.returned 0) ∈ log ∧ .shutdown ∉ log) :
    Ordered (log ++ [event]) := by
  intro before after split
  rcases eq_nil_or_concat after with rfl | ⟨rest, last, rfl⟩
  · obtain ⟨rfl, same⟩ := append_inj' split rfl
    exact allowed (singleton_inj.mp same)
  · rw [concat_eq_append, ← cons_append, ← append_assoc] at split
    exact ordered before rest (append_inj' split rfl).1

theorem Blameless.blame_eq (blameless : Blameless log) : blame log = none := by
  rw [blame, blameless.setup, blameless.loop, blameless.shutdown]
  rfl

theorem Blameless.snoc (blameless : Blameless log)
    (fine : Blameless [event]) : Blameless (log ++ [event]) := by
  refine ⟨?_, ?_, ?_⟩
  · rw [findSome?_append, blameless.setup, Option.none_or, fine.setup]
  · rw [findSome?_append, blameless.loop, Option.none_or, fine.loop]
  · rw [findSome?_append, blameless.shutdown, Option.none_or, fine.shutdown]

theorem blame_snoc (fine : Blameless [event]) : blame (log ++ [event]) = blame log := by
  simp only [blame, findSome?_append, fine.setup, fine.loop, fine.shutdown, Option.or_none]

theorem blame_snoc_threw (log : List Event) :
    blame (log ++ [.shutdownEnded true]) = (blame log).or (some (errorCode efault)) := by
  simp only [blame, findSome?_append, Option.or_assoc]
  rfl

theorem blame_ne_zero : blame log ≠ some 0 := by
  have apart {error : Event → Option Int32} (nonzero : ∀ event, error event ≠ some 0) :
      log.findSome? error ≠ some 0 := by
    intro found
    obtain ⟨event, _, same⟩ := exists_of_findSome?_eq_some found
    exact nonzero event same
  intro found
  rcases Option.or_eq_some_iff.mp found with setup | ⟨_, found⟩
  · refine apart ?_ setup
    rintro (_ | outcome | _ | _ | _ | _) <;> simp [setupError]
  rcases Option.or_eq_some_iff.mp found with loop | ⟨_, shutdown⟩
  · refine apart ?_ loop
    rintro (_ | _ | _ | outcome | _ | _) <;> simp [loopError]
  · refine apart ?_ shutdown
    rintro (_ | _ | _ | _ | _ | (_ | _)) <;> simp [shutdownError]; decide

theorem cycles_snoc (log : List Event) (event : Event) :
    cycles (log ++ [event]) = cycles log + if event = .loopEnded (.returned 0) then 1 else 0 := by
  rw [cycles, count_append, count_singleton]
  simp only [beq_iff_eq]
  rfl

theorem Countable.of_snoc (countable : Countable (log ++ [event])) : Countable log := by
  rw [Countable, cycles_snoc] at countable
  exact (Nat.le_add_right _ _).trans countable

/-! ## Where `Run` is in its contract -/

/-- Setup has succeeded and nothing has failed since; `pending` cycles are not counted. -/
structure Ready (log : List Event) (heartbeat : UInt64) (pending : Nat) : Prop where
  setup : .setup ∈ log
  succeeded : .setupEnded (.returned 0) ∈ log
  alive : .shutdown ∉ log
  blameless : Blameless log
  counts : Countable log → heartbeat.toNat + pending = cycles log

/-- Setup or the cycles have ended with `result`. -/
structure Ended (log : List Event) (heartbeat : UInt64) (result : Int32) : Prop where
  setup : .setup ∈ log
  alive : .shutdown ∉ log
  blamed : Countable log → (blame log).getD 0 = result
  counts : Countable log → heartbeat.toNat = cycles log

/-- The result is fixed, and Shutdown has been called `calls` times. -/
structure Judged (reason : Int32) (log : List Event) (heartbeat : UInt64) (result : Int32)
    (calls : Nat) : Prop where
  setup : .setup ∈ log
  claimed : reason ≠ 0
  shutdown : log.count .shutdown = calls
  taken : reason < 0 → result = reason
  result : Countable log → result = verdict reason log
  counts : Countable log → heartbeat.toNat = cycles log

variable {outcome : Outcome}

theorem Outcome.eq_of_code (success : outcome.code = 0) : outcome = .returned 0 := by
  cases outcome with
  | returned code => exact congrArg Outcome.returned success
  | threw => exact absurd success (by decide)

/-- Calls and successes blame nothing. -/
theorem blameless_singleton (setup : setupError event = none)
    (loop : loopError event = none) (shutdown : shutdownError event = none) :
    Blameless [event] := by
  refine ⟨?_, ?_, ?_⟩
  · rw [findSome?_singleton, setup]
  · rw [findSome?_singleton, loop]
  · rw [findSome?_singleton, shutdown]

theorem Ready.of_setup : Ready [.setup, .setupEnded (.returned 0)] 0 0 where
  setup := .head _
  succeeded := .tail _ (.head _)
  alive := by decide
  blameless := ⟨rfl, rfl, rfl⟩
  counts _ := rfl

theorem Ended.of_setup (failed : outcome.code ≠ 0) :
    Ended [.setup, .setupEnded outcome] 0 outcome.code where
  setup := .head _
  alive := by simp
  blamed _ := by simp [blame, findSome?_cons, setupError, failed]
  counts _ := by simp [cycles]

section

variable {log : List Event} {heartbeat : UInt64} {reason result : Int32}

theorem Ready.snoc (ready : Ready log heartbeat 0) (alive : .shutdown ≠ event)
    (blameless : Blameless [event]) :
    Ready (log ++ [event]) heartbeat (if event = .loopEnded (.returned 0) then 1 else 0) where
  setup := mem_append_left _ ready.setup
  succeeded := mem_append_left _ ready.succeeded
  alive := by simp [ready.alive, alive]
  blameless := ready.blameless.snoc blameless
  counts countable := by
    rw [cycles_snoc, ← ready.counts countable.of_snoc]
    rfl

theorem Ready.call (ready : Ready log heartbeat 0) : Ready (log ++ [.loop]) heartbeat 0 :=
  ready.snoc nofun (blameless_singleton rfl rfl rfl)

theorem Ready.succeed (ready : Ready log heartbeat 0) :
    Ready (log ++ [.loopEnded (.returned 0)]) heartbeat 1 :=
  ready.snoc nofun (blameless_singleton rfl rfl rfl)

theorem Ready.fail (outcome : Outcome) (ready : Ready log heartbeat 0)
    (failed : outcome.code ≠ 0) :
    Ended (log ++ [.loopEnded outcome]) heartbeat outcome.code where
  setup := mem_append_left _ ready.setup
  alive := by simp [ready.alive]
  blamed _ := by
    simp [blame, findSome?_append, ready.blameless.setup, ready.blameless.loop,
      setupError, loopError, failed]
  counts countable := by
    have other : Event.loopEnded outcome ≠ .loopEnded (.returned 0) := by
      rintro ⟨⟩
      exact failed rfl
    rw [cycles_snoc, if_neg other, ← ready.counts countable.of_snoc]
    rfl

theorem Ready.finish (ready : Ready log heartbeat 0) : Ended log heartbeat 0 where
  __ := ready
  blamed _ := by
    rw [ready.blameless.blame_eq]
    rfl

theorem Ready.beat (ready : Ready log heartbeat 1) (room : heartbeat ≠ 0xffffffffffffffff) :
    Ready log (heartbeat + 1) 0 :=
  { ready with
    counts := by
      rw [Data.UInt64.toNat_add_one room]
      exact ready.counts }

/-- A heartbeat at its end stops the cycles with an error that the log does not show. -/
theorem Ready.overflow (ready : Ready log 0xffffffffffffffff 1) :
    Ended log 0xffffffffffffffff result := by
  have many : ¬Countable log := by
    intro countable
    have counts := ready.counts countable
    rw [Countable, ← counts] at countable
    exact absurd countable (by decide)
  exact ⟨ready.setup, ready.alive, fun few => absurd few many, fun few => absurd few many⟩

theorem Ended.judge (ended : Ended log heartbeat result) (claimed : reason ≠ 0) :
    Judged reason log heartbeat (if reason < 0 then reason else result) 0 where
  setup := ended.setup
  claimed := claimed
  shutdown := count_eq_zero.mpr ended.alive
  taken negative := if_pos negative
  result countable := by rw [verdict, ended.blamed countable]
  counts := ended.counts

theorem Judged.call (judged : Judged reason log heartbeat result 0) :
    Judged reason (log ++ [.shutdown]) heartbeat result 1 where
  setup := mem_append_left _ judged.setup
  claimed := judged.claimed
  shutdown := by
    rw [count_append, judged.shutdown]
    rfl
  taken := judged.taken
  result countable := by
    rw [verdict, blame_snoc (blameless_singleton rfl rfl rfl)]
    exact judged.result countable.of_snoc
  counts countable := by
    rw [cycles_snoc, judged.counts countable.of_snoc]
    rfl

/-- An exception of Shutdown counts if there was no error before. -/
theorem verdict_threw (judged : result = verdict reason log) :
    (if result = 0 then errorCode efault else result) =
      verdict reason (log ++ [.shutdownEnded true]) := by
  subst judged
  rw [verdict, verdict, blame_snoc_threw]
  by_cases negative : reason < 0
  · rw [if_pos negative, if_pos negative, if_neg]
    rintro rfl
    exact absurd negative (by decide)
  rw [if_neg negative, if_neg negative]
  cases blamed : blame log with
  | none => rfl
  | some code =>
    refine if_neg ?_
    rintro ⟨⟩
    exact blame_ne_zero blamed

theorem Judged.close (threw : Bool) (judged : Judged reason log heartbeat result 1) :
    Judged reason (log ++ [.shutdownEnded threw]) heartbeat
      (if threw = true ∧ result = 0 then errorCode efault else result) 1 where
  setup := mem_append_left _ judged.setup
  claimed := judged.claimed
  shutdown := by
    rw [count_append, judged.shutdown]
    rfl
  taken negative := by
    rw [if_neg fun both => judged.claimed ((judged.taken negative).symm.trans both.2)]
    exact judged.taken negative
  result countable := by
    cases threw with
    | true =>
      rw [← verdict_threw (judged.result countable.of_snoc)]
      simp only [true_and]
    | false =>
      rw [if_neg (by nofun), verdict, blame_snoc (blameless_singleton rfl rfl rfl)]
      exact judged.result countable.of_snoc
  counts countable := by
    rw [cycles_snoc, judged.counts countable.of_snoc]
    rfl

end

/-- How many accesses of `Run` are left at most, if it has been stopped. -/
def Place.remaining : Place → Option Nat
  | .returned _ => some 0
  | .join _ => some 1
  | .dismiss _ => some 2
  | .stopRunning (.finalize _) => some 3
  | .requestStop (.finalize _) => some 4
  | .endState _ | .abortState _ => some 5
  | .endError _ | .abortError _ => some 6
  | .endRunning _ | .abort _ => some 7
  | .inShutdown _ _ => some 8
  | .callShutdown _ _ => some 9
  | .storeState _ _ => some 10
  | .storeError _ _ => some 11
  | .takeReason _ => some 12
  | .loadReason _ _ => some 13
  | .stopRunning (.finish _) | .stopRunning (.setup _) => some 14
  | .requestStop (.finish _) | .requestStop (.setup _) => some 15
  | .catchLoop | .cycle | .cycleRunning | .tickRunning => some 16
  | .startRunning | .announce | .stopRunning .cycle | .stopRunning .tick => some 17
  | .stopRunning .start | .requestStop .cycle | .requestStop .tick => some 18
  | .requestStop .start | .cycleSignal | .tickSignal => some 19
  | .startReason | .addHeartbeat => some 20
  | .startSignal | .loadHeartbeat => some 21
  | .inLoop => some 22
  | .callLoop => some 23
  | _ => none

/-- `Run` has yet to clear the heartbeat. -/
def Place.isNew : Place → Bool
  | .resetReason | .resetState | .resetHeartbeat => true
  | _ => false

/-- The cycles that have succeeded and are yet to be counted. -/
def Place.pending : Place → Nat
  | .loadHeartbeat | .addHeartbeat => 1
  | _ => 0

/-- Fewer than `n` accesses are left. -/
def Place.Within (place : Place) (n : Nat) : Prop := ∃ m, place.remaining = some m ∧ m < n

def Label.isRun : Label → Bool
  | .run _ => true
  | _ => false

namespace Runtime

/-- `Run` is about to return. -/
structure Final (runtime : Runtime) (result : Int32) : Prop where
  state : runtime.state = .stopped ↔ result = 0
  outcome : runtime.log = [] ∧ runtime.loopHeartbeat = 0 ∧ result ≠ 0 ∨
    Judged runtime.stopReason runtime.log runtime.loopHeartbeat result 1

/-- What holds when `Run` calls `RequestStop`. -/
def AtSite (runtime : Runtime) : Site → Prop
  | .setup error => Ended runtime.log runtime.loopHeartbeat error ∧ error ≠ 0
  | .start | .cycle | .tick => Ready runtime.log runtime.loopHeartbeat 0
  | .finish result => Ended runtime.log runtime.loopHeartbeat result
  | .finalize result => runtime.Final result

/-- What holds before the next access of `Run`. -/
def At (runtime : Runtime) : Place → Prop
  | .resetReason | .resetState | .resetHeartbeat => runtime.log = []
  | .resetError | .clearSignal | .startSupervision _ | .startWorker _ | .prepare _ | .callSetup =>
    runtime.log = [] ∧ runtime.loopHeartbeat = 0
  | .abort error | .abortError error | .abortState error =>
    runtime.log = [] ∧ runtime.loopHeartbeat = 0 ∧ error ≠ 0
  | .inSetup => runtime.log = [.setup] ∧ runtime.loopHeartbeat = 0
  | .start | .startSignal | .startReason | .startRunning | .announce | .cycle | .cycleSignal
  | .cycleRunning | .callLoop | .inLoop | .tickSignal | .tickRunning =>
    Ready runtime.log runtime.loopHeartbeat 0
  | .loadHeartbeat => Ready runtime.log runtime.loopHeartbeat 1
  | .addHeartbeat =>
    Ready runtime.log runtime.loopHeartbeat 1 ∧ runtime.loopHeartbeat ≠ 0xffffffffffffffff
  | .catchLoop => Ended runtime.log runtime.loopHeartbeat (errorCode efault)
  | .requestStop site => runtime.AtSite site
  | .stopRunning site => runtime.AtSite site ∧ runtime.stopReason ≠ 0
  | .loadReason started result =>
    Ended runtime.log runtime.loopHeartbeat result ∧ runtime.stopReason ≠ 0 ∧
      (started = false → result ≠ 0)
  | .takeReason _ =>
    (∃ result, Ended runtime.log runtime.loopHeartbeat result) ∧ runtime.stopReason < 0
  | .storeError started result | .storeState started result =>
    Judged runtime.stopReason runtime.log runtime.loopHeartbeat result 0 ∧
      (started = false → result ≠ 0)
  | .callShutdown started result =>
    Judged runtime.stopReason runtime.log runtime.loopHeartbeat result 0 ∧
      (started = false → result ≠ 0 ∧ runtime.state = .error)
  | .inShutdown started result =>
    Judged runtime.stopReason runtime.log runtime.loopHeartbeat result 1 ∧
      (started = false → result ≠ 0 ∧ runtime.state = .error)
  | .endRunning result | .endError result | .endState result =>
    Judged runtime.stopReason runtime.log runtime.loopHeartbeat result 1
  | .dismiss result | .join result | .returned result => runtime.Final result

/-- What the other threads leave to `Run`. -/
structure Keeps (runtime next : Runtime) : Prop where
  log : next.log = runtime.log
  heartbeat : next.loopHeartbeat = runtime.loopHeartbeat
  state : next.state = runtime.state
  reason : runtime.stopReason ≠ 0 → next.stopReason = runtime.stopReason
  stopped : runtime.running = false → next.running = false

section

variable {runtime next : Runtime} {label : Label}

theorem ne_zero_of_neg {code : Int32} (negative : code < 0) : code ≠ 0 := by
  rintro rfl
  exact absurd negative (by decide)

variable {result : Int32} {place : Place} {answer : Answer}

theorem Final.keeps (final : runtime.Final result) (keeps : runtime.Keeps next) :
    next.Final result := by
  obtain ⟨log, heartbeat, state, reason, _⟩ := keeps
  refine ⟨state ▸ final.state, ?_⟩
  rw [log, heartbeat]
  refine final.outcome.imp_right fun judged => ?_
  rw [reason judged.claimed]
  exact judged

theorem AtSite.keeps {site : Site} (holds : runtime.AtSite site)
    (keeps : runtime.Keeps next) : next.AtSite site := by
  cases site with
  | finalize result => exact Final.keeps holds keeps
  | setup | start | cycle | tick | finish =>
    dsimp only [AtSite]
    rw [keeps.log, keeps.heartbeat]
    exact holds

theorem At.keeps (holds : runtime.At place) (keeps : runtime.Keeps next) :
    next.At place := by
  cases place
  case requestStop site => exact AtSite.keeps holds keeps
  case stopRunning site =>
    exact ⟨AtSite.keeps holds.1 keeps, by rw [keeps.reason holds.2]; exact holds.2⟩
  case dismiss | join | returned => exact Final.keeps holds keeps
  case loadReason =>
    dsimp only [At]
    rw [keeps.log, keeps.heartbeat, keeps.reason holds.2.1]
    exact holds
  case takeReason =>
    dsimp only [At]
    rw [keeps.log, keeps.heartbeat, keeps.reason (ne_zero_of_neg holds.2)]
    exact holds
  case storeError | storeState =>
    dsimp only [At]
    rw [keeps.log, keeps.heartbeat, keeps.reason holds.1.claimed]
    exact holds
  case callShutdown | inShutdown =>
    dsimp only [At]
    rw [keeps.log, keeps.heartbeat, keeps.state, keeps.reason holds.1.claimed]
    exact holds
  case endRunning | endError | endState =>
    dsimp only [At]
    rw [keeps.log, keeps.heartbeat, keeps.reason holds.claimed]
    exact holds
  all_goals
    dsimp only [At]
    first
    | rw [keeps.log, keeps.heartbeat]
    | rw [keeps.log]
    exact holds

theorem exchange_keeps (runtime : Runtime) (value : Int32) :
    runtime.Keeps (runtime.exchange value) :=
  ⟨rfl, rfl, rfl, fun claimed => if_neg claimed, id⟩

theorem work_keeps {worker : Worker} (done : runtime.work worker = some next) :
    next.place = runtime.place ∧ runtime.Keeps next := by
  cases worker
  case latch error =>
    cases done
    exact ⟨rfl, { runtime.exchange_keeps error with }⟩
  case stopRunning =>
    cases done
    exact ⟨rfl, rfl, rfl, rfl, fun _ => rfl, fun _ => rfl⟩
  all_goals
    cases done
    try exact ⟨rfl, rfl, rfl, rfl, fun _ => rfl, id⟩

/-- Only `Run` itself makes progress. -/
theorem advance_keeps (done : runtime.advance label = some next)
    (other : ∀ answer, label ≠ .run answer) :
    next.place = runtime.place ∧ runtime.Keeps next := by
  cases label with
  | run answer => exact absurd rfl (other answer)
  | signal =>
    cases done
    exact ⟨rfl, rfl, rfl, rfl, fun _ => rfl, id⟩
  | requestStop =>
    cases done
    exact ⟨rfl, { runtime.exchange_keeps 1 with }⟩
  | stopRunning =>
    obtain ⟨_, ⟨⟩⟩ := Option.ite_none_left_eq_some.mp done
    exact ⟨rfl, rfl, rfl, rfl, fun _ => rfl, fun _ => rfl⟩
  | lost loss =>
    obtain ⟨_, ⟨⟩⟩ := Option.ite_none_right_eq_some.mp done
    exact ⟨rfl, rfl, rfl, rfl, fun _ => rfl, id⟩
  | work => exact work_keeps done

theorem exchange_ne_zero {value : Int32} (nonzero : value ≠ 0) :
    (runtime.exchange value).stopReason ≠ 0 := by
  dsimp only [exchange]
  split
  · exact nonzero
  · assumption

/-- What holds after `RequestStop`. -/
theorem AtSite.leave {site : Site} (holds : runtime.AtSite site)
    (claimed : runtime.stopReason ≠ 0) : runtime.At site.next := by
  cases site with
  | setup error => exact ⟨holds.1, claimed, fun _ => holds.2⟩
  | finish result => exact ⟨holds, claimed, nofun⟩
  | start | cycle | tick | finalize => exact holds

theorem At.ite {condition : Prop} [Decidable condition] {first second : Place}
    (yes : condition → runtime.At first) (no : ¬condition → runtime.At second) :
    runtime.At (if condition then first else second) := by
  split
  · exact yes ‹_›
  · exact no ‹_›

/-- The Setup of the element ends. -/
theorem at_setupEnded (holds : runtime.At .inSetup) :
    At { runtime with log := runtime.log ++ [.setupEnded outcome], place }
      (if outcome.code = 0 then .start else .requestStop (.setup outcome.code)) := by
  obtain ⟨log, heartbeat⟩ := holds
  rw [log]
  refine At.ite (fun success => ?_) (fun failed => ?_)
  · obtain rfl := Outcome.eq_of_code success
    change Ready _ runtime.loopHeartbeat 0
    rw [heartbeat]
    exact .of_setup
  · change Ended _ runtime.loopHeartbeat _ ∧ _
    rw [heartbeat]
    exact ⟨.of_setup failed, failed⟩

/-- The Loop of the element ends. -/
theorem at_loopEnded (holds : runtime.At .inLoop) :
    At { runtime with log := runtime.log ++ [.loopEnded outcome], place }
      (match outcome with
      | .returned code => if code = 0 then .loadHeartbeat else .requestStop (.finish code)
      | .threw => .catchLoop) := by
  cases outcome with
  | returned code =>
    refine At.ite (fun success => ?_) (fun failed => ?_)
    · subst success
      exact Ready.succeed holds
    · exact Ready.fail (.returned code) holds failed
  | threw => exact Ready.fail .threw holds (by decide)

/-- The Shutdown of the element ends. -/
theorem at_shutdownEnded {started threw : Bool} (holds : runtime.At (.inShutdown started result)) :
    At { runtime with log := runtime.log ++ [.shutdownEnded threw], place }
      (if started = false then .requestStop (.finalize result)
      else if threw = true ∧ result = 0 then .endRunning (errorCode efault)
      else .endRunning result) := by
  have closed := holds.1.close threw
  refine At.ite (fun unstarted => ?_) (fun _ => ?_)
  · obtain ⟨failed, state⟩ := holds.2 unstarted
    rw [if_neg fun both => failed both.2] at closed
    refine ⟨?_, .inr closed⟩
    change runtime.state = _ ↔ _
    rw [state]
    exact ⟨nofun, fun success => absurd success failed⟩
  · rw [← apply_ite Place.endRunning]
    exact closed

theorem access_at (holds : runtime.At place) (done : runtime.access place answer = some next) :
    next.At next.place := by
  cases place <;> cases answer
  case join.nothing =>
    obtain ⟨_, ⟨⟩⟩ := Option.ite_none_right_eq_some.mp done
    exact ⟨holds.state, holds.outcome⟩
  all_goals cases done
  case resetHeartbeat.nothing => exact ⟨holds, rfl⟩
  case resetReason.nothing | resetState.nothing | resetError.nothing | clearSignal.code
      | startSupervision.code | startSupervision.accepted | startWorker.accepted | startWorker.code
      | abort.nothing | abortError.nothing | start.nothing | announce.nothing
      | endRunning.nothing | endError.nothing | storeError.nothing | catchLoop.nothing =>
    exact holds
  case prepare.code => exact At.ite (fun _ => holds) (fun failed => ⟨holds.1, holds.2, failed⟩)
  case abortState.nothing => exact ⟨⟨nofun, fun success => absurd success holds.2.2⟩, .inl holds⟩
  case callSetup.nothing => exact ⟨congrArg (· ++ [.setup]) holds.1, holds.2⟩
  case inSetup.outcome => exact at_setupEnded holds
  case startSignal.nothing | startReason.nothing | startRunning.nothing | cycleSignal.nothing
      | tickSignal.nothing =>
    exact At.ite (fun _ => holds) (fun _ => holds)
  case cycle.nothing | cycleRunning.nothing | tickRunning.nothing =>
    exact At.ite (fun _ => holds) (fun _ => Ready.finish holds)
  case callLoop.nothing => exact Ready.call holds
  case inLoop.outcome => exact at_loopEnded holds
  case loadHeartbeat.nothing =>
    refine At.ite (fun full => ?_) (fun room => ⟨holds, room⟩)
    change Ended runtime.log runtime.loopHeartbeat _
    change Ready runtime.log runtime.loopHeartbeat 1 at holds
    rw [full] at holds ⊢
    exact holds.overflow
  case addHeartbeat.nothing => exact holds.1.beat holds.2
  case requestStop.nothing site =>
    refine ⟨AtSite.keeps holds { runtime.exchange_keeps 1 with }, ?_⟩
    exact exchange_ne_zero (by decide)
  case stopRunning.nothing site =>
    exact AtSite.leave (AtSite.keeps holds.1 ⟨rfl, rfl, rfl, fun _ => rfl, fun _ => rfl⟩) holds.2
  case loadReason.nothing started result =>
    have judged := holds.1.judge holds.2.1
    refine At.ite (fun negative => ⟨⟨_, holds.1⟩, negative⟩) (fun fine => ?_)
    rw [if_neg fine] at judged
    exact ⟨judged, holds.2.2⟩
  case takeReason.nothing started =>
    obtain ⟨⟨result, ended⟩, negative⟩ := holds
    have judged := ended.judge (ne_zero_of_neg negative)
    rw [if_pos negative] at judged
    exact ⟨judged, fun _ => ne_zero_of_neg negative⟩
  case storeState.nothing started result =>
    refine ⟨holds.1, fun unstarted => ⟨holds.2 unstarted, ?_⟩⟩
    subst unstarted
    rfl
  case callShutdown.nothing => exact ⟨holds.1.call, holds.2⟩
  case inShutdown.ended => exact at_shutdownEnded holds
  case endState.nothing result =>
    refine ⟨?_, .inr holds⟩
    dsimp only
    split
    · exact ⟨fun _ => ‹_›, fun _ => rfl⟩
    · exact ⟨nofun, fun success => absurd success ‹_›⟩
  case dismiss.nothing => exact ⟨holds.state, holds.outcome⟩

theorem access_log (done : runtime.access place answer = some next) :
    next.log = runtime.log ∨
      ∃ event, next.log = runtime.log ++ [event] ∧ (event = .loop → place = .callLoop) := by
  cases place <;> cases answer
  case join.nothing =>
    obtain ⟨_, ⟨⟩⟩ := Option.ite_none_right_eq_some.mp done
    exact .inl rfl
  all_goals cases done
  case callSetup.nothing | inSetup.outcome | inLoop.outcome | callShutdown.nothing
      | inShutdown.ended => exact .inr ⟨_, rfl, nofun⟩
  case callLoop.nothing => exact .inr ⟨_, rfl, fun _ => rfl⟩
  all_goals exact .inl rfl

/-- What holds between any two steps. -/
def Sound (runtime : Runtime) : Prop := Ordered runtime.log ∧ runtime.At runtime.place

theorem Sound.access (sound : runtime.Sound)
    (done : runtime.access runtime.place answer = some next) : next.Sound := by
  obtain ⟨ordered, holds⟩ := sound
  refine ⟨?_, access_at holds done⟩
  rcases access_log done with same | ⟨event, more, loop⟩
  · rwa [same]
  · rw [more]
    refine ordered.snoc fun isLoop => ?_
    rw [loop isLoop] at holds
    exact ⟨holds.succeeded, holds.alive⟩

theorem Sound.of_reachable (reachable : executing.Reachable runtime) : runtime.Sound := by
  refine reachable.invariant ?_ ?_
  · intro runtime called
    unfold Sound
    rw [called.place, called.log]
    exact ⟨fun before after split => absurd split (by simp), called.log⟩
  · intro runtime label next done sound
    by_cases own : ∃ answer, label = .run answer
    · obtain ⟨answer, rfl⟩ := own
      exact sound.access done
    · obtain ⟨place, keeps⟩ := advance_keeps done (not_exists.mp own)
      obtain ⟨ordered, holds⟩ := sound
      unfold Sound
      rw [place]
      exact ⟨keeps.log ▸ ordered, holds.keeps keeps⟩

/-! ## The latch -/

theorem ite_ne {condition : Prop} [Decidable condition] {first second third : Place}
    (yes : first ≠ third) (no : second ≠ third) :
    (if condition then first else second) ≠ third := by
  split
  · exact yes
  · exact no

theorem access_latched (begun : place ≠ .resetReason)
    (done : runtime.access place answer = some next) :
    next.place ≠ .resetReason ∧
      (runtime.stopReason ≠ 0 → next.stopReason = runtime.stopReason) := by
  cases place <;> cases answer
  case resetReason.nothing => exact absurd rfl begun
  case join.nothing =>
    obtain ⟨_, ⟨⟩⟩ := Option.ite_none_right_eq_some.mp done
    exact ⟨nofun, fun _ => rfl⟩
  all_goals cases done
  case requestStop.nothing => exact ⟨nofun, (runtime.exchange_keeps 1).reason⟩
  case stopRunning.nothing site => cases site <;> exact ⟨nofun, fun _ => rfl⟩
  case prepare.code | startSignal.nothing | startReason.nothing | startRunning.nothing
      | cycle.nothing | cycleSignal.nothing | cycleRunning.nothing | loadHeartbeat.nothing
      | tickSignal.nothing | tickRunning.nothing | loadReason.nothing | inSetup.outcome =>
    exact ⟨ite_ne nofun nofun, fun _ => rfl⟩
  case inLoop.outcome outcome =>
    refine ⟨?_, fun _ => rfl⟩
    cases outcome with
    | returned code => exact ite_ne nofun nofun
    | threw => nofun
  case inShutdown.ended => exact ⟨ite_ne nofun (ite_ne nofun nofun), fun _ => rfl⟩
  all_goals exact ⟨nofun, fun _ => rfl⟩

theorem advance_latched (begun : runtime.place ≠ .resetReason)
    (done : runtime.advance label = some next) :
    next.place ≠ .resetReason ∧
      (runtime.stopReason ≠ 0 → next.stopReason = runtime.stopReason) := by
  by_cases own : ∃ answer, label = .run answer
  · obtain ⟨answer, rfl⟩ := own
    exact access_latched begun done
  · obtain ⟨place, keeps⟩ := advance_keeps done (not_exists.mp own)
    exact ⟨place ▸ begun, keeps.reason⟩

/-- The reason for a stop never changes while `Run` goes on. -/
theorem latched_run {labels : List Label} {later : Runtime}
    (run : executing.Run runtime labels later) (begun : runtime.place ≠ .resetReason)
    (claimed : runtime.stopReason ≠ 0) : later.stopReason = runtime.stopReason := by
  have preserves : executing.Preserves fun state =>
      state.place ≠ .resetReason ∧ state.stopReason = runtime.stopReason := by
    rintro state label next done ⟨begun, same⟩
    obtain ⟨begun', latched⟩ := advance_latched begun done
    exact ⟨begun', (latched (same ▸ claimed)).trans same⟩
  exact (run.invariant preserves ⟨begun, rfl⟩).2

/-! ## Progress -/

theorem within_ite {condition : Prop} [Decidable condition] {first second : Place} {n : Nat}
    (yes : condition → first.Within n) (no : ¬condition → second.Within n) :
    (if condition then first else second).Within n := by
  split
  · exact yes ‹_›
  · exact no ‹_›

/-- Every access brings a stopped `Run` closer to its end. -/
theorem access_within {n : Nat}
    (stopped : runtime.running = false) (bound : place.remaining = some n)
    (done : runtime.access place answer = some next) :
    next.running = false ∧ next.place.Within n := by
  have halted : ¬runtime.running = true := by
    rw [stopped]
    nofun
  cases place <;> cases answer
  case join.nothing =>
    cases bound
    obtain ⟨_, ⟨⟩⟩ := Option.ite_none_right_eq_some.mp done
    exact ⟨stopped, 0, rfl, by decide⟩
  all_goals cases done
  case requestStop.nothing site => cases site <;> cases bound <;> exact ⟨stopped, _, rfl, by decide⟩
  case stopRunning.nothing site => cases site <;> cases bound <;> exact ⟨rfl, _, rfl, by decide⟩
  all_goals cases bound
  case startSignal.nothing | startReason.nothing | cycleSignal.nothing | loadHeartbeat.nothing
      | tickSignal.nothing | loadReason.nothing =>
    exact ⟨stopped, within_ite (fun _ => ⟨_, rfl, by decide⟩) (fun _ => ⟨_, rfl, by decide⟩)⟩
  case startRunning.nothing | cycle.nothing | cycleRunning.nothing | tickRunning.nothing =>
    exact ⟨stopped, within_ite (fun runs => absurd runs halted) (fun _ => ⟨_, rfl, by decide⟩)⟩
  case inLoop.outcome outcome =>
    refine ⟨stopped, ?_⟩
    cases outcome with
    | returned code =>
      exact within_ite (fun _ => ⟨_, rfl, by decide⟩) (fun _ => ⟨_, rfl, by decide⟩)
    | threw => exact ⟨_, rfl, by decide⟩
  case inShutdown.ended =>
    refine ⟨stopped, within_ite (fun _ => ⟨_, rfl, by decide⟩) (fun _ => ?_)⟩
    exact within_ite (fun _ => ⟨_, rfl, by decide⟩) (fun _ => ⟨_, rfl, by decide⟩)
  case abort.nothing | catchLoop.nothing | endRunning.nothing => exact ⟨rfl, _, rfl, by decide⟩
  all_goals exact ⟨stopped, _, rfl, by decide⟩

/-- A stopped `Run` makes at most as many accesses as are left. -/
theorem run_within {labels : List Label} {later : Runtime} {n : Nat}
    (run : executing.Run runtime labels later) (stopped : runtime.running = false)
    (bound : runtime.place.remaining = some n) :
    later.running = false ∧
      ∃ m, later.place.remaining = some m ∧ labels.countP Label.isRun + m ≤ n := by
  induction run with
  | nil => exact ⟨stopped, n, bound, Nat.le_of_eq (Nat.zero_add n)⟩
  | @snoc middle next labels label _ step ih =>
    obtain ⟨stopped, m, bound, counted⟩ := ih
    rw [countP_append, countP_singleton]
    by_cases own : ∃ answer, label = .run answer
    · obtain ⟨answer, rfl⟩ := own
      obtain ⟨stopped, fewer, bound, less⟩ := access_within stopped bound step
      refine ⟨stopped, fewer, bound, ?_⟩
      simp only [Label.isRun, if_true]
      omega
    · have other := not_exists.mp own
      obtain ⟨place, keeps⟩ := advance_keeps step other
      refine ⟨keeps.stopped stopped, m, ?_, ?_⟩
      · rw [place]
        exact bound
      · cases label <;> first | exact absurd rfl (other _) | exact counted

/-- `Run` can go on, or it waits for the worker, which can go on. -/
theorem not_stuck (unfinished : ∀ result, runtime.place ≠ .returned result) :
    ∃ label, (label.isRun = true ∨ label = .work) ∧ (runtime.advance label).isSome = true := by
  cases place : runtime.place
  case returned result => exact absurd place (unfinished result)
  case join result =>
    cases worker : runtime.worker
    case absent | ended =>
      refine ⟨.run .nothing, .inl rfl, ?_⟩
      rw [advance, place]
      change (if runtime.worker = .absent ∨ runtime.worker = .ended then _ else none).isSome = _
      rw [worker]
      rfl
    all_goals
      refine ⟨.work, .inr rfl, ?_⟩
      rw [advance, worker]
      rfl
  case clearSignal | startSupervision | startWorker | prepare =>
    refine ⟨.run (.code 0), .inl rfl, ?_⟩
    rw [advance, place]
    rfl
  case inSetup | inLoop =>
    refine ⟨.run (.outcome .threw), .inl rfl, ?_⟩
    rw [advance, place]
    rfl
  case inShutdown =>
    refine ⟨.run (.ended false), .inl rfl, ?_⟩
    rw [advance, place]
    rfl
  all_goals
    refine ⟨.run .nothing, .inl rfl, ?_⟩
    rw [advance, place]
    rfl

/-! ## The contract -/

/-- Shutdown is called once at most, after Setup, and cycles are counted. -/
structure Tidy (runtime : Runtime) (place : Place) : Prop where
  once : runtime.log.count .shutdown ≤ 1
  after : .shutdown ∈ runtime.log → .setup ∈ runtime.log
  counts : place.isNew = false → Countable runtime.log →
    runtime.loopHeartbeat.toNat + place.pending = cycles runtime.log

theorem Tidy.of_alive (alive : .shutdown ∉ runtime.log)
    (counts : place.isNew = false → Countable runtime.log →
      runtime.loopHeartbeat.toNat + place.pending = cycles runtime.log) :
    runtime.Tidy place :=
  ⟨by rw [count_eq_zero.mpr alive]; decide, fun called => absurd called alive, counts⟩

theorem Tidy.of_silent (log : runtime.log = [])
    (heartbeat : place.isNew = false → runtime.loopHeartbeat = 0) (settled : place.pending = 0) :
    runtime.Tidy place := by
  refine .of_alive ?_ fun counted _ => ?_
  · rw [log]
    exact not_mem_nil
  · rw [log, settled, heartbeat counted]
    rfl

theorem Tidy.of_judged {reason result : Int32} {calls : Nat} (few : calls ≤ 1)
    (judged : Judged reason runtime.log runtime.loopHeartbeat result calls)
    (settled : place.pending = 0) : runtime.Tidy place := by
  refine ⟨judged.shutdown ▸ few, fun _ => judged.setup, fun _ => ?_⟩
  rw [settled]
  exact judged.counts

theorem Final.tidy (final : runtime.Final result) (settled : place.pending = 0) :
    runtime.Tidy place := by
  rcases final.outcome with ⟨log, heartbeat, _⟩ | judged
  · exact .of_silent log (fun _ => heartbeat) settled
  · exact .of_judged (by decide) judged settled

theorem At.tidy (holds : runtime.At place) : runtime.Tidy place := by
  cases place
  case resetReason | resetState | resetHeartbeat => exact .of_silent holds nofun rfl
  case resetError | clearSignal | startSupervision | startWorker | prepare | callSetup =>
    exact .of_silent holds.1 (fun _ => holds.2) rfl
  case abort | abortError | abortState => exact .of_silent holds.1 (fun _ => holds.2.1) rfl
  case inSetup =>
    refine .of_alive ?_ fun _ _ => ?_
    · rw [holds.1]
      decide
    · rw [holds.1, holds.2]
      rfl
  case addHeartbeat => exact .of_alive holds.1.alive fun _ => holds.1.counts
  case requestStop site =>
    cases site with
    | finalize result => exact Final.tidy holds rfl
    | setup error => exact .of_alive holds.1.alive fun _ => holds.1.counts
    | start | cycle | tick | finish => exact .of_alive holds.alive fun _ => holds.counts
  case stopRunning site =>
    cases site with
    | finalize result => exact Final.tidy holds.1 rfl
    | setup error => exact .of_alive holds.1.1.alive fun _ => holds.1.1.counts
    | start | cycle | tick | finish => exact .of_alive holds.1.alive fun _ => holds.1.counts
  case loadReason => exact .of_alive holds.1.alive fun _ => holds.1.counts
  case takeReason =>
    obtain ⟨⟨result, ended⟩, _⟩ := holds
    exact .of_alive ended.alive fun _ => ended.counts
  case storeError | storeState | callShutdown => exact .of_judged (by decide) holds.1 rfl
  case inShutdown => exact .of_judged (by decide) holds.1 rfl
  case endRunning | endError | endState => exact .of_judged (by decide) holds rfl
  case dismiss | join | returned => exact Final.tidy holds rfl
  all_goals exact .of_alive holds.alive fun _ => holds.counts

theorem Final.getState (final : runtime.Final result) :
    runtime.getState = .stopped ↔ result = 0 := by
  rw [Runtime.getState]
  by_cases negative : runtime.stopReason < 0
  · have failed : result ≠ 0 := by
      rcases final.outcome with ⟨_, _, failed⟩ | judged
      · exact failed
      · rw [judged.taken negative]
        exact ne_zero_of_neg negative
    rw [if_pos negative]
    exact ⟨nofun, fun success => absurd success failed⟩
  · rw [if_neg negative]
    exact final.state

theorem Final.shutdown (final : runtime.Final result) :
    runtime.log.count .shutdown = if .setup ∈ runtime.log then 1 else 0 := by
  rcases final.outcome with ⟨log, _⟩ | judged
  · rw [log]
    rfl
  · rw [if_pos judged.setup]
    exact judged.shutdown

/-- Shutdown is called exactly once if Setup was, Loop only in between; a reason to stop is
latched; what `Run` returns is the verdict on its run, which `GetState` and the heartbeat
agree with; and `Run` returns once it has been stopped, if the element does.  Only the count
of cycles, and a verdict without a negative reason, depend on the range of the heartbeat. -/
theorem exit_contract (reachable : executing.Reachable runtime) :
    Ordered runtime.log ∧ runtime.Tidy runtime.place ∧
      (∀ earlier labels, executing.Run earlier labels runtime → earlier.place ≠ .resetReason →
        earlier.stopReason ≠ 0 → runtime.stopReason = earlier.stopReason) ∧
      (∀ result, runtime.place = .returned result →
        runtime.log.count .shutdown = (if .setup ∈ runtime.log then 1 else 0) ∧
          (.setup ∈ runtime.log → (runtime.stopReason < 0 → result = runtime.stopReason) ∧
            (Countable runtime.log → result = verdict runtime.stopReason runtime.log)) ∧
          (runtime.getState = .stopped ↔ result = 0)) ∧
      ((∀ result, runtime.place ≠ .returned result) →
        ∃ label, (label.isRun = true ∨ label = .work) ∧
          (runtime.advance label).isSome = true) ∧
      ∀ labels later n, executing.Run runtime labels later → runtime.running = false →
        runtime.place.remaining = some n → labels.countP Label.isRun ≤ n := by
  obtain ⟨ordered, holds⟩ := Sound.of_reachable reachable
  refine ⟨ordered, holds.tidy, ?_, ?_, not_stuck, ?_⟩
  · intro earlier labels run begun claimed
    exact latched_run run begun claimed
  · intro result returned
    rw [returned] at holds
    refine ⟨holds.shutdown, fun entered => ?_, holds.getState⟩
    rcases holds.outcome with ⟨log, _⟩ | judged
    · rw [log] at entered
      cases entered
    · exact ⟨judged.taken, judged.result⟩
  · intro labels later n run stopped bound
    obtain ⟨_, m, _, counted⟩ := run_within run stopped bound
    exact (Nat.le_add_right _ m).trans counted

end

/-- A process whose supervisor is lost while it is in its first cycle. -/
def lostStart : Runtime where
  stopRequested := false
  stopReason := 1
  running := false
  state := .stopped
  loopHeartbeat := 4
  runtimeError := 0
  supervisionRunning := false
  profileError := 0
  lockMemory := false

def lostRun : List Label :=
  flatten
    [replicate 4 (.run .nothing),
      [.run (.code 0), .run .accepted, .run .accepted, .run (.code 0), .run .nothing,
        .run (.outcome (.returned 0))],
      replicate 9 (.run .nothing),
      [.lost .timeout, .work, .work, .work, .run (.outcome (.returned 0)), .run .nothing,
        .run .nothing, .work, .work, .work],
      replicate 9 (.run .nothing), [.run (.ended false)], replicate 7 (.run .nothing)]

theorem exit_contract_lost : ∃ runtime : Runtime, executing.Reachable runtime ∧
    runtime.place = .returned (errorCode etimedout) ∧
    runtime.log = [.setup, .setupEnded (.returned 0), .loop, .loopEnded (.returned 0), .shutdown,
      .shutdownEnded false] ∧
    runtime.getState ≠ .stopped ∧ runtime.loopHeartbeat.toNat = 1 ∧
    verdict runtime.stopReason runtime.log = errorCode etimedout := by
  have computed : (lostRun.foldlM advance lostStart).map
      (fun runtime => (runtime.place, runtime.log)) =
      some (.returned (errorCode etimedout), [.setup, .setupEnded (.returned 0), .loop,
        .loopEnded (.returned 0), .shutdown, .shutdownEnded false]) := by
    rfl
  obtain ⟨runtime, run, same⟩ := Option.map_eq_some_iff.mp computed
  obtain ⟨place, log⟩ := Prod.mk.inj same
  have reachable : executing.Reachable runtime :=
    ⟨lostStart, lostRun, ⟨rfl, rfl, rfl⟩, .of_foldlM (fun _ _ _ done => done) run⟩
  have few : Countable runtime.log := by
    rw [log]
    decide
  obtain ⟨_, tidy, _, returned, _⟩ := exit_contract reachable
  obtain ⟨_, result, state⟩ := returned _ place
  have entered : Event.setup ∈ runtime.log := by
    rw [log]
    exact .head _
  refine ⟨runtime, reachable, place, log, ?_, ?_, ((result entered).2 few).symm⟩
  · rw [Ne, state]
    decide
  · have counts := tidy.counts
    rw [place, log] at counts
    exact counts rfl (by decide)

end Runtime

end Kcf.Process
