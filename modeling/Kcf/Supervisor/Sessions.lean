import Kcf.Supervisor.Lifetime

/-!
# Sessions of a supervisor

An application calls `Setup`, `Run` and `Shutdown` in any order while other threads request
resets and shutdowns and signals arrive.  The results of the earlier modules hold in every
state that a session reaches, also in the middle of a call.
-/

namespace Kcf.Supervisor

open Kcf.Program Kcf.Transition List

/-! ## Calls -/

/-- What the application calls; between its calls, others may act. -/
inductive Call where
  | setup (specs : List ElementSpec)
  | run
  | shutdown
  | others

def Call.program : Call → Act Unit
  | .setup specs => do let _ ← Supervisor.setup specs
  | .run => do let _ ← Supervisor.run
  | .shutdown => Supervisor.shutdown
  | .others => interfere

/-- A call with the inputs that it gets, followed for `fuel` rounds of each loop. -/
structure Order where
  call : Call
  inputs : List Input
  fuel : Nat := 0

/-- A supervisor between two calls, or in a call that is followed no further. -/
inductive Session where
  | idle (world : World)
  | cut (world : World)

namespace Session

def world : Session → World
  | .idle world | .cut world => world

/-- A call runs to its end, or until it is cut off. -/
def advance : Session → Order → Option Session
  | .idle world, order =>
    match order.call.program { world with inputs := order.inputs, fuel := order.fuel } with
    | .ok _ next => some (.idle next)
    | .error _ next => some (.cut next)
  | .cut _, _ => none

/-- What holds after a call that runs to its end or is cut off. -/
def Holds (cut post : World → Prop) : Session → Prop
  | .idle world => post world
  | .cut world => cut world

end Session

/-- The sessions of a new supervisor, with fewer than `2^64 - 1` status polls. -/
def supervising : System Session Order where
  initial session := ∃ polls stopRequested, polls < 0xffffffffffffffff ∧
    session = .idle { polls, stopRequested }
  step session order next := session.advance order = some next

section

variable {session next : Session} {order : Order} {world : World}

theorem Session.Holds.advance (order : Order) {cut post : World → Prop}
    (holds : wp cut order.call.program (fun _ => post)
      { world with inputs := order.inputs, fuel := order.fuel }) :
    ∃ next, (Session.idle world).advance order = some next ∧ next.Holds cut post := by
  unfold wp at holds
  dsimp only [Session.advance]
  cases run : order.call.program { world with inputs := order.inputs, fuel := order.fuel } with
  | ok value later =>
    rw [run] at holds
    exact ⟨.idle later, rfl, holds⟩
  | error e later =>
    rw [run] at holds
    exact ⟨.cut later, rfl, holds⟩

theorem Rested.initial (polls : Nat) (stopRequested : Bool) (few : polls < 0xffffffffffffffff) :
    Rested { polls, stopRequested } := by
  have orderly : Orderly .initializing false [] .closed
      (stopRequested = true ∨ false = true) (0 + polls) [] := by
    constructor
    case conduct => exact .nil
    case current => rfl
    case requested => rintro (ended | ended) <;> cases ended
    case quiet => exact fun _ _ member => absurd member not_mem_nil
    case window => exact fun unclosed => absurd rfl unclosed
    case balanced => rfl
    case polls => omega
  have custody : Custody none [] 0 [] := by
    constructor
    case care => exact .nil
    case young => exact fun _ _ forked => absurd forked not_mem_nil
    case known => exact fun _ _ => Or.rec (absurd · not_mem_nil) (absurd · not_mem_nil)
    case kept => exact fun _ _ forked => absurd forked not_mem_nil
    case owned => intro _ _ found; cases found
    case ended => intro _ _ found; cases found
  refine ⟨⟨⟨orderly, custody⟩, fun unclosed => absurd rfl unclosed, rfl⟩, fun _ _ _ => ?_, ?_⟩
  · exact not_mem_nil
  · intro ended
    cases ended

/-- Every call keeps to the laws, and can be followed by any other. -/
theorem wp_program (rested : Rested world) (call : Call) :
    wp Decent call.program (fun _ => Rested) world := by
  cases call with
  | setup specs => exact wp_bind ((wp_setup rested).mono fun _ _ rested => wp_pure rested)
  | run => exact wp_bind ((wp_run rested).mono fun _ _ rested => wp_pure rested)
  | shutdown =>
    exact wp_shutdown rested.toSound rested.stopped fun _ sound finished setup =>
      .of_isOver sound finished setup
  | others =>
    refine wp_interfere rested.toSound fun later sound tended own => ⟨sound, ?_, ?_⟩
    · intro state i g forked
      exact rested.unborn (own ▸ state) i g (tended.forks i g forked)
    · rw [own]
      exact rested.stopped

theorem holds_step (step : session.advance order = some next)
    (holds : session.Holds Decent Rested) : next.Holds Decent Rested := by
  cases session with
  | cut world => cases step
  | idle world =>
    have rested : Rested { world with inputs := order.inputs, fuel := order.fuel } :=
      ⟨⟨⟨holds.orderly, holds.custody⟩, holds.settled, holds.fits⟩, holds.unborn,
        holds.stopped⟩
    obtain ⟨later, done, holds⟩ := Session.Holds.advance order (wp_program rested order.call)
    cases step.symm.trans done
    exact holds

theorem holds_of_reachable (reachable : supervising.Reachable session) :
    session.Holds Decent Rested := by
  refine reachable.invariant ?_ fun _ _ _ => holds_step
  rintro _ ⟨polls, stopRequested, few, rfl⟩
  exact .initial polls stopRequested few

theorem decent_of_reachable (reachable : supervising.Reachable session) : Decent session.world := by
  have holds := holds_of_reachable reachable
  cases session with
  | idle world => exact Sound.decent holds.toSound
  | cut world => exact holds

end

/-! ## A session -/

namespace Press

def again : Failure := ⟨errorCode Errno.eagain, by decide⟩

/-- The element says that it runs. -/
def response (requestId : UInt64) (pid : Int32) : Received :=
  .response
    { magic := 0x4b435253, protocolVersion := 1, packetType := 2, requestId, pid, state := 2
      reserved := [0, 0, 0], loopHeartbeat := requestId, runtimeError := 0, reserved1 := 0 }

/-- `ShutdownRequested` finds nothing, or others do nothing in `SetApplicationState`. -/
def quiet : List Input := [.others [], .others []]

/-- The element is started and answers the first status request. -/
def start (pid : { pid : Int32 // 0 < pid }) : List Input :=
  quiet ++ [.launch (.started pid), .time 0, .result none, .time 0] ++ quiet ++
    [.result none, .received (response 1 pid), .time 0, .received (.failed again),
      .wait .running, .time 0] ++ quiet ++ quiet

/-- One element is brought up. -/
def setup : Order where
  call := .setup [{ name := "press", executable := "press" }]
  inputs :=
    [.others [], .result none, .result none, .result none] ++ start ⟨7, by decide⟩ ++ quiet ++
      [.result none]
  fuel := 1

/-- The element exits, and is reset; a signal ends the second generation. -/
def run : Order where
  call := .run
  inputs :=
    quiet ++ [.others [], .time 1, .result none, .received (.failed again)] ++ quiet ++
      [.wait (.collected (.exited 1))] ++ quiet ++ [.time 1] ++ quiet ++ [.result none] ++ quiet ++
      [.result none] ++
    quiet ++ [.others [.requestReset, .exchange]] ++ quiet ++ [.result none, .time 2, .time 2] ++
      quiet ++ quiet ++ start ⟨8, by decide⟩ ++ quiet ++ [.result none, .others [.signal]] ++
    [.others []] ++ quiet ++ [.result none, .time 3, .wait .running, .wait .running,
      .result none, .time 3, .others [], .wait (.collected (.signaled 15))] ++ quiet ++
      [.result none, .result none, .result none, .result none, .result none]
  fuel := 3

end Press

/-- What is seen at the end of the session. -/
theorem reachable_press {γ : Type} (observe : World → γ) (seen : γ)
    (computed : ([Press.setup, Press.run].foldlM Session.advance (.idle { polls := 9 })).map
      (fun session => observe session.world) = some seen) :
    ∃ session, supervising.Reachable session ∧ observe session.world = seen := by
  obtain ⟨session, run, same⟩ := Option.map_eq_some_iff.mp computed
  exact ⟨session, ⟨.idle { polls := 9 }, _, ⟨9, false, by decide, rfl⟩,
    .of_foldlM (fun _ _ _ done => done) run⟩, same⟩

/-! ## The state machine -/

theorem stopped_of_current {trace : List Event} (stopped : current trace = .stopped) :
    .state .stopped ∈ trace := by
  unfold current at stopped
  cases entered : (states trace).getLast? with
  | none =>
    rw [getLast?_eq_none_iff] at entered
    rw [entered] at stopped
    cases stopped
  | some state =>
    rw [getLastD_eq_getLast?, entered] at stopped
    cases stopped
    obtain ⟨event, member, same⟩ := mem_filterMap.mp (mem_of_getLast? entered)
    cases event with
    | state entered => cases same; exact member
    | _ => cases same

theorem edge_of_moves {before after : ApplicationState} (move : moves before after = true)
    (running : before ≠ .stopped) : edge before after = true := by
  unfold moves at move
  simpa [running] using move

/-- The state machine of a supervisor, in every session and wherever it is cut off. -/
theorem state_machine {session : Session} (reachable : supervising.Reachable session) :
    current session.world.trace = session.world.own.state ∧
    (∀ before state after, session.world.trace = before ++ .state state :: after →
      .state .stopped ∉ before → edge (current before) state = true) ∧
    (∀ snapshot, .status snapshot ∈ session.world.trace →
      (snapshot.state = .error ∨ snapshot.state = .resetting → snapshot.errorValid = true) ∧
        (snapshot.state = .initializing ∨ snapshot.state = .running →
          snapshot.errorValid = false)) ∧
    (∀ before after, session.world.trace = before ++ .accepted :: after → Window before) ∧
    session.world.trace.countP Event.isReset + session.world.trace.countP Event.isDiscarded +
      (if session.world.gate = .pending then 1 else 0) =
        session.world.trace.countP Event.isAccepted ∧
    ∀ state, .discarded state ∈ session.world.trace → state = .shuttingDown := by
  obtain ⟨current, conduct, balanced, _⟩ := decent_of_reachable reachable
  refine ⟨current, ?_, ?_, ?_, balanced, ?_⟩
  · intro before state after split running
    exact edge_of_moves (conduct before (.state state) after split)
      fun stopped => running (stopped_of_current stopped)
  · intro snapshot member
    obtain ⟨_, fit⟩ := conduct.mem member
    change fits snapshot.state snapshot.errorValid = true at fit
    constructor
    · rintro (state | state) <;> rw [state] at fit <;> exact fit
    · rintro (state | state) <;> rw [state] at fit <;> exact Bool.not_eq_true' _ ▸ fit
  · exact fun before after split => conduct before .accepted after split
  · intro state member
    obtain ⟨_, only⟩ := conduct.mem member
    exact only

theorem state_machine_press : ∃ session, supervising.Reachable session ∧
    states session.world.trace =
      [.running, .error, .resetting, .running, .shuttingDown, .stopped] ∧
    session.world.own.state = .stopped ∧ session.world.trace.countP Event.isReset = 1 := by
  obtain ⟨session, reachable, seen⟩ := reachable_press
    (fun world => (states world.trace, world.gate,
      world.trace.countP Event.isDiscarded, world.trace.countP Event.isAccepted))
    ([.running, .error, .resetting, .running, .shuttingDown, .stopped], .closed, 0, 1)
    (by decide +kernel)
  simp only [Prod.mk.injEq] at seen
  obtain ⟨entered, gate, discarded, accepted⟩ := seen
  obtain ⟨state, _, _, _, balanced, _⟩ := state_machine reachable
  refine ⟨session, reachable, entered, ?_, ?_⟩
  · rw [← state, current, entered]
    rfl
  · rw [gate, discarded, accepted] at balanced
    exact balanced

/-! ## Children -/

/-- Generations do not overlap and children are not forgotten, if the `Wait` of a failed start
collects its child. -/
theorem children_kept {session : Session} (reachable : supervising.Reachable session)
    (waited : ∀ i g, .unreaped i g ∉ session.world.trace) :
    (∀ before i g after, session.world.trace = before ++ .start i g :: after →
      ∀ j earlier, .forked j earlier ∈ before → earlier < g → .collected j earlier ∈ before) ∧
    (∀ code clear, .stopped code clear ∈ session.world.trace → code = 0 → clear = true) ∧
    (∀ before i g after, session.world.trace = before ++ .cleared i g :: after →
      .collected i g ∈ before) ∧
    (∀ before i g after, session.world.trace = before ++ .signaled i g :: after →
      .collected i g ∉ before ∧ .lost i g ∉ before) ∧
    ∀ world, session = .idle world → ∀ i g, .forked i g ∈ world.trace →
      .collected i g ∈ world.trace ∨
        ∃ entry, world.own.elements[i]? = some entry ∧ entry.started = true ∧ entry.child = g := by
  obtain ⟨_, _, _, care⟩ := decent_of_reachable reachable
  refine ⟨?_, ?_, ?_, ?_, ?_⟩
  · intro before i g after split j earlier forked older
    refine (care before (.start i g) after split j earlier forked older).resolve_right ?_
    intro unreaped
    refine waited j earlier ?_
    rw [split]
    exact mem_append_left _ unreaped
  · intro code clear member
    obtain ⟨_, honest⟩ := care.mem member
    exact honest
  · exact fun before i g after split => care before (.cleared i g) after split
  · exact fun before i g after split => care before (.signaled i g) after split
  · rintro world rfl i g forked
    have rested : Rested world := holds_of_reachable reachable
    rcases rested.custody.kept i g forked with (collected | unreaped) | none | owner
    · exact .inl collected
    · exact absurd unreaped (waited i g)
    · cases none
    · exact .inr owner

theorem children_kept_press : ∃ session before after, supervising.Reachable session ∧
    session.world.trace = before ++ .start 0 2 :: after ∧ .forked 0 1 ∈ before ∧
      .collected 0 1 ∈ before := by
  obtain ⟨session, reachable, seen⟩ := reachable_press
    (fun world => (decide (world.trace = world.trace.take 16 ++ .start 0 2 :: world.trace.drop 17),
      decide (.forked 0 1 ∈ world.trace.take 16),
      world.trace.all fun event =>
        match event with
        | .unreaped .. => false
        | _ => true))
    (true, true, true) (by decide +kernel)
  simp only [Prod.mk.injEq, decide_eq_true_eq] at seen
  obtain ⟨split, forked, waited⟩ := seen
  have collected := (children_kept reachable fun i g unreaped => by
    cases all_eq_true.mp waited _ unreaped).1 _ 0 2 _ split 0 1 forked (by decide)
  exact ⟨session, _, _, reachable, split, forked, collected⟩

/-! ## The final state -/

section

variable {world : World} {cut : World → Prop}

theorem wp_ask_given {α : Type} {select : Input → Option α} {post : α → World → Prop}
    {input : Input} {inputs : List Input} {answer : α} (given : world.inputs = input :: inputs)
    (selected : select input = some answer) (next : post answer { world with inputs }) :
    wp cut (ask select) post world := by
  unfold wp ask
  rw [given]
  dsimp only
  rw [selected]
  exact next

theorem wp_ask_starved {α : Type} {select : Input → Option α} {post : α → World → Prop}
    (none : world.inputs = []) (holds : cut world) : wp cut (ask select) post world := by
  unfold wp ask
  rw [none]
  exact holds

/-- The supervisor and the states that it has entered are the same. -/
def World.Same (world later : World) : Prop :=
  later.own = world.own ∧ states later.trace = states world.trace

theorem World.Same.trans {first second third : World} (before : first.Same second)
    (after : second.Same third) : first.Same third :=
  ⟨after.1.trans before.1, after.2.trans before.2⟩

theorem same_other (world : World) (action : Action) : world.Same (world.other action) := by
  cases action with
  | signal | requestShutdown => exact ⟨rfl, rfl⟩
  | requestReset =>
    dsimp only [World.other]
    split <;> exact ⟨rfl, rfl⟩
  | exchange =>
    dsimp only [World.other]
    split
    · exact ⟨rfl, rfl⟩
    split
    · exact ⟨rfl, by rw [states_snoc]; exact append_nil _⟩
    · exact ⟨rfl, rfl⟩

theorem same_others (world : World) (actions : List Action) :
    world.Same (actions.foldl World.other world) := by
  induction actions generalizing world with
  | nil => exact ⟨rfl, rfl⟩
  | cons action actions ih => exact (same_other world action).trans (ih (world.other action))

end

/-- Nothing happens to a supervisor that has stopped and has nothing left to do. -/
theorem wp_program_done {start world : World} (same : start.Same world)
    (done : start.own.isDone = true) (setup : start.own.setup = false) (call : Call) :
    wp start.Same call.program (fun _ => start.Same) world := by
  have stopped : start.own.state = .stopped := (of_decide_eq_true done).1
  rw [← same.1] at done setup stopped
  cases call with
  | setup specs =>
    refine wp_bind (wp_bind (wp_getOwn (wp_ite (fun _ => ?_) (fun ready => ?_))))
    · exact wp_pure (wp_pure same)
    · exact absurd (.inl (by rw [stopped]; nofun)) ready
  | run =>
    refine wp_bind (wp_bind (wp_getOwn (wp_ite (fun _ => ?_) (fun other => absurd setup other))))
    exact wp_pure (wp_pure same)
  | shutdown =>
    refine wp_bind (wp_getOwn (wp_ite (fun _ => ?_) (fun other => absurd done other)))
    exact wp_pure same
  | others =>
    refine wp_bind ?_
    unfold wp ask
    cases world.inputs with
    | nil => exact same
    | cons input inputs =>
      dsimp only
      cases input.others? with
      | none => exact same
      | some actions => exact same.trans (same_others { world with inputs } actions)

theorem states_of_done {world : World} {orders : List Order} {later : Session}
    (done : world.own.isDone = true) (setup : world.own.setup = false)
    (run : supervising.Run (.idle world) orders later) :
    states later.world.trace = states world.trace := by
  have holds : later.Holds world.Same world.Same := by
    refine run.invariant ?_ ⟨rfl, rfl⟩
    intro session order next step same
    cases session with
    | cut _ => cases step
    | idle now =>
      have same : world.Same { now with inputs := order.inputs, fuel := order.fuel } := same
      obtain ⟨after, advanced, holds⟩ :=
        Session.Holds.advance order (wp_program_done same done setup order.call)
      cases step.symm.trans advanced
      exact holds
  cases later with
  | idle later => exact holds.2
  | cut later => exact holds.2

/-- A pass finished elements that have no children. -/
theorem wp_foldlM_idle {β : Type} {world : World} {cut : World → Prop} {step : β → Nat → Act β}
    {acc : β} {post : β → World → Prop} (clear : world.own.isClear = true)
    (idle : ∀ i entry, world.own.elements[i]? = some entry → entry.started = false →
      wp cut (step acc i) (fun result later => result = acc ∧ later = world) world)
    (next : post acc world) :
    wp cut ((range world.own.elements.length).foldlM step acc) post world := by
  refine wp_foldlM (fun rest result later =>
    (∀ i ∈ rest, i < world.own.elements.length) ∧ result = acc ∧ later = world) ?_ ?_
    ⟨fun i member => mem_range.mp member, rfl, rfl⟩
  · rintro i rest _ _ ⟨present, rfl, rfl⟩
    have found := getElem?_eq_getElem (present i (.head _))
    refine (idle i _ found (started_of_isClear clear found)).mono ?_
    rintro _ _ ⟨rfl, rfl⟩
    exact ⟨fun j member => present j (.tail i member), rfl, rfl⟩
  · rintro _ _ ⟨_, rfl, rfl⟩
    exact next

section

variable {world : World} {cut : World → Prop}

theorem wp_element_found {i : Nat} {entry : ManagedElement} {post : ManagedElement → World → Prop}
    (found : world.own.elements[i]? = some entry) (holds : post entry world) :
    wp cut (element i) post world := by
  refine wp_bind (wp_getOwn ?_)
  rw [found]
  exact wp_pure holds

variable {post : Unit → World → Prop}

theorem wp_interfere_given {actions : List Action}
    {inputs : List Input} (given : world.inputs = .others actions :: inputs)
    (next : post () (actions.foldl World.other { world with inputs })) :
    wp cut interfere post world :=
  wp_bind (wp_ask_given given rfl (wp_modify next))

theorem states_storeGate (world : World) (state : ApplicationState) :
    states (world.storeGate state).trace = states world.trace := by
  have other {event : Event} (silent : event.state? = none) :
      states (world.trace ++ [event]) = states world.trace := by
    rw [states_snoc, silent]
    exact append_nil _
  unfold World.storeGate
  dsimp only
  split
  · exact other rfl
  split
  · exact other rfl
  · rfl

theorem wp_publish_starved {entered : List ApplicationState}
    (starved : world.inputs = []) (same : states world.trace = entered)
    (next : ∀ later, later.inputs = [] → later.own.state = world.own.state →
      later.own.elements = world.own.elements → states later.trace = entered → post () later) :
    wp (fun later => states later.trace = entered) publishSystemStatus post world := by
  refine wp_bind (wp_getOwn (wp_ite (fun _ => wp_pure (next world starved rfl rfl same))
    (fun _ => ?_)))
  refine wp_ite (fun _ => wp_update (next _ starved rfl rfl same)) (fun _ => ?_)
  refine wp_bind (wp_emit (wp_bind (wp_update (wp_bind (wp_ask_starved starved ?_)))))
  rw [states_snoc]
  exact (append_nil _).trans same

theorem wp_leave (stopped : world.own.state = .stopped)
    (given : world.inputs = [.others [], .others []])
    (next : ∀ later, later.inputs = [] → later.own.state = .shuttingDown →
      later.own.elements = world.own.elements →
      states later.trace = states world.trace ++ [.shuttingDown] → post () later) :
    wp (fun later => states later.trace = states world.trace ++ [.shuttingDown])
      (setApplicationState .shuttingDown) post world := by
  refine wp_bind (wp_getOwn (wp_ite (fun same => ?_) (fun _ => ?_)))
  · cases same.symm.trans stopped
  refine wp_bind (wp_interfere_given given (wp_bind (wp_modify (wp_bind ?_))))
  refine wp_interfere_given rfl (wp_bind (wp_update (wp_bind (wp_emit ?_))))
  refine wp_publish_starved rfl ?_ fun later starved state elements =>
    next later starved state elements
  rw [states_snoc]
  exact congrArg (· ++ [.shuttingDown])
    (states_storeGate { world with inputs := [.others []] } .shuttingDown)

/-- `Shutdown` takes a stopped supervisor that has something left to do back. -/
theorem wp_shutdown_undone (stopped : world.own.state = .stopped)
    (clear : world.own.isClear = true) (undone : world.own.isDone = false)
    (given : world.inputs =
      [.others [.signal], .time 0, .time 0, .others [], .others [], .others []])
    (followed : world.fuel = 1) :
    wp (fun later => states later.trace = states world.trace ++ [.shuttingDown]) shutdown
      (fun _ later => states later.trace = states world.trace ++ [.shuttingDown]) world := by
  refine wp_bind (wp_getOwn (wp_ite (fun done => ?_) (fun _ => ?_)))
  · cases undone.symm.trans done
  refine wp_bind (wp_bind (wp_interfere_given given (wp_modify ?_)))
  refine wp_bind (wp_getOwn (wp_ite (fun other => absurd stopped other) (fun _ => wp_bind ?_)))
  -- `StopGeneration` finds the request before it looks at the elements
  refine wp_bind (wp_ask_given rfl rfl (wp_bind (wp_getOwn (wp_bind (wp_indices (wp_bind ?_))))))
  refine wp_foldlM_idle clear (fun i entry found unstarted => ?_) (wp_bind (wp_get (wp_bind ?_)))
  · exact wp_bind (wp_element_found found (wp_ite (fun _ => wp_pure ⟨rfl, rfl⟩) (absurd unstarted)))
  change wp _ (iterate _ world.fuel _) _ _
  rw [followed]
  refine wp_bind (wp_bind (wp_ask_given rfl rfl (wp_bind (wp_bind (wp_interfere_given rfl ?_)))))
  refine wp_bind (wp_get (wp_ite (fun _ => wp_pure ?_) (fun other => absurd rfl other)))
  refine wp_ite (fun _ => wp_bind ?_) (fun other => absurd rfl other)
  refine wp_leave stopped rfl fun later starved state elements entered => ?_
  -- nothing remains, and the way to `STOPPED` is cut off
  have clear : later.own.isClear = true := by
    unfold Bringup.isClear
    rw [elements]
    exact clear
  refine wp_bind (wp_indices (wp_bind ?_))
  refine wp_foldlM_idle clear (fun i entry found unstarted => ?_)
    (wp_ite (fun _ => ?_) (absurd rfl))
  · exact wp_bind (wp_element_found found (wp_ite (fun _ => wp_pure ⟨rfl, rfl⟩) (absurd unstarted)))
  refine wp_pure (wp_pure ?_)
  refine wp_bind (wp_getOwn (wp_bind (wp_emit (wp_pure ?_))))
  refine wp_ite (fun failed => absurd rfl failed) (fun _ => wp_bind (wp_getOwn ?_))
  refine wp_ite (fun _ => wp_bind (wp_bind (wp_getOwn ?_))) (absurd clear)
  refine wp_ite (fun same => ?_) (fun _ => wp_bind (wp_bind (wp_ask_starved starved ?_)))
  · cases state.symm.trans same
  · rw [states_snoc]
    exact (append_nil _).trans entered

end

/-- A program enters no state, also if it is cut off. -/
def Silent {α : Type} (program : Act α) : Prop :=
  ∀ entered, Keeps (states ·.trace = entered) (states ·.trace = entered) program

section

variable {α : Type}

theorem silent_modify {change : World → World}
    (same : ∀ world, states (change world).trace = states world.trace) :
    Silent (modify change) :=
  fun _ world holds => wp_modify ((same world).trans holds)

theorem silent_ask {select : Input → Option α} : Silent (ask select) := by
  intro entered world holds
  unfold wp ask
  cases world.inputs with
  | nil => exact holds
  | cons input inputs =>
    dsimp only
    cases select input <;> exact holds

theorem silent_update {change : Bringup → Bringup} : Silent (update change) :=
  silent_modify fun _ => rfl

theorem silent_getOwn : Silent getOwn := fun _ _ holds => wp_getOwn holds

theorem silent_publishSystemStatus : Silent publishSystemStatus := by
  intro entered
  refine (silent_getOwn entered).bind fun own => .ite (.pure _) (.ite (silent_update _) ?_)
  have emitted : Silent (emit (.status own.snapshot)) :=
    silent_modify fun world => (states_snoc ..).trans (append_nil _)
  exact (emitted _).bind fun _ => (silent_update _).bind fun _ =>
    (silent_ask _).bind fun _ => silent_update _

theorem silent_release : Silent release := by
  intro entered
  have restored {installed : Bringup → Bool} {clear : Bringup → Bringup} :
      Silent (restore installed clear) := fun _ =>
    (silent_getOwn _).bind fun _ => .ite ((silent_ask _).bind fun _ => silent_update _) (.pure _)
  refine .bind ((silent_getOwn entered).bind fun _ => .ite ?_ (.pure _)) fun _ => ?_
  · exact (silent_ask _).bind fun _ => (silent_ask _).bind fun _ => silent_update _
  · exact (silent_update _).bind fun _ => (restored _).bind fun _ => restored _

end

/-- A supervisor that has stopped stays so, whatever is called, exactly if `Shutdown` has nothing
left to do; and what the `Shutdown` that enters `STOPPED` does after that enters no state. -/
theorem stopped_final_iff {world : World} (reachable : supervising.Reachable (.idle world))
    (stopped : world.own.state = .stopped) :
    ((∀ orders later, supervising.Run (.idle world) orders later →
      states later.world.trace = states world.trace) ↔ world.own.isDone = true) ∧
    ∀ now : World, wp (fun later => states later.trace = states now.trace)
      (do publishSystemStatus; release) (fun _ later => states later.trace = states now.trace)
      now := by
  have rested : Rested world := holds_of_reachable reachable
  obtain ⟨setup, clear⟩ := rested.stopped stopped
  refine ⟨⟨?_, fun done orders later run => states_of_done done setup run⟩, fun now =>
    (silent_publishSystemStatus _).bind (fun _ => silent_release _) rfl⟩
  · intro final
    by_contra undone
    let order : Order :=
      { call := .shutdown
        inputs := [.others [.signal], .time 0, .time 0, .others [], .others [], .others []]
        fuel := 1 }
    have left : wp (fun later => states later.trace = states world.trace ++ [.shuttingDown])
        shutdown (fun _ later => states later.trace = states world.trace ++ [.shuttingDown])
        { world with inputs := order.inputs, fuel := order.fuel } :=
      wp_shutdown_undone stopped clear (eq_false_of_ne_true undone) rfl rfl
    obtain ⟨later, step, entered⟩ := Session.Holds.advance order left
    have same := final [order] later (.single step)
    have entered : states later.world.trace = states world.trace ++ [.shuttingDown] := by
      cases later with
      | idle later => exact entered
      | cut later => exact entered
    rw [same] at entered
    simp at entered

theorem stopped_final_press : ∃ world, supervising.Reachable (.idle world) ∧
    world.own.state = .stopped ∧ ∀ orders later, supervising.Run (.idle world) orders later →
      states later.world.trace = states world.trace := by
  have computed : ([Press.setup, Press.run].foldlM Session.advance (.idle { polls := 9 })).map
      (fun session =>
        match session with
        | .idle world => (world.own.state, world.own.isDone)
        | .cut _ => (.initializing, false)) = some (.stopped, true) := by
    decide +kernel
  obtain ⟨session, run, seen⟩ := Option.map_eq_some_iff.mp computed
  have reachable : supervising.Reachable session :=
    ⟨.idle { polls := 9 }, _, ⟨9, false, by decide, rfl⟩, .of_foldlM (fun _ _ _ done => done) run⟩
  cases session with
  | cut _ => cases seen
  | idle world =>
    obtain ⟨stopped, done⟩ := Prod.mk.inj seen
    exact ⟨world, reachable, stopped, (stopped_final_iff reachable stopped).1.mpr done⟩

namespace Press

/-- A shutdown is requested before the element is started, and the status cannot be unlinked. -/
def abandoned : Order where
  call := .setup [{ name := "press", executable := "press" }]
  inputs :=
    [.others [], .result none, .result none, .result none, .others [.requestShutdown],
      .others []] ++ quiet ++ [.others []] ++ quiet ++ [.result none, .time 0, .time 0] ++ quiet ++
    quiet ++ [.result none, .result none,
      .result (some ⟨errorCode Errno.eacces, by decide⟩), .result none, .result none]
  fuel := 1

/-- `Shutdown` is called again to unlink the status. -/
def retried : Order where
  call := .shutdown
  inputs :=
    [.others [], .time 0, .time 0] ++ quiet ++ quiet ++ [.result none] ++ quiet ++
      [.result none, .result none, .result none]
  fuel := 1

end Press

/-- A supervisor that has stopped goes back to `SHUTTING_DOWN`. -/
theorem stopped_left : ∃ world later, supervising.Reachable (.idle world) ∧
    world.own.state = .stopped ∧ supervising.step (.idle world) Press.retried (.idle later) ∧
    states later.trace = states world.trace ++ [.shuttingDown, .stopped] := by
  have computed : ((Session.idle { polls := 9 }).advance Press.abandoned).bind (fun session =>
      (session.advance Press.retried).map fun later =>
        match session, later with
        | .idle world, .idle later => (world.own.state, states world.trace, states later.trace)
        | _, _ => (.initializing, [], [])) =
      some (.stopped, [.shuttingDown, .stopped],
        [.shuttingDown, .stopped, .shuttingDown, .stopped]) := by
    decide +kernel
  obtain ⟨session, first, rest⟩ := Option.bind_eq_some_iff.mp computed
  obtain ⟨later, second, seen⟩ := Option.map_eq_some_iff.mp rest
  have initial : supervising.initial (.idle { polls := 9 }) := ⟨9, false, by decide, rfl⟩
  cases session with
  | cut _ => cases seen
  | idle world =>
    cases later with
    | cut _ => cases seen
    | idle later =>
      simp only [Prod.mk.injEq] at seen
      obtain ⟨stopped, before, after⟩ := seen
      refine ⟨world, later, .step (.of_initial initial) first, stopped, second, ?_⟩
      rw [before, after]
      rfl

end Kcf.Supervisor
