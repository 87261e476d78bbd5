import Kcf.Supervisor.Generation

/-!
# The life of a supervisor

What `ResetGeneration`, `Run`, `Shutdown` and `Setup` guarantee: they keep to the laws from
every state in which they may be called, and leave a state in which they may be called again.
-/

namespace Kcf.Supervisor

open Kcf.Program List

variable {exempt : Option (Nat × Nat)} {world : World}

/-! ## Reset -/

/-- Children are still there if and only if they were. -/
theorem isClear_of_marks {own other : Bringup} (same : other.marks = own.marks) :
    other.isClear = own.isClear := by
  have clear (own : Bringup) : own.isClear = own.marks.all fun mark => !mark.1 := by
    unfold Bringup.isClear Bringup.marks
    rw [all_map]
    rfl
  rw [clear, clear, same]

/-- Before the old generation is stopped, a shutdown takes precedence over a reset. -/
theorem Sound.resetting (sound : Sound none world) (unrequested : ¬world.Requested)
    (state : world.own.state = .resetting ∨ world.own.state = .shuttingDown) :
    world.own.state = .resetting ∧ world.own.error.valid = true := by
  rcases state with state | state
  · have fit := sound.fits
    rw [state] at fit
    exact ⟨state, fit⟩
  · exact absurd (sound.orderly.requested (.inl state)) unrequested

variable {post : Unit → World → Prop}

theorem wp_concludeReset {result : Int32} (sound : Sound none world)
    (state : world.own.state = .resetting)
    (recovered : result = 0 → ∀ mark ∈ world.own.marks, mark.2.1 = false)
    (next : ∀ later, Sound none later → later.own.state ≠ .stopped → post () later) :
    wp Decent (concludeReset result) post world := by
  refine wp_bind (wp_shutdownRequested sound fun _ first sound tended own _ no => ?_)
  have state : first.own.state = .resetting := by rw [own, state]
  refine wp_ite (fun _ => wp_pure (next first sound (by rw [state]; nofun))) (fun unrequested => ?_)
  refine wp_ite (fun _ => wp_bind ?_) (fun succeeded => wp_bind (wp_update ?_))
  · refine wp_stopGeneration sound fun _ second sound wound _ => ?_
    have state : second.own.state = .resetting ∨ second.own.state = .shuttingDown :=
      wound.state.imp_left fun same => same.trans state
    refine wp_bind (wp_shutdownRequested sound fun _ third sound' tended own _ no => ?_)
    refine wp_ite (fun _ => wp_pure (next third sound' ?_)) (fun unrequested => ?_)
    · rw [own]
      rcases state with state | state <;> rw [state] <;> nofun
    obtain ⟨state, valid⟩ := sound.resetting (no (eq_false_of_ne_true unrequested)) state
    rw [← own] at state valid
    refine wp_setApplicationState sound'.toHeld sound'.settled valid ?_ nofun nofun ?_
    · exact fun _ => by rw [state]; rfl
    · exact fun later sound moved => next later sound (by rw [moved.state]; nofun)
  · have orderly := sound.orderly
    refine wp_setApplicationState ⟨{ orderly with quiet := fun _ => ?_ }, sound.custody⟩
      sound.settled rfl ?_ nofun nofun ?_
    · change ∀ mark ∈ first.own.marks, mark.2.1 = false
      rw [tended.marks]
      exact recovered (not_not.mp succeeded)
    · intro _
      change moves first.own.state .running = true
      rw [state]
      rfl
    · exact fun later sound moved => next later sound (by rw [moved.state]; nofun)

theorem quiet_renewed (own : Bringup) : ∀ mark ∈ own.renewed.marks, mark.2.1 = false := by
  simp [Bringup.marks, Bringup.renewed, ManagedElement.renewed, ManagedElement.mark]

/-- The observations of the old generation are forgotten. -/
theorem Sound.renew (sound : Sound none world) :
    Sound none { world with own := world.own.renewed } := by
  have bound := sound.orderly.polls
  refine ⟨⟨{ sound.orderly with quiet := fun _ => quiet_renewed world.own, polls := ?_ }, ?_⟩,
    sound.settled, sound.fits⟩
  · change 0 + world.polls < _
    omega
  · exact sound.custody.congr (map_map ..)

theorem wp_restartGeneration {post : Int32 → World → Prop} (sound : Sound none world)
    (state : world.own.state = .resetting) (valid : world.own.error.valid = true)
    (clear : world.own.isClear = true)
    (next : ∀ code later, Sound none later → later.own.state = .resetting →
      (code = 0 → ∀ mark ∈ later.own.marks, mark.2.1 = false) → post code later) :
    wp Decent restartGeneration post world := by
  refine wp_bind (wp_update ?_)
  have clear : world.own.renewed.isClear = true := by
    unfold Bringup.isClear Bringup.renewed
    rw [all_map]
    exact clear
  have conclude (code : Int32) (later : World) (sound : Sound none later)
      (attempted : Attempted code { world with own := world.own.renewed } later) :
      post code later := by
    refine next code later sound ?_ fun succeeded mark member => ?_
    · rcases attempted.state with same | ⟨_, invalid, _⟩
      · exact same.trans state
      · cases valid.symm.trans invalid
    · have failed : mark.2.1 ∈ later.own.marks.map (·.2.1) := mem_map_of_mem member
      rw [(attempted.done succeeded).2.2] at failed
      obtain ⟨old, member, failed⟩ := mem_map.mp failed
      rw [← failed]
      exact quiet_renewed world.own old member
  refine wp_bind (wp_startGeneration sound.renew clear fun code first sound attempted => ?_)
  refine wp_ite (fun _ => wp_pure (conclude code first sound attempted)) (fun succeeded => ?_)
  rw [not_not] at succeeded
  subst succeeded
  exact wp_awaitRunning sound fun code later sound attempted' =>
    conclude code later sound (attempted.trans attempted')

/-- A pending reset is taken. -/
theorem Sound.reset (sound : Sound none world) (pending : world.gate = .pending) :
    Sound none { world with gate := .closed, trace := world.trace ++ [.reset] } := by
  have balanced := sound.orderly.balanced
  rw [pending] at balanced
  have shut (unclosed : Gate.closed ≠ .closed) : False := unclosed rfl
  exact ⟨⟨sound.orderly.snoc rfl trivial (fun unclosed => (shut unclosed).elim) (balanced.move rfl),
    sound.custody.note rfl trivial⟩, fun unclosed => (shut unclosed).elim, sound.fits⟩

theorem wp_resetGeneration (sound : Sound none world) (pending : world.gate = .pending)
    (next : ∀ later, Sound none later → later.own.state ≠ .stopped → post () later) :
    wp Decent resetGeneration post { world with gate := .closed } := by
  have state : world.own.state = .error := sound.settled (by rw [pending]; nofun)
  have valid : world.own.error.valid = true := by
    have fit := sound.fits
    rw [state] at fit
    exact fit
  have reset := sound.reset pending
  refine wp_bind (wp_emit (wp_bind ?_))
  refine wp_setApplicationState reset.toHeld reset.settled valid ?_ nofun (fun _ => rfl) ?_
  · intro _
    change moves world.own.state .resetting = true
    rw [state]
    rfl
  intro first sound moved
  refine wp_bind (wp_stopGeneration sound fun code second sound wound clear => ?_)
  have state : second.own.state = .resetting ∨ second.own.state = .shuttingDown :=
    wound.state.imp_left fun same => same.trans moved.state
  refine wp_bind (wp_shutdownRequested sound fun _ third sound' tended own _ no => ?_)
  refine wp_ite (fun _ => wp_pure (next third sound' ?_)) (fun unrequested => ?_)
  · rw [own]
    rcases state with state | state <;> rw [state] <;> nofun
  obtain ⟨state, valid⟩ := sound.resetting (no (eq_false_of_ne_true unrequested)) state
  rw [← own] at state valid clear
  refine wp_ite (fun failed => ?_) (fun succeeded => wp_bind ?_)
  · exact wp_concludeReset sound' state (fun succeeded => absurd succeeded failed) next
  · refine wp_restartGeneration sound' state valid (clear (not_not.mp succeeded)) ?_
    exact fun code later sound state recovered => wp_concludeReset sound state recovered next

/-! ## Shutdown -/

theorem wp_restore {installed : Bringup → Bool} {clear : Bringup → Bringup}
    (sound : Sound exempt world)
    (same : ∀ own, (clear own).core = own.core)
    (next : ∀ later, Sound exempt later → Tended world later →
      later.own.core = world.own.core → post () later) :
    wp Decent (restore installed clear) post world := by
  refine wp_bind (wp_getOwn (wp_ite (fun _ => wp_bind ?_) (fun _ => wp_pure ?_)))
  · refine wp_ask_sound sound fun result first sound tended own => ?_
    refine wp_adjust sound ?_ fun later sound tended' core => ?_
    · split
      · exact same _
      · rfl
    · exact next later sound (tended.trans tended') (by rw [core, own])
  · exact next world sound (.refl world) rfl

theorem wp_restoreSignalHandlers (sound : Sound exempt world)
    (next : ∀ later, Sound exempt later → Tended world later →
      later.own.core = world.own.core → post () later) :
    wp Decent restoreSignalHandlers post world := by
  refine wp_bind (wp_restore sound (fun _ => rfl) fun first sound tended core => ?_)
  exact wp_restore sound (fun _ => rfl) fun later sound tended' core' =>
    next later sound (tended.trans tended') (core'.trans core)

theorem wp_releaseStatus (sound : Sound exempt world)
    (next : ∀ later, Sound exempt later → later.own.core = world.own.core → post () later) :
    wp Decent releaseStatus post world := by
  refine wp_bind (wp_getOwn (wp_ite (fun _ => wp_bind ?_) (fun _ => wp_pure (next _ sound rfl))))
  refine wp_ask_sound sound fun closed first sound tended own => wp_bind ?_
  refine wp_ask_sound sound fun unlinked second sound tended' own' => ?_
  refine wp_adjust sound rfl fun later sound tended'' core => next later sound ?_
  rw [core, own', own]

/-- How `Shutdown` leaves the supervisor. -/
def World.IsOver (world : World) : Prop :=
  world.own.state = .shuttingDown ∨ world.own.state = .stopped ∧ world.own.isClear = true

theorem World.IsOver.of_core {next : World} (finished : world.IsOver)
    (core : next.own.core = world.own.core) : next.IsOver := by
  simp only [Bringup.core, Prod.mk.injEq] at core
  unfold World.IsOver Bringup.isClear
  rw [core.1, core.2.2.2.2.2]
  exact finished

theorem wp_release (sound : Sound none world) (finished : world.IsOver)
    (next : ∀ later, Sound none later → later.IsOver → later.own.setup = false → post () later) :
    wp Decent release post world := by
  refine wp_bind (wp_releaseStatus sound fun first sound core => wp_bind (wp_update ?_))
  have finished : first.IsOver := finished.of_core core
  have finished : World.IsOver
      { first with own := { first.own with running := false, setup := false } } := finished
  have sound : Sound none
      { first with own := { first.own with running := false, setup := false } } :=
    ⟨⟨sound.orderly, sound.custody⟩, sound.settled, sound.fits⟩
  refine wp_restoreSignalHandlers sound fun later sound _ core => ?_
  refine next later sound (finished.of_core core) ?_
  simp only [Bringup.core, Prod.mk.injEq] at core
  exact core.2.1

theorem wp_shutdown (sound : Sound none world)
    (stopped : world.own.state = .stopped → world.own.setup = false ∧ world.own.isClear = true)
    (next : ∀ later, Sound none later → later.IsOver → later.own.setup = false → post () later) :
    wp Decent shutdown post world := by
  refine wp_bind (wp_getOwn (wp_ite (fun done => wp_pure ?_) (fun _ => ?_)))
  · have state : world.own.state = .stopped := (of_decide_eq_true done).1
    exact next world sound (.inr ⟨state, (stopped state).2⟩) (stopped state).1
  suffices rest : ∀ second, Sound none second → second.Requested → second.IsOver →
      wp Decent (do
        let stopped ← stopGeneration
        if stopped ≠ 0 then
          update fun own => { own with exitCode := if own.exitCode = 0 then 1 else own.exitCode }
        if (← getOwn).isClear = true then setApplicationState .stopped
        release) post second by
    refine wp_bind (wp_bind (wp_interfere sound fun first sound tended own => wp_modify ?_))
    have sound : Sound none { first with shutdownRequested := true } :=
      ⟨⟨sound.orderly.mono fun _ => .inr rfl, sound.custody⟩, sound.settled, sound.fits⟩
    refine wp_bind (wp_getOwn (wp_ite (fun _ => wp_bind ?_) (fun ended => ?_)))
    · exact wp_enterShutdown sound (.inr rfl) fun second sound moved =>
        rest second sound (.inr (moved.shutdown rfl)) (.inl moved.state)
    · have state : first.own.state = .stopped := not_not.mp ended
      refine rest _ sound (.inr rfl) (.inr ⟨state, ?_⟩)
      change first.own.isClear = true
      rw [own] at state ⊢
      exact (stopped state).2
  intro second sound requested finished
  refine wp_bind (wp_stopGeneration sound fun code third sound wound _ => ?_)
  have requested := wound.requested requested
  have finished : third.IsOver := by
    rcases wound.state with same | ended
    · unfold World.IsOver
      rw [same]
      refine finished.imp_right (And.imp_right fun clear => isClear_of_idle fun i _ => ?_)
      exact wound.idle i (idle_of_isClear clear i)
    · exact .inl ended
  suffices conclude : ∀ fourth, Sound none fourth → fourth.Requested → fourth.IsOver →
      wp Decent (do
        if (← getOwn).isClear = true then setApplicationState .stopped
        release) post fourth by
    refine wp_ite (fun _ => wp_bind ?_) (fun _ => conclude third sound requested finished)
    exact wp_adjust sound rfl fun fourth sound tended core =>
      conclude fourth sound (tended.requested requested) (finished.of_core core)
  intro fourth sound requested finished
  refine wp_bind (wp_getOwn (wp_ite (fun clear => wp_bind ?_)
    (fun _ => wp_release sound finished next)))
  refine wp_setApplicationState sound.toHeld sound.settled rfl ?_ (fun _ => requested) nofun ?_
  · intro other
    rw [finished.resolve_right fun ended => other ended.1]
    rfl
  · intro fifth sound moved
    refine wp_release sound (.inr ⟨moved.state, ?_⟩) next
    rw [isClear_of_marks moved.marks]
    exact clear

/-! ## Supervision -/

/-- A supervisor that has not stopped. -/
structure Live (world : World) : Prop extends Sound none world where
  live : world.own.state ≠ .stopped

theorem Tended.live {next : World} (tended : Tended world next) (live : Live world)
    (sound : Sound none next) : Live next :=
  ⟨sound, tended.state ▸ live.live⟩

theorem keeps_live {α : Type} {program : Act α}
    (keeps : ∀ world, Keeps Decent (Watched none world) program) : Keeps Decent Live program :=
  fun world live => live.toSound.follow (keeps world) fun _ _ sound tended => tended.live live sound

theorem keeps_recordFailure {i : Nat} {kind : FailureKind} {code : Int32} :
    Keeps Decent Live (recordFailure i kind code) := by
  intro world live
  refine wp_recordFailure live.toSound fun later sound noted => ⟨sound, ?_⟩
  rcases noted.state with same | ⟨failed, _⟩
  · rw [same]
    exact live.live
  · rw [failed]
    nofun

theorem keeps_checkHealth {polled : Int32} {i : Nat} {entry : ManagedElement} :
    Keeps Decent Live (checkHealth polled i entry) := by
  have time : Keeps Decent Live (ask Input.time?) := keeps_live fun _ => keeps_ask
  refine .ite (keeps_recordFailure.bind fun _ => .pure ()) (time.bind fun now => ?_)
  refine .ite keeps_recordFailure (.ite (time.bind fun now => ?_) ?_)
  · exact .ite keeps_recordFailure (.pure ())
  · exact .ite keeps_recordFailure (time.bind fun now => .ite keeps_recordFailure (.pure ()))

theorem keeps_superviseElement {polled : Int32} {i : Nat} :
    Keeps Decent Live (superviseElement polled i) := by
  refine (keeps_live fun _ => keeps_element).bind fun _ => .ite (.pure ()) ?_
  refine (keeps_live fun _ => keeps_isRunning).bind fun alive => ?_
  refine (keeps_live fun _ => keeps_element).bind fun entry => .ite (.bind (keeps_live ?_) ?_) ?_
  · exact fun _ => keeps_adjustElement (fun _ => rfl) (fun _ => rfl)
  · exact fun _ => .ite keeps_recordFailure (keeps_live fun _ => keeps_updateExitInfo)
  · exact .ite keeps_checkHealth (.pure ())

theorem keeps_shutdownRequested : Keeps Decent Live shutdownRequested :=
  keeps_live fun _ => keeps_watched fun _ sound =>
    wp_shutdownRequested sound fun _ _ sound tended _ _ _ => ⟨sound, tended⟩

theorem keeps_superviseElements {polled : Int32} {all : List Nat} :
    Keeps Decent Live (superviseElements polled all) := by
  induction all with
  | nil => exact .pure ()
  | cons i rest ih =>
    exact keeps_shutdownRequested.bind fun _ =>
      .ite (.pure ()) (keeps_superviseElement.bind fun _ => ih)

theorem keeps_supervise : Keeps Decent Live supervise := by
  refine (keeps_live fun _ => keeps_ask).bind fun _ =>
    (keeps_live fun _ => ?_).bind fun polled => ?_
  · exact keeps_watched fun _ sound =>
      wp_pollRuntimeStatuses sound fun _ sound tended => ⟨sound, tended⟩
  refine Keeps.bind (fun _ live => wp_indices live) fun all =>
    keeps_superviseElements.bind fun _ => ?_
  refine keeps_shutdownRequested.bind fun _ => .ite (.pure ()) (keeps_live fun _ => ?_)
  exact keeps_watched fun _ sound =>
    wp_publishSystemStatus sound fun _ sound tended _ => ⟨sound, tended⟩

theorem wp_takeReset {post : Bool → World → Prop} (live : Live world)
    (refused : ∀ later, Live later → post false later)
    (taken : ∀ later, Live later → later.gate = .pending →
      post true { later with gate := .closed }) :
    wp Decent takeReset post world := by
  refine wp_bind (wp_interfere live.toSound fun first sound tended _ => wp_bind (wp_get ?_))
  have live := tended.live live sound
  refine wp_ite (fun _ => wp_pure (refused first live)) (fun pending => ?_)
  exact wp_bind (wp_modify (wp_pure (taken first live (not_not.mp pending))))

theorem keeps_runRound : Keeps Decent Live (runRound ()) := by
  have watch : Keeps Decent Live (do supervise; return .inl () : Act (Unit ⊕ Unit)) :=
    keeps_supervise.bind fun _ => .pure _
  intro world live
  refine wp_bind (wp_getOwn (wp_ite (fun _ => wp_pure live) (fun _ => wp_bind ?_)))
  refine (keeps_shutdownRequested live).mono fun _ first live => ?_
  refine wp_ite (fun _ => wp_pure live) (fun _ => wp_bind ?_)
  refine wp_takeReset live (fun _ live => watch live) fun second live pending => wp_bind ?_
  refine wp_resetGeneration live.toSound pending fun third sound state => ?_
  exact keeps_shutdownRequested.bind (fun _ => .ite (.pure _) watch) ⟨sound, state⟩

/-! ## Calls -/

/-- What holds between the calls of a supervisor. -/
structure Rested (world : World) : Prop extends Sound none world where
  unborn : world.own.state = .initializing → ∀ i g, .forked i g ∉ world.trace
  stopped : world.own.state = .stopped → world.own.setup = false ∧ world.own.isClear = true

theorem Rested.of_isOver (sound : Sound none world) (finished : world.IsOver)
    (setup : world.own.setup = false) : Rested world where
  toSound := sound
  unborn := by
    intro state
    rcases finished with ended | ⟨ended, _⟩ <;> cases state.symm.trans ended
  stopped := by
    intro state
    rcases finished with ended | ⟨_, clear⟩
    · cases state.symm.trans ended
    · exact ⟨setup, clear⟩

theorem wp_run (rested : Rested world) : wp Decent run (fun _ => Rested) world := by
  refine wp_bind (wp_getOwn (wp_ite (fun _ => wp_pure rested)
    (fun setup => wp_bind (wp_update ?_))))
  have live : Live { world with own := { world.own with running := true } } :=
    ⟨⟨⟨rested.orderly, rested.custody⟩, rested.settled, rested.fits⟩,
      fun ended => setup (rested.stopped ended).1⟩
  refine wp_bind (wp_get (wp_bind
    (wp_iterate (fun _ => Live) (fun _ _ live => live.decent) ?_ _ live)))
  intro _ first live
  refine (keeps_runRound live).mono fun result second live => ?_
  cases result with
  | inl _ => exact live
  | inr _ =>
    refine wp_bind (wp_shutdown live.toSound (fun ended => absurd ended live.live) ?_)
    exact fun later sound finished setup =>
      wp_bind (wp_getOwn (wp_pure (.of_isOver sound finished setup)))

theorem keeps_prepare : Keeps Decent (Watched none world) prepare := by
  have adjust {change : Bringup → Bringup} (same : ∀ own, (change own).core = own.core) :
      Keeps Decent (Watched none world) (update change) :=
    keeps_watched fun _ sound => wp_adjust sound (same _) fun _ sound tended _ => ⟨sound, tended⟩
  have withdraw {code : Int32} :
      Keeps Decent (Watched none world) (do restoreSignalHandlers; return code) :=
    .bind (keeps_watched fun _ sound =>
      wp_restoreSignalHandlers sound fun _ sound tended _ => ⟨sound, tended⟩) fun _ => .pure code
  refine keeps_ask.bind fun _ => .ite (.pure _) (.bind (adjust fun _ => rfl) fun _ => ?_)
  refine keeps_ask.bind fun _ => .ite withdraw (.bind (adjust fun _ => rfl) fun _ => ?_)
  exact keeps_ask.bind fun _ => .ite withdraw (.bind (adjust fun _ => rfl) fun _ => .pure _)

/-- The end of `Setup`. -/
theorem wp_conclude {result : Int32} {before : World} (sound : Sound none world)
    (state : before.own.state = .initializing) (invalid : before.own.error.valid = false)
    (attempted : Attempted result before world) :
    wp Decent (do
      if ← shutdownRequested then
        shutdown
        return errorCode Errno.ecanceled
      update fun own => { own with setup := true }
      setApplicationState (if result ≠ 0 then .error else .running)
      return (0 : Int32)) (fun _ => Rested) world := by
  have begun : world.own.state = .initializing ∨ world.own.state = .error := by
    rcases attempted.state with same | ⟨failed, _⟩
    · exact .inl (same.trans state)
    · exact .inr failed
  refine wp_bind (wp_shutdownRequested sound fun _ first sound' tended own _ no => ?_)
  have attempted' := attempted.tended tended
  refine wp_ite (fun _ => wp_bind ?_) (fun unrequested => wp_bind (wp_update ?_))
  · refine wp_shutdown sound' (fun ended => ?_) fun later sound finished setup =>
      wp_pure (.of_isOver sound finished setup)
    rw [own] at ended
    rcases begun with state | state <;> cases ended.symm.trans state
  have sound' : Sound none { first with own := { first.own with setup := true } } :=
    ⟨⟨sound'.orderly, sound'.custody⟩, sound'.settled, sound'.fits⟩
  have unrequested := no (eq_false_of_ne_true unrequested)
  have entered {now later : World} {new : ApplicationState} (sound : Sound none later)
      (moved : Moved now later new) (entered : new = .running ∨ new = .error) : Rested later := by
    refine ⟨sound, fun state => ?_, fun state => ?_⟩ <;>
    · have state := moved.state.symm.trans state
      rcases entered with rfl | rfl <;> cases state
  by_cases succeeded : result = 0
  · obtain ⟨same, valid, _⟩ := attempted'.done succeeded
    rw [if_neg (not_not.mpr succeeded)]
    refine wp_bind (wp_setApplicationState sound'.toHeld sound'.settled ?_ ?_ nofun nofun ?_)
    · change fits .running first.own.error.valid = true
      rw [valid, invalid]
      rfl
    · intro _
      change moves first.own.state .running = true
      rw [same, state]
      rfl
    · exact fun later sound moved => wp_pure (entered sound moved (.inl rfl))
  · have valid := (attempted.failed succeeded).resolve_left unrequested
    have failed : world.own.state = .error := by
      refine begun.resolve_left fun state => ?_
      have fit := sound.fits
      rw [state, valid] at fit
      cases fit
    rw [if_pos succeeded]
    refine wp_bind (wp_setApplicationState sound'.toHeld sound'.settled ?_ ?_ nofun nofun ?_)
    · exact tended.valid.trans valid
    · exact fun other => absurd (tended.state.trans failed) other
    · exact fun later sound moved => wp_pure (entered sound moved (.inr rfl))

theorem wp_bringUp (sound : Sound none world) (state : world.own.state = .initializing)
    (clear : world.own.isClear = true) : wp Decent bringUp (fun _ => Rested) world := by
  have invalid : world.own.error.valid = false := by
    have fit := sound.fits
    rw [state] at fit
    exact Bool.not_eq_true' _ ▸ fit
  refine wp_bind (wp_startGeneration sound clear fun code first sound attempted => ?_)
  refine wp_ite (fun _ => wp_bind (wp_pure ?_)) (fun succeeded => wp_bind ?_)
  · exact wp_conclude sound state invalid attempted
  rw [not_not] at succeeded
  subst succeeded
  exact wp_awaitRunning sound fun code second sound attempted' =>
    wp_conclude sound state invalid (attempted.trans attempted')

/-- `Setup` registers the elements before there are any children. -/
theorem Rested.register (rested : Rested world) (state : world.own.state = .initializing)
    (specs : List ElementSpec) :
    Sound none
      { world with
        own :=
          { world.own with
            elements := specs.map fun spec => { spec }, exitCode := 0 } } := by
  have unborn := rested.unborn state
  have quiet : ∀ mark ∈ (specs.map fun spec => ({ spec } : ManagedElement)).map
      ManagedElement.mark, mark.2.1 = false := by
    simp [ManagedElement.mark]
  refine ⟨⟨{ rested.orderly with quiet := fun _ => quiet }, { rested.custody with
    kept := fun i g forked => absurd forked (unborn i g)
    owned := ?_, ended := ?_ }⟩, rested.settled, rested.fits⟩
  · intro i entry found pid
    obtain ⟨spec, _, rfl⟩ := Option.map_eq_some_iff.mp ((getElem?_map ..).symm.trans found)
    exact absurd pid (show ¬(0 : Int32) < -1 by decide)
  · intro i entry found exited
    obtain ⟨spec, _, rfl⟩ := Option.map_eq_some_iff.mp ((getElem?_map ..).symm.trans found)
    cases exited

theorem wp_setup {specs : List ElementSpec} (rested : Rested world) :
    wp Decent (setup specs) (fun _ => Rested) world := by
  refine wp_bind (wp_getOwn (wp_ite (fun _ => wp_pure rested) (fun ready => ?_)))
  refine wp_ite (fun _ => wp_pure rested) (fun _ => wp_bind (wp_update (wp_bind ?_)))
  have state : world.own.state = .initializing := not_not.mp fun other => ready (.inl other)
  refine wp_interfere (rested.register state specs) fun first sound tended own => ?_
  have state : first.own.state = .initializing := tended.state.trans state
  have clear : first.own.isClear = true := by
    rw [own]
    simp [Bringup.isClear]
  have unborn (i g : Nat) : .forked i g ∉ first.trace :=
    fun forked => rested.unborn ‹_› i g (tended.forks i g forked)
  have sound : Sound none { first with stopRequested := false } := by
    refine ⟨⟨{ sound.orderly with requested := ?_ }, sound.custody⟩, sound.settled, sound.fits⟩
    rintro (ended | ended) <;> cases state.symm.trans ended
  refine wp_bind (wp_modify (wp_bind
    (sound.follow keeps_prepare fun code later sound tended => ?_)))
  have state : later.own.state = .initializing := tended.state.trans state
  refine wp_ite (fun _ => wp_pure ⟨sound, ?_, ?_⟩) (fun _ => ?_)
  · exact fun _ i g forked => unborn i g (tended.forks i g forked)
  · exact fun ended => by cases state.symm.trans ended
  · exact wp_bringUp sound state ((isClear_of_marks tended.marks).trans clear)

end Kcf.Supervisor
