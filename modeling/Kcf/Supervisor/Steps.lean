import Kcf.Supervisor.Laws

/-!
# The steps of a supervisor

What each part of the supervisor guarantees: it keeps to the laws, and leaves alone what
does not concern it.  Every statement has the form of a rule for `wp`: what holds after the
part has to suffice for what comes next.
-/

namespace Kcf.Supervisor

open Kcf.Program List

variable {exempt : Option (Nat × Nat)} {world : World} {α : Type}

/-! ## Access to the state -/

section

variable {cut : World → Prop}

theorem wp_getOwn {post : Bringup → World → Prop} (holds : post world.own world) :
    wp cut getOwn post world := holds

variable {post : Unit → World → Prop}

theorem wp_update {change : Bringup → Bringup}
    (holds : post () { world with own := change world.own }) :
    wp cut (update change) post world := holds

theorem wp_updateElement {i : Nat} {change : ManagedElement → ManagedElement} (holds : post ()
      { world with
        own := { world.own with elements := world.own.elements.modify i change } }) :
    wp cut (updateElement i change) post world := holds

theorem wp_emit {event : Event} (holds : post () { world with trace := world.trace ++ [event] }) :
    wp cut (emit event) post world := holds

theorem wp_indices {post : List Nat → World → Prop}
    (holds : post (range world.own.elements.length) world) :
    wp cut indices post world := holds

theorem wp_element {i : Nat} {post : ManagedElement → World → Prop} (decent : cut world)
    (holds : ∀ entry, world.own.elements[i]? = some entry → post entry world) :
    wp cut (element i) post world := by
  refine wp_bind (wp_getOwn ?_)
  cases found : world.own.elements[i]? with
  | none => exact wp_throw decent
  | some entry => exact wp_pure (holds entry found)

end

/-! ## Inputs and other threads -/

theorem wp_ask {select : Input → Option α} {post : α → World → Prop} (decent : Decent world)
    (next : ∀ answer inputs, post answer { world with inputs }) :
    wp Decent (ask select) post world := by
  unfold wp ask
  cases world.inputs with
  | nil => exact decent
  | cons input inputs =>
    dsimp only
    cases select input with
    | none => exact decent
    | some answer => exact next answer inputs

theorem Sound.decent (sound : Sound exempt world) : Decent world := sound.toHeld.decent

theorem Sound.inputs (sound : Sound exempt world) (inputs : List Input) :
    Sound exempt { world with inputs } :=
  ⟨⟨sound.orderly, sound.custody⟩, sound.settled, sound.fits⟩

theorem Tended.inputs (world : World) (inputs : List Input) : Tended world { world with inputs } :=
  ⟨⟨⟨id, id, Subset.refl _⟩, rfl, fun _ _ forked => forked⟩, rfl, rfl, rfl, id⟩

theorem Followed.snoc (world : World) {event : Event} (neutral : event.isRecord = false)
    (gate : Gate) : Followed world { world with gate, trace := world.trace ++ [event] } :=
  ⟨⟨id, id, subset_append_left _ _⟩, rfl, fun _ _ forked => mem_of_snoc rfl neutral forked⟩

theorem Followed.own (world : World) (own : Bringup)
    (generation : own.generation = world.own.generation) : Followed world { world with own } :=
  ⟨⟨id, id, Subset.refl _⟩, generation, fun _ _ forked => forked⟩

theorem wp_ask_sound {select : Input → Option α} {post : α → World → Prop}
    (sound : Sound exempt world)
    (next : ∀ answer later, Sound exempt later → Tended world later → later.own = world.own →
      post answer later) : wp Decent (ask select) post world :=
  wp_ask sound.decent fun answer inputs =>
    next answer _ (sound.inputs inputs) (.inputs world inputs) rfl

/-- A run that has concerned neither law so far. -/
structure Watched (exempt : Option (Nat × Nat)) (start world : World) : Prop
    extends Sound exempt world, Tended start world

section

variable {start : World} {program : Act α}

theorem Sound.watched (sound : Sound exempt world) : Watched exempt world world :=
  ⟨sound, .refl world⟩

/-- What comes behind a part that concerns neither law. -/
theorem Sound.follow (sound : Sound exempt world) {post : α → World → Prop}
    (keeps : Keeps Decent (Watched exempt world) program)
    (next : ∀ value later, Sound exempt later → Tended world later → post value later) :
    wp Decent program post world :=
  (keeps sound.watched).mono fun value later watched =>
    next value later watched.toSound watched.toTended

theorem keeps_watched (holds : ∀ ⦃world⦄, Sound exempt world →
      wp Decent program (fun _ => Watched exempt world) world) :
    Keeps Decent (Watched exempt start) program :=
  fun _ watched => (holds watched.toSound).mono fun _ _ later =>
    ⟨later.toSound, watched.toTended.trans later.toTended⟩

theorem keeps_ask {select : Input → Option α} : Keeps Decent (Watched exempt start) (ask select) :=
  keeps_watched fun _ sound => wp_ask_sound sound fun _ _ sound tended _ => ⟨sound, tended⟩

theorem keeps_getOwn : Keeps Decent (Watched exempt start) getOwn :=
  fun _ watched => wp_getOwn watched

theorem keeps_element {i : Nat} : Keeps Decent (Watched exempt start) (element i) :=
  fun _ watched => wp_element watched.decent fun _ _ => watched

end

/-- Others may take an open gate. -/
theorem Held.accept (held : Held exempt world) (isOpen : world.gate = .open) (resets : Nat) :
    Held exempt
      { world with gate := .pending, resets, trace := world.trace ++ [.accepted] } := by
  have window := held.orderly.window (by rw [isOpen]; nofun)
  have balanced := held.orderly.balanced
  rw [isOpen] at balanced
  exact ⟨held.orderly.snoc rfl window (fun _ => window.snoc rfl) (balanced.move rfl),
    held.custody.note rfl trivial⟩

theorem Held.other (held : Held exempt world) (action : Action) :
    Held exempt (world.other action) ∧ Tended world (world.other action) ∧
      (world.other action).own = world.own := by
  have same := Tended.refl world
  cases action with
  | signal =>
    refine ⟨⟨held.orderly.mono fun _ => .inl rfl, held.custody⟩, ?_, rfl⟩
    exact { same with stop := fun _ => rfl }
  | requestShutdown =>
    refine ⟨⟨held.orderly.mono fun _ => .inr rfl, held.custody⟩, ?_, rfl⟩
    exact { same with shutdown := fun _ => rfl }
  | requestReset =>
    dsimp only [World.other]
    split
    · exact ⟨held, same, rfl⟩
    · exact ⟨⟨held.orderly, held.custody⟩, { same with }, rfl⟩
  | exchange =>
    dsimp only [World.other]
    split
    · exact ⟨held, same, rfl⟩
    split
    · refine ⟨held.accept ‹_› _, ?_, rfl⟩
      refine
        { same with
          closed := ?_
          grows := subset_append_left _ _
          forks := fun i g forked => mem_of_snoc rfl rfl forked }
      intro closed
      cases closed.symm.trans ‹world.gate = .open›
    · exact ⟨⟨held.orderly, held.custody⟩, { same with }, rfl⟩

theorem Held.others (held : Held exempt world) (actions : List Action) :
    Held exempt (actions.foldl World.other world) ∧
      Tended world (actions.foldl World.other world) ∧
      (actions.foldl World.other world).own = world.own := by
  induction actions generalizing world with
  | nil => exact ⟨held, .refl world, rfl⟩
  | cons action actions ih =>
    obtain ⟨held', tended, own⟩ := held.other action
    obtain ⟨held'', tended', own'⟩ := ih held'
    exact ⟨held'', tended.trans tended', own'.trans own⟩

variable {post : Unit → World → Prop} {state : ApplicationState}

theorem wp_interfere_held (held : Held exempt world)
    (next : ∀ later, Held exempt later → Tended world later → later.own = world.own →
      post () later) : wp Decent interfere post world := by
  refine wp_bind (wp_ask held.decent fun actions inputs => wp_modify ?_)
  have held : Held exempt { world with inputs } := ⟨held.orderly, held.custody⟩
  obtain ⟨held, tended, own⟩ := held.others actions
  exact next _ held ((Tended.inputs world inputs).trans tended) own

theorem wp_interfere (sound : Sound exempt world)
    (next : ∀ later, Sound exempt later → Tended world later → later.own = world.own →
      post () later) : wp Decent interfere post world := by
  refine wp_interfere_held sound.toHeld fun later held tended own => ?_
  refine next later ⟨held, ?_, own ▸ sound.fits⟩ tended own
  intro unclosed
  rw [tended.state]
  exact sound.settled fun closed => unclosed (tended.closed closed)

theorem wp_shutdownRequested {post : Bool → World → Prop} (sound : Sound exempt world)
    (next : ∀ requested later, Sound exempt later → Tended world later →
      later.own = world.own → (requested = true → later.Requested) →
      (requested = false → ¬world.Requested) → post requested later) :
    wp Decent shutdownRequested post world := by
  refine wp_bind (wp_interfere sound fun first sound tended own => wp_bind (wp_get ?_))
  refine wp_ite (fun stop => wp_pure ?_) (fun go => ?_)
  · exact next true first sound tended own (fun _ => .inl stop) nofun
  refine wp_bind (wp_interfere sound fun second sound tended' own' => wp_bind (wp_get ?_))
  refine wp_pure (next _ second sound (tended.trans tended') (own'.trans own) .inr ?_)
  -- a request that was there at first would have been found
  rintro none (stop | shutdown)
  · exact go (tended.stop stop)
  · cases none.symm.trans (tended'.shutdown (tended.shutdown shutdown))

/-! ## The application state -/

theorem snapshot_fits (own : Bringup) :
    own.snapshot.state = own.state ∧ own.snapshot.errorValid = own.error.valid := by
  unfold Bringup.snapshot
  cases valid : own.error.valid with
  | false => exact ⟨rfl, rfl⟩
  | true => exact ⟨rfl, rfl⟩

theorem Sound.publish (sound : Sound exempt world) :
    Sound exempt { world with trace := world.trace ++ [.status world.own.snapshot] } := by
  have right : Conduct world.trace (.status world.own.snapshot) := by
    obtain ⟨state, valid⟩ := snapshot_fits world.own
    change Supervisor.fits _ _ = true
    rw [state, valid]
    exact sound.fits
  refine ⟨⟨sound.orderly.snoc rfl right (fun unclosed => ?_) ?_, sound.custody.note rfl trivial⟩,
    sound.settled, sound.fits⟩
  · exact (sound.orderly.window unclosed).snoc rfl
  · exact sound.orderly.balanced.snoc rfl rfl rfl

theorem wp_publishSystemStatus (sound : Sound exempt world)
    (next : ∀ later, Sound exempt later → Tended world later →
      later.own.elements = world.own.elements → post () later) :
    wp Decent publishSystemStatus post world := by
  have same := Tended.refl world
  refine wp_bind (wp_getOwn ?_)
  refine wp_ite (fun _ => wp_pure (next world sound same rfl)) (fun _ => ?_)
  refine wp_ite (fun _ => wp_update ?_) (fun _ => ?_)
  · exact next _ ⟨⟨sound.orderly, sound.custody⟩, sound.settled, sound.fits⟩ { same with } rfl
  have published := sound.publish
  refine wp_bind (wp_emit (wp_bind (wp_update (wp_bind (wp_ask published.decent ?_)))))
  intro result inputs
  refine wp_update (next _ ⟨⟨published.orderly, published.custody⟩, published.settled,
    published.fits⟩ ?_ rfl)
  exact
    { same with
      grows := subset_append_left _ _
      forks := fun i g forked => mem_of_snoc rfl rfl forked }

/-- A store to the gate loses no reset, unless it is for a shutdown. -/
theorem Held.storeGate (held : Held exempt world)
    (pending : world.gate = .pending → state = .shuttingDown) :
    Held exempt (world.storeGate state) ∧ Followed world (world.storeGate state) := by
  have orderly := held.orderly
  have balanced := orderly.balanced
  unfold World.storeGate
  by_cases failed : state = .error
  · have settled : world.gate ≠ .pending :=
      fun isPending => by cases failed.symm.trans (pending isPending)
    rw [if_pos failed, if_pos failed]
    refine ⟨⟨orderly.snoc rfl trivial (fun _ => .opened _) (balanced.move ?_),
      held.custody.note rfl trivial⟩, .snoc world rfl _⟩
    rw [if_neg settled]
    rfl
  rw [if_neg failed, if_neg failed]
  by_cases isPending : world.gate = .pending
  · rw [if_pos isPending]
    refine ⟨⟨orderly.snoc rfl (pending isPending) (fun unclosed => absurd rfl unclosed)
      (balanced.move ?_), held.custody.note rfl trivial⟩, .snoc world rfl _⟩
    rw [if_pos isPending]
    rfl
  · rw [if_neg isPending]
    refine ⟨⟨{ orderly with window := fun unclosed => absurd rfl unclosed, balanced := ?_ },
      held.custody⟩, { Tended.refl world with }⟩
    unfold Balanced at balanced ⊢
    rw [if_neg isPending] at balanced
    exact balanced

/-- The state changes after the gate. -/
theorem Held.setState (held : Held exempt world) (move : moves world.own.state state = true)
    (requested : state = .shuttingDown ∨ state = .stopped → world.Requested)
    (gate : world.gate ≠ .closed → state = .error) (fit : fits state world.own.error.valid = true) :
    Sound exempt
      { world with
        own := { world.own with state }
        trace := world.trace ++ [.state state] } := by
  have orderly := held.orderly
  refine ⟨⟨{ orderly with
    conduct := orderly.conduct.snoc ?_, current := ?_, requested, window := fun unclosed => ?_
    balanced := orderly.balanced.snoc rfl rfl rfl }, held.custody.note rfl trivial⟩, gate, fit⟩
  · change moves (current world.trace) state = true
    rw [orderly.current]
    exact move
  · rw [current_snoc]
    rfl
  · cases gate unclosed
    refine (orderly.window unclosed).enter fun same => ?_
    rw [← orderly.current, same] at move
    cases move

/-- What `SetApplicationState` leaves alone. -/
structure Moved (world next : World) (state : ApplicationState) : Prop
    extends Followed world next where
  state : next.own.state = state
  valid : next.own.error.valid = world.own.error.valid
  marks : next.own.marks = world.own.marks
  elements : next.own.elements = world.own.elements

theorem wp_setApplicationState
    (held : Held exempt world) (settled : world.gate ≠ .closed → world.own.state = .error)
    (fit : fits state world.own.error.valid = true)
    (move : world.own.state ≠ state → moves world.own.state state = true)
    (requested : state = .shuttingDown ∨ state = .stopped → world.Requested)
    (shut : state = .resetting → world.gate = .closed)
    (next : ∀ later, Sound exempt later → Moved world later state → post () later) :
    wp Decent (setApplicationState state) post world := by
  refine wp_bind (wp_getOwn ?_)
  refine wp_ite (fun same => wp_pure ?_) (fun changes => ?_)
  · refine next world ⟨held, settled, same ▸ fit⟩ ⟨.own world world.own rfl, same, rfl, rfl, rfl⟩
  have move := move changes
  refine wp_bind (wp_interfere_held held fun first held tended own => ?_)
  have pending : first.gate = .pending → state = .shuttingDown := by
    intro isPending
    have unclosed : world.gate ≠ .closed := by
      intro closed
      cases isPending.symm.trans (tended.closed closed)
    rw [settled unclosed] at move
    cases state with
    | resetting => exact absurd (shut rfl) unclosed
    | shuttingDown => rfl
    | initializing | running | error | stopped => cases move
  obtain ⟨held, followed⟩ := held.storeGate pending
  refine wp_bind (wp_modify (wp_bind (wp_interfere_held held fun second held tended' own' => ?_)))
  have same : second.own = world.own := own'.trans own
  have followed := (tended.toFollowed.trans followed).trans tended'.toFollowed
  have gate : second.gate ≠ .closed → state = .error := by
    intro unclosed
    by_contra other
    exact unclosed (tended'.closed (if_neg other))
  have sound := held.setState (same ▸ move) (fun ends => followed.requested (requested ends)) gate
    (same ▸ fit)
  refine wp_bind (wp_update (wp_bind (wp_emit ?_)))
  refine wp_publishSystemStatus sound fun later sound tended elements => ?_
  refine next later sound ⟨?_, tended.state, ?_, ?_, ?_⟩
  · refine followed.trans (Followed.trans ?_ tended.toFollowed)
    exact ⟨⟨id, id, subset_append_left _ _⟩, rfl, fun i g forked => mem_of_snoc rfl rfl forked⟩
  · rw [tended.valid, ← same]
  · rw [tended.marks, ← same]
    rfl
  · rw [elements, ← same]

/-! ## Elements -/

/-- The child of an element. -/
def ManagedElement.charge (entry : ManagedElement) : Int32 × Bool × Nat :=
  (entry.process.pid, entry.process.exited, entry.child)

/-- What custody depends on. -/
def ManagedElement.owner (entry : ManagedElement) : Bool × Int32 × Bool × Nat :=
  (entry.started, entry.charge)

section

variable {elements others : List ManagedElement} {generation i : Nat} {trace : List Event}
  {change : ManagedElement → ManagedElement}

theorem map_modify {β : Type} (key : ManagedElement → β)
    (same : ∀ entry, elements[i]? = some entry → key (change entry) = key entry) :
    (elements.modify i change).map key = elements.map key := by
  refine ext_getElem? fun j => ?_
  rw [getElem?_map, getElem?_map, getElem?_modify]
  cases found : elements[j]? with
  | none => rfl
  | some entry =>
    by_cases here : i = j
    · subst here
      simp [same entry found]
    · simp [here]

theorem exists_of_map_eq {β : Type} {key : ManagedElement → β} {entry : ManagedElement}
    (same : others.map key = elements.map key) (found : others[i]? = some entry) :
    ∃ old, elements[i]? = some old ∧ key old = key entry := by
  have mapped := congrArg (·[i]?) same
  simp only [getElem?_map, found, Option.map_some] at mapped
  exact Option.map_eq_some_iff.mp mapped.symm

/-- Elements may give up children that were collected. -/
theorem Custody.regard (custody : Custody exempt elements generation trace)
    (same : others.map ManagedElement.charge = elements.map ManagedElement.charge)
    (kept : ∀ i entry, elements[i]? = some entry → entry.started = true →
      Reaped trace i entry.child ∨
        ∃ new, others[i]? = some new ∧ new.started = true ∧ new.child = entry.child) :
    Custody exempt others generation trace where
  __ := custody
  kept := by
    intro i g forked
    rcases custody.kept i g forked with reaped | new | ⟨entry, found, started, rfl⟩
    · exact .inl reaped
    · exact .inr (.inl new)
    · exact (kept i entry found started).imp_right .inr
  owned := by
    intro i entry found pid
    obtain ⟨old, found, charge⟩ := exists_of_map_eq same found
    simp only [ManagedElement.charge, Prod.mk.injEq] at charge
    rw [← charge.1] at pid
    rw [← charge.2.2]
    exact custody.owned i old found pid
  ended := by
    intro i entry found exited
    obtain ⟨old, found, charge⟩ := exists_of_map_eq same found
    simp only [ManagedElement.charge, Prod.mk.injEq] at charge
    rw [← charge.2.1] at exited
    rw [← charge.2.2]
    exact custody.ended i old found exited

theorem Custody.congr (custody : Custody exempt elements generation trace)
    (same : others.map ManagedElement.owner = elements.map ManagedElement.owner) :
    Custody exempt others generation trace := by
  have charges := congrArg (map Prod.snd) same
  simp only [map_map] at charges
  refine custody.regard charges fun i entry found started => .inr ?_
  obtain ⟨new, found, owner⟩ := exists_of_map_eq same.symm found
  simp only [ManagedElement.owner, ManagedElement.charge, Prod.mk.injEq] at owner
  exact ⟨new, found, owner.1.trans started, owner.2.2.2⟩

end

/-- Observations of an element concern neither law. -/
theorem Sound.adjust (sound : Sound exempt world) {own : Bringup}
    (state : own.state = world.own.state) (valid : own.error.valid = world.own.error.valid)
    (generation : own.generation = world.own.generation)
    (requestId : own.requestId = world.own.requestId) (marks : own.marks = world.own.marks)
    (owners : own.elements.map ManagedElement.owner =
      world.own.elements.map ManagedElement.owner) :
    Watched exempt world { world with own } := by
  refine ⟨⟨⟨?_, ?_⟩, ?_, ?_⟩, ⟨.own world own generation, state, valid, marks, id⟩⟩
  · dsimp only
    rw [state, valid, marks, requestId]
    exact sound.orderly
  · dsimp only
    rw [generation]
    exact sound.custody.congr owners
  · dsimp only
    rw [state]
    exact sound.settled
  · dsimp only
    rw [state, valid]
    exact sound.fits

/-- What the laws depend on, except for the children. -/
def Bringup.core (own : Bringup) :
    ApplicationState × Bool × Bool × Nat × UInt64 × List ManagedElement :=
  (own.state, own.setup, own.error.valid, own.generation, own.requestId, own.elements)

variable {post : Unit → World → Prop} {change : ManagedElement → ManagedElement}

/-- Other fields concern neither law. -/
theorem wp_adjust {change : Bringup → Bringup}
    (sound : Sound exempt world) (core : (change world.own).core = world.own.core)
    (next : ∀ later, Sound exempt later → Tended world later →
      later.own.core = world.own.core → post () later) :
    wp Decent (update change) post world := by
  have same := core
  simp only [Bringup.core, Prod.mk.injEq] at same
  obtain ⟨state, _, valid, generation, requestId, elements⟩ := same
  have marks : (change world.own).marks = world.own.marks := by
    unfold Bringup.marks
    rw [elements]
  obtain ⟨sound, tended⟩ := sound.adjust state valid generation requestId marks (by rw [elements])
  exact wp_update (next _ sound tended core)

theorem Sound.adjustElement {i : Nat} (sound : Sound exempt world)
    (mark : ∀ entry, world.own.elements[i]? = some entry → (change entry).mark = entry.mark)
    (owner : ∀ entry, world.own.elements[i]? = some entry → (change entry).owner = entry.owner) :
    Watched exempt world
      { world with own := { world.own with elements := world.own.elements.modify i change } } :=
  sound.adjust rfl rfl rfl rfl (map_modify _ mark) (map_modify _ owner)

theorem wp_adjustElement {i : Nat} (sound : Sound exempt world)
    (mark : ∀ entry, world.own.elements[i]? = some entry → (change entry).mark = entry.mark)
    (owner : ∀ entry, world.own.elements[i]? = some entry → (change entry).owner = entry.owner)
    (next : ∀ later, Sound exempt later → Tended world later → post () later) :
    wp Decent (updateElement i change) post world := by
  obtain ⟨sound, tended⟩ := sound.adjustElement mark owner
  exact wp_updateElement (next _ sound tended)

theorem keeps_adjustElement {i : Nat} {start : World}
    (mark : ∀ entry, (change entry).mark = entry.mark)
    (owner : ∀ entry, (change entry).owner = entry.owner) :
    Keeps Decent (Watched exempt start) (updateElement i change) :=
  keeps_watched fun _ sound => wp_adjustElement sound (fun entry _ => mark entry)
    (fun entry _ => owner entry) fun _ sound tended => ⟨sound, tended⟩

/-! ## Failures -/

/-- What `RecordFailure` does: unless a shutdown is requested, an error is latched. -/
structure Noted (world next : World) : Prop extends Followed world next where
  effective : next.Requested ∨ next.own.error.valid = true
  latched : world.own.error.valid = true → next.own.error.valid = true
  state : next.own.state = world.own.state ∨
    next.own.state = .error ∧ world.own.error.valid = false ∧
      (world.own.state = .initializing ∨ world.own.state = .running)

theorem Sound.valid_of_failure {i : Nat} {entry : ManagedElement} (sound : Sound exempt world)
    (found : world.own.elements[i]? = some entry) (failed : entry.failureDetected = true) :
    world.own.error.valid = true := by
  by_contra invalid
  have quiet := sound.orderly.quiet (eq_false_of_ne_true invalid) entry.mark
    (mem_map_of_mem (mem_of_getElem? found))
  cases quiet.symm.trans failed

/-- Without an error and a request to shut down, the application starts or runs. -/
theorem Sound.state_of_invalid (sound : Sound exempt world)
    (invalid : world.own.error.valid = false) (unrequested : ¬world.Requested) :
    world.own.state = .initializing ∨ world.own.state = .running := by
  have fit := sound.fits
  have requested := sound.orderly.requested
  rw [invalid] at fit
  cases state : world.own.state with
  | initializing => exact .inl rfl
  | running => exact .inr rfl
  | error | resetting => rw [state] at fit; cases fit
  | shuttingDown => exact absurd (requested (.inl state)) unrequested
  | stopped => exact absurd (requested (.inr state)) unrequested

theorem Bringup.valid_record (own : Bringup) (i now : Nat) (entry : ManagedElement)
    (kind : FailureKind)
    (code : Int32) : (own.record i now entry (entry.failure kind code)).error.valid = true := by
  unfold Bringup.record
  dsimp only
  split
  · assumption
  · rfl

theorem Held.record (held : Held exempt world) (i now : Nat) (entry : ManagedElement)
    (kind : FailureKind) (code : Int32) :
    Held exempt
      { world with own := world.own.record i now entry (entry.failure kind code) } := by
  refine ⟨?_, held.custody.congr (map_modify _ fun _ _ => rfl)⟩
  refine { held.orderly with quiet := ?_ }
  intro invalid
  cases (Bringup.valid_record ..).symm.trans invalid

theorem wp_recordFailure {i : Nat} {kind : FailureKind} {code : Int32} (sound : Sound exempt world)
    (next : ∀ later, Sound exempt later → Noted world later → post () later) :
    wp Decent (recordFailure i kind code) post world := by
  have same := (Tended.refl world).toFollowed
  refine wp_bind (wp_element sound.decent fun entry found => ?_)
  refine wp_ite (fun failed => wp_pure ?_) (fun _ => ?_)
  · exact next world sound ⟨same, .inr (sound.valid_of_failure found failed), id, .inl rfl⟩
  refine wp_bind (wp_shutdownRequested sound fun requested first sound' tended own yes no => ?_)
  refine wp_ite (fun isRequested => wp_pure ?_) (fun unrequested => ?_)
  · exact next first sound'
      ⟨tended.toFollowed, .inl (yes isRequested), tended.valid.trans, .inl tended.state⟩
  have unrequested : ¬world.Requested := no (eq_false_of_ne_true unrequested)
  refine wp_bind (wp_ask_sound sound' fun now second sound' tended' own' => wp_bind (wp_getOwn ?_))
  have tended := tended.trans tended'
  have valid := second.own.valid_record i now entry kind code
  have held := sound'.toHeld.record i now entry kind code
  have followed := tended.toFollowed.trans
    (.own second (second.own.record i now entry (entry.failure kind code)) rfl)
  refine wp_bind (wp_update ?_)
  by_cases invalid : world.own.error.valid = false
  · -- the application starts or runs, and goes to `ERROR`
    have state := sound.state_of_invalid invalid unrequested
    have resets : second.own.state ≠ .resetting := by
      rw [tended.state]
      rcases state with state | state <;> rw [state] <;> nofun
    have move : moves second.own.state .error = true := by
      rw [tended.state]
      rcases state with state | state <;> rw [state] <;> rfl
    refine wp_ite (fun _ => ?_) (fun other => absurd ⟨tended.valid.trans invalid, resets⟩ other)
    refine wp_setApplicationState held sound'.settled valid (fun _ => move) nofun nofun
      fun later sound moved => next later sound ?_
    refine ⟨followed.trans moved.toFollowed, .inr (moved.valid.trans valid), ?_, ?_⟩
    · exact fun _ => moved.valid.trans valid
    · exact .inr ⟨moved.state, invalid, state⟩
  · have latched : second.own.error.valid = true := by
      rw [tended.valid]
      exact eq_true_of_ne_false invalid
    refine wp_ite (fun both => ?_) (fun _ => wp_pure ?_)
    · cases latched.symm.trans both.1
    have fit := sound'.fits
    rw [latched.trans valid.symm] at fit
    exact next _ ⟨held, sound'.settled, fit⟩
      ⟨followed, .inr valid, fun _ => valid, .inl tended.state⟩

theorem keeps_updateExitInfo {i : Nat} {start : World} :
    Keeps Decent (Watched exempt start) (updateExitInfo i) := by
  refine keeps_watched fun world sound => ?_
  refine wp_bind (wp_element sound.decent fun entry _ => wp_update ?_)
  unfold Bringup.updateExitInfo
  dsimp only
  split
  · exact sound.adjustElement (fun _ _ => rfl) (fun _ _ => rfl)
  · refine sound.adjust rfl ?_ rfl rfl (map_modify _ fun _ _ => rfl) (map_modify _ fun _ _ => rfl)
    dsimp only
    split <;> rfl

/-! ## Children -/

section

variable {elements : List ManagedElement} {generation i j : Nat} {trace : List Event}
  {change : ManagedElement → ManagedElement} {entry : ManagedElement}

theorem modify_cases (found : (elements.modify i change)[j]? = some entry) :
    (j = i ∧ ∃ old, elements[i]? = some old ∧ entry = change old) ∨
      (j ≠ i ∧ elements[j]? = some entry) := by
  rw [getElem?_modify] at found
  obtain ⟨old, lookup, rfl⟩ := Option.map_eq_some_iff.mp found
  by_cases here : i = j
  · subst here
    exact .inl ⟨rfl, old, lookup, by simp⟩
  · rw [if_neg here]
    exact .inr ⟨Ne.symm here, lookup⟩

/-- A child is collected, or is found not to be there any more. -/
theorem Custody.part {event : Event} {process : Process}
    (custody : Custody exempt elements generation trace) (found : elements[i]? = some entry)
    (pid : 0 < entry.process.pid)
    (isPart : event = .collected i entry.child ∨ event = .lost i entry.child)
    (gone : ¬0 < process.pid)
    (exited : process.exited = true → .collected i entry.child ∈ trace ++ [event]) :
    Custody exempt (elements.modify i fun entry => { entry with process }) generation
      (trace ++ [event]) := by
  have about {other : Event} (member : other ∈ trace ++ [event]) :
      other ∈ trace ∨ other = .collected i entry.child ∨ other = .lost i entry.child := by
    refine (Data.mem_snoc member).imp_right ?_
    rintro rfl
    exact isPart
  have forked {j g : Nat} (member : .forked j g ∈ trace ++ [event]) : .forked j g ∈ trace := by
    rcases about member with old | new | new
    · exact old
    · cases new
    · cases new
  obtain ⟨born, _⟩ := custody.owned i entry found pid
  constructor
  case care =>
    refine custody.care.snoc ?_
    rcases isPart with rfl | rfl <;> trivial
  case young => exact fun j g member => custody.young j g (forked member)
  case known =>
    rintro j g (member | member)
    · rcases about member with old | new | new
      · exact mem_append_left _ (custody.known j g (.inl old))
      · cases new
        exact mem_append_left _ born
      · cases new
    · rcases about member with old | new | new
      · exact mem_append_left _ (custody.known j g (.inr old))
      · cases new
      · cases new
        exact mem_append_left _ born
  case kept =>
    intro j g member
    refine (custody.kept j g (forked member)).imp
      (Or.imp (mem_append_left _) (mem_append_left _)) (Or.imp_right ?_)
    rintro ⟨old, lookup, started, child⟩
    have same : (elements.modify i fun entry => { entry with process }).map
        (fun entry => (entry.started, entry.child)) =
        elements.map fun entry => (entry.started, entry.child) := map_modify _ fun _ _ => rfl
    obtain ⟨new, lookup, same⟩ := exists_of_map_eq same.symm lookup
    simp only [Prod.mk.injEq] at same
    exact ⟨new, lookup, same.1.trans started, same.2.trans child⟩
  case owned =>
    intro j new lookup alive
    rcases modify_cases lookup with ⟨_, old, _, rfl⟩ | ⟨elsewhere, lookup⟩
    · exact absurd alive gone
    · obtain ⟨born, uncollected, unlost⟩ := custody.owned j new lookup alive
      refine ⟨mem_append_left _ born, fun member => ?_, fun member => ?_⟩
      · rcases about member with old | new | new
        · exact uncollected old
        · exact elsewhere (Event.collected.inj new).1
        · cases new
      · rcases about member with old | new | new
        · exact unlost old
        · cases new
        · exact elsewhere (Event.lost.inj new).1
  case ended =>
    intro j new lookup done
    rcases modify_cases lookup with ⟨rfl, old, before, rfl⟩ | ⟨_, lookup⟩
    · cases found.symm.trans before
      exact exited done
    · exact mem_append_left _ (custody.ended j new lookup done)

end

variable {i : Nat} {entry : ManagedElement} {post : Int32 → World → Prop} {start : World}

section

variable (sound : Sound exempt world)
include sound

section

variable (found : world.own.elements[i]? = some entry) (pid : 0 < entry.process.pid)
include found pid

theorem Sound.part {event : Event} {process : Process}
    (isPart : event = .collected i entry.child ∨ event = .lost i entry.child)
    (gone : ¬0 < process.pid)
    (exited : process.exited = true → .collected i entry.child ∈ world.trace ++ [event]) :
    Watched exempt world
      { world with
        own :=
          { world.own with
            elements := world.own.elements.modify i fun entry => { entry with process } }
        trace := world.trace ++ [event] } := by
  have marks : (world.own.elements.modify i fun entry => { entry with process }).map
      ManagedElement.mark = world.own.marks := map_modify _ fun _ _ => rfl
  have custodial : event.isCustody = true := by rcases isPart with rfl | rfl <;> rfl
  refine ⟨⟨⟨?_, sound.custody.part found pid isPart gone exited⟩, sound.settled, sound.fits⟩, ?_⟩
  · change Orderly _ _ (map ManagedElement.mark _) _ _ _ _
    rw [marks]
    exact sound.orderly.custody custodial
  · refine ⟨⟨⟨id, id, subset_append_left _ _⟩, rfl, ?_⟩, rfl, rfl, marks, id⟩
    intro j g member
    rcases Data.mem_snoc member with old | rfl
    · exact old
    · rcases isPart with part | part <;> cases part

/-- What `CollectExit` finds. -/
theorem Sound.collectExit
    (result : WaitResult) :
    Watched exempt world (world.collectExit i entry result) := by
  have keep : (entry.process.collectExit result).1 = entry.process → Watched exempt world
      { world.collectExit i entry result with trace := world.trace ++ [] } := by
    intro same
    unfold World.collectExit
    rw [same, append_nil]
    refine sound.adjustElement (fun _ _ => rfl) (fun other lookup => ?_)
    cases found.symm.trans lookup
    rfl
  cases result with
  | running => exact keep rfl
  | collected status =>
    exact sound.part found pid (.inl rfl) (show ¬(0 : Int32) < -1 by decide) fun _ => by simp
  | failed error =>
    by_cases gone : error.1 = errorCode Errno.echild
    · have event : WaitResult.event i entry.child (.failed error) = [.lost i entry.child] :=
        if_pos gone
      have process : (entry.process.collectExit (.failed error)).1 =
          { entry.process with pid := -1 }.closeSupervision := if_pos gone
      unfold World.collectExit
      rw [event, process]
      refine sound.part found pid (.inr rfl) (show ¬(0 : Int32) < -1 by decide) fun exited => ?_
      exact mem_append_left _ (sound.custody.ended i entry found exited)
    · have event : WaitResult.event i entry.child (.failed error) = [] := if_neg gone
      have kept := keep (if_neg gone)
      rw [← event] at kept
      exact kept

theorem wp_collectExit (next : ∀ code later, Sound exempt later → Tended world later →
      (code = 0 → ∃ entry, later.own.elements[i]? = some entry ∧ 0 < entry.process.pid) →
      post code later) :
    wp Decent (collectExit i) post world := by
  refine wp_bind (wp_element sound.decent fun same lookup => ?_)
  cases found.symm.trans lookup
  refine wp_bind (wp_ask sound.decent fun result inputs => wp_bind (wp_modify (wp_pure ?_)))
  obtain ⟨sound, tended⟩ := (sound.inputs inputs).collectExit found pid result
  refine next _ _ sound ((Tended.inputs world inputs).trans tended) ?_
  intro runs
  cases result with
  | running => exact ⟨entry, by simp [World.collectExit, found, Process.collectExit], pid⟩
  | collected status => cases runs
  | failed error =>
    have negative := error.2
    rw [show error.1 = 0 from runs] at negative
    cases negative

end

/-- What is done to the children, if it does not change where they are. -/
theorem Sound.note {event : Event}
    (custody : event.isCustody = true) (neutral : event.isRecord = false)
    (allowed : Care world.trace event) :
    Watched exempt world { world with trace := world.trace ++ [event] } := by
  refine ⟨⟨⟨sound.orderly.custody custody, sound.custody.note neutral allowed⟩, sound.settled,
    sound.fits⟩, ⟨⟨id, id, subset_append_left _ _⟩, rfl, ?_⟩, rfl, rfl, rfl, id⟩
  exact fun _ _ forked => mem_of_snoc rfl neutral forked

end

theorem keeps_isRunning : Keeps Decent (Watched exempt start) (isRunning i) := by
  refine keeps_watched fun world sound => ?_
  refine wp_bind (wp_element sound.decent fun entry found => ?_)
  refine wp_ite (fun _ => wp_pure sound.watched) (fun pid => wp_bind ?_)
  exact wp_collectExit sound found (Int32.not_le.mp pid) fun _ _ sound tended _ =>
    wp_pure ⟨sound, tended⟩

theorem keeps_stopProcess : Keeps Decent (Watched exempt start) (stopProcess i) := by
  refine keeps_watched fun world sound => ?_
  refine wp_bind (wp_element sound.decent fun entry found => ?_)
  refine wp_ite (fun _ => wp_pure sound.watched) (fun pid => wp_bind ?_)
  refine wp_collectExit sound found (Int32.not_le.mp pid) fun code first sound tended alive => ?_
  refine wp_ite (fun _ => wp_pure ⟨sound, tended⟩) (fun runs => ?_)
  obtain ⟨entry, found, pid⟩ := alive (not_not.mp runs)
  refine wp_bind (wp_element sound.decent fun same lookup => wp_bind (wp_emit ?_))
  cases found.symm.trans lookup
  -- a child that is known by its number was neither collected nor lost
  have spared : Care first.trace (.signaled i entry.child) :=
    (sound.custody.owned i entry found pid).2
  obtain ⟨sound, tended'⟩ := sound.note rfl rfl spared
  exact keeps_ask ⟨sound, tended.trans tended'⟩

theorem keeps_waitProcess : Keeps Decent (Watched exempt start) (waitProcess i) := by
  refine keeps_watched fun world sound => ?_
  refine wp_bind (wp_element sound.decent fun entry found => ?_)
  refine wp_ite (fun _ => wp_pure sound.watched) (fun _ => ?_)
  refine wp_ite (fun _ => wp_pure sound.watched) (fun pid => wp_bind ?_)
  exact wp_collectExit sound found (Int32.not_le.mp pid) fun _ _ sound tended _ =>
    wp_pure ⟨sound, tended⟩

end Kcf.Supervisor
