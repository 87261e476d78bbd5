import Kcf.Data.Trace
import Kcf.Supervisor.Program

/-!
# The laws of supervision

Which state may follow which, what a published status says, when a reset is accepted and
what becomes of it; and what a supervisor may do to its children.  Both laws are stated for
traces, so that they hold wherever a run is cut off.
-/

namespace Kcf.Supervisor

open List
open Kcf.Data (Lawful)

/-! ## Conduct -/

/-- The edges of the state machine. -/
def edge : ApplicationState → ApplicationState → Bool
  | .initializing, .running | .initializing, .error | .initializing, .shuttingDown => true
  | .running, .error | .running, .shuttingDown => true
  | .error, .resetting | .error, .shuttingDown => true
  | .resetting, .running | .resetting, .error | .resetting, .shuttingDown => true
  | .shuttingDown, .stopped => true
  | _, _ => false

/-- `Shutdown` may also take a stopped supervisor back. -/
def moves (before after : ApplicationState) : Bool :=
  edge before after || (before = .stopped && after = .shuttingDown)

/-- Whether an error is to be latched in a state. -/
def fits : ApplicationState → Bool → Bool
  | .error, valid | .resetting, valid => valid
  | .initializing, valid | .running, valid => !valid
  | .shuttingDown, _ | .stopped, _ => true

def Event.state? : Event → Option ApplicationState
  | .state entered => some entered
  | _ => none

/-- The states that were entered. -/
def states (trace : List Event) : List ApplicationState := trace.filterMap Event.state?

/-- The state after a trace. -/
def current (trace : List Event) : ApplicationState := (states trace).getLastD .initializing

/-- The gate was opened, and since then at most `ERROR` itself was entered. -/
def Window (trace : List Event) : Prop :=
  ∃ before after, trace = before ++ .opened :: after ∧ (states after = [] ∨ states after = [.error])

/-- The law of the state machine. -/
def Conduct (before : List Event) : Event → Prop
  | .state state => moves (current before) state = true
  | .status snapshot => fits snapshot.state snapshot.errorValid = true
  | .accepted => Window before
  | .discarded state => state = .shuttingDown
  | _ => True

def Event.isAccepted : Event → Bool
  | .accepted => true
  | _ => false

def Event.isReset : Event → Bool
  | .reset => true
  | _ => false

def Event.isDiscarded : Event → Bool
  | .discarded _ => true
  | _ => false

/-- Every accepted reset is carried out, pending, or was discarded. -/
def Balanced (gate : Gate) (trace : List Event) : Prop :=
  trace.countP Event.isReset + trace.countP Event.isDiscarded +
    (if gate = .pending then 1 else 0) = trace.countP Event.isAccepted

/-! ## Care -/

/-- A child was collected, or the `Wait` of a failed start has not collected it. -/
def Reaped (trace : List Event) (i generation : Nat) : Prop :=
  .collected i generation ∈ trace ∨ .unreaped i generation ∈ trace

/-- The law of what is done to children. -/
def Care (before : List Event) : Event → Prop
  | .start _ generation =>
    ∀ i earlier, .forked i earlier ∈ before → earlier < generation → Reaped before i earlier
  | .signaled i generation => .collected i generation ∉ before ∧ .lost i generation ∉ before
  | .cleared i generation => .collected i generation ∈ before
  | .stopped code clear => code = 0 → clear = true
  | _ => True

/-- The events that say what becomes of children. -/
def Event.isCustody : Event → Bool
  | .start .. | .forked .. | .collected .. | .lost .. | .unreaped .. | .signaled .. | .cleared ..
  | .stopped .. => true
  | _ => false

/-- The events that say where a child is. -/
def Event.isRecord : Event → Bool
  | .forked .. | .collected .. | .lost .. => true
  | _ => false

/-! ## What holds between any two steps -/

/-- The flags of an element that the laws depend on. -/
def ManagedElement.mark (entry : ManagedElement) : Bool × Bool × Nat :=
  (entry.started, entry.failureDetected, entry.child)

def Bringup.marks (own : Bringup) : List (Bool × Bool × Nat) := own.elements.map ManagedElement.mark

/-- The state machine is where its trace says. -/
structure Orderly (state : ApplicationState) (valid : Bool) (marks : List (Bool × Bool × Nat))
    (gate : Gate) (requested : Prop) (polls : Nat) (trace : List Event) : Prop where
  conduct : Lawful Conduct trace
  current : current trace = state
  requested : state = .shuttingDown ∨ state = .stopped → requested
  quiet : valid = false → ∀ mark ∈ marks, mark.2.1 = false
  window : gate ≠ .closed → Window trace
  balanced : Balanced gate trace
  polls : polls < 0xffffffffffffffff

/-- The children are where their trace says; one may be about to be adopted. -/
structure Custody (exempt : Option (Nat × Nat)) (elements : List ManagedElement)
    (generation : Nat) (trace : List Event) : Prop where
  care : Lawful Care trace
  young : ∀ i g, .forked i g ∈ trace → g ≤ generation
  known : ∀ i g, .collected i g ∈ trace ∨ .lost i g ∈ trace → .forked i g ∈ trace
  kept : ∀ i g, .forked i g ∈ trace → Reaped trace i g ∨ exempt = some (i, g) ∨
    ∃ entry, elements[i]? = some entry ∧ entry.started = true ∧ entry.child = g
  owned : ∀ i entry, elements[i]? = some entry → 0 < entry.process.pid →
    .forked i entry.child ∈ trace ∧ .collected i entry.child ∉ trace ∧
      .lost i entry.child ∉ trace
  ended : ∀ i entry, elements[i]? = some entry → entry.process.exited = true →
    .collected i entry.child ∈ trace

/-- A trace keeps both laws. -/
structure Seemly (state : ApplicationState) (gate : Gate) (trace : List Event) : Prop where
  current : current trace = state
  conduct : Lawful Conduct trace
  balanced : Balanced gate trace
  care : Lawful Care trace

/-- What holds wherever a run is cut off. -/
def Decent (world : World) : Prop := Seemly world.own.state world.gate world.trace

/-- What holds between any two steps, even if the state is about to change. -/
structure Held (exempt : Option (Nat × Nat)) (world : World) : Prop where
  orderly : Orderly world.own.state world.own.error.valid world.own.marks world.gate
    world.Requested (world.own.requestId.toNat + world.polls) world.trace
  custody : Custody exempt world.own.elements world.own.generation world.trace

/-- What holds between any two steps. -/
structure Sound (exempt : Option (Nat × Nat)) (world : World) : Prop
    extends Held exempt world where
  settled : world.gate ≠ .closed → world.own.state = .error
  fits : fits world.own.state world.own.error.valid = true

/-- What every part of a run keeps, once `Setup` has begun. -/
structure Lasting (world next : World) : Prop where
  stop : world.stopRequested = true → next.stopRequested = true
  shutdown : world.shutdownRequested = true → next.shutdownRequested = true
  grows : world.trace ⊆ next.trace

/-- What every part of a run leaves alone, if it starts no children. -/
structure Followed (world next : World) : Prop extends Lasting world next where
  generation : next.own.generation = world.own.generation
  forks : ∀ i g, .forked i g ∈ next.trace → .forked i g ∈ world.trace

/-- What the steps leave alone that do not concern the state machine. -/
structure Tended (world next : World) : Prop extends Followed world next where
  state : next.own.state = world.own.state
  valid : next.own.error.valid = world.own.error.valid
  marks : next.own.marks = world.own.marks
  closed : world.gate = .closed → next.gate = .closed

theorem Held.decent {exempt : Option (Nat × Nat)} {world : World} (held : Held exempt world) :
    Decent world :=
  ⟨held.orderly.current, held.orderly.conduct, held.orderly.balanced, held.custody.care⟩

section

variable {first second third : World}

theorem Lasting.requested (lasting : Lasting first second) (requested : first.Requested) :
    second.Requested :=
  requested.imp lasting.stop lasting.shutdown

theorem Lasting.trans (before : Lasting first second) (after : Lasting second third) :
    Lasting first third where
  stop := after.stop ∘ before.stop
  shutdown := after.shutdown ∘ before.shutdown
  grows := Subset.trans before.grows after.grows

theorem Followed.trans (before : Followed first second) (after : Followed second third) :
    Followed first third where
  toLasting := before.toLasting.trans after.toLasting
  generation := after.generation.trans before.generation
  forks := fun i g forked => before.forks i g (after.forks i g forked)

theorem Tended.refl (world : World) : Tended world world :=
  ⟨⟨⟨id, id, Subset.refl _⟩, rfl, fun _ _ forked => forked⟩, rfl, rfl, rfl, id⟩

theorem Tended.trans (before : Tended first second) (after : Tended second third) :
    Tended first third where
  toFollowed := before.toFollowed.trans after.toFollowed
  state := after.state.trans before.state
  valid := after.valid.trans before.valid
  marks := after.marks.trans before.marks
  closed := after.closed ∘ before.closed

end

/-! ## Traces that grow -/

section

variable {trace : List Event} {event : Event}

theorem states_snoc (trace : List Event) (event : Event) :
    states (trace ++ [event]) = states trace ++ event.state?.toList := by
  unfold states
  rw [filterMap_append]
  cases event <;> rfl

theorem current_snoc (trace : List Event) (event : Event) :
    current (trace ++ [event]) = event.state?.getD (current trace) := by
  unfold current
  rw [states_snoc]
  cases event.state? <;> simp

theorem Window.snoc (window : Window trace) (other : event.state? = none) :
    Window (trace ++ [event]) := by
  obtain ⟨before, after, rfl, entered⟩ := window
  refine ⟨before, after ++ [event], by simp, ?_⟩
  rw [states_snoc, other]
  simpa using entered

/-- `ERROR` is entered after the gate was opened. -/
theorem Window.enter (window : Window trace) (other : current trace ≠ .error) :
    Window (trace ++ [.state .error]) := by
  obtain ⟨before, after, rfl, entered⟩ := window
  refine ⟨before, after ++ [.state .error], by simp, .inr ?_⟩
  rcases entered with none | error
  · rw [states_snoc, none]
    rfl
  · refine absurd ?_ other
    have split : states (before ++ .opened :: after) = states before ++ states after :=
      filterMap_append
    unfold current
    rw [split, error]
    simp

theorem Window.opened (trace : List Event) : Window (trace ++ [.opened]) :=
  ⟨trace, [], rfl, .inl rfl⟩

/-- An event and the gate change together. -/
theorem Balanced.move {gate gate' : Gate} (balanced : Balanced gate trace)
    (kept : event.isReset.toNat + event.isDiscarded.toNat + (if gate' = .pending then 1 else 0) =
      event.isAccepted.toNat + if gate = .pending then 1 else 0) :
    Balanced gate' (trace ++ [event]) := by
  have weight (b : Bool) : (if b = true then 1 else 0) = b.toNat := by cases b <;> rfl
  unfold Balanced at balanced ⊢
  simp only [countP_append, countP_singleton, weight]
  omega

theorem Balanced.snoc {gate : Gate} (balanced : Balanced gate trace)
    (reset : event.isReset = false) (discarded : event.isDiscarded = false)
    (accepted : event.isAccepted = false) : Balanced gate (trace ++ [event]) := by
  refine balanced.move ?_
  simp only [reset, discarded, accepted, Bool.toNat_false, Nat.zero_add]

/-- A record is in a longer trace only if it was in the shorter one. -/
theorem mem_of_snoc {other : Event} (record : other.isRecord = true)
    (neutral : event.isRecord = false) (member : other ∈ trace ++ [event]) : other ∈ trace := by
  rcases Data.mem_snoc member with old | rfl
  · exact old
  · cases neutral.symm.trans record

end

section

variable {state : ApplicationState} {valid : Bool} {marks : List (Bool × Bool × Nat)}
  {gate : Gate} {requested : Prop} {polls : Nat} {trace : List Event} {event : Event}

section

variable (orderly : Orderly state valid marks gate requested polls trace)
include orderly

/-- An event that enters no state; the gate may change with it. -/
theorem Orderly.snoc {gate' : Gate}
    (other : event.state? = none) (conduct : Conduct trace event)
    (window : gate' ≠ .closed → Window (trace ++ [event]))
    (balanced : Balanced gate' (trace ++ [event])) :
    Orderly state valid marks gate' requested polls (trace ++ [event]) :=
  { orderly with
    conduct := orderly.conduct.snoc conduct, window, balanced
    current := by rw [current_snoc, other]; exact orderly.current }

/-- Custody events do not concern the state machine. -/
theorem Orderly.custody
    (custody : event.isCustody = true) :
    Orderly state valid marks gate requested polls (trace ++ [event]) := by
  have other : event.state? = none := by cases event <;> first | rfl | cases custody
  refine orderly.snoc other ?_ (fun unclosed => (orderly.window unclosed).snoc other) ?_
  · cases event <;> trivial
  · refine orderly.balanced.snoc ?_ ?_ ?_ <;> cases event <;> first | rfl | cases custody

theorem Orderly.mono {requested' : Prop}
    (implies : requested → requested') :
    Orderly state valid marks gate requested' polls trace :=
  { orderly with requested := implies ∘ orderly.requested }

end

end

section

variable {exempt : Option (Nat × Nat)} {elements : List ManagedElement} {generation : Nat}
  {trace : List Event} {event : Event}

/-- Other events leave the children where they are. -/
theorem Custody.note (custody : Custody exempt elements generation trace)
    (neutral : event.isRecord = false) (allowed : Care trace event) :
    Custody exempt elements generation (trace ++ [event]) where
  care := custody.care.snoc allowed
  young := fun i g forked => custody.young i g (mem_of_snoc rfl neutral forked)
  known := by
    rintro i g (collected | lost)
    · exact mem_append_left _ (custody.known i g (.inl (mem_of_snoc rfl neutral collected)))
    · exact mem_append_left _ (custody.known i g (.inr (mem_of_snoc rfl neutral lost)))
  kept := by
    intro i g forked
    refine (custody.kept i g (mem_of_snoc rfl neutral forked)).imp_left ?_
    exact Or.imp (mem_append_left _) (mem_append_left _)
  owned := by
    intro i entry found pid
    obtain ⟨forked, uncollected, unlost⟩ := custody.owned i entry found pid
    refine ⟨mem_append_left _ forked, ?_, ?_⟩
    · exact fun collected => uncollected (mem_of_snoc rfl neutral collected)
    · exact fun lost => unlost (mem_of_snoc rfl neutral lost)
  ended := fun i entry found exited => mem_append_left _ (custody.ended i entry found exited)

end

end Kcf.Supervisor
