import Kcf.Ipc.Channel.Core
import Kcf.Transition.Population

/-!
# Pins and the owner flag

`ChannelSlot::users` is either the owner flag of the publisher or the number of
readers that hold a pin.  This module says once what a step does to that field
and to the fields it protects, and derives the exclusion invariant.
-/

namespace Kcf.Ipc.Channel

open Kcf.Transition Function

variable {ring : Ring} {ι : Type}

/-! ## Storage updates -/

namespace Storage

variable {size : Nat} (storage : Storage size) (index other value : Nat)

theorem setSlot_slots (slot : Slot size) :
    (storage.setSlot index slot).slots other =
      if other = index then slot else storage.slots other := by
  simp only [setSlot, update_apply]

theorem setSlot_self : storage.setSlot index (storage.slots index) = storage := by
  simp only [setSlot, update_eq_self]

end Storage

/-- The fields of a slot that `users` protects. -/
structure Slot.SameContents {size : Nat} (slot other : Slot size) : Prop where
  version : other.version = slot.version
  sequence : other.sequence = slot.sequence
  data : other.data = slot.data

theorem Slot.SameContents.refl {size : Nat} (slot : Slot size) : slot.SameContents slot :=
  ⟨rfl, rfl, rfl⟩

theorem Storage.setUsers_sameContents {size : Nat} (storage : Storage size)
    (index users other : Nat) :
    (storage.slots other).SameContents ((storage.setUsers index users).slots other) := by
  simp only [Storage.setUsers, Storage.setSlot_slots]
  split
  next equal => subst equal; exact ⟨rfl, rfl, rfl⟩
  · exact Slot.SameContents.refl _

/-! ## Who holds a slot -/

/-- Phases in which the publisher owns its target. -/
def Phase.holding {size : Nat} : Phase size → Bool
  | .acquire | .commit | .notify => false
  | _ => true

/-- The slot whose owner flag the publisher has set. -/
def Publisher.held (ring : Ring) : Publisher ring.size → Option Nat
  | .active write phase => if phase.holding then some (write.target ring) else none
  | _ => none

/-- The slot a reader has pinned. -/
def ReaderPc.pinned (ring : Ring) : ReaderPc ring.size → Option Nat
  | .loadVersion lookup | .loadPublished lookup _ | .check lookup _ _ | .reject lookup
  | .copy lookup _ _ _ | .reloadVersion lookup _ _ | .unpin lookup _ _ _ =>
    some (lookup.target ring)
  | .idle | .load _ | .loadUsers _ | .pin _ _ | .done _ => none

/-- The publisher works on no lane. -/
abbrev Publisher.Inactive (publisher : Publisher ring.size) : Prop :=
  ∀ write phase, publisher ≠ .active write phase

theorem Publisher.Inactive.held {publisher : Publisher ring.size} (inactive : publisher.Inactive) :
    publisher.held ring = none := by
  cases publisher with
  | active write phase => exact absurd rfl (inactive write phase)
  | _ => rfl

theorem inactive_afterLock (call : Call ring.size) (error : Int) :
    (afterLock call error).Inactive := by
  unfold afterLock
  split <;> nofun

theorem inactive_leave (call : Call ring.size) (code : Int) : (leave call code).Inactive := by
  unfold leave
  split <;> nofun

theorem held_nextLane (write : Write ring.size) : (nextLane write).held ring = none := by
  unfold nextLane
  split
  · rfl
  · exact (inactive_leave _ _).held

@[simp] theorem pinned_nextLookup (lookup : Lookup) :
    (nextLookup lookup : ReaderPc ring.size).pinned ring = none := by
  unfold nextLookup
  split <;> rfl

@[simp] theorem pinned_beginLookup (cursor latest : Nat) (kind : ReadKind) :
    (beginLookup ring cursor latest kind).pinned ring = none := by
  unfold beginLookup
  split
  · split <;> rfl
  · split <;> rfl
  · rfl

/-! ## What one step does to `users` and to the protected fields -/

/-- Effect of a publisher step: it touches only the slot it holds, it takes a
slot only when nobody uses it, and it leaves the flag cleared. -/
structure PublisherFrame (state next : State ring ι) : Prop where
  readers : next.readers = state.readers
  contents : ∀ index, state.publisher.held ring ≠ some index →
    (state.storage.slots index).SameContents (next.storage.slots index)
  users : ∀ index, (next.storage.slots index).users =
    if next.publisher.held ring = some index then
      if state.publisher.held ring = some index then (state.storage.slots index).users
      else writing
    else if state.publisher.held ring = some index then 0
    else (state.storage.slots index).users
  acquired : ∀ index, next.publisher.held ring = some index →
    state.publisher.held ring ≠ some index → (state.storage.slots index).users = 0

variable {state next : State ring ι} {reader moved : Reader ring.size}

/-- A step that changes neither the storage slots nor the held slot. -/
theorem PublisherFrame.of_same (readers : next.readers = state.readers)
    (slots : next.storage.slots = state.storage.slots)
    (held : next.publisher.held ring = state.publisher.held ring) :
    PublisherFrame state next where
  readers := readers
  contents index _ := by rw [slots]; exact Slot.SameContents.refl _
  users index := by rw [slots, held]; split <;> rfl
  acquired index here gone := absurd (held ▸ here) gone

/-- A step that writes to one slot, which it may hold before and after it. -/
theorem PublisherFrame.of_setSlot {index : Nat} {slot : Slot ring.size} {b a : Bool}
    (readers : next.readers = state.readers)
    (slots : next.storage.slots = (state.storage.setSlot index slot).slots)
    (before : state.publisher.held ring = if b then some index else none)
    (after : next.publisher.held ring = if a then some index else none)
    (contents : b = true ∨ (state.storage.slots index).SameContents slot)
    (users : slot.users = if a then if b then (state.storage.slots index).users else writing
      else if b then 0 else (state.storage.slots index).users)
    (acquired : a = true → b = false → (state.storage.slots index).users = 0) :
    PublisherFrame state next where
  readers := readers
  contents other free := by
    rw [slots, Storage.setSlot_slots]
    split
    next same =>
      subst same
      exact contents.resolve_left fun held => free (before.trans (if_pos held))
    · exact Slot.SameContents.refl _
  users other := by
    rw [slots, Storage.setSlot_slots, before, after]
    by_cases same : other = index
    · subst same
      cases a <;> cases b <;> simpa using users
    · cases a <;> cases b <;> simp [same, Ne.symm same]
  acquired other here gone := by
    rw [after] at here
    rw [before] at gone
    split at here <;> cases here
    next held => exact acquired held (by simpa using gone)

theorem writeStep_frame (state : State ring ι) (write : Write ring.size)
    (phase : Phase ring.size) (outcome : Int)
    (active : state.publisher = .active write phase) :
    PublisherFrame state (writeStep state write outcome phase) := by
  have held : state.publisher.held ring =
      if phase.holding then some (write.target ring) else none := by
    rw [active]
    rfl
  cases phase with
  | acquire =>
    simp only [writeStep]
    split
    next free =>
      exact .of_setSlot (a := true) rfl rfl held rfl (.inr ⟨rfl, rfl, rfl⟩) rfl fun _ _ => free
    · exact .of_same rfl rfl ((held_nextLane write).trans held.symm)
  | inspect =>
    simp only [writeStep]
    split
    · exact .of_same rfl rfl held.symm
    · refine .of_same rfl rfl ?_
      rw [held]
      cases write.call.notify <;> rfl
  | skip => exact .of_setSlot (a := false) rfl rfl held (held_nextLane write) (.inl rfl) rfl nofun
  | broadcast =>
    refine .of_same rfl rfl ?_
    rw [held]
    simp only [writeStep, State.setPublisher]
    split <;> rfl
  | abandon error =>
    exact .of_setSlot (a := false) rfl rfl held (inactive_leave _ _).held (.inl rfl) rfl nofun
  | beginVersion | stamp | endVersion =>
    exact .of_setSlot (a := true) rfl rfl held rfl (.inl rfl) rfl nofun
  | copy todo =>
    cases todo with
    | nil => exact .of_same rfl rfl held.symm
    | cons position todo => exact .of_setSlot (a := true) rfl rfl held rfl (.inl rfl) rfl nofun
  | release => exact .of_setSlot (a := false) rfl rfl held rfl (.inl rfl) rfl nofun
  | commit =>
    refine .of_same rfl rfl ?_
    rw [held]
    simp only [writeStep]
    split <;> rfl
  | notify => exact .of_same rfl rfl held.symm

/-- What a step of the publisher is: an access of a write, or one outside that touches no slot
and may enter the first lane. -/
theorem publisherStep_cases {outcome : Int} (stepped : publisherStep state outcome = some next) :
    (∃ write phase, state.publisher = .active write phase ∧
      next = writeStep state write outcome phase) ∨
    state.publisher.Inactive ∧ ∃ notified publisher,
      next = (state.setStorage { state.storage with
        notifySequence := notified }).setPublisher publisher ∧
      (publisher.Inactive ∨ state.storage.publishSequence ≠ maxSequence ∧ ∃ call,
        publisher = .active ⟨call, state.storage.publishSequence + 1, 0⟩ .acquire) := by
  unfold publisherStep at stepped
  split at stepped
  all_goals try cases stepped
  case h_7 write phase current =>
    exact .inl ⟨write, phase, current, rfl⟩
  case h_3 call current =>
    refine .inr ⟨by rw [current]; nofun, _, _, rfl, .inl ?_⟩
    split
    · nofun
    · exact inactive_afterLock _ _
  case h_4 call current | h_8 code current =>
    exact .inr ⟨by rw [current]; nofun, _, _, rfl, .inl nofun⟩
  case h_5 call current =>
    exact .inr ⟨by rw [current]; nofun, _, _, rfl, .inl (inactive_afterLock _ _)⟩
  case h_6 call current =>
    refine .inr ⟨by rw [current]; nofun, _, _, rfl, ?_⟩
    split
    · exact .inl (inactive_leave _ _)
    next room => exact .inr ⟨room, call, rfl⟩

theorem publisherStep_frame {outcome : Int}
    (stepped : publisherStep state outcome = some next) : PublisherFrame state next := by
  obtain ⟨write, phase, active, rfl⟩ | ⟨before, notified, publisher, rfl, after⟩ :=
    publisherStep_cases stepped
  · exact writeStep_frame state write phase outcome active
  · refine .of_same rfl rfl (Eq.trans ?_ before.held.symm)
    obtain inactive | ⟨-, call, rfl⟩ := after
    · exact inactive.held
    · rfl

/-- Effect of a reader step: no protected field changes, and `users` moves by
one exactly when the reader takes or drops its pin. -/
structure ReaderFrame (ring : Ring) (storage after : Storage ring.size)
    (reader moved : Reader ring.size) : Prop where
  published : after.publishSequence = storage.publishSequence
  contents : ∀ index, (storage.slots index).SameContents (after.slots index)
  users :
    (moved.pc.pinned ring = reader.pc.pinned ring ∧
      ∀ index, (after.slots index).users = (storage.slots index).users) ∨
    (∃ target, reader.pc.pinned ring = none ∧ moved.pc.pinned ring = some target ∧
      (∃ lookup, reader.pc = .pin lookup (storage.slots target).users) ∧
      ∀ index, (after.slots index).users =
        if index = target then (storage.slots target).users + 1
        else (storage.slots index).users) ∨
    (∃ target, reader.pc.pinned ring = some target ∧ moved.pc.pinned ring = none ∧
      ∀ index, (after.slots index).users =
        if index = target then fetchSub (storage.slots target).users
        else (storage.slots index).users)

theorem ReaderFrame.of_same {storage : Storage ring.size}
    (pinned : moved.pc.pinned ring = reader.pc.pinned ring) :
    ReaderFrame ring storage storage reader moved :=
  ⟨rfl, fun _ => Slot.SameContents.refl _, .inl ⟨pinned, fun _ => rfl⟩⟩

theorem ReaderFrame.of_unpin {storage : Storage ring.size}
    {target : Nat} (before : reader.pc.pinned ring = some target)
    (after : moved.pc.pinned ring = none) :
    ReaderFrame ring storage
      (storage.setUsers target (fetchSub (storage.slots target).users)) reader moved := by
  refine ⟨rfl, fun index => storage.setUsers_sameContents _ _ index,
    .inr (.inr ⟨target, before, after, fun index => ?_⟩)⟩
  simp only [Storage.setUsers, Storage.setSlot_slots]
  split <;> rfl

theorem readerStep_frame {storage after : Storage ring.size}
    (stepped : readerStep ring storage reader = some (after, moved)) :
    ReaderFrame ring storage after reader moved := by
  obtain ⟨opened, cursor, pc, value, info⟩ := reader
  cases pc with
  | idle | done => cases stepped
  | load kind =>
    cases stepped
    exact .of_same (pinned_beginLookup _ _ _)
  | loadUsers lookup =>
    cases stepped
    refine .of_same ?_
    dsimp only
    split
    · exact pinned_nextLookup _
    · rfl
  | pin lookup users =>
    simp only [readerStep] at stepped
    split at stepped <;> cases stepped
    next equal =>
      refine ⟨rfl, fun index => storage.setUsers_sameContents _ _ index, .inr (.inl
        ⟨lookup.target ring, rfl, rfl, ⟨lookup, by rw [equal]⟩, fun index => ?_⟩)⟩
      simp only [Storage.setUsers, Storage.setSlot_slots, equal]
      split <;> rfl
    · exact .of_same (pinned_nextLookup _)
  | check lookup before latest =>
    cases stepped
    refine .of_same ?_
    dsimp only
    split <;> rfl
  | reject lookup =>
    cases stepped
    exact .of_unpin rfl (pinned_nextLookup _)
  | unpin lookup before seen buffer =>
    cases stepped
    refine .of_unpin rfl ?_
    dsimp only
    split
    · rfl
    · exact pinned_nextLookup _
  | copy lookup before todo buffer => cases todo <;> cases stepped <;> exact .of_same rfl
  | loadVersion | loadPublished | reloadVersion =>
    cases stepped
    exact .of_same rfl

theorem nextLookup_ne_pin (other lookup : Lookup) (users : Nat) :
    (nextLookup other : ReaderPc ring.size) ≠ .pin lookup users := by
  unfold nextLookup
  split <;> simp

/-- A reader attempts its compare-exchange only from a count below the flag. -/
theorem readerStep_attempt {storage after : Storage ring.size}
    (stepped : readerStep ring storage reader = some (after, moved))
    {lookup : Lookup} {users : Nat} (current : moved.pc = .pin lookup users) :
    users < writing - 1 := by
  unfold readerStep at stepped
  split at stepped
  all_goals try cases stepped
  case h_3 kind _ =>
    simp only [beginLookup] at current
    split at current <;> (try split at current) <;> cases current
  case h_4 =>
    simp only at current
    split at current
    · exact absurd current (nextLookup_ne_pin _ _ _)
    next small =>
      cases current
      omega
  case h_5 =>
    split at stepped <;> cases stepped
    · cases current
    · exact absurd current (nextLookup_ne_pin _ _ _)
  case h_8 =>
    simp only at current
    split at current <;> cases current
  case h_9 =>
    exact absurd current (nextLookup_ne_pin _ _ _)
  case h_13 =>
    split at current
    · cases current
    · exact absurd current (nextLookup_ne_pin _ _ _)
  case h_6 | h_7 | h_10 | h_11 | h_12 =>
    cases current

/-! ## Exclusion -/

section Exclusion

variable [Fintype ι]

/-- Number of readers that hold a pin on a slot. -/
def pinCount (state : State ring ι) (index : Nat) : Nat :=
  population state.readers fun reader => reader.pc.pinned ring = some index

/-- The meaning of `users`: the owner flag while the publisher holds the slot,
otherwise the number of pins, which never reaches the flag. -/
structure Exclusive (state : State ring ι) : Prop where
  held : ∀ index, state.publisher.held ring = some index →
    (state.storage.slots index).users = writing ∧ pinCount state index = 0
  free : ∀ index, state.publisher.held ring ≠ some index →
    (state.storage.slots index).users = pinCount state index
  bound : ∀ index, pinCount state index < writing
  attempt : ∀ reader lookup users,
    (state.readers reader).pc = .pin lookup users → users < writing - 1

variable {state : State ring ι} {reader : ι} {moved : Reader ring.size}

/-- A pinned slot is not held by the publisher. -/
theorem Exclusive.not_held_of_pinned (exclusive : Exclusive state) {index : Nat}
    (pinned : (state.readers reader).pc.pinned ring = some index) :
    state.publisher.held ring ≠ some index := by
  intro held
  have positive : 0 < pinCount state index := population_pos pinned
  have none := (exclusive.held index held).2
  omega

theorem Exclusive.of_fresh (fresh : Fresh state) : Exclusive state := by
  have none : ∀ index, pinCount state index = 0 := by
    intro index
    apply population_eq_zero
    intro reader pinned
    obtain ⟨_, _, detached⟩ := fresh.readers reader
    rw [detached] at pinned
    cases pinned
  refine ⟨?_, ?_, ?_, ?_⟩
  · intro index held
    rw [fresh.publisher] at held
    cases held
  · intro index _
    rw [fresh.users, none]
  · intro index
    rw [none]
    decide
  · intro reader lookup users current
    obtain ⟨_, _, detached⟩ := fresh.readers reader
    rw [detached] at current
    cases current

theorem Exclusive.publisher {state next : State ring ι} (exclusive : Exclusive state)
    (frame : PublisherFrame state next) : Exclusive next := by
  have count : ∀ index, pinCount next index = pinCount state index := by
    intro index
    rw [pinCount, frame.readers, pinCount]
  refine ⟨?_, ?_, ?_, ?_⟩
  · intro index held
    have users := frame.users index
    rw [if_pos held] at users
    rw [count]
    by_cases before : state.publisher.held ring = some index
    · rw [if_pos before] at users
      exact ⟨users.trans (exclusive.held index before).1, (exclusive.held index before).2⟩
    · rw [if_neg before] at users
      refine ⟨users, ?_⟩
      rw [← exclusive.free index before]
      exact frame.acquired index held before
  · intro index free
    have users := frame.users index
    rw [if_neg free] at users
    rw [count, users]
    split
    next before => exact (exclusive.held index before).2.symm
    next before => exact exclusive.free index before
  · intro index
    rw [count]
    exact exclusive.bound index
  · intro reader lookup users current
    rw [frame.readers] at current
    exact exclusive.attempt reader lookup users current

/-- One reader step on one slot: a held slot is left alone, a free one keeps
counting its pins. -/
theorem Exclusive.reader_slot (exclusive : Exclusive state) {storage : Storage ring.size}
    (frame : ReaderFrame ring state.storage storage (state.readers reader) moved)
    (index count : Nat) (counted : count +
        (if (state.readers reader).pc.pinned ring = some index then 1 else 0) =
      pinCount state index + (if moved.pc.pinned ring = some index then 1 else 0)) :
    (state.publisher.held ring = some index →
      (storage.slots index).users = writing ∧ count = 0) ∧
    (state.publisher.held ring ≠ some index → (storage.slots index).users = count) ∧
    count < writing := by
  have free := exclusive.free index
  have held := exclusive.held index
  have bound := exclusive.bound index
  rcases frame.users with ⟨pinned, users⟩ | ⟨target, before, after, ⟨lookup, pin⟩, users⟩ |
      ⟨target, before, after, users⟩
  · -- no pin moves
    have same : count = pinCount state index := by
      rw [pinned] at counted
      omega
    rw [same, users index]
    exact ⟨held, free, bound⟩
  · -- the compare-exchange saw fewer pins than the flag, so the slot was free
    have small := exclusive.attempt reader lookup _ pin
    have flagged := exclusive.held target
    rw [before, after] at counted
    rw [users index]
    by_cases equal : index = target
    · subst equal
      simp only [reduceCtorEq, if_false, if_true] at counted ⊢
      have not_held : state.publisher.held ring ≠ some index := by
        intro here
        have := (flagged here).1
        omega
      have total := free not_held
      exact ⟨fun here => absurd here not_held, fun _ => by omega, by omega⟩
    · have distinct : ¬target = index := fun same => equal same.symm
      simp only [reduceCtorEq, if_false, Option.some.injEq, distinct, Nat.add_zero] at counted
      rw [if_neg equal, counted]
      exact ⟨held, free, bound⟩
  · -- dropping a pin: the count was positive, so `fetch_sub` does not wrap
    have not_held := exclusive.not_held_of_pinned before
    have positive : 0 < pinCount state target := population_pos before
    rw [before, after] at counted
    rw [users index]
    by_cases equal : index = target
    · subst equal
      have total := free not_held
      simp only [reduceCtorEq, if_false, if_true, Nat.add_zero] at counted ⊢
      refine ⟨fun here => absurd here not_held, fun _ => ?_, by omega⟩
      rw [total, fetchSub]
      simp only [writing] at bound
      omega
    · have distinct : ¬target = index := fun same => equal same.symm
      simp only [reduceCtorEq, if_false, Option.some.injEq, distinct, Nat.add_zero] at counted
      rw [if_neg equal, counted]
      exact ⟨held, free, bound⟩

variable [DecidableEq ι]

theorem Exclusive.moves (exclusive : Exclusive state) {storage : Storage ring.size}
    (frame : ReaderFrame ring state.storage storage (state.readers reader) moved)
    (attempt : ∀ lookup users, moved.pc = .pin lookup users → users < writing - 1) :
    Exclusive ((state.setStorage storage).setReader reader moved) := by
  have slots : ∀ index, _ := fun index =>
    exclusive.reader_slot frame index
      (pinCount ((state.setStorage storage).setReader reader moved) index)
      (population_update state.readers
        (fun reader => reader.pc.pinned ring = some index) reader moved)
  refine ⟨fun index => (slots index).1, fun index => (slots index).2.1,
    fun index => (slots index).2.2, ?_⟩
  intro other lookup users current
  simp only [State.setReader, State.setStorage, update_apply] at current
  split at current
  · exact attempt lookup users current
  · exact exclusive.attempt other lookup users current

/-- A reader that moves without touching a pin. -/
theorem Exclusive.setReader (exclusive : Exclusive state)
    (pinned : moved.pc.pinned ring = (state.readers reader).pc.pinned ring)
    (attempt : ∀ lookup users, moved.pc = .pin lookup users → users < writing - 1) :
    Exclusive (state.setReader reader moved) :=
  show Exclusive ((state.setStorage state.storage).setReader reader moved) from
    exclusive.moves (.of_same pinned) attempt

theorem Exclusive.readerStep (exclusive : Exclusive state) {storage : Storage ring.size}
    (stepped : readerStep ring state.storage (state.readers reader) = some (storage, moved)) :
    Exclusive ((state.setStorage storage).setReader reader moved) :=
  exclusive.moves (readerStep_frame stepped) fun _ _ => readerStep_attempt stepped

end Exclusion

end Kcf.Ipc.Channel
