import Mathlib.Data.Nat.ModEq
import Kcf.Ipc.Channel.Pins

/-!
# What the slots contain

The ledger invariant ties the protected slot fields to the payloads committed so
far: which group a sequence may live in, which payload its slot holds, and which
sequences are still present.  Only the publisher changes these fields.
-/

namespace Kcf.Ipc.Channel

open List

variable {ring : Ring} {ι : Type}

/-! ## Publisher phases -/

namespace Publisher

/-- The slot whose bytes are being overwritten. -/
def dirtySlot (ring : Ring) : Publisher ring.size → Option Nat
  | .active write (.copy _) | .active write .stamp => some (write.target ring)
  | _ => none

/-- The slot whose version is odd. -/
def oddSlot (ring : Ring) : Publisher ring.size → Option Nat
  | .active write (.copy _) | .active write .stamp | .active write .endVersion =>
    some (write.target ring)
  | _ => none

/-- The payload that is stored under its sequence but not committed yet. -/
def pending : Publisher ring.size → List (Payload ring.size)
  | .active write .endVersion | .active write .release | .active write .commit => [write.call.value]
  | _ => []

/-- No slot is being rewritten and nothing waits for its commit. -/
structure Quiet (publisher : Publisher ring.size) : Prop where
  dirty : publisher.dirtySlot ring = none
  odd : publisher.oddSlot ring = none
  pending : publisher.pending = []

end Publisher

theorem Publisher.Inactive.quiet {publisher : Publisher ring.size}
    (inactive : publisher.Inactive) : publisher.Quiet := by
  cases publisher with
  | active write phase => exact absurd rfl (inactive write phase)
  | _ => exact ⟨rfl, rfl, rfl⟩

/-! ## The invariant -/

/-- The target no longer holds one of the last `depth` sequences. -/
def Expired (storage : Storage ring.size) (index : Nat) : Prop :=
  (storage.slots index).sequence = 0 ∨
    (storage.slots index).sequence + ring.depth ≤ storage.publishSequence

/-- What the publisher knows about its target in each phase. -/
def PhaseOk (storage : Storage ring.size) (write : Write ring.size) :
    Phase ring.size → Prop
  | .acquire | .inspect | .skip | .notify => True
  | .broadcast | .abandon _ | .beginVersion => Expired storage (write.target ring)
  | .copy todo => Expired storage (write.target ring) ∧
      ∀ position, position ∉ todo →
        (storage.slots (write.target ring)).data position = write.call.value position
  | .stamp => Expired storage (write.target ring) ∧
      (storage.slots (write.target ring)).data = write.call.value
  | .endVersion | .release | .commit =>
    (storage.slots (write.target ring)).sequence = write.sequence

/-- Sequence a write works for: the next one until its commit. -/
def SequenceOk (storage : Storage ring.size) (write : Write ring.size) :
    Phase ring.size → Prop
  | .notify => write.sequence = storage.publishSequence
  | _ => write.sequence = storage.publishSequence + 1 ∧
      storage.publishSequence < maxSequence

/-- What holds inside a write. -/
structure Writing (storage : Storage ring.size) (write : Write ring.size)
    (phase : Phase ring.size) : Prop where
  lane : write.lane < 3
  sequence : SequenceOk storage write phase
  phase : PhaseOk storage write phase

/-- The content invariant of the ring. -/
structure Ledger (storage : Storage ring.size) (publisher : Publisher ring.size)
    (history : List (Payload ring.size)) : Prop where
  committed : history.length = storage.publishSequence
  bounded : storage.publishSequence ≤ maxSequence
  writing : ∀ write phase, publisher = .active write phase → Writing storage write phase
  group : ∀ index, (storage.slots index).sequence ≠ 0 →
    index / 3 = ((storage.slots index).sequence - 1) % ring.depth ∧
      (storage.slots index).sequence ≤ history.length + publisher.pending.length
  stored : ∀ index, (storage.slots index).sequence ≠ 0 →
    publisher.dirtySlot ring ≠ some index →
      (history ++ publisher.pending)[(storage.slots index).sequence - 1]? =
        some (storage.slots index).data
  unique : ∀ left right, (storage.slots left).sequence ≠ 0 →
    (storage.slots left).sequence = (storage.slots right).sequence → left = right
  kept : ∀ sequence, 0 < sequence → sequence ≤ storage.publishSequence →
    storage.publishSequence < sequence + ring.depth →
      ∃ index, (storage.slots index).sequence = sequence ∧
        publisher.dirtySlot ring ≠ some index
  parity : ∀ index, (storage.slots index).version % 2 =
    if publisher.oddSlot ring = some index then 1 else 0

theorem slotIndex_div {sequence lane : Nat} (small : lane < 3) :
    slotIndex ring sequence lane / 3 = (sequence - 1) % ring.depth := by
  unfold slotIndex
  omega

theorem Ledger.of_fresh {state : State ring ι} (fresh : Fresh state) :
    Ledger state.storage state.publisher state.history := by
  rw [fresh.publisher, fresh.history]
  refine ⟨by simp [fresh.publishSequence], by simp [fresh.publishSequence], ?_, ?_, ?_, ?_, ?_, ?_⟩
  · intro write phase active
    cases active
  · intro index nonzero
    exact absurd (fresh.sequence index) nonzero
  · intro index nonzero
    exact absurd (fresh.sequence index) nonzero
  · intro left right nonzero
    exact absurd (fresh.sequence left) nonzero
  · intro sequence positive below
    rw [fresh.publishSequence] at below
    omega
  · intro index
    rw [fresh.version]
    rfl

variable {publisher : Publisher ring.size} {history : List (Payload ring.size)}
  {storage : Storage ring.size} {write : Write ring.size}

/-- A storage with the same protected fields and counters keeps the ledger. -/
theorem Ledger.sameContents {storage after : Storage ring.size}
    (ledger : Ledger storage publisher history)
    (published : after.publishSequence = storage.publishSequence)
    (same : ∀ index, (storage.slots index).SameContents (after.slots index)) :
    Ledger after publisher history := by
  have sequences : ∀ index, (after.slots index).sequence = (storage.slots index).sequence :=
    fun index => (same index).sequence
  have expired : ∀ index, Expired storage index → Expired after index := by
    intro index old
    simpa only [Expired, sequences, published] using old
  refine ⟨published ▸ ledger.committed, published ▸ ledger.bounded, ?_, ?_, ?_, ?_, ?_, ?_⟩
  · intro write phase active
    obtain ⟨lane, sequence, old⟩ := ledger.writing write phase active
    refine ⟨lane, ?_, ?_⟩
    · cases phase <;> simpa only [SequenceOk, published] using sequence
    cases phase with
    | acquire | inspect | skip | notify => trivial
    | broadcast | abandon _ | beginVersion => exact expired _ old
    | copy todo =>
      refine ⟨expired _ old.1, fun position moved => ?_⟩
      rw [(same _).data]
      exact old.2 position moved
    | stamp => exact ⟨expired _ old.1, (same _).data.trans old.2⟩
    | endVersion | release | commit => exact (sequences _).trans old
  · intro index
    rw [sequences]
    exact ledger.group index
  · intro index
    rw [sequences, (same index).data]
    exact ledger.stored index
  · intro left right
    rw [sequences, sequences]
    exact ledger.unique left right
  · intro sequence
    rw [published]
    simpa only [sequences] using ledger.kept sequence
  · intro index
    rw [(same index).version]
    exact ledger.parity index

/-- A move between quiet publisher states keeps the ledger of the slots; only
the facts about the new control state are to be shown. -/
theorem Ledger.quiet {publisher moved : Publisher ring.size}
    (ledger : Ledger storage publisher history)
    (before : publisher.Quiet) (after : moved.Quiet)
    (writing : ∀ write phase, moved = .active write phase → Writing storage write phase) :
    Ledger storage moved history := by
  refine ⟨ledger.committed, ledger.bounded, writing, ?_, ?_, ledger.unique, ?_, ?_⟩
  · intro index nonzero
    rw [after.pending, ← before.pending]
    exact ledger.group index nonzero
  · intro index nonzero _
    rw [after.pending, ← before.pending]
    exact ledger.stored index nonzero (by rw [before.dirty]; simp)
  · intro sequence positive below recent
    obtain ⟨index, present, _⟩ := ledger.kept sequence positive below recent
    exact ⟨index, present, by rw [after.dirty]; simp⟩
  · intro index
    rw [after.odd, ← before.odd]
    exact ledger.parity index

/-- Going on with a write from one quiet phase to another. -/
theorem Ledger.advance {moved : Phase ring.size} (ledger : Ledger storage publisher history)
    (before : publisher.Quiet) (after : (Publisher.active write moved).Quiet)
    (lane : write.lane < 3) (sequence : SequenceOk storage write moved)
    (phase : PhaseOk storage write moved) : Ledger storage (.active write moved) history := by
  refine ledger.quiet before after ?_
  rintro _ _ ⟨⟩
  exact ⟨lane, sequence, phase⟩

/-- Leaving the call altogether. -/
theorem Ledger.leave {publisher moved : Publisher ring.size}
    (ledger : Ledger storage publisher history)
    (before : publisher.Quiet) (inactive : moved.Inactive) : Ledger storage moved history :=
  ledger.quiet before inactive.quiet fun write phase active =>
    absurd active (inactive write phase)

/-! ## The publisher keeps the invariant -/

theorem Ledger.nextLane (ledger : Ledger storage publisher history) (before : publisher.Quiet)
    (sequence : SequenceOk storage write .acquire) :
    Ledger storage (nextLane write) history := by
  unfold Channel.nextLane
  split
  next small =>
    exact ledger.advance before ⟨rfl, rfl, rfl⟩ (Nat.succ_lt_succ small) sequence trivial
  · exact ledger.leave before (inactive_leave _ _)

/-- The test of `retained` leaves only slots whose sample nobody can ask for. -/
theorem Ledger.expired_of_inspect (ledger : Ledger storage (.active write .inspect) history)
    (passed : ¬(retained ring write.sequence ≠ 0 ∧
      (storage.slots (write.target ring)).sequence = retained ring write.sequence)) :
    Expired storage (write.target ring) := by
  by_contra recent
  obtain ⟨nonzero, young⟩ := not_or.mp recent
  have writing := ledger.writing write _ rfl
  have next : write.sequence = storage.publishSequence + 1 := writing.sequence.1
  obtain ⟨group, below⟩ := ledger.group (write.target ring) nonzero
  rw [ledger.committed] at below
  simp only [Publisher.pending, length_nil, Nat.add_zero] at below
  -- the slot's sequence and the new one agree modulo `depth`
  rw [Write.target, slotIndex_div writing.lane, ← Write.target] at group
  generalize (storage.slots (write.target ring)).sequence = old at *
  obtain ⟨quotient, distance⟩ : ring.depth ∣ write.sequence - 1 - (old - 1) :=
    (Nat.modEq_iff_dvd' (by omega)).mp group.symm
  have once : quotient = 1 := by
    have positive : 0 < ring.depth * quotient := by omega
    have small : ring.depth * quotient < ring.depth * 2 := by
      have : ring.depth * quotient ≤ ring.depth := by omega
      have := ring.depth_pos
      omega
    have := Nat.lt_of_mul_lt_mul_left small
    have : quotient ≠ 0 := by
      rintro rfl
      simp at positive
    omega
  subst once
  apply passed
  simp only [retained]
  split <;> omega

theorem fetchAdd_parity (version : Nat) : fetchAdd version % 2 = (version + 1) % 2 := by
  unfold fetchAdd
  omega

theorem dirtySlot_active (write : Write ring.size) (phase : Phase ring.size) {index : Nat}
    (distinct : index ≠ write.target ring) :
    (Publisher.active write phase).dirtySlot ring ≠ some index := by
  have apart : write.target ring ≠ index := fun same => distinct same.symm
  cases phase <;> simp [Publisher.dirtySlot, apart]

theorem oddSlot_active (write : Write ring.size) (phase : Phase ring.size) {index : Nat}
    (distinct : index ≠ write.target ring) :
    (Publisher.active write phase).oddSlot ring ≠ some index := by
  have apart : write.target ring ≠ index := fun same => distinct same.symm
  cases phase <;> simp [Publisher.oddSlot, apart]

/-- One write to the target slot keeps the ledger if the new slot fits: every
other slot is untouched, so all obligations are about the target. -/
theorem Ledger.rewrite {phase : Phase ring.size}
    (ledger : Ledger storage (.active write phase) history) (slot : Slot ring.size)
    (moved : Phase ring.size) (sequenceOk : SequenceOk storage write moved)
    (phaseOk : PhaseOk (storage.setSlot (write.target ring) slot) write moved)
    (pending : (Publisher.active write phase).pending = [] ∨
      (Publisher.active write moved).pending = (Publisher.active write phase).pending)
    (group : slot.sequence ≠ 0 →
      write.target ring / 3 = (slot.sequence - 1) % ring.depth ∧
        slot.sequence ≤ history.length + (Publisher.active write moved).pending.length)
    (stored : slot.sequence ≠ 0 →
      (Publisher.active write moved).dirtySlot ring ≠ some (write.target ring) →
        (history ++ (Publisher.active write moved).pending)[slot.sequence - 1]? = some slot.data)
    (unique : slot.sequence ≠ 0 → ∀ index, index ≠ write.target ring →
      (storage.slots index).sequence ≠ slot.sequence)
    (kept : ∀ sequence, 0 < sequence → storage.publishSequence < sequence + ring.depth →
      (storage.slots (write.target ring)).sequence = sequence →
        slot.sequence = sequence ∧
          (Publisher.active write moved).dirtySlot ring ≠ some (write.target ring))
    (parity : slot.version % 2 =
      if (Publisher.active write moved).oddSlot ring = some (write.target ring) then 1 else 0) :
    Ledger (storage.setSlot (write.target ring) slot) (.active write moved) history := by
  have at_target : (storage.setSlot (write.target ring) slot).slots (write.target ring) = slot := by
    rw [Storage.setSlot_slots, if_pos rfl]
  have elsewhere : ∀ index, index ≠ write.target ring →
      (storage.setSlot (write.target ring) slot).slots index = storage.slots index := by
    intro index distinct
    rw [Storage.setSlot_slots, if_neg distinct]
  refine ⟨ledger.committed, ledger.bounded, ?_, ?_, ?_, ?_, ?_, ?_⟩
  · rintro _ _ ⟨⟩
    exact ⟨(ledger.writing write _ rfl).lane, sequenceOk, phaseOk⟩
  · intro index nonzero
    by_cases equal : index = write.target ring
    · rw [equal, at_target] at nonzero ⊢
      exact group nonzero
    · rw [elsewhere index equal] at nonzero ⊢
      obtain ⟨here, below⟩ := ledger.group index nonzero
      refine ⟨here, ?_⟩
      rcases pending with none | same
      · rw [none, length_nil] at below
        omega
      · rw [same]
        exact below
  · intro index nonzero clean
    by_cases equal : index = write.target ring
    · rw [equal, at_target] at nonzero ⊢
      exact stored nonzero (equal ▸ clean)
    · rw [elsewhere index equal] at nonzero ⊢
      have old := ledger.stored index nonzero (dirtySlot_active write phase equal)
      rcases pending with none | same
      · rw [none, List.append_nil] at old
        rw [List.getElem?_append_left (List.getElem?_eq_some_iff.mp old).1]
        exact old
      · rw [same]
        exact old
  · intro left right nonzero equal
    by_cases isLeft : left = write.target ring
    · by_cases isRight : right = write.target ring
      · rw [isLeft, isRight]
      · rw [isLeft, at_target] at nonzero equal
        rw [elsewhere right isRight] at equal
        exact absurd equal.symm (unique nonzero right isRight)
    · rw [elsewhere left isLeft] at nonzero equal
      by_cases isRight : right = write.target ring
      · rw [isRight, at_target] at equal
        exact absurd equal (unique (equal ▸ nonzero) left isLeft)
      · rw [elsewhere right isRight] at equal
        exact ledger.unique left right nonzero equal
  · intro sequence positive below recent
    obtain ⟨index, present, _⟩ := ledger.kept sequence positive below recent
    refine ⟨index, ?_⟩
    by_cases equal : index = write.target ring
    · rw [equal] at present ⊢
      rw [at_target]
      exact kept sequence positive recent present
    · rw [elsewhere index equal]
      exact ⟨present, dirtySlot_active write moved equal⟩
  · intro index
    by_cases equal : index = write.target ring
    · rw [equal, at_target]
      exact parity
    · have old := ledger.parity index
      rw [if_neg (oddSlot_active write phase equal)] at old
      rw [elsewhere index equal, if_neg (oddSlot_active write moved equal)]
      exact old

/-- An expired target holds no sequence of the window. -/
theorem Expired.not_kept {target sequence : Nat}
    (expired : Expired storage target) (positive : 0 < sequence)
    (recent : storage.publishSequence < sequence + ring.depth) :
    (storage.slots target).sequence ≠ sequence := by
  intro present
  rcases expired with zero | old <;> omega

theorem Expired.setSlot {target : Nat} {slot : Slot ring.size} (expired : Expired storage target)
    (same : slot.sequence = (storage.slots target).sequence) :
    Expired (storage.setSlot target slot) target := by
  unfold Expired
  rw [Storage.setSlot_slots, if_pos rfl, same]
  exact expired

/-- A write that leaves the target's sequence alone cannot collide. -/
theorem Ledger.unique_target (ledger : Ledger storage publisher history)
    {target : Nat} (nonzero : (storage.slots target).sequence ≠ 0) (index : Nat)
    (distinct : index ≠ target) :
    (storage.slots index).sequence ≠ (storage.slots target).sequence :=
  fun same => distinct (ledger.unique index target (same ▸ nonzero) same)

/-- `publish_sequence.store(sequence)`: the pending payload becomes the newest
committed one. -/
theorem Ledger.commit (ledger : Ledger storage (.active write .commit) history) :
    Ledger { storage with publishSequence := write.sequence }
      (if write.call.notify then .active write .notify else .done 0)
      (history ++ [write.call.value]) := by
  obtain ⟨lane, ⟨next, below⟩, stamped⟩ := ledger.writing write _ rfl
  have quiet : (if write.call.notify then .active write .notify else
      Publisher.done 0 : Publisher ring.size).Quiet := by
    split <;> exact ⟨rfl, rfl, rfl⟩
  have active : ∀ other phase, (if write.call.notify then .active write .notify else
      Publisher.done 0 : Publisher ring.size) = .active other phase →
        other = write ∧ phase = .notify := by
    intro other phase equal
    split at equal <;> cases equal
    exact ⟨rfl, rfl⟩
  refine ⟨?_, ?_, ?_, ?_, ?_, ledger.unique, ?_, ?_⟩
  · rw [length_append, length_singleton, ledger.committed, next]
  · change write.sequence ≤ maxSequence
    omega
  · intro other phase equal
    obtain ⟨rfl, rfl⟩ := active other phase equal
    exact ⟨lane, rfl, trivial⟩
  · intro index nonzero
    rw [quiet.pending]
    simpa [Publisher.pending] using ledger.group index nonzero
  · intro index nonzero _
    rw [quiet.pending, append_nil]
    exact ledger.stored index nonzero (by simp [Publisher.dirtySlot])
  · intro sequence positive newest recent
    rw [quiet.dirty]
    simp only [reduceCtorEq, ne_eq, not_false_eq_true, and_true] at newest recent ⊢
    by_cases equal : sequence = write.sequence
    · exact ⟨write.target ring, equal ▸ stamped⟩
    · obtain ⟨index, present, _⟩ := ledger.kept sequence positive (by omega) (by omega)
      exact ⟨index, present⟩
  · intro index
    rw [quiet.odd]
    exact ledger.parity index

theorem Ledger.writeStep {state : State ring ι}
    {phase : Phase ring.size} (outcome : Int) (active : state.publisher = .active write phase)
    (ledger : Ledger state.storage state.publisher state.history) :
    let next := writeStep state write outcome phase
    Ledger next.storage next.publisher next.history := by
  rw [active] at ledger
  obtain ⟨lane, sequence, ok⟩ := ledger.writing write phase rfl
  cases phase with
  | acquire =>
    simp only [Channel.writeStep]
    split
    · have moved : Ledger state.storage (.active write .inspect) state.history :=
        ledger.advance ⟨rfl, rfl, rfl⟩ ⟨rfl, rfl, rfl⟩ lane sequence trivial
      exact moved.sameContents rfl (fun _ => Storage.setUsers_sameContents _ _ _ _)
    · exact ledger.nextLane ⟨rfl, rfl, rfl⟩ sequence
  | inspect =>
    simp only [Channel.writeStep]
    split
    · exact ledger.advance ⟨rfl, rfl, rfl⟩ ⟨rfl, rfl, rfl⟩ lane sequence trivial
    next passed =>
      have expired := ledger.expired_of_inspect passed
      cases write.call.notify
      all_goals exact ledger.advance ⟨rfl, rfl, rfl⟩ ⟨rfl, rfl, rfl⟩ lane sequence expired
  | skip =>
    exact (ledger.nextLane ⟨rfl, rfl, rfl⟩ sequence).sameContents rfl
      (fun _ => Storage.setUsers_sameContents _ _ _ _)
  | broadcast =>
    simp only [Channel.writeStep, State.setPublisher]
    split <;> exact ledger.advance ⟨rfl, rfl, rfl⟩ ⟨rfl, rfl, rfl⟩ lane sequence ok
  | abandon error =>
    exact (ledger.leave ⟨rfl, rfl, rfl⟩ (inactive_leave _ _)).sameContents rfl
      (fun _ => Storage.setUsers_sameContents _ _ _ _)
  | beginVersion =>
    refine ledger.rewrite _ _ sequence ⟨ok.setSlot rfl, ?_⟩ (.inl rfl)
      (ledger.group _) (fun _ dirty => absurd rfl dirty) ledger.unique_target ?_ ?_
    · exact fun position moved => absurd (ring.order_covers position) moved
    · exact fun _ positive recent present => absurd present (ok.not_kept positive recent)
    · have even := ledger.parity (write.target ring)
      simp only [Publisher.oddSlot, reduceCtorEq, if_false, if_true] at even ⊢
      rw [fetchAdd_parity]
      omega
  | copy todo =>
    obtain ⟨expired, copied⟩ := ok
    cases todo with
    | nil =>
      have whole : (state.storage.slots (write.target ring)).data = write.call.value :=
        funext fun position => copied position not_mem_nil
      have same := ledger.rewrite (state.storage.slots (write.target ring)) .stamp sequence
        ⟨expired.setSlot rfl, by rw [Storage.setSlot_slots, if_pos rfl]; exact whole⟩
        (.inl rfl) (ledger.group _) (fun _ dirty => absurd rfl dirty) ledger.unique_target
        (fun _ positive recent present => absurd present (expired.not_kept positive recent))
        (ledger.parity _)
      rwa [Storage.setSlot_self] at same
    | cons position todo =>
      refine ledger.rewrite _ _ sequence ⟨expired.setSlot rfl, ?_⟩ (.inl rfl)
        (ledger.group _) (fun _ dirty => absurd rfl dirty) ledger.unique_target
        (fun _ positive recent present => absurd present (expired.not_kept positive recent))
        (ledger.parity _)
      intro other moved
      rw [Storage.setSlot_slots, if_pos rfl]
      dsimp only
      by_cases equal : other = position
      · rw [equal, Function.update_self]
      · rw [Function.update_of_ne equal]
        exact copied other (by simp [equal, moved])
  | stamp =>
    obtain ⟨expired, whole⟩ := ok
    have next : write.sequence = state.storage.publishSequence + 1 := sequence.1
    have length := ledger.committed
    refine ledger.rewrite _ _ sequence ?_ (.inl rfl) ?_ ?_ ?_ ?_ (ledger.parity _)
    · simp only [PhaseOk, Storage.setSlot_slots, if_true]
    · intro _
      refine ⟨slotIndex_div lane, ?_⟩
      simp only [Publisher.pending, length_singleton]
      omega
    · intro _ _
      have position : write.sequence - 1 = state.history.length := by omega
      simp only [Publisher.pending, position, getElem?_concat_length, whole]
    · intro _ index _ same
      have below := (ledger.group index (by omega)).2
      simp only [Publisher.pending, length_nil] at below
      simp only at same
      omega
    · exact fun _ positive recent present => absurd present (expired.not_kept positive recent)
  | endVersion =>
    refine ledger.rewrite _ _ sequence ?_ (.inr rfl) (ledger.group _) ?_ ledger.unique_target ?_ ?_
    · simpa only [PhaseOk, Storage.setSlot_slots, if_true] using ok
    · exact fun nonzero _ => ledger.stored _ nonzero (by simp [Publisher.dirtySlot])
    · exact fun _ _ _ present => ⟨present, by simp [Publisher.dirtySlot]⟩
    · have odd := ledger.parity (write.target ring)
      simp only [Publisher.oddSlot, reduceCtorEq, if_false, if_true] at odd ⊢
      rw [fetchAdd_parity]
      omega
  | release =>
    have moved := ledger.rewrite (state.storage.slots (write.target ring)) .commit
      sequence (by rwa [Storage.setSlot_self]) (.inr rfl) (ledger.group _)
      (fun nonzero _ => ledger.stored _ nonzero (by simp [Publisher.dirtySlot]))
      ledger.unique_target (fun _ _ _ present => ⟨present, by simp [Publisher.dirtySlot]⟩)
      (ledger.parity _)
    rw [Storage.setSlot_self] at moved
    exact moved.sameContents rfl (fun _ => Storage.setUsers_sameContents _ _ _ _)
  | commit => exact ledger.commit
  | notify =>
    have moved : Ledger state.storage (.unlock 0) state.history :=
      ledger.leave ⟨rfl, rfl, rfl⟩ fun _ _ => by simp
    exact moved.sameContents rfl (fun _ => Slot.SameContents.refl _)

theorem Ledger.publisherStep {state next : State ring ι} {outcome : Int}
    (ledger : Ledger state.storage state.publisher state.history)
    (stepped : publisherStep state outcome = some next) :
    Ledger next.storage next.publisher next.history := by
  obtain ⟨write, phase, active, rfl⟩ | ⟨before, notified, publisher, rfl, after⟩ :=
    publisherStep_cases stepped
  · exact ledger.writeStep outcome active
  · have moved : Ledger state.storage publisher state.history := by
      have bounded := ledger.bounded
      obtain inactive | ⟨room, call, rfl⟩ := after
      · exact ledger.leave before.quiet inactive
      · exact ledger.advance before.quiet ⟨rfl, rfl, rfl⟩ (Nat.succ_pos _) ⟨rfl, by omega⟩ trivial
    exact moved.sameContents rfl (fun _ => Slot.SameContents.refl _)

/-- Commits are only appended. -/
theorem publisherStep_history {state next : State ring ι} {outcome : Int}
    (stepped : publisherStep state outcome = some next) : state.history <+: next.history := by
  obtain ⟨write, phase, -, rfl⟩ | ⟨-, _, _, rfl, -⟩ := publisherStep_cases stepped
  · fun_cases writeStep state write outcome phase <;>
      first | exact prefix_append _ _ | exact prefix_rfl
  · exact prefix_rfl

end Kcf.Ipc.Channel
