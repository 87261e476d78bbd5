import Kcf.Ipc.Channel.Retention
import Kcf.Transition.Passage

/-!
# Readers in the way of the publisher

A publish gives up when none of the three lanes of its group can be taken.  Each of
them was pinned when the publisher tried it, or holds the sample that has to be kept.
-/

namespace Kcf.Ipc.Channel

open Kcf.Transition List Errno

variable {ring : Ring} {ι : Type}

/-- Some reader has pinned the slot. -/
def Pinned (state : State ring ι) (index : Nat) : Prop :=
  ∃ reader, (state.readers reader).pc.pinned ring = some index

/-- The publisher is about to try this lane. -/
def Examines (state : State ring ι) (lane : Nat) : Prop :=
  ∃ write, state.publisher = .active write .acquire ∧ write.lane = lane

/-- Slot of a lane of the group that the next sample goes to. -/
def State.targetSlot (state : State ring ι) (lane : Nat) : Nat :=
  slotIndex ring (state.storage.publishSequence + 1) lane

/-- The lane holds the sequence that the next sample must not overwrite. -/
def KeepsRetained (state : State ring ι) (lane : Nat) : Prop :=
  retained ring (state.storage.publishSequence + 1) ≠ 0 ∧
    (state.storage.slots (state.targetSlot lane)).sequence =
      retained ring (state.storage.publishSequence + 1)

/-- How many lanes a publish has found taken. -/
def Publisher.scanned {size : Nat} : Publisher size → Nat
  | .active write _ => write.lane
  | .unlock code | .done code => if code = -eagain then 3 else 0
  | _ => 0

theorem scanned_leave {code : Int} (call : Call ring.size) :
    (leave call code).scanned = if code = -eagain then 3 else 0 := by
  unfold leave
  split <;> rfl

theorem scanned_afterLock {error : Int} (call : Call ring.size) (other : error ≠ eagain) :
    (afterLock call error).scanned = 0 := by
  unfold afterLock
  split
  · rfl
  · exact if_neg (by omega)

variable {write : Write ring.size} {outcome : Int}

theorem scanned_nextLane (small : write.lane < 3) : (nextLane write).scanned ≤ write.lane + 1 := by
  unfold nextLane
  split
  · exact le_rfl
  next last =>
    rw [scanned_leave, if_pos rfl]
    omega

variable {state : State ring ι}

/-- A lane is given up when it is used, or skipped because of what it holds. -/
theorem scanned_writeStep {phase : Phase ring.size} (small : write.lane < 3)
    (abandoned : ∀ error, phase = .abandon error → error ≠ eagain) :
    (writeStep state write outcome phase).publisher.scanned ≤ write.lane ∨
      (phase = .acquire ∧ (state.storage.slots (write.target ring)).users ≠ 0 ∨ phase = .skip) ∧
        (writeStep state write outcome phase).publisher.scanned ≤ write.lane + 1 := by
  cases phase with
  | acquire =>
    by_cases free : (state.storage.slots (write.target ring)).users = 0
    · refine .inl ?_
      simp only [writeStep, if_pos free]
      exact le_rfl
    · refine .inr ⟨.inl ⟨rfl, free⟩, ?_⟩
      simp only [writeStep, if_neg free]
      exact scanned_nextLane small
  | inspect =>
    simp only [writeStep]
    split <;> exact .inl le_rfl
  | skip => exact .inr ⟨.inr rfl, scanned_nextLane small⟩
  | abandon error =>
    refine .inl ?_
    have other := abandoned error rfl
    simp only [writeStep, State.setPublisher]
    rw [scanned_leave, if_neg (by omega)]
    exact Nat.zero_le _
  | copy todo => cases todo <;> exact .inl le_rfl
  | commit =>
    refine .inl ?_
    simp only [writeStep]
    split
    · exact le_rfl
    · exact Nat.zero_le _
  | notify => exact .inl (Nat.zero_le _)
  | broadcast | beginVersion | stamp | endVersion | release => exact .inl le_rfl

theorem scanned_publisherStep {next : State ring ι}
    (stepped : publisherStep state outcome = some next) (answered : outcome ≠ eagain)
    (small : ∀ write phase, state.publisher = .active write phase → write.lane < 3)
    (abandoned : ∀ write error, state.publisher = .active write (.abandon error) →
      error ≠ eagain) :
    next.publisher.scanned ≤ state.publisher.scanned ∨
      ∃ write, (state.publisher = .active write .acquire ∧
          (state.storage.slots (write.target ring)).users ≠ 0 ∨
            state.publisher = .active write .skip) ∧
        next.publisher.scanned ≤ write.lane + 1 := by
  unfold publisherStep at stepped
  split at stepped
  all_goals try cases stepped
  case h_3 call here =>
    refine .inl (le_of_eq_of_le ?_ (Nat.zero_le _))
    simp only [State.setPublisher]
    split
    · rfl
    · exact scanned_afterLock call answered
  case h_4 call here =>
    exact .inl (Nat.zero_le _)
  case h_5 call here =>
    exact .inl (le_of_eq_of_le (scanned_afterLock call answered) (Nat.zero_le _))
  case h_6 call here =>
    refine .inl (le_of_eq_of_le ?_ (Nat.zero_le _))
    simp only [State.setPublisher]
    split
    · rw [scanned_leave]
      rfl
    · rfl
  case h_7 write phase here =>
    have known := @scanned_writeStep _ _ write outcome state phase (small write phase here)
      fun error same => abandoned write error (same ▸ here)
    rw [here]
    refine known.imp id ?_
    rintro ⟨⟨rfl, used⟩ | rfl, bound⟩
    · exact ⟨write, .inl ⟨rfl, used⟩, bound⟩
    · exact ⟨write, .inr rfl, bound⟩
  case h_8 code here =>
    rw [here]
    exact .inl le_rfl

/-- The publisher gives a lane back that it has taken. -/
def Publisher.turns {size : Nat} : Publisher size → Bool
  | .active _ .skip | .active _ (.abandon _) => true
  | _ => false

theorem Publisher.Inactive.turns {publisher : Publisher ring.size}
    (inactive : publisher.Inactive) : publisher.turns = false := by
  cases publisher with
  | active write phase => exact absurd rfl (inactive write phase)
  | _ => rfl

theorem turns_nextLane (write : Write ring.size) : (nextLane write).turns = false := by
  unfold nextLane
  split
  · rfl
  · exact (inactive_leave _ _).turns

/-- Why a lane is given back: it holds the retained sequence, or the broadcast failed. -/
theorem turns_writeStep {phase : Phase ring.size}
    (gives : (writeStep state write outcome phase).publisher.turns = true) :
    (writeStep state write outcome phase).publisher = .active write .skip ∧ phase = .inspect ∧
        retained ring write.sequence ≠ 0 ∧
        (state.storage.slots (write.target ring)).sequence = retained ring write.sequence ∨
      (writeStep state write outcome phase).publisher = .active write (.abandon outcome) := by
  cases phase with
  | inspect =>
    by_cases kept : retained ring write.sequence ≠ 0 ∧
        (state.storage.slots (write.target ring)).sequence = retained ring write.sequence
    · refine .inl ⟨?_, rfl, kept⟩
      simp only [writeStep, if_pos kept]
      rfl
    · simp only [writeStep, if_neg kept, State.setPublisher] at gives
      split at gives <;> cases gives
  | broadcast =>
    by_cases done : outcome = 0
    · simp only [writeStep, if_pos done] at gives
      cases gives
    · refine .inr ?_
      simp only [writeStep, if_neg done]
      rfl
  | acquire =>
    simp only [writeStep] at gives
    split at gives
    · cases gives
    · exact absurd gives (by simp [State.setPublisher, turns_nextLane])
  | skip => exact absurd gives (by simp [writeStep, State.setPublisher, turns_nextLane])
  | abandon error =>
    exact absurd gives (by simp [writeStep, State.setPublisher, (inactive_leave _ _).turns])
  | copy todo => cases todo <;> cases gives
  | commit =>
    simp only [writeStep] at gives
    split at gives <;> cases gives
  | beginVersion | stamp | endVersion | release | notify => cases gives

theorem turns_publisherStep {next : State ring ι}
    (stepped : publisherStep state outcome = some next) (gives : next.publisher.turns = true) :
    ∃ write, next.publisher = .active write .skip ∧ state.publisher = .active write .inspect ∧
        retained ring write.sequence ≠ 0 ∧
        (state.storage.slots (write.target ring)).sequence = retained ring write.sequence ∨
      next.publisher = .active write (.abandon outcome) := by
  obtain ⟨write, phase, here, rfl⟩ | ⟨-, notified, publisher, rfl, after⟩ :=
    publisherStep_cases stepped
  · refine ⟨write, (turns_writeStep gives).imp ?_ id⟩
    rintro ⟨skips, rfl, kept⟩
    exact ⟨skips, here, kept⟩
  · obtain inactive | ⟨-, call, rfl⟩ := after
    · exact absurd (inactive.turns.symm.trans gives) Bool.false_ne_true
    · cases gives

/-! ## One call -/

section Call

variable [Fintype ι] [DecidableEq ι]

omit [DecidableEq ι] in
/-- A slot that is used and not held by the publisher is pinned. -/
theorem Exclusive.pinned_of_used (exclusive : Exclusive state)
    {index : Nat} (free : state.publisher.held ring ≠ some index)
    (used : (state.storage.slots index).users ≠ 0) : Pinned state index := by
  by_contra none
  refine used ((exclusive.free index free).trans (population_eq_zero fun reader pinned => ?_))
  exact none ⟨reader, pinned⟩

/-- The lane was pinned when the publisher tried it. -/
def FoundPinned (start first : State ring ι) (actions : List (Action ring ι))
    (state : State ring ι) (lane : Nat) : Prop :=
  (system ring ι).Passes first actions state fun moment =>
    Examines moment lane ∧ Pinned moment (start.targetSlot lane)

/-- What a publish has found until now. -/
structure Scan (start first : State ring ι) (actions : List (Action ring ι))
    (state : State ring ι) : Prop where
  lanes : ∀ lane < state.publisher.scanned,
    KeepsRetained start lane ∨ FoundPinned start first actions state lane
  skipped : ∀ write, state.publisher = .active write .skip → KeepsRetained start write.lane
  abandoned : ∀ write error, state.publisher = .active write (.abandon error) →
    error ≠ eagain

variable {actions : List (Action ring ι)}

omit [Fintype ι] in
/-- Steps that leave the publisher where it is. -/
theorem Scan.mono {start first next : State ring ι}
    {action : Action ring ι} (scan : Scan start first actions state)
    (stepped : step state action = some next) (same : next.publisher = state.publisher) :
    Scan start first (actions ++ [action]) next := by
  refine ⟨fun lane done => ?_, fun write => ?_, fun write error => ?_⟩
  · rw [same] at done
    exact (scan.lanes lane done).imp id fun found => found.snoc stepped
  · rw [same]
    exact scan.skipped write
  · rw [same]
    exact scan.abandoned write error

omit [Fintype ι] [DecidableEq ι] in
/-- Until it writes, a publish works on the group that its sample goes to. -/
theorem Untouched.target {start : State ring ι} (same : Untouched start state)
    {write : Write ring.size} (sequence : write.sequence = state.storage.publishSequence + 1) :
    write.target ring = start.targetSlot write.lane := by
  unfold Write.target State.targetSlot
  rw [sequence, same.published]

theorem Scan.publisherStep {start first next : State ring ι} {call : Call ring.size} {outcome : Int}
    (scan : Scan start first actions state)
    (invariant : Invariant state) (progress : CallProgress start call state state.publisher)
    (run : (system ring ι).Run first actions state)
    (stepped : publisherStep state outcome = some next) (answered : outcome ≠ eagain) :
    Scan start first (actions ++ [.publisher outcome]) next := by
  have ledger := invariant.ledger
  have whole : step state (.publisher outcome) = some next := stepped
  refine ⟨fun lane done => ?_, fun write skips => ?_, fun write error abandons => ?_⟩
  case refine_1 =>
    have older : lane < state.publisher.scanned →
        KeepsRetained start lane ∨
          FoundPinned start first (actions ++ [.publisher outcome]) next lane :=
      fun earlier => (scan.lanes lane earlier).imp id fun found => found.snoc whole
    obtain same | ⟨write, here, bound⟩ :=
      scanned_publisherStep stepped answered
        (fun write phase active => (ledger.writing write phase active).lane) scan.abandoned
    · exact older (lt_of_lt_of_le done same)
    · have reached : state.publisher.scanned = write.lane := by
        obtain ⟨here, -⟩ | here := here <;> rw [here] <;> rfl
      by_cases earlier : lane < write.lane
      · exact older (reached ▸ earlier)
      · obtain rfl : lane = write.lane := by omega
        obtain ⟨here, used⟩ | here := here
        · rw [here] at progress
          have target := progress.2.target (ledger.writing write .acquire here).sequence.1
          have free : state.publisher.held ring ≠ some (write.target ring) := by
            rw [here]
            nofun
          have pinned := invariant.exclusive.pinned_of_used free used
          rw [target] at pinned
          exact .inr ((System.Passes.last run ⟨⟨write, here, rfl⟩, pinned⟩).snoc whole)
        · exact .inl (scan.skipped write here)
  case refine_2 =>
    obtain ⟨other, ⟨same, here, kept, holds⟩ | same⟩ :=
      turns_publisherStep stepped (by rw [skips]; rfl)
    · rw [skips] at same
      cases same
      rw [here] at progress
      have sequence := (ledger.writing write .inspect here).sequence.1
      have target := progress.2.target sequence
      rw [sequence, progress.2.published] at kept holds
      refine ⟨kept, ?_⟩
      rw [← holds, target]
      exact (progress.2.contents _).sequence.symm
    · rw [skips] at same
      cases same
  case refine_3 =>
    obtain ⟨other, ⟨same, -⟩ | same⟩ := turns_publisherStep stepped (by rw [abandons]; rfl)
    · rw [abandons] at same
      cases same
    · rw [abandons] at same
      cases same
      exact answered

/-- A publish call, among any steps of the readers. -/
theorem scan_run {start first last : State ring ι} {call : Call ring.size}
    (reachable : (system ring ι).Reachable start)
    (began : step start (.publish call) = some first)
    (run : (system ring ι).Run first actions last) (inside : .publishReturn ∉ actions)
    (answered : .publisher eagain ∉ actions) : Scan start first actions last := by
  have entered : (system ring ι).Reachable first := reachable.step began
  induction run with
  | nil =>
    simp only [Channel.step] at began
    split at began <;> cases began
    simp only [State.setPublisher]
    split
    all_goals
      refine ⟨fun lane done => absurd done (Nat.not_lt_zero _), fun write phase => ?_,
        fun write error phase => ?_⟩
      all_goals cases phase
  | @snoc state next actions action before stepped ih =>
    simp only [mem_append, mem_singleton, not_or] at inside answered
    have scan := ih inside.1 answered.1
    have progress := callProgress_run began before inside.1
    have stepped : Channel.step state action = some next := stepped
    obtain ⟨other, rfl, idle⟩ | ⟨outcome, rfl⟩ | rfl | ⟨same, -⟩ := step_cases stepped
    · rw [idle] at progress
      exact progress.elim
    · have known : outcome ≠ eagain := fun same => answered.2 (by rw [same])
      exact scan.publisherStep (.of_reachable (entered.run before)) progress before stepped known
    · exact absurd rfl inside.2
    · exact scan.mono stepped same

omit [Fintype ι] [DecidableEq ι] in
/-- Two lanes do not hold the retained sequence. -/
theorem two_lanes {start : State ring ι}
    (unique : ∀ left right, KeepsRetained start left → KeepsRetained start right → left = right) :
    ∃ left right, left ≠ right ∧ left < 3 ∧ right < 3 ∧ ¬KeepsRetained start left ∧
      ¬KeepsRetained start right := by
  by_cases first : KeepsRetained start 0
  · exact ⟨1, 2, by decide, by decide, by decide,
      fun other => absurd (unique 0 1 first other) (by decide),
      fun other => absurd (unique 0 2 first other) (by decide)⟩
  · by_cases second : KeepsRetained start 1
    · exact ⟨0, 2, by decide, by decide, by decide, first,
        fun other => absurd (unique 1 2 second other) (by decide)⟩
    · exact ⟨0, 1, by decide, by decide, by decide, first, second⟩

/-- In each group, no slot but one is ever pinned. -/
def OnlyPinned (stuck : Nat → Nat) (state : State ring ι) : Prop :=
  ∀ index, Pinned state index → index = stuck (index / 3)

/-- A publish gives up only when all lanes but the one with the retained sequence were pinned
when it tried them; a slot of each group that stays pinned does not stop it. -/
theorem stuck_reader_cannot_stop_publisher {start first last : State ring ι}
    {call : Call ring.size} {actions : List (Action ring ι)}
    (reachable : (system ring ι).Reachable start)
    (began : step start (.publish call) = some first)
    (run : (system ring ι).Run first actions last) (inside : .publishReturn ∉ actions)
    (answered : .publisher eagain ∉ actions) :
    (last.publisher = .done (-eagain) →
      (∀ lane < 3, ¬KeepsRetained start lane → FoundPinned start first actions last lane) ∧
      ∀ left right, KeepsRetained start left → KeepsRetained start right → left = right) ∧
    ∀ stuck, (system ring ι).Always first actions last (OnlyPinned stuck) →
      last.publisher ≠ .done (-eagain) := by
  have scan := scan_run reachable began run inside answered
  have ledger := (Invariant.of_reachable reachable).ledger
  have unique : ∀ left right, KeepsRetained start left → KeepsRetained start right →
      left = right := by
    rintro left right ⟨nonzero, here⟩ ⟨-, there⟩
    exact slotIndex_injective (ledger.unique _ _ (fun none => nonzero (here.symm.trans none))
      (here.trans there.symm))
  have pinned : last.publisher = .done (-eagain) → ∀ lane < 3, ¬KeepsRetained start lane →
      FoundPinned start first actions last lane := by
    intro returned lane small other
    have lanes := scan.lanes lane
    rw [returned] at lanes
    exact (lanes small).resolve_left other
  refine ⟨fun returned => ⟨pinned returned, unique⟩, fun stuck always returned => ?_⟩
  obtain ⟨left, right, apart, small, low, other, free⟩ := two_lanes unique
  have place : ∀ lane < 3, ¬KeepsRetained start lane →
      start.targetSlot lane = stuck (start.storage.publishSequence % ring.depth) := by
    intro lane small other
    obtain ⟨moment, ⟨-, here⟩, only⟩ := (pinned returned lane small other).and_always always
    rw [only _ here]
    exact congrArg stuck (slotIndex_div small)
  exact apart (slotIndex_injective ((place left small other).trans (place right low free).symm))

end Call

/-! ## Computed calls -/

/-- The code that a publish returns. -/
def Publisher.returned {size : Nat} : Publisher size → Option Int
  | .done code => some code
  | _ => none

theorem returned_eq_some {size : Nat} {publisher : Publisher size} {code : Int} :
    publisher.returned = some code ↔ publisher = .done code := by
  cases publisher <;> simp [Publisher.returned]

/-- A call that is computed, and the slot that the reader has pinned when it begins. -/
theorem computed_call (actions : List (Action pairRing Unit)) (call : Call pairRing.size)
    (later : List (Action pairRing Unit)) (slot : Option Nat) (code : Int)
    (computed : ((actions.foldlM step (created pairRing Unit)).bind fun start =>
      (step start (.publish call)).bind fun first => (later.foldlM step first).map fun last =>
        ((start.readers ()).pc.pinned pairRing, last.publisher.returned)) =
        some (slot, some code)) :
    ∃ start first last : State pairRing Unit, (system pairRing Unit).Reachable start ∧
      (start.readers ()).pc.pinned pairRing = slot ∧ step start (.publish call) = some first ∧
      (system pairRing Unit).Run first later last ∧ last.publisher = .done code := by
  obtain ⟨start, reached, computed⟩ := Option.bind_eq_some_iff.mp computed
  obtain ⟨first, began, computed⟩ := Option.bind_eq_some_iff.mp computed
  obtain ⟨last, run, computed⟩ := Option.map_eq_some_iff.mp computed
  obtain ⟨pinned, returned⟩ := Prod.mk.inj computed
  exact ⟨start, first, last,
    ⟨_, actions, created_fresh pairRing Unit, .of_foldlM (fun _ _ _ done => done) reached⟩, pinned,
    began, .of_foldlM (fun _ _ _ done => done) run, returned_eq_some.mp returned⟩

/-- The steps of a publish move no reader. -/
theorem readers_of_publisher_run [DecidableEq ι] {first last : State ring ι}
    {actions : List (Action ring ι)} (run : (system ring ι).Run first actions last)
    (own : ∀ action ∈ actions, ∃ outcome, action = .publisher outcome) :
    last.readers = first.readers := by
  induction run with
  | nil => rfl
  | snoc _ stepped ih =>
    obtain ⟨outcome, rfl⟩ := own _ (mem_append_right _ mem_cons_self)
    rw [(publisherStep_frame stepped).readers]
    exact ih fun action member => own action (mem_append_left _ member)

/-- A sample, and a reader that does not come out of its copy. -/
def stuckStart : List (Action pairRing Unit) :=
  [.openAt () .next, .publish ⟨fun _ => 7, false⟩] ++ replicate 11 (.publisher 0) ++
    [.publishReturn, .read () .latest false] ++ replicate 6 (.reader ())

theorem stuck_reader_cannot_stop_pair :
    ∃ start first last : State pairRing Unit, Pinned start 0 ∧
      step start (.publish ⟨fun _ => 9, false⟩) = some first ∧
      (system pairRing Unit).Run first (replicate 12 (.publisher 0)) last ∧
      last.publisher = .done 0 ∧ last.publisher ≠ .done (-eagain) := by
  obtain ⟨start, first, last, reachable, pinned, began, run, returned⟩ :=
    computed_call stuckStart ⟨fun _ => 9, false⟩ (replicate 12 (.publisher 0)) (some 0) 0
      (by decide +kernel)
  have entered : first.readers = start.readers := by
    simp only [Channel.step] at began
    split at began <;> cases began
    rfl
  have answered : .publisher eagain ∉ replicate 12 (.publisher 0 : Action pairRing Unit) := by
    simp [eagain]
  have always : (system pairRing Unit).Always first (replicate 12 (.publisher 0)) last
      (OnlyPinned fun _ => 0) := by
    intro before moment after split run _ index here
    have own : ∀ action ∈ before, ∃ outcome, action = .publisher outcome := fun action member =>
      ⟨0, eq_of_mem_replicate (split ▸ mem_append_left after member)⟩
    obtain ⟨reader, here⟩ := here
    cases reader
    rw [readers_of_publisher_run run own, entered, pinned] at here
    exact (Option.some.inj here).symm
  exact ⟨start, first, last, ⟨(), pinned⟩, began, run, returned,
    (stuck_reader_cannot_stop_publisher reachable began run (by simp) answered).2 _ always⟩

/-! ## A reader that moves -/

/-- Two publishes, and a reader that has not read yet. -/
def crossingStart : List (Action pairRing Unit) :=
  [.openAt () .next, .publish ⟨fun _ => 7, false⟩] ++ replicate 11 (.publisher 0) ++
    [.publishReturn, .publish ⟨fun _ => 8, false⟩] ++ replicate 14 (.publisher 0) ++
    [.publishReturn]

/-- The reader leaves each lane when the publisher has failed on it, and is on the last one
before the publisher. -/
def crossing : List (Action pairRing Unit) :=
  [.publisher 0, .read () .latest false, .reader (), .reader (), .reader (), .publisher 0,
    .reader (), .reader (), .reader (), .reader (), .publisher 0,
    .reader (), .reader (), .reader (), .publisher 0, .publisher 0, .publisher 0]

/-- With one reader there is never more than one pin, and yet a publish gives up. -/
theorem moving_reader_stops_publisher :
    (∀ (state : State pairRing Unit) left right, Pinned state left → Pinned state right →
      left = right) ∧
    ∃ start first last : State pairRing Unit, (system pairRing Unit).Reachable start ∧
      step start (.publish ⟨fun _ => 9, false⟩) = some first ∧
      (system pairRing Unit).Run first crossing last ∧ .publishReturn ∉ crossing ∧
      last.publisher = .done (-eagain) := by
  constructor
  · rintro state left right ⟨reader, here⟩ ⟨other, there⟩
    cases reader
    cases other
    exact Option.some.inj (here.symm.trans there)
  · obtain ⟨start, first, last, reachable, -, began, run, returned⟩ :=
      computed_call crossingStart ⟨fun _ => 9, false⟩ crossing none (-eagain)
        (by decide +kernel)
    exact ⟨start, first, last, reachable, began, run, by simp [crossing], returned⟩

end Kcf.Ipc.Channel
