import Kcf.Ipc.Channel.Reading

/-!
# Retention, failed publishes and undisturbed reads

The ring keeps its last `depth` samples in every reachable state, a publish that
fails leaves them alone, and `ReadNext` finds the sample it asks for when nobody
disturbs it.
-/

namespace Kcf.Ipc.Channel

open Kcf.Transition List Function

variable {ring : Ring} {ι : Type}

/-! ## The window -/

/-- A slot of group `(sequence - 1) % depth` is one of its three lanes. -/
theorem slotIndex_of_group {index sequence : Nat}
    (group : index / 3 = (sequence - 1) % ring.depth) :
    index % 3 < 3 ∧ slotIndex ring sequence (index % 3) = index := by
  unfold slotIndex
  omega

theorem slotIndex_injective {sequence left right : Nat}
    (equal : slotIndex ring sequence left = slotIndex ring sequence right) : left = right := by
  unfold slotIndex at equal
  omega

/-- Each sequence of the window is in exactly one lane of its group, with its payload. -/
theorem Ledger.window {storage : Storage ring.size} {publisher : Publisher ring.size}
    {history : List (Payload ring.size)} (ledger : Ledger storage publisher history)
    {sequence : Nat} (positive : 0 < sequence) (committed : sequence ≤ storage.publishSequence)
    (recent : storage.publishSequence < sequence + ring.depth) :
    ∃ lane, lane < 3 ∧
      (storage.slots (slotIndex ring sequence lane)).sequence = sequence ∧
      history[sequence - 1]? = some (storage.slots (slotIndex ring sequence lane)).data ∧
      ∀ other, (storage.slots (slotIndex ring sequence other)).sequence = sequence →
        other = lane := by
  obtain ⟨index, present, clean⟩ := ledger.kept sequence positive committed recent
  have nonzero : (storage.slots index).sequence ≠ 0 := by omega
  have group := (ledger.group index nonzero).1
  rw [present] at group
  obtain ⟨small, here⟩ := slotIndex_of_group group
  have stored := ledger.stored index nonzero clean
  rw [present, getElem?_append_left (by rw [ledger.committed]; omega)] at stored
  refine ⟨index % 3, small, by rw [here]; exact present, by rw [here]; exact stored, ?_⟩
  intro other same
  have equal := ledger.unique _ index (by omega) (same.trans present.symm)
  exact slotIndex_injective (equal.trans here.symm)

/-! ## One publish call -/

theorem Slot.SameContents.trans {size : Nat} {first second third : Slot size}
    (left : first.SameContents second) (right : second.SameContents third) :
    first.SameContents third :=
  ⟨right.version.trans left.version, right.sequence.trans left.sequence,
    right.data.trans left.data⟩

/-- Same commits and same protected fields of every slot. -/
structure Untouched (start state : State ring ι) : Prop where
  published : state.storage.publishSequence = start.storage.publishSequence
  contents : ∀ index, (start.storage.slots index).SameContents (state.storage.slots index)
  history : state.history = start.history

theorem Untouched.trans {first second third : State ring ι}
    (left : Untouched first second) (right : Untouched second third) : Untouched first third :=
  ⟨right.published.trans left.published,
    fun index => (left.contents index).trans (right.contents index),
    right.history.trans left.history⟩

/-- Progress of one `PublishImpl` call since the state `start` in which it began. -/
def CallProgress (start : State ring ι) (call : Call ring.size) (state : State ring ι) :
    Publisher ring.size → Prop
  | .idle => False
  | .lock current | .recover current | .consistent current | .load current =>
    current = call ∧ Untouched start state
  | .active write (.abandon error) => write.call = call ∧ error ≠ 0 ∧ Untouched start state
  | .active write .acquire | .active write .inspect | .active write .skip
  | .active write .broadcast | .active write .beginVersion =>
    write.call = call ∧ Untouched start state
  | .active write (.copy _) | .active write .stamp | .active write .endVersion
  | .active write .release | .active write .commit =>
    write.call = call ∧ state.history = start.history
  | .active write .notify => write.call = call ∧ state.history = start.history ++ [call.value]
  | .unlock code | .done code =>
    (code = 0 → state.history = start.history ++ [call.value]) ∧
      (code ≠ 0 → Untouched start state)

variable {call : Call ring.size} {start state : State ring ι}

theorem CallProgress.mono {start state next : State ring ι}
    {publisher : Publisher ring.size} (progress : CallProgress start call state publisher)
    (same : Untouched state next) : CallProgress start call next publisher := by
  cases publisher with
  | idle => exact progress
  | lock | recover | consistent | load => exact ⟨progress.1, progress.2.trans same⟩
  | unlock | done =>
    exact ⟨fun zero => same.history.trans (progress.1 zero),
      fun nonzero => (progress.2 nonzero).trans same⟩
  | active write phase =>
    cases phase with
    | abandon error => exact ⟨progress.1, progress.2.1, progress.2.2.trans same⟩
    | acquire | inspect | skip | broadcast | beginVersion =>
      exact ⟨progress.1, progress.2.trans same⟩
    | copy | stamp | endVersion | release | commit | notify =>
      exact ⟨progress.1, same.history.trans progress.2⟩

theorem callProgress_leave {code : Int}
    (current : Call ring.size) (nonzero : code ≠ 0) (same : Untouched start state) :
    CallProgress start call state (leave current code) := by
  unfold leave
  split <;> exact ⟨fun zero => absurd zero nonzero, fun _ => same⟩

theorem callProgress_nextLane {write : Write ring.size}
    (same : Untouched start state) : CallProgress start write.call state (nextLane write) := by
  unfold nextLane
  split
  · exact ⟨rfl, same⟩
  · exact callProgress_leave _ (by decide) same

theorem callProgress_afterLock (error : Int) (same : Untouched start state) :
    CallProgress start call state (afterLock call error) := by
  unfold afterLock
  split
  · exact ⟨rfl, same⟩
  next failed => exact ⟨fun zero => absurd zero (by omega), fun _ => same⟩

theorem untouched_setUsers (state : State ring ι) (index users : Nat)
    (publisher : Publisher ring.size) :
    Untouched state
      ((state.setStorage (state.storage.setUsers index users)).setPublisher publisher) :=
  ⟨rfl, fun _ => Storage.setUsers_sameContents _ _ _ _, rfl⟩

theorem untouched_setPublisher (state : State ring ι) (publisher : Publisher ring.size) :
    Untouched state (state.setPublisher publisher) :=
  ⟨rfl, fun _ => Slot.SameContents.refl _, rfl⟩

theorem CallProgress.writeStep {write : Write ring.size} {phase : Phase ring.size} (outcome : Int)
    (progress : CallProgress start call state (.active write phase)) :
    CallProgress start call (writeStep state write outcome phase)
      (writeStep state write outcome phase).publisher := by
  obtain rfl : write.call = call := by cases phase <;> exact progress.1
  cases phase with
  | acquire =>
    simp only [Channel.writeStep]
    split
    · exact ⟨rfl, progress.2.trans (untouched_setUsers _ _ _ _)⟩
    · exact callProgress_nextLane (progress.2.trans (untouched_setPublisher _ _))
  | inspect =>
    simp only [Channel.writeStep]
    split
    · exact ⟨rfl, progress.2.trans (untouched_setPublisher _ _)⟩
    · cases write.call.notify <;> exact ⟨rfl, progress.2.trans (untouched_setPublisher _ _)⟩
  | skip => exact callProgress_nextLane (progress.2.trans (untouched_setUsers _ _ _ _))
  | broadcast =>
    simp only [Channel.writeStep, State.setPublisher]
    split
    · exact ⟨rfl, progress.2.trans (untouched_setPublisher _ _)⟩
    next failed => exact ⟨rfl, failed, progress.2.trans (untouched_setPublisher _ _)⟩
  | abandon error =>
    obtain ⟨_, nonzero, same⟩ := progress
    exact callProgress_leave _ (by omega) (same.trans (untouched_setUsers _ _ _ _))
  | beginVersion => exact ⟨rfl, progress.2.history⟩
  | copy todo => cases todo <;> exact ⟨rfl, progress.2⟩
  | stamp => exact ⟨rfl, progress.2⟩
  | endVersion => exact ⟨rfl, progress.2⟩
  | release => exact ⟨rfl, progress.2⟩
  | commit =>
    have grown : state.history ++ [write.call.value] = start.history ++ [write.call.value] := by
      rw [progress.2]
    simp only [Channel.writeStep]
    split
    · exact ⟨rfl, grown⟩
    · exact ⟨fun _ => grown, fun nonzero => absurd rfl nonzero⟩
  | notify => exact ⟨fun _ => progress.2, fun nonzero => absurd rfl nonzero⟩

theorem CallProgress.publisherStep {start state next : State ring ι}
    {outcome : Int} (progress : CallProgress start call state state.publisher)
    (stepped : publisherStep state outcome = some next) :
    CallProgress start call next next.publisher := by
  unfold Channel.publisherStep at stepped
  split at stepped
  all_goals try cases stepped
  case h_3 current here =>
    rw [here] at progress
    obtain ⟨rfl, same⟩ := progress
    simp only [State.setPublisher]
    split
    · exact ⟨rfl, same.trans (untouched_setPublisher _ _)⟩
    · exact callProgress_afterLock _ (same.trans (untouched_setPublisher _ _))
  case h_4 current here =>
    rw [here] at progress
    exact ⟨progress.1, progress.2.trans ⟨rfl, fun _ => Slot.SameContents.refl _, rfl⟩⟩
  case h_5 current here =>
    rw [here] at progress
    obtain ⟨rfl, same⟩ := progress
    exact callProgress_afterLock _ (same.trans (untouched_setPublisher _ _))
  case h_6 current here =>
    rw [here] at progress
    obtain ⟨rfl, same⟩ := progress
    simp only [State.setPublisher]
    split
    · exact callProgress_leave _ (by decide) (same.trans (untouched_setPublisher _ _))
    · exact ⟨rfl, same.trans (untouched_setPublisher _ _)⟩
  case h_7 write phase here =>
    rw [here] at progress
    exact progress.writeStep outcome
  case h_8 code here =>
    rw [here] at progress
    have ended : CallProgress start call state (.done code) := progress
    exact ended.mono (untouched_setPublisher _ _)

section Call

variable [DecidableEq ι]

variable {call : Call ring.size}

/-- What a step is, seen by the publisher: a step of its own, or one that leaves it and all that
it writes alone. -/
theorem step_cases {state next : State ring ι} {action : Action ring ι}
    (stepped : step state action = some next) :
    (∃ call, action = .publish call ∧ state.publisher = .idle) ∨
      (∃ outcome, action = .publisher outcome) ∨ action = .publishReturn ∨
      next.publisher = state.publisher ∧ Untouched state next := by
  have same (reader : ι) (moved : Reader ring.size) :
      Untouched state (state.setReader reader moved) :=
    ⟨rfl, fun _ => Slot.SameContents.refl _, rfl⟩
  cases action with
  | publish call =>
    simp only [Channel.step] at stepped
    split at stepped <;> cases stepped
    next idle => exact .inl ⟨call, rfl, idle⟩
  | publisher outcome => exact .inr (.inl ⟨outcome, rfl⟩)
  | publishReturn => exact .inr (.inr (.inl rfl))
  | read reader kind =>
    simp only [Channel.step] at stepped
    split at stepped <;> try cases stepped
    obtain ⟨pc, _, rfl⟩ := Option.map_eq_some_iff.mp stepped
    exact .inr (.inr (.inr ⟨rfl, same _ _⟩))
  | reader reader =>
    obtain ⟨⟨storage, moved⟩, moves, rfl⟩ := Option.map_eq_some_iff.mp stepped
    have frame := readerStep_frame moves
    exact .inr (.inr (.inr ⟨rfl, frame.published, frame.contents, rfl⟩))
  | openAt | close | readReturn =>
    simp only [Channel.step] at stepped
    split at stepped <;> cases stepped
    exact .inr (.inr (.inr ⟨rfl, same _ _⟩))

theorem CallProgress.step {start state next : State ring ι}
    {action : Action ring ι} (progress : CallProgress start call state state.publisher)
    (inside : action ≠ .publishReturn) (stepped : step state action = some next) :
    CallProgress start call next next.publisher := by
  obtain ⟨other, rfl, idle⟩ | ⟨outcome, rfl⟩ | rfl | ⟨same, untouched⟩ := step_cases stepped
  · -- a second call cannot start before the first has returned
    rw [idle] at progress
    exact progress.elim
  · exact progress.publisherStep stepped
  · exact absurd rfl inside
  · rw [same]
    exact progress.mono untouched

/-- A publish call from its start until it is about to return, among any steps
of the readers. -/
theorem callProgress_run {start first last : State ring ι} {actions : List (Action ring ι)}
    (began : step start (.publish call) = some first) (run : (system ring ι).Run first actions last)
    (inside : .publishReturn ∉ actions) :
    CallProgress start call last last.publisher := by
  have entry : CallProgress start call first first.publisher := by
    simp only [Channel.step] at began
    split at began <;> cases began
    simp only [State.setPublisher]
    split <;> exact ⟨rfl, untouched_setPublisher _ _⟩
  induction run with
  | nil => exact entry
  | snoc _ stepped ih =>
    simp only [mem_append, mem_singleton, not_or] at inside
    exact (ih inside.1).step (fun same => inside.2 same.symm) stepped

/-- A publish that returns zero has committed its own payload and nothing else;
one that returns an error has changed no commit and no protected field. -/
theorem publish_outcome {start first last : State ring ι}
    {actions : List (Action ring ι)} {code : Int} (began : step start (.publish call) = some first)
    (run : (system ring ι).Run first actions last)
    (inside : .publishReturn ∉ actions) (returned : last.publisher = .done code) :
    (code = 0 → last.history = start.history ++ [call.value]) ∧
      (code ≠ 0 → Untouched start last) := by
  have progress := callProgress_run began run inside
  rw [returned] at progress
  exact progress

end Call

/-! ## An undisturbed read -/

/-- Steps of one reader while nobody else moves. -/
def Solo (ring : Ring) :
    Storage ring.size × Reader ring.size → Storage ring.size × Reader ring.size → Prop :=
  Relation.ReflTransGen fun before after => readerStep ring before.1 before.2 = some after

theorem Storage.setUsers_restore {size : Nat} (storage : Storage size) (index users : Nat) :
    (storage.setUsers index users).setUsers index (storage.slots index).users = storage := by
  simp only [setUsers, setSlot, update_self, update_idem, update_eq_self]

/-- Taking a pin and dropping it again restores the storage. -/
theorem unpin_pin {storage : Storage ring.size} {index : Nat}
    (room : (storage.slots index).users < writing - 1) :
    let pinned := storage.setUsers index ((storage.slots index).users + 1)
    pinned.setUsers index (fetchSub (pinned.slots index).users) = storage := by
  intro pinned
  have users : fetchSub (pinned.slots index).users = (storage.slots index).users := by
    simp only [pinned, Storage.setUsers, Storage.setSlot_slots, if_true, fetchSub]
    simp only [writing] at room
    omega
  rw [users]
  exact Storage.setUsers_restore _ _ _

section Reader

variable {storage : Storage ring.size} (reader : Reader ring.size) {lookup : Lookup}

/-- Entering a lane below the pin limit. -/
theorem solo_pin (room : (lookup.slot storage).users < writing - 1) :
    Solo ring (storage, { reader with pc := .loadUsers lookup })
      (storage.setUsers (lookup.target ring) ((lookup.slot storage).users + 1),
        { reader with
          pc := .check lookup (lookup.slot storage).version
            storage.publishSequence }) := by
  have below : ¬(lookup.slot storage).users ≥ writing - 1 := by omega
  have same := storage.setUsers_sameContents (lookup.target ring)
    ((lookup.slot storage).users + 1) (lookup.target ring)
  rw [← same.version]
  have load : readerStep ring storage { reader with pc := .loadUsers lookup } = some (storage,
      { reader with pc := .pin lookup (lookup.slot storage).users }) := by
    simp only [readerStep, if_neg below]
  have pin : readerStep ring storage
      { reader with pc := .pin lookup (lookup.slot storage).users } = some
        (storage.setUsers (lookup.target ring) ((lookup.slot storage).users + 1),
          { reader with pc := .loadVersion lookup }) := by
    simp only [readerStep, if_true]
  exact .head load (.head pin (.head rfl (.single rfl)))

/-- A pinned slot with another sequence is left again. -/
theorem solo_reject (before latest : Nat)
    (absent : (lookup.slot storage).sequence ≠ lookup.wanted) :
    Solo ring (storage, { reader with pc := .check lookup before latest })
      (storage.setUsers (lookup.target ring)
          (fetchSub (lookup.slot storage).users),
        { reader with pc := nextLookup lookup }) := by
  have unreadable : Unreadable ring lookup before latest
      (lookup.slot storage).sequence := .inr (.inl absent)
  have check : readerStep ring storage { reader with pc := .check lookup before latest } =
      some (storage, { reader with pc := .reject lookup }) := by
    simp only [readerStep, if_pos unreadable]
  exact .head check (.single rfl)

/-- A lane that does not hold the wanted sequence sends the reader on. -/
theorem solo_miss (absent : (lookup.slot storage).sequence ≠ lookup.wanted) :
    Solo ring (storage, { reader with pc := .loadUsers lookup })
      (storage, { reader with pc := nextLookup lookup }) := by
  by_cases full : (lookup.slot storage).users ≥ writing - 1
  · refine .single ?_
    simp only [readerStep, if_pos full]
  · have room : (lookup.slot storage).users < writing - 1 := by omega
    have same := storage.setUsers_sameContents (lookup.target ring)
      ((lookup.slot storage).users + 1) (lookup.target ring)
    have rejected := solo_reject reader (lookup.slot storage).version
      storage.publishSequence (same.sequence.trans_ne absent)
    rw [unpin_pin room] at rejected
    exact (solo_pin reader room).trans rejected

/-- The copy loop ends with the bytes of the slot. -/
theorem solo_copy (storage : Storage ring.size) (lookup : Lookup) (before : Nat)
    (todo : List (Fin ring.size)) (buffer : Payload ring.size) :
    ∃ final, (∀ position, position ∈ todo ∨
          buffer position = (lookup.slot storage).data position →
        final position = (lookup.slot storage).data position) ∧
      Solo ring (storage, { reader with pc := .copy lookup before todo buffer })
        (storage, { reader with pc := .copy lookup before [] final }) := by
  induction todo generalizing buffer with
  | nil =>
    refine ⟨buffer, fun position copied => ?_, .refl⟩
    simpa using copied
  | cons first todo ih =>
    obtain ⟨final, copied, rest⟩ := ih (update buffer first
      ((lookup.slot storage).data first))
    refine ⟨final, fun position known => copied position ?_, .head rfl rest⟩
    by_cases equal : position = first
    · right
      rw [equal, update_self]
    · rw [update_of_ne equal]
      simpa [equal] using known

/-- A pinned slot that passes the test is copied and delivered. -/
theorem solo_accept {before latest : Nat}
    (present : (lookup.slot storage).sequence = lookup.wanted)
    (version : (lookup.slot storage).version = before)
    (even : before % 2 = 0) (committed : lookup.wanted ≤ latest)
    (recent : latest < lookup.wanted + ring.depth) :
    Solo ring (storage, { reader with pc := .check lookup before latest })
      (storage.setUsers (lookup.target ring)
          (fetchSub (lookup.slot storage).users),
        deliver reader lookup (lookup.slot storage).data) := by
  obtain ⟨final, copied, copy⟩ := solo_copy reader storage lookup before ring.order (fun _ => 0)
  obtain rfl : final = (lookup.slot storage).data :=
    funext fun position => copied position (.inl (ring.order_covers position))
  have readable : ¬Unreadable ring lookup before latest
      (lookup.slot storage).sequence := by
    rw [present]
    simp only [Unreadable, not_or]
    omega
  have check : readerStep ring storage { reader with pc := .check lookup before latest } =
      some (storage, { reader with pc := .copy lookup before ring.order (fun _ => 0) }) := by
    simp only [readerStep, if_neg readable]
  refine .head check (copy.trans (.head rfl (.head rfl (.single ?_))))
  simp only [readerStep, version, even, and_self, if_true]
  rfl

/-- The lane that holds the wanted sequence delivers it. -/
theorem solo_hit (present : (lookup.slot storage).sequence = lookup.wanted)
    (even : (lookup.slot storage).version % 2 = 0)
    (room : (lookup.slot storage).users < writing - 1)
    (committed : lookup.wanted ≤ storage.publishSequence)
    (recent : storage.publishSequence < lookup.wanted + ring.depth) :
    Solo ring (storage, { reader with pc := .loadUsers lookup })
      (storage, deliver reader lookup (lookup.slot storage).data) := by
  have same := storage.setUsers_sameContents (lookup.target ring)
    ((lookup.slot storage).users + 1) (lookup.target ring)
  have accepted := solo_accept reader (same.sequence.trans present) same.version even
    committed recent
  rw [unpin_pin room, same.data] at accepted
  exact (solo_pin reader room).trans accepted

/-- `ReadSequence` for a sample that sits in lane `lane`, started `distance`
lanes before it. -/
theorem solo_search (lookup : Lookup) {lane : Nat} (small : lane < 3)
    (present : (storage.slots (slotIndex ring lookup.wanted lane)).sequence = lookup.wanted)
    (only : ∀ other, (storage.slots (slotIndex ring lookup.wanted other)).sequence =
      lookup.wanted → other = lane)
    (even : (storage.slots (slotIndex ring lookup.wanted lane)).version % 2 = 0)
    (room : (storage.slots (slotIndex ring lookup.wanted lane)).users < writing - 1)
    (committed : lookup.wanted ≤ storage.publishSequence)
    (recent : storage.publishSequence < lookup.wanted + ring.depth)
    (distance : Nat) (before : lookup.lane + distance = lane) :
    Solo ring (storage, { reader with pc := .loadUsers lookup })
      (storage, deliver reader lookup
        (storage.slots (slotIndex ring lookup.wanted lane)).data) := by
  induction distance generalizing lookup with
  | zero =>
    have here : lookup.lane = lane := before
    subst here
    exact solo_hit reader present even room committed recent
  | succ distance ih =>
    have absent : (lookup.slot storage).sequence ≠ lookup.wanted := by
      intro found
      have := only lookup.lane found
      omega
    have next : (nextLookup lookup : ReaderPc ring.size) =
        .loadUsers { lookup with lane := lookup.lane + 1 } := if_pos (by omega)
    have rest := ih { lookup with lane := lookup.lane + 1 } present only even room
      committed recent (by simp only; omega)
    refine (solo_miss reader absent).trans ?_
    rw [next]
    exact rest

end Reader

section ReadNext

variable [DecidableEq ι]

/-- Solo steps are steps of the system. -/
theorem Solo.run {first last : Storage ring.size × Reader ring.size}
    (solo : Solo ring first last) (state : State ring ι) (reader : ι)
    (storage : state.storage = first.1) (current : state.readers reader = first.2) :
    ∃ count, (system ring ι).Run state (replicate count (.reader reader))
      ((state.setStorage last.1).setReader reader last.2) := by
  induction solo with
  | refl =>
    refine ⟨0, ?_⟩
    have same : (state.setStorage first.1).setReader reader first.2 = state := by
      rw [← storage, ← current]
      simp only [State.setReader, State.setStorage, update_eq_self]
    rw [same]
    exact .nil state
  | @tail middle last _ stepped ih =>
    obtain ⟨count, run⟩ := ih
    refine ⟨count + 1, ?_⟩
    rw [replicate_succ']
    refine .snoc run ?_
    simp only [system, step, State.setReader, State.setStorage, update_self, stepped,
      Option.map_some, update_idem]

/-- The lookup `ReadNext` starts when it is behind. -/
theorem beginLookup_next (ring : Ring) {cursor latest : Nat} (behind : cursor < latest) :
    let wanted := max (cursor + 1) (latest + 1 - ring.depth)
    beginLookup ring cursor latest .next =
      .loadUsers ⟨.next, wanted, wanted - (cursor + 1), 0⟩ := by
  intro wanted
  have equal : (if cursor + 1 < (if latest ≥ ring.depth then latest - ring.depth + 1 else 1)
      then (if latest ≥ ring.depth then latest - ring.depth + 1 else 1) else cursor + 1) =
        wanted := by
    simp only [wanted]
    repeat' split
    all_goals omega
  simp only [beginLookup, if_neg (Nat.not_le.mpr behind), equal]

/-- `ReadNext` without any step of the publisher or of another reader. -/
theorem Invariant.readNext [Fintype ι] {state : State ring ι} (invariant : Invariant state)
    {reader : ι} (quiet : state.publisher = .idle)
    (waiting : (state.readers reader).pc = .idle)
    (opened : (state.readers reader).opened = true)
    (behind : (state.readers reader).cursor < state.storage.publishSequence)
    {wanted : Nat} (oldest : wanted = max ((state.readers reader).cursor + 1)
      (state.storage.publishSequence + 1 - ring.depth))
    (room : ∀ index, (state.storage.slots index).sequence = wanted →
      pinCount state index < 0x7fffffff) :
    ∃ count value, state.history[wanted - 1]? = some value ∧
      (system ring ι).Run state
        (.read reader .next false :: replicate count (.reader reader))
        (state.setReader reader (deliver (state.readers reader)
          ⟨.next, wanted, wanted - ((state.readers reader).cursor + 1), 0⟩ value)) := by
  have positive := ring.depth_pos
  have committed : wanted ≤ state.storage.publishSequence := by omega
  have recent : state.storage.publishSequence < wanted + ring.depth := by omega
  obtain ⟨lane, small, present, payload, only⟩ :=
    invariant.ledger.window (by omega) committed recent
  have free : state.publisher.held ring ≠ some (slotIndex ring wanted lane) := by
    rw [quiet]
    simp [Publisher.held]
  have even : (state.storage.slots (slotIndex ring wanted lane)).version % 2 = 0 := by
    rw [invariant.ledger.parity, quiet]
    rfl
  have available : (state.storage.slots (slotIndex ring wanted lane)).users < writing - 1 := by
    rw [invariant.exclusive.free _ free]
    exact room _ present
  -- the call itself, the load of `publish_sequence`, and the search
  have called : Channel.step state (.read reader .next false) = some (state.setReader reader
      { state.readers reader with pc := .load .next }) := by
    simp [Channel.step, waiting, beginRead, opened]
  have load : Channel.readerStep ring state.storage
      { state.readers reader with pc := .load .next } = some (state.storage,
        { state.readers reader with
          pc := .loadUsers ⟨.next, wanted, wanted - ((state.readers reader).cursor + 1), 0⟩ }) := by
    simp only [Channel.readerStep, beginLookup_next ring behind, oldest]
  have search := solo_search (state.readers reader)
    ⟨.next, wanted, wanted - ((state.readers reader).cursor + 1), 0⟩
    small present only even available committed recent lane (Nat.zero_add lane)
  have solo : Solo ring (state.storage, { state.readers reader with pc := .load .next }) _ :=
    .head load search
  obtain ⟨count, run⟩ := solo.run (state.setReader reader _) reader rfl (update_self _ _ _)
  refine ⟨count, _, payload, ?_⟩
  have whole := (System.Run.single called).append run
  simpa [State.setReader, State.setStorage, deliver] using whole

/-- **The ring keeps its last `depth` samples.**  In every reachable state, also
in the middle of a publish, each sequence of the window is in exactly one slot of
its group with its own payload; a publish that fails leaves commits, sequences,
versions and payloads alone; and a reader that is behind gets the oldest sample
it can still ask for if nobody disturbs it. -/
theorem ring_keeps_last_depth [Fintype ι] {state : State ring ι}
    (reachable : (system ring ι).Reachable state) :
    (∀ sequence, max 1 (state.storage.publishSequence + 1 - ring.depth) ≤ sequence →
      sequence ≤ state.storage.publishSequence →
      ∃ lane, lane < 3 ∧
        (state.storage.slots (slotIndex ring sequence lane)).sequence = sequence ∧
        state.history[sequence - 1]? =
          some (state.storage.slots (slotIndex ring sequence lane)).data ∧
        ∀ other, other < 3 →
          (state.storage.slots (slotIndex ring sequence other)).sequence = sequence →
            other = lane) ∧
    (∀ call first actions last code, step state (.publish call) = some first →
      (system ring ι).Run first actions last → .publishReturn ∉ actions →
      last.publisher = .done code → code ≠ 0 →
        last.storage.publishSequence = state.storage.publishSequence ∧
        ∀ index, (last.storage.slots index).sequence = (state.storage.slots index).sequence ∧
          (last.storage.slots index).version = (state.storage.slots index).version ∧
          (last.storage.slots index).data = (state.storage.slots index).data) ∧
    (∀ reader wanted, state.publisher = .idle → (state.readers reader).pc = .idle →
      (state.readers reader).opened = true →
      (state.readers reader).cursor < state.storage.publishSequence →
      wanted = max ((state.readers reader).cursor + 1)
        (state.storage.publishSequence + 1 - ring.depth) →
      (∀ index, (state.storage.slots index).sequence = wanted →
        pinCount state index < 0x7fffffff) →
      ∃ count missed value last, state.history[wanted - 1]? = some value ∧
        (system ring ι).Run state
          (.read reader .next false :: replicate count (.reader reader)) last ∧
        (last.readers reader).cursor = wanted ∧
        (last.readers reader).pc = .done (.ok wanted missed value)) := by
  have invariant := Invariant.of_reachable reachable
  refine ⟨?_, ?_, ?_⟩
  · intro sequence oldest newest
    obtain ⟨lane, small, present, payload, only⟩ :=
      invariant.ledger.window (by omega) newest (by omega)
    exact ⟨lane, small, present, payload, fun other _ => only other⟩
  · intro call first actions last code began run inside returned failed
    have same := (publish_outcome began run inside returned).2 failed
    exact ⟨same.published, fun index => ⟨(same.contents index).sequence,
      (same.contents index).version, (same.contents index).data⟩⟩
  · intro reader wanted quiet waiting opened behind oldest room
    obtain ⟨count, value, payload, run⟩ :=
      invariant.readNext quiet waiting opened behind oldest room
    refine ⟨count, wanted - ((state.readers reader).cursor + 1), value, _, payload, run, ?_, ?_⟩
    all_goals
      simp only [State.setReader, update_self]
      rfl

end ReadNext

/-- One publish of the bytes 7 and 9, and a reader that has not read yet. -/
def publishBehindReader : List (Action pairRing Unit) :=
  .openAt () .oldest ::
    .publish ⟨fun position : Fin 2 => if position.val = 0 then 7 else 9, false⟩ ::
    replicate 11 (.publisher 0) ++ [.publishReturn]

/-- The state after `publishBehindReader`. -/
def oneBehind : State pairRing Unit :=
  (publishBehindReader.foldlM step (created pairRing Unit)).getD (created pairRing Unit)

theorem oneBehind_reachable : (system pairRing Unit).Reachable oneBehind :=
  ⟨_, publishBehindReader, created_fresh pairRing Unit,
    .of_foldlM (fun _ _ _ computed => computed) rfl⟩

theorem ring_keeps_last_depth_pair : oneBehind.storage.publishSequence = 1 ∧
    (∃ lane, lane < 3 ∧ (oneBehind.storage.slots lane).sequence = 1) ∧
    (∃ call first last, step oneBehind (.publish call) = some first ∧
      (system pairRing Unit).Run first [.publisher Errno.einval] last ∧
      last.publisher = .done (-Errno.einval) ∧ last.storage.publishSequence = 1) ∧
    ∃ count missed value last, (system pairRing Unit).Run oneBehind
        (.read () .next false :: replicate count (.reader ())) last ∧
      (last.readers ()).pc = .done (.ok 1 missed value) := by
  obtain ⟨window, failed, next⟩ := ring_keeps_last_depth oneBehind_reachable
  refine ⟨rfl, ?_, ?_, ?_⟩
  · obtain ⟨lane, small, present, _⟩ := window 1 (by decide) (by decide)
    refine ⟨lane, small, ?_⟩
    simpa [slotIndex] using present
  · -- the mutex of a notifying publish cannot be locked
    let call : Call pairRing.size := ⟨fun _ => 0, true⟩
    let locking := oneBehind.setPublisher (.lock call)
    have run : (system pairRing Unit).Run locking [.publisher Errno.einval]
        (locking.setPublisher (.done (-Errno.einval))) := .single rfl
    exact ⟨call, locking, _, rfl, run, rfl,
      (failed call locking _ _ _ rfl run (by simp) rfl (by decide)).1⟩
  · obtain ⟨count, missed, value, last, _, run, _, returned⟩ :=
      next () 1 rfl rfl rfl (by decide) rfl
        (fun index _ => Nat.lt_of_le_of_lt (population_le_card _ _) (by decide))
    exact ⟨count, missed, value, last, run, returned⟩

end Kcf.Ipc.Channel
