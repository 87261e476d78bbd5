import Kcf.Ipc.Channel.Ledger

/-!
# Reads under any interleaving

A pinned slot cannot be taken by the publisher, so everything a reader has seen
of it stays true until the pin is dropped.  Together with the ledger this gives
the safety of every read.
-/

namespace Kcf.Ipc.Channel

open Kcf.Transition List Function

variable {ring : Ring} {ι : Type}

/-- The slot of a lookup carries the wanted, committed sample, and `before` is
its even version. -/
structure Lookup.Readable (storage : Storage ring.size) (lookup : Lookup) (before : Nat) :
    Prop where
  version : (lookup.slot storage).version = before
  even : before % 2 = 0
  sequence : (lookup.slot storage).sequence = lookup.wanted
  committed : lookup.wanted ≤ storage.publishSequence

/-- What a reader knows at each point of its call. -/
def ReaderOk (storage : Storage ring.size) (history : List (Payload ring.size)) :
    ReaderPc ring.size → Prop
  | .idle | .load .latest | .load .next | .done (.error _) => True
  | .load (.sequence wanted) => 0 < wanted
  | .loadUsers lookup | .pin lookup _ | .loadVersion lookup | .reject lookup => 0 < lookup.wanted
  | .loadPublished lookup before =>
    0 < lookup.wanted ∧ (lookup.slot storage).version = before
  | .check lookup before latest =>
    0 < lookup.wanted ∧ (lookup.slot storage).version = before ∧
      latest ≤ storage.publishSequence
  | .copy lookup before todo buffer =>
    0 < lookup.wanted ∧ lookup.Readable storage before ∧
      ∀ position, position ∉ todo →
        buffer position = (lookup.slot storage).data position
  | .reloadVersion lookup before buffer =>
    0 < lookup.wanted ∧ lookup.Readable storage before ∧
      buffer = (lookup.slot storage).data
  | .unpin lookup before _ buffer =>
    0 < lookup.wanted ∧ lookup.Readable storage before ∧
      buffer = (lookup.slot storage).data
  | .done (.ok sequence _ value) =>
    0 < sequence ∧ sequence ≤ storage.publishSequence ∧ history[sequence - 1]? = some value

variable {storage after : Storage ring.size} {history : List (Payload ring.size)}
  {publisher : Publisher ring.size}

theorem Lookup.Readable.mono {lookup : Lookup} {before : Nat}
    (readable : lookup.Readable storage before)
    (published : storage.publishSequence ≤ after.publishSequence)
    (same : (lookup.slot storage).SameContents
      (lookup.slot after)) : lookup.Readable after before where
  version := same.version.trans readable.version
  even := readable.even
  sequence := same.sequence.trans readable.sequence
  committed := readable.committed.trans published

/-- Steps of the others keep what a reader knows: commits only grow, and the
pinned slot keeps its protected fields. -/
theorem ReaderOk.mono {history longer : List (Payload ring.size)} {pc : ReaderPc ring.size}
    (ok : ReaderOk storage history pc) (published : storage.publishSequence ≤ after.publishSequence)
    (grows : history <+: longer) (same : ∀ index, pc.pinned ring = some index →
      (storage.slots index).SameContents (after.slots index)) :
    ReaderOk after longer pc := by
  cases pc with
  | idle => trivial
  | load kind => cases kind <;> exact ok
  | loadUsers lookup => exact ok
  | pin lookup users => exact ok
  | loadVersion lookup => exact ok
  | reject lookup => exact ok
  | loadPublished lookup before => exact ⟨ok.1, (same _ rfl).version.trans ok.2⟩
  | check lookup before latest =>
    exact ⟨ok.1, (same _ rfl).version.trans ok.2.1, ok.2.2.trans published⟩
  | copy lookup before todo buffer =>
    refine ⟨ok.1, ok.2.1.mono published (same _ rfl), fun position moved => ?_⟩
    rw [(same _ rfl).data]
    exact ok.2.2 position moved
  | reloadVersion lookup before buffer =>
    exact ⟨ok.1, ok.2.1.mono published (same _ rfl), ok.2.2.trans (same _ rfl).data.symm⟩
  | unpin lookup before after buffer =>
    exact ⟨ok.1, ok.2.1.mono published (same _ rfl), ok.2.2.trans (same _ rfl).data.symm⟩
  | done result =>
    cases result with
    | error code => trivial
    | ok sequence missed value =>
      obtain ⟨positive, committed, found⟩ := ok
      obtain ⟨rest, rfl⟩ := grows
      refine ⟨positive, committed.trans published, ?_⟩
      rw [List.getElem?_append_left (List.getElem?_eq_some_iff.mp found).1]
      exact found

theorem readerOk_nextLookup {storage : Storage ring.size}
    {lookup : Lookup} (positive : 0 < lookup.wanted) :
    ReaderOk storage history (nextLookup lookup) := by
  unfold nextLookup
  split
  · exact positive
  · trivial

theorem readerOk_beginLookup {kind : ReadKind} (cursor latest : Nat)
    (ok : ReaderOk storage history (.load kind)) :
    ReaderOk after history (beginLookup ring cursor latest kind) := by
  cases kind with
  | latest =>
    simp only [beginLookup]
    split
    · trivial
    · simp only [ReaderOk]
      omega
  | next =>
    simp only [beginLookup]
    split
    · trivial
    · simp only [ReaderOk]
      repeat' split
      all_goals omega
  | sequence wanted => exact ok

/-- A slot being overwritten is held. -/
theorem held_of_dirtySlot {index : Nat}
    (dirty : publisher.dirtySlot ring = some index) : publisher.held ring = some index := by
  unfold Publisher.dirtySlot at dirty
  split at dirty
  · exact dirty
  · exact dirty
  · cases dirty

/-- The bytes behind a readable lookup are the committed payload. -/
theorem Ledger.payload_of_readable {storage : Storage ring.size}
    (ledger : Ledger storage publisher history) {lookup : Lookup} {before : Nat}
    (positive : 0 < lookup.wanted) (readable : lookup.Readable storage before)
    (free : publisher.held ring ≠ some (lookup.target ring)) :
    history[lookup.wanted - 1]? = some (lookup.slot storage).data := by
  have stored := ledger.stored (lookup.target ring)
    (by rw [readable.sequence]; omega) (fun dirty => free (held_of_dirtySlot dirty))
  have committed := readable.committed
  rw [readable.sequence, getElem?_append_left (by rw [ledger.committed]; omega)] at stored
  exact stored

/-- One step of the reader itself. -/
theorem ReaderOk.step {reader moved : Reader ring.size} (ledger : Ledger storage publisher history)
    (free : ∀ index, reader.pc.pinned ring = some index → publisher.held ring ≠ some index)
    (ok : ReaderOk storage history reader.pc)
    (stepped : readerStep ring storage reader = some (after, moved)) :
    ReaderOk after history moved.pc := by
  obtain ⟨opened, cursor, pc, value, info⟩ := reader
  cases pc with
  | idle | done => cases stepped
  | load kind =>
    cases stepped
    exact readerOk_beginLookup _ _ ok
  | loadUsers lookup =>
    cases stepped
    dsimp only
    split
    · exact readerOk_nextLookup ok
    · exact ok
  | pin lookup users =>
    simp only [readerStep] at stepped
    split at stepped <;> cases stepped
    · exact ok
    · exact readerOk_nextLookup ok
  | loadVersion lookup =>
    cases stepped
    exact ⟨ok, rfl⟩
  | loadPublished lookup before =>
    cases stepped
    exact ⟨ok.1, ok.2, Nat.le_refl _⟩
  | check lookup before latest =>
    cases stepped
    obtain ⟨positive, version, known⟩ := ok
    dsimp only
    split
    · exact positive
    next readable =>
      simp only [Unreadable, not_or, not_not] at readable
      refine ⟨positive, ⟨version, by omega, readable.2.1, by omega⟩, fun position moved => ?_⟩
      exact absurd (ring.order_covers position) moved
  | reject lookup =>
    cases stepped
    exact readerOk_nextLookup ok
  | copy lookup before todo buffer =>
    cases todo with
    | nil =>
      cases stepped
      exact ⟨ok.1, ok.2.1, funext fun position => ok.2.2 position not_mem_nil⟩
    | cons position todo =>
      cases stepped
      refine ⟨ok.1, ok.2.1, fun other moved => ?_⟩
      by_cases equal : other = position
      · rw [equal, update_self]
      · rw [update_of_ne equal]
        exact ok.2.2 other (by simp [equal, moved])
  | reloadVersion lookup before buffer =>
    cases stepped
    exact ok
  | unpin lookup before seen buffer =>
    cases stepped
    obtain ⟨positive, readable, rfl⟩ := ok
    dsimp only
    split
    · exact ⟨positive, readable.committed,
        ledger.payload_of_readable positive readable (free _ rfl)⟩
    · exact readerOk_nextLookup positive

/-! ## The invariant of the channel -/

section Invariant

variable [Fintype ι] [DecidableEq ι]

/-- Everything that holds in all reachable states of a channel. -/
structure Invariant (state : State ring ι) : Prop where
  exclusive : Exclusive state
  ledger : Ledger state.storage state.publisher state.history
  reading : ∀ reader, ReaderOk state.storage state.history (state.readers reader).pc

variable {state : State ring ι}

omit [DecidableEq ι] in
theorem Invariant.of_fresh (fresh : Fresh state) : Invariant state where
  exclusive := .of_fresh fresh
  ledger := .of_fresh fresh
  reading reader := by
    obtain ⟨_, _, detached⟩ := fresh.readers reader
    rw [detached]
    trivial

omit [DecidableEq ι] in
theorem Invariant.publisherStep {state next : State ring ι} {outcome : Int}
    (invariant : Invariant state) (stepped : publisherStep state outcome = some next) :
    Invariant next := by
  have frame := publisherStep_frame stepped
  have ledger := invariant.ledger.publisherStep stepped
  have grows := publisherStep_history stepped
  have published : state.storage.publishSequence ≤ next.storage.publishSequence := by
    rw [← invariant.ledger.committed, ← ledger.committed]
    exact grows.length_le
  refine ⟨invariant.exclusive.publisher frame, ledger, fun reader => ?_⟩
  rw [frame.readers]
  exact (invariant.reading reader).mono published grows
    (fun index pinned => frame.contents index (invariant.exclusive.not_held_of_pinned pinned))

omit [DecidableEq ι] in
/-- Moving between publisher states outside a write. -/
theorem Invariant.setPublisher {publisher : Publisher ring.size} (invariant : Invariant state)
    (before : state.publisher.Inactive) (after : publisher.Inactive) :
    Invariant (state.setPublisher publisher) := by
  have frame : PublisherFrame state (state.setPublisher publisher) :=
    .of_same rfl rfl (after.held.trans before.held.symm)
  exact ⟨invariant.exclusive.publisher frame, invariant.ledger.leave before.quiet after,
    invariant.reading⟩

/-- A reader that moves outside a pin, on the same storage. -/
theorem Invariant.setReader {reader : ι} {moved : Reader ring.size} (invariant : Invariant state)
    (before : (state.readers reader).pc.pinned ring = none) (after : moved.pc.pinned ring = none)
    (attempt : ∀ lookup users, moved.pc ≠ .pin lookup users)
    (reading : ReaderOk state.storage state.history moved.pc) :
    Invariant (state.setReader reader moved) := by
  refine ⟨?_, invariant.ledger, fun other => ?_⟩
  · exact invariant.exclusive.setReader (after.trans before.symm)
      (fun lookup users current => absurd current (attempt lookup users))
  · simp only [State.setReader, update_apply]
    split
    · exact reading
    · exact invariant.reading other

theorem Invariant.readerStep {reader : ι}
    {storage : Storage ring.size} {moved : Reader ring.size} (invariant : Invariant state)
    (stepped : readerStep ring state.storage (state.readers reader) = some (storage, moved)) :
    Invariant ((state.setStorage storage).setReader reader moved) := by
  have frame := readerStep_frame stepped
  refine ⟨invariant.exclusive.readerStep stepped,
    invariant.ledger.sameContents frame.published frame.contents, fun other => ?_⟩
  simp only [State.setReader, State.setStorage, update_apply]
  split
  · exact (invariant.reading reader).step invariant.ledger
      (fun index => invariant.exclusive.not_held_of_pinned) stepped
  · exact (invariant.reading other).mono frame.published.ge prefix_rfl
      (fun index _ => frame.contents index)

theorem Invariant.step {state next : State ring ι} {action : Action ring ι}
    (invariant : Invariant state) (stepped : step state action = some next) :
    Invariant next := by
  cases action with
  | publish call =>
    simp only [Channel.step] at stepped
    split at stepped <;> cases stepped
    next idle => exact invariant.setPublisher (by rw [idle]; nofun) (by split <;> nofun)
  | publisher outcome => exact invariant.publisherStep stepped
  | publishReturn =>
    simp only [Channel.step] at stepped
    split at stepped <;> cases stepped
    next returned => exact invariant.setPublisher (by rw [returned]; nofun) nofun
  | openAt reader start =>
    simp only [Channel.step] at stepped
    split at stepped <;> cases stepped
    next idle closed =>
      refine invariant.setReader ?_ ?_ ?_ (invariant.reading reader)
      all_goals simp [idle, ReaderPc.pinned]
  | close reader =>
    simp only [Channel.step] at stepped
    split at stepped <;> cases stepped
    next idle =>
      refine invariant.setReader ?_ ?_ ?_ (invariant.reading reader)
      all_goals simp [idle, ReaderPc.pinned]
  | read reader kind stopped =>
    simp only [Channel.step] at stepped
    split at stepped <;> try cases stepped
    next idle =>
      obtain ⟨pc, begun, rfl⟩ := Option.map_eq_some_iff.mp stepped
      have ready : pc.pinned ring = none ∧ (∀ lookup users, pc ≠ .pin lookup users) ∧
          ReaderOk state.storage state.history pc := by
        unfold beginRead at begun
        split at begun
        · split at begun <;> cases begun
          exact ⟨rfl, by simp, Nat.pos_of_ne_zero (by assumption)⟩
        cases begun
        repeat' split
        · exact ⟨rfl, by simp, trivial⟩
        · exact ⟨rfl, by simp, trivial⟩
        · refine ⟨rfl, by simp, ?_⟩
          cases kind
          all_goals first | trivial | (exfalso; simp_all)
      exact invariant.setReader (by rw [idle]; rfl) ready.1 ready.2.1 ready.2.2
  | reader reader =>
    obtain ⟨⟨storage, moved⟩, moves, rfl⟩ := Option.map_eq_some_iff.mp stepped
    exact invariant.readerStep moves
  | readReturn reader =>
    simp only [Channel.step] at stepped
    split at stepped <;> cases stepped
    next returned => exact invariant.setReader (by rw [returned]; rfl) rfl (by simp) trivial

theorem Invariant.of_reachable (reachable : (system ring ι).Reachable state) : Invariant state :=
  reachable.invariant (fun _ => Invariant.of_fresh) (fun _ _ _ step holds => holds.step step)

/-- **No torn or wrong sample.**  In every interleaving, a read that returns
sequence `s` delivers the payload of the `s`-th successful publish, and `s` is
committed when the read returns. -/
theorem read_delivers_published {state : State ring ι}
    (reachable : (system ring ι).Reachable state) {reader : ι} {sequence missed : Nat}
    {value : Payload ring.size}
    (returned : (state.readers reader).pc = .done (.ok sequence missed value)) :
    0 < sequence ∧ sequence ≤ state.storage.publishSequence ∧
      state.history[sequence - 1]? = some value := by
  have reading := (Invariant.of_reachable reachable).reading reader
  rw [returned] at reading
  exact reading

end Invariant

/-- Two-byte samples, one retained sample. -/
def pairRing : Ring where
  size := 2
  depth := 1
  depth_pos := Nat.one_pos
  order := [0, 1]
  order_covers := by decide

/-- The storage `Create` leaves behind, with zeroed payloads. -/
def created (ring : Ring) (ι : Type) : State ring ι where
  storage := ⟨0, 0, fun _ => ⟨0, 0, 0, fun _ => 0⟩⟩
  publisher := .idle
  readers _ := {}
  history := []

theorem created_fresh (ring : Ring) (ι : Type) : Fresh (created ring ι) :=
  ⟨rfl, fun _ => rfl, fun _ => rfl, fun _ => rfl, rfl, fun _ => ⟨_, _, rfl⟩, rfl⟩

/-- One publish of the bytes 7 and 9, then one `ReadLatest`. -/
def publishThenRead : List (Action pairRing Unit) :=
  [.publish ⟨fun position : Fin 2 => if position = 0 then 7 else 9, false⟩] ++
    replicate 11 (.publisher 0) ++
    [.openAt () .oldest, .read () .latest false] ++ replicate 11 (.reader ())

theorem read_delivers_published_pair : ∃ (state : State pairRing Unit) (value : Payload 2),
    (system pairRing Unit).Reachable state ∧
      (state.readers ()).pc = .done (.ok 1 0 value) ∧ value 0 = 7 ∧ value 1 = 9 ∧
      state.history[0]? = some value := by
  have reachable : (system pairRing Unit).Reachable _ :=
    ⟨_, publishThenRead, created_fresh pairRing Unit,
      .of_foldlM (fun _ _ _ computed => computed) rfl⟩
  exact ⟨_, _, reachable, rfl, rfl, rfl,
    (@read_delivers_published _ _ _ _ _ reachable () 1 0 _ rfl).2.2⟩

end Kcf.Ipc.Channel
