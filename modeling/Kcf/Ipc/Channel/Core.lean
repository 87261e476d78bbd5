import Mathlib.Data.Fintype.Card
import Kcf.Errno
import Kcf.Ipc.Payload
import Kcf.Transition.System

/-!
# The shared topic ring

`SharedChannel` keeps `depth` logical entries of three physical slots each.  One
publisher and any number of readers act on them with single atomic accesses; the
payload copies are `memcpy` calls and move one byte at a time here.  Every access
of the sources is one step of this module, so that all interleavings are runs of
`system`.
-/

namespace Kcf.Ipc.Channel

open Kcf.Transition Function Errno

/-- `SharedChannel::writing`: the owner flag in `ChannelSlot::users`. -/
def writing : Nat := 0x80000000

/-- `std::numeric_limits<std::uint64_t>::max()`. -/
def maxSequence : Nat := 0xffffffffffffffff

/-- The constants of one channel: payload size, depth, and the order in which
`memcpy` moves the bytes.  The order is the C library's own choice; it only has
to reach every byte. -/
structure Ring where
  size : Nat
  depth : Nat
  depth_pos : 0 < depth
  order : List (Fin size)
  order_covers : ∀ position, position ∈ order

/-- `detail::ChannelSlot<T>`. -/
structure Slot (size : Nat) where
  users : Nat
  version : Nat
  sequence : Nat
  data : Payload size

/-- The mutable part of `detail::ChannelHeader`, and the slots behind it. -/
structure Storage (size : Nat) where
  publishSequence : Nat
  notifySequence : Nat
  slots : Nat → Slot size

/-- `fetch_add(1)` on a 32-bit atomic. -/
def fetchAdd (value : Nat) : Nat := (value + 1) % 0x100000000

/-- `fetch_sub(1)` on a 32-bit atomic. -/
def fetchSub (value : Nat) : Nat := (value + 0xffffffff) % 0x100000000

namespace Storage

variable {size : Nat}

/-- Overwrite one slot. -/
def setSlot (storage : Storage size) (index : Nat) (slot : Slot size) : Storage size :=
  { storage with slots := update storage.slots index slot }

def setUsers (storage : Storage size) (index users : Nat) : Storage size :=
  storage.setSlot index { storage.slots index with users }

def setVersion (storage : Storage size) (index version : Nat) : Storage size :=
  storage.setSlot index { storage.slots index with version }

def setSequence (storage : Storage size) (index sequence : Nat) : Storage size :=
  storage.setSlot index { storage.slots index with sequence }

def setByte (storage : Storage size) (index : Nat) (position : Fin size)
    (byte : UInt8) : Storage size :=
  storage.setSlot index { storage.slots index with
    data := update (storage.slots index).data position byte }

end Storage

/-- Physical index of `SlotAt((sequence - 1) % depth * 3 + lane)`. -/
def slotIndex (ring : Ring) (sequence lane : Nat) : Nat := (sequence - 1) % ring.depth * 3 + lane

/-! ## The publisher -/

/-- Arguments of one `PublishImpl` call. -/
structure Call (size : Nat) where
  value : Payload size
  notify : Bool

/-- A `PublishImpl` call that has loaded `publish_sequence` and works on one
lane of the target group. -/
structure Write (size : Nat) where
  call : Call size
  sequence : Nat
  lane : Nat

/-- Progress of a `Write`, one constructor per shared access. -/
inductive Phase (size : Nat) where
  /-- `users.compare_exchange_strong(free, writing)` -/
  | acquire
  /-- `slot.sequence == retained` -/
  | inspect
  /-- `slot.users.store(0); continue` -/
  | skip
  /-- `pthread_cond_broadcast` -/
  | broadcast
  /-- `target->users.store(0)` after a failed broadcast -/
  | abandon (error : Int)
  /-- first `version.fetch_add(1)` -/
  | beginVersion
  /-- `memcpy(target->data, &value, sizeof(T))`, with the bytes still to move -/
  | copy (todo : List (Fin size))
  /-- `target->sequence = sequence` -/
  | stamp
  /-- second `version.fetch_add(1)` -/
  | endVersion
  /-- `target->users.store(0)` -/
  | release
  /-- `publish_sequence.store(sequence)` -/
  | commit
  /-- `notify_sequence = sequence` -/
  | notify

/-- Control state of the single publishing thread. -/
inductive Publisher (size : Nat) where
  | idle
  /-- `pthread_mutex_lock(&notify_mutex)` -/
  | lock (call : Call size)
  /-- `RecoverLock`: `notify_sequence = publish_sequence.load()` -/
  | recover (call : Call size)
  /-- `RecoverLock`: `pthread_mutex_consistent` -/
  | consistent (call : Call size)
  /-- `publish_sequence.load()` -/
  | load (call : Call size)
  | active (write : Write size) (phase : Phase size)
  /-- `unlock(); return code` -/
  | unlock (code : Int)
  | done (code : Int)

/-- `retained`: the oldest sequence the new sample must not overwrite. -/
def retained (ring : Ring) (sequence : Nat) : Nat :=
  if sequence > ring.depth then sequence - ring.depth else 0

/-- Slot the write currently addresses. -/
def Write.target {size : Nat} (ring : Ring) (write : Write size) : Nat :=
  slotIndex ring write.sequence write.lane

/-! ## The readers -/

/-- `TopicStartPosition`. -/
inductive StartPosition where
  | next
  | oldest
  deriving DecidableEq

/-- The three read entry points.  `sequence` is a direct `ReadSequence` call. -/
inductive ReadKind where
  | latest
  | next
  | sequence (wanted : Nat)
  deriving DecidableEq

/-- A `ReadSequence` call in progress on one lane. -/
structure Lookup where
  kind : ReadKind
  wanted : Nat
  missed : Nat
  lane : Nat

/-- Outcome of a read. -/
inductive ReadResult (size : Nat) where
  | ok (sequence missed : Nat) (value : Payload size)
  | error (code : Int)

/-- Control state of a reading thread, one constructor per shared access. -/
inductive ReaderPc (size : Nat) where
  | idle
  /-- `publish_sequence.load()` of `ReadLatest` or `ReadNext` -/
  | load (kind : ReadKind)
  /-- `slot.users.load()` -/
  | loadUsers (lookup : Lookup)
  /-- `slot.users.compare_exchange_strong(users, users + 1)` -/
  | pin (lookup : Lookup) (users : Nat)
  /-- `before = slot.version.load()` -/
  | loadVersion (lookup : Lookup)
  /-- `latest = published.load()` -/
  | loadPublished (lookup : Lookup) (before : Nat)
  /-- the test that reads `slot.sequence` -/
  | check (lookup : Lookup) (before latest : Nat)
  /-- `slot.users.fetch_sub(1); return -EAGAIN` -/
  | reject (lookup : Lookup)
  /-- `memcpy(output, slot.data, size)` -/
  | copy (lookup : Lookup) (before : Nat) (todo : List (Fin size)) (buffer : Payload size)
  /-- `after = slot.version.load()` -/
  | reloadVersion (lookup : Lookup) (before : Nat) (buffer : Payload size)
  /-- `slot.users.fetch_sub(1)` after the copy -/
  | unpin (lookup : Lookup) (before after : Nat) (buffer : Payload size)
  | done (result : ReadResult size)

/-- What a successful read says in `TopicReadInfo`. -/
structure Delivery where
  sequence : Nat
  missed : Nat

/-- A reading `SharedChannel` object, and the `value` and `info` that its reads store to. -/
structure Reader (size : Nat) where
  opened : Bool := false
  cursor : Nat := 0
  pc : ReaderPc size := .idle
  value : Payload size := fun _ => 0
  info : Delivery := ⟨0, 0⟩

/-- Index of the slot a lookup currently addresses. -/
def Lookup.target (ring : Ring) (lookup : Lookup) : Nat := slotIndex ring lookup.wanted lookup.lane

abbrev Lookup.slot {ring : Ring} (storage : Storage ring.size) (lookup : Lookup) :
    Slot ring.size :=
  storage.slots (lookup.target ring)

/-! ## The whole channel -/

/-- Shared storage, the publisher, the readers, and the payloads committed so
far in order.  `history` is not stored by the program: entry `s - 1` is the
payload of the publish whose commit stored sequence `s`. -/
structure State (ring : Ring) (ι : Type) where
  storage : Storage ring.size
  publisher : Publisher ring.size
  readers : ι → Reader ring.size
  history : List (Payload ring.size)

/-- One step of one thread.  The integer is the result of the pthread call that
the step makes, where it makes one; `stopped` is what a read finds in `stopped_`, which
`StopWait` may set at any time. -/
inductive Action (ring : Ring) (ι : Type) where
  | publish (call : Call ring.size)
  | publisher (outcome : Int)
  | publishReturn
  | openAt (reader : ι) (start : StartPosition)
  | close (reader : ι)
  | read (reader : ι) (kind : ReadKind) (stopped : Bool)
  | reader (reader : ι)
  | readReturn (reader : ι)

variable {ring : Ring} {ι : Type}

namespace State

def setPublisher (state : State ring ι) (publisher : Publisher ring.size) :
    State ring ι :=
  { state with publisher }

def setStorage (state : State ring ι) (storage : Storage ring.size) : State ring ι :=
  { state with storage }

def setReader [DecidableEq ι] (state : State ring ι) (reader : ι)
    (value : Reader ring.size) : State ring ι :=
  { state with readers := update state.readers reader value }

end State

/-- Where `PublishImpl` goes when `pthread_mutex_lock`, or the recovery of a
dead owner's mutex, has returned `error`. -/
def afterLock (call : Call ring.size) (error : Int) : Publisher ring.size :=
  if error = 0 then .load call else .done (-error)

/-- `unlock()` and the return that follows it. -/
def leave (call : Call ring.size) (code : Int) : Publisher ring.size :=
  if call.notify then .unlock code else .done code

/-- One lane further, or `-EAGAIN` when none of the three could be taken. -/
def nextLane (write : Write ring.size) : Publisher ring.size :=
  if write.lane < 2 then .active { write with lane := write.lane + 1 } .acquire
  else leave write.call (-eagain)

/-- One shared access of a `PublishImpl` call that works on a lane. -/
def writeStep (state : State ring ι) (write : Write ring.size)
    (outcome : Int) : Phase ring.size → State ring ι
  | .acquire =>
    if (state.storage.slots (write.target ring)).users = 0 then
      (state.setStorage (state.storage.setUsers (write.target ring) writing)).setPublisher
        (.active write .inspect)
    else
      state.setPublisher (nextLane write)
  | .inspect =>
    if retained ring write.sequence ≠ 0 ∧
        (state.storage.slots (write.target ring)).sequence = retained ring write.sequence then
      state.setPublisher (.active write .skip)
    else
      state.setPublisher
        (.active write (if write.call.notify then .broadcast else .beginVersion))
  | .skip =>
    (state.setStorage (state.storage.setUsers (write.target ring) 0)).setPublisher
      (nextLane write)
  | .broadcast =>
    state.setPublisher
      (.active write (if outcome = 0 then .beginVersion else .abandon outcome))
  | .abandon error =>
    (state.setStorage (state.storage.setUsers (write.target ring) 0)).setPublisher
      (leave write.call (-error))
  | .beginVersion =>
    (state.setStorage (state.storage.setVersion (write.target ring)
      (fetchAdd (state.storage.slots (write.target ring)).version))).setPublisher
      (.active write (.copy ring.order))
  | .copy [] => state.setPublisher (.active write .stamp)
  | .copy (position :: todo) =>
    (state.setStorage (state.storage.setByte (write.target ring) position
      (write.call.value position))).setPublisher (.active write (.copy todo))
  | .stamp =>
    (state.setStorage (state.storage.setSequence (write.target ring)
      write.sequence)).setPublisher (.active write .endVersion)
  | .endVersion =>
    (state.setStorage (state.storage.setVersion (write.target ring)
      (fetchAdd (state.storage.slots (write.target ring)).version))).setPublisher
      (.active write .release)
  | .release =>
    (state.setStorage (state.storage.setUsers (write.target ring) 0)).setPublisher
      (.active write .commit)
  | .commit =>
    { state with
      storage := { state.storage with publishSequence := write.sequence }
      history := state.history ++ [write.call.value]
      publisher := if write.call.notify then .active write .notify else .done 0 }
  | .notify =>
    (state.setStorage { state.storage with notifySequence := write.sequence }).setPublisher
      (.unlock 0)

/-- One step of the publishing thread inside `PublishImpl`. -/
def publisherStep (state : State ring ι) (outcome : Int) : Option (State ring ι) :=
  match state.publisher with
  | .idle | .done _ => none
  | .lock call =>
    some (state.setPublisher
      (if outcome = eownerdead then .recover call else afterLock call outcome))
  | .recover call =>
    some ((state.setStorage { state.storage with
      notifySequence := state.storage.publishSequence }).setPublisher (.consistent call))
  | .consistent call => some (state.setPublisher (afterLock call outcome))
  | .load call =>
    some (state.setPublisher
      (if state.storage.publishSequence = maxSequence then leave call (-eoverflow)
       else .active ⟨call, state.storage.publishSequence + 1, 0⟩ .acquire))
  | .active write phase => some (writeStep state write outcome phase)
  | .unlock code => some (state.setPublisher (.done code))

/-- `ReadSequence` after one lane failed. -/
def nextLookup (lookup : Lookup) : ReaderPc ring.size :=
  if lookup.lane < 2 then .loadUsers { lookup with lane := lookup.lane + 1 }
  else .done (.error (-eagain))

/-- The arithmetic of `ReadLatest` and `ReadNext` between the load of
`publish_sequence` and `ReadSequence`. -/
def beginLookup (ring : Ring) (cursor latest : Nat) : ReadKind → ReaderPc ring.size
  | .latest =>
    if latest = 0 then .done (.error (-eagain))
    else .loadUsers ⟨.latest, latest, 0, 0⟩
  | .next =>
    if cursor ≥ latest then .done (.error (-eagain))
    else
      let oldest := if latest ≥ ring.depth then latest - ring.depth + 1 else 1
      let expected := cursor + 1
      let wanted := if expected < oldest then oldest else expected
      .loadUsers ⟨.next, wanted, wanted - expected, 0⟩
  | .sequence wanted => .loadUsers ⟨.sequence wanted, wanted, 0, 0⟩

/-- The rejection test of `CopyChannelSequence`. -/
def Unreadable (ring : Ring) (lookup : Lookup) (before latest sequence : Nat) : Prop :=
  before % 2 = 1 ∨ sequence ≠ lookup.wanted ∨ lookup.wanted > latest ∨
    latest - lookup.wanted ≥ ring.depth
  deriving Decidable

/-- A reader that leaves `ReadSequence` with this sample.  Only `ReadNext` moves
the cursor, and a direct `ReadSequence` call has no `info`. -/
def deliver (reader : Reader ring.size) (lookup : Lookup) (value : Payload ring.size) :
    Reader ring.size :=
  { reader with
    cursor := if lookup.kind = .next then lookup.wanted else reader.cursor
    pc := .done (.ok lookup.wanted lookup.missed value)
    value
    info :=
      match lookup.kind with
      | .sequence _ => reader.info
      | _ => ⟨lookup.wanted, lookup.missed⟩ }

/-- One shared access of a read.  The result is the new storage and reader. -/
def readerStep (ring : Ring) (storage : Storage ring.size) (reader : Reader ring.size) :
    Option (Storage ring.size × Reader ring.size) :=
  match reader.pc with
  | .idle | .done _ => none
  | .load kind =>
    some (storage, { reader with
      pc := beginLookup ring reader.cursor storage.publishSequence kind })
  | .loadUsers lookup =>
    let users := (lookup.slot storage).users
    some (storage, { reader with
      pc := if users ≥ writing - 1 then nextLookup lookup else .pin lookup users })
  | .pin lookup users =>
    if (lookup.slot storage).users = users then
      some (storage.setUsers (lookup.target ring) (users + 1),
        { reader with pc := .loadVersion lookup })
    else
      some (storage, { reader with pc := nextLookup lookup })
  | .loadVersion lookup =>
    some (storage, { reader with
      pc := .loadPublished lookup (lookup.slot storage).version })
  | .loadPublished lookup before =>
    some (storage, { reader with pc := .check lookup before storage.publishSequence })
  | .check lookup before latest =>
    some (storage, { reader with
      pc := if Unreadable ring lookup before latest
            (lookup.slot storage).sequence then .reject lookup
          else .copy lookup before ring.order (fun _ => 0) })
  | .reject lookup =>
    some (storage.setUsers (lookup.target ring)
        (fetchSub (lookup.slot storage).users),
      { reader with pc := nextLookup lookup })
  | .copy lookup before [] buffer =>
    some (storage, { reader with pc := .reloadVersion lookup before buffer })
  | .copy lookup before (position :: todo) buffer =>
    some (storage, { reader with
      pc := .copy lookup before todo (update buffer position
        ((lookup.slot storage).data position)) })
  | .reloadVersion lookup before buffer =>
    some (storage, { reader with
      pc := .unpin lookup before (lookup.slot storage).version buffer })
  | .unpin lookup before after buffer =>
    some (storage.setUsers (lookup.target ring)
        (fetchSub (lookup.slot storage).users),
      if before = after ∧ after % 2 = 0 then deliver reader lookup buffer
      else { reader with pc := nextLookup lookup })

/-- Control state in which a read call starts.  `ReadSequence` is private; its
callers never pass sequence zero. -/
def beginRead (reader : Reader ring.size) (stopped : Bool) :
    ReadKind → Option (ReaderPc ring.size)
  | .sequence wanted =>
    if wanted = 0 then none else some (.loadUsers ⟨.sequence wanted, wanted, 0, 0⟩)
  | kind =>
    some (if !reader.opened then .done (.error (-ebadf))
      else if stopped then .done (.error (-ecanceled))
      else .load kind)

/-- The cursor `Open` starts from. -/
def startCursor (ring : Ring) (latest : Nat) : StartPosition → Nat
  | .next => latest
  | .oldest => if latest > ring.depth then latest - ring.depth else 0

/-- One step of the channel. -/
def step [DecidableEq ι] (state : State ring ι) : Action ring ι → Option (State ring ι)
  | .publish call =>
    match state.publisher with
    | .idle => some (state.setPublisher (if call.notify then .lock call else .load call))
    | _ => none
  | .publisher outcome => publisherStep state outcome
  | .publishReturn =>
    match state.publisher with
    | .done _ => some (state.setPublisher .idle)
    | _ => none
  | .openAt reader start =>
    match (state.readers reader).pc, (state.readers reader).opened with
    | .idle, false => some (state.setReader reader
        { state.readers reader with
          opened := true
          cursor := startCursor ring state.storage.publishSequence start })
    | _, _ => none
  | .close reader =>
    match (state.readers reader).pc with
    | .idle => some (state.setReader reader
        { state.readers reader with opened := false, cursor := 0 })
    | _ => none
  | .read reader kind stopped =>
    match (state.readers reader).pc with
    | .idle => (beginRead (state.readers reader) stopped kind).map fun pc =>
      state.setReader reader { state.readers reader with pc }
    | _ => none
  | .reader reader =>
    (readerStep ring state.storage (state.readers reader)).map fun result =>
      (state.setStorage result.1).setReader reader result.2
  | .readReturn reader =>
    match (state.readers reader).pc with
    | .done _ => some (state.setReader reader { state.readers reader with pc := .idle })
    | _ => none

/-- A freshly created channel: `Create` zeroes every counter, nobody is inside a
call, and no reader is attached.  The payload bytes are whatever they are. -/
structure Fresh (state : State ring ι) : Prop where
  publishSequence : state.storage.publishSequence = 0
  users : ∀ index, (state.storage.slots index).users = 0
  version : ∀ index, (state.storage.slots index).version = 0
  sequence : ∀ index, (state.storage.slots index).sequence = 0
  publisher : state.publisher = .idle
  readers : ∀ reader, ∃ value info, state.readers reader = { value, info }
  history : state.history = []

/-- One publisher and the readers `ι` on one storage. -/
def system (ring : Ring) (ι : Type) [DecidableEq ι] :
    System (State ring ι) (Action ring ι) where
  initial := Fresh
  step state action next := step state action = some next

end Kcf.Ipc.Channel
