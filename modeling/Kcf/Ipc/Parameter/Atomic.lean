import Kcf.Data.Snoc
import Kcf.Ipc.Parameter.Core

/-!
# Crash atomicity of parameters

The storage always shows one committed value: the one the rollback record names
while a transaction is open, the active one otherwise.  The holder of the lock
moves from one such state to the next, and a crash leaves the storage as it is.
-/

namespace Kcf.Ipc.Parameter

open Kcf.Transition Kcf.Posix List Function

variable {layout : Layout} {ι : Type}

/-! ## What a storage shows -/

namespace Storage

variable {size : Nat}

/-- The slot a reader gets after any recovery that is due. -/
def visibleIndex (storage : Storage size) : Nat :=
  if storage.transactionActive ≠ 0 then storage.previousActive else storage.activeIndex

/-- The version a reader gets after any recovery that is due. -/
def visibleVersion (storage : Storage size) : Nat :=
  if storage.transactionActive ≠ 0 then storage.previousVersion else storage.version

def visibleValue (storage : Storage size) : Payload size := storage.slots storage.visibleIndex

variable {storage : Storage size}

theorem visibleIndex_open (running : storage.transactionActive ≠ 0) :
    storage.visibleIndex = storage.previousActive :=
  if_pos running

theorem visibleIndex_closed (closed : storage.transactionActive = 0) :
    storage.visibleIndex = storage.activeIndex :=
  if_neg (not_not.mpr closed)

theorem visibleVersion_open (running : storage.transactionActive ≠ 0) :
    storage.visibleVersion = storage.previousVersion :=
  if_pos running

theorem visibleVersion_closed (closed : storage.transactionActive = 0) :
    storage.visibleVersion = storage.version :=
  if_neg (not_not.mpr closed)

end Storage

/-- The storage shows the newest committed value under its number. -/
structure Sound {size : Nat} (storage : Storage size) (committed : List (Payload size)) :
    Prop where
  active : storage.activeIndex ≤ 1
  visible : storage.visibleIndex ≤ 1
  number : committed.length = storage.visibleVersion + 1
  value : committed[storage.visibleVersion]? = some storage.visibleValue
  bounded : storage.visibleVersion ≤ maxVersion

theorem Sound.of_visible {size : Nat} {storage after : Storage size}
    {committed : List (Payload size)} (sound : Sound storage committed)
    (active : after.activeIndex ≤ 1)
    (index : after.visibleIndex = storage.visibleIndex)
    (version : after.visibleVersion = storage.visibleVersion)
    (slot : after.slots storage.visibleIndex = storage.slots storage.visibleIndex) :
    Sound after committed := by
  refine ⟨active, index ▸ sound.visible, version ▸ sound.number, ?_, version ▸ sound.bounded⟩
  rw [version, Storage.visibleValue, index, slot]
  exact sound.value

/-! ## What a process knows -/

namespace Pc

variable {size : Nat}

/-- Control states with the lock. -/
def possesses : Pc size ι → Bool
  | .idle | .lock _ | .broadcast | .asleep _ | .done _ | .crashed => false
  | _ => true

end Pc

/-- An open transaction whose payload copy is still going on. -/
structure Copying {size : Nat} (storage : Storage size) : Prop where
  running : storage.transactionActive ≠ 0
  active : storage.activeIndex = storage.previousActive
  version : storage.version = storage.previousVersion
  room : storage.previousVersion < maxVersion

/-- What a process knows about the storage at each point of its call. -/
def PcOk {size : Nat} (storage : Storage size) (committed : List (Payload size)) :
    Pc size ι → Prop
  | .idle | .lock _ | .recover _ | .broadcast | .asleep _ | .crashed | .done (.code _) => True
  | .done (.value value version) => committed[version]? = some value
  | .restoreActive _ => storage.transactionActive ≠ 0
  | .restoreVersion _ =>
    storage.transactionActive ≠ 0 ∧ storage.activeIndex = storage.previousActive
  | .rollback _ =>
    storage.transactionActive ≠ 0 ∧ storage.activeIndex = storage.previousActive ∧
      storage.version = storage.previousVersion
  | .consistent _ | .enter _ | .unlockSet | .broadcastStop | .unlock _ | .checkVersion _ =>
    storage.transactionActive = 0
  | .copyOut index todo buffer =>
    storage.transactionActive = 0 ∧ index = storage.activeIndex ∧
      ∀ position, position ∉ todo → buffer position = storage.slots index position
  | .loadVersion buffer =>
    storage.transactionActive = 0 ∧ buffer = storage.slots storage.activeIndex
  | .unlockValue buffer version =>
    storage.transactionActive = 0 ∧ buffer = storage.slots storage.activeIndex ∧
      version = storage.version
  | .saveActive _ => storage.transactionActive = 0 ∧ storage.version < maxVersion
  | .saveVersion _ =>
    storage.transactionActive = 0 ∧ storage.version < maxVersion ∧
      storage.activeIndex = storage.previousActive
  | .start _ =>
    storage.transactionActive = 0 ∧ storage.version < maxVersion ∧
      storage.activeIndex = storage.previousActive ∧
      storage.version = storage.previousVersion
  | .choose _ => Copying storage
  | .copyIn value inactive todo =>
    Copying storage ∧ inactive = 1 - storage.activeIndex ∧
      ∀ position, position ∉ todo → storage.slots inactive position = value position
  | .flip value inactive =>
    Copying storage ∧ inactive = 1 - storage.activeIndex ∧ storage.slots inactive = value
  | .bump value =>
    storage.transactionActive ≠ 0 ∧ storage.activeIndex = 1 - storage.previousActive ∧
      storage.slots storage.activeIndex = value ∧ storage.previousVersion < maxVersion
  | .commit value =>
    storage.transactionActive ≠ 0 ∧ storage.activeIndex = 1 - storage.previousActive ∧
      storage.slots storage.activeIndex = value ∧
      storage.previousVersion < maxVersion ∧ storage.version = storage.previousVersion + 1

/-- A process without the lock only remembers values it returned. -/
theorem PcOk.outside {size : Nat} {storage after : Storage size}
    {committed longer : List (Payload size)} {pc : Pc size ι} (ok : PcOk storage committed pc)
    (free : pc.possesses = false) (grows : committed <+: longer) : PcOk after longer pc := by
  cases pc with
  | done outcome =>
    cases outcome with
    | code code => trivial
    | value value version =>
      obtain ⟨rest, rfl⟩ := grows
      have found : committed[version]? = some value := ok
      rw [PcOk, List.getElem?_append_left (List.getElem?_eq_some_iff.mp found).1]
      exact found
  | idle | lock | broadcast | asleep | crashed => trivial
  | _ => cases free

theorem PcOk.grows {size : Nat} {storage : Storage size}
    {committed longer : List (Payload size)} {pc : Pc size ι} (ok : PcOk storage committed pc)
    (grows : committed <+: longer) : PcOk storage longer pc := by
  cases pc with
  | done outcome => exact ok.outside rfl grows
  | _ => exact ok

/-! ## The invariant -/

/-- Everything that holds in all reachable states of a parameter. -/
structure Invariant (state : State layout ι) : Prop where
  sound : Sound state.storage state.committed
  owner : ∀ process, (state.processes process).possesses = true ↔
    state.mutex.owner = some process
  quiet : state.mutex.owner = none → state.mutex ≠ .abandoned →
    state.storage.transactionActive = 0
  processes : ∀ process, PcOk state.storage state.committed (state.processes process)
  served : ∀ entry ∈ state.returned, state.committed[entry.2]? = some entry.1
  ordered : state.returned.Pairwise fun earlier later => earlier.2 ≤ later.2

variable {state : State layout ι} {process : ι} {pc : Pc layout.size ι}

theorem Invariant.of_fresh {initial : Payload layout.size}
    (fresh : Fresh initial state) : Invariant state := by
  have index : state.storage.visibleIndex = 0 := by
    simp [Storage.visibleIndex, fresh.transactionActive, fresh.activeIndex]
  have version : state.storage.visibleVersion = 0 := by
    simp [Storage.visibleVersion, fresh.transactionActive, fresh.version]
  refine ⟨⟨?_, ?_, ?_, ?_, ?_⟩, ?_, ?_, ?_, ?_, ?_⟩
  · simp [fresh.activeIndex]
  · simp [index]
  · simp [version, fresh.committed]
  · simp [version, fresh.committed, Storage.visibleValue, index, fresh.value]
  · simp [version]
  · intro process
    simp [fresh.processes, fresh.mutex, Pc.possesses, RobustMutex.owner]
  · intro _ _
    exact fresh.transactionActive
  · intro process
    rw [fresh.processes]
    trivial
  · simp [fresh.returned]
  · simp [fresh.returned]

theorem Invariant.served_grows (invariant : Invariant state)
    {longer : List (Payload layout.size)} (grows : state.committed <+: longer) :
    ∀ entry ∈ state.returned, longer[entry.2]? = some entry.1 := by
  intro entry membership
  have found := invariant.served entry membership
  obtain ⟨rest, rfl⟩ := grows
  rw [List.getElem?_append_left (List.getElem?_eq_some_iff.mp found).1]
  exact found

variable [DecidableEq ι]

/-- The general move of one process: it may change the storage only with the
lock, and may only append to the commits. -/
theorem Invariant.move {state next : State layout ι} (invariant : Invariant state)
    (processes : next.processes = update state.processes process pc)
    (sound : Sound next.storage next.committed)
    (owner : next.mutex.owner = some process ↔ pc.possesses = true)
    (others : ∀ other, other ≠ process →
      (next.mutex.owner = some other ↔ state.mutex.owner = some other))
    (quiet : next.mutex.owner = none → next.mutex ≠ .abandoned →
      next.storage.transactionActive = 0) (ok : PcOk next.storage next.committed pc)
    (exclusive : state.mutex.owner = some process ∨ next.storage = state.storage)
    (grows : state.committed <+: next.committed)
    (served : ∀ entry ∈ next.returned, next.committed[entry.2]? = some entry.1)
    (ordered : next.returned.Pairwise fun earlier later => earlier.2 ≤ later.2) :
    Invariant next := by
  refine ⟨sound, ?_, quiet, ?_, served, ordered⟩
  · intro other
    rw [processes, update_apply]
    split
    next same => rw [same]; exact owner.symm
    next distinct => exact (invariant.owner other).trans (others other distinct).symm
  · intro other
    rw [processes, update_apply]
    split
    · exact ok
    next distinct =>
      have old := invariant.processes other
      rcases exclusive with mine | same
      · -- the lock is elsewhere, so this process relies on no shared field
        refine old.outside ?_ grows
        by_contra has
        have his := (invariant.owner other).mp (by simpa using has)
        rw [mine, Option.some.injEq] at his
        exact distinct his.symm
      · rw [same]
        exact old.grows grows

/-- A step with the lock before and after it. -/
theorem Invariant.inside {state next : State layout ι}
    (invariant : Invariant state) (has : state.mutex.owner = some process)
    (processes : next.processes = update state.processes process pc)
    (mutex : next.mutex.owner = state.mutex.owner) (returned : next.returned = state.returned)
    (grows : state.committed <+: next.committed)
    (sound : Sound next.storage next.committed) (possesses : pc.possesses = true)
    (ok : PcOk next.storage next.committed pc) : Invariant next := by
  refine invariant.move processes sound ?_ ?_ ?_ ok (.inl has) grows ?_ ?_
  · simp [mutex, has, possesses]
  · intro other _
    rw [mutex]
  · intro none
    rw [mutex, has] at none
    cases none
  · rw [returned]
    exact invariant.served_grows grows
  · rw [returned]
    exact invariant.ordered

section

variable (invariant : Invariant state)
include invariant

section

variable (has : state.mutex.owner = some process)
include has

/-- A step with the lock that only moves the process. -/
theorem Invariant.goto
    (possesses : pc.possesses = true) (ok : PcOk state.storage state.committed pc) :
    Invariant (state.goto process pc) :=
  invariant.inside has rfl rfl rfl prefix_rfl invariant.sound possesses ok

/-- A write to the storage that does not change what it shows. -/
theorem Invariant.write {storage : Storage layout.size}
    (sound : Sound storage state.committed)
    (possesses : pc.possesses = true) (ok : PcOk storage state.committed pc) :
    Invariant ((state.setStorage storage).goto process pc) :=
  invariant.inside has rfl rfl rfl prefix_rfl sound possesses ok

/-- Giving the lock away between transactions. -/
theorem Invariant.release
    (closed : state.storage.transactionActive = 0)
    (free : pc.possesses = false) (ok : PcOk state.storage state.committed pc) :
    Invariant ((state.setMutex state.mutex.unlock).goto process pc) := by
  refine invariant.move rfl invariant.sound ?_ ?_ (fun _ _ => closed) ok (.inr rfl)
    prefix_rfl invariant.served invariant.ordered
  · simp [State.goto, State.setMutex, free]
  · intro other distinct
    simp only [State.goto, State.setMutex, RobustMutex.unlock_owner, reduceCtorEq, false_iff, has,
      Option.some.injEq]
    exact fun same => distinct same.symm

end

/-- A move of a process that has no lock and takes none. -/
theorem Invariant.outside (before : (state.processes process).possesses = false)
    (after : pc.possesses = false) (ok : PcOk state.storage state.committed pc) :
    Invariant (state.goto process pc) := by
  refine invariant.move rfl invariant.sound ?_ (fun _ _ => Iff.rfl) invariant.quiet ok (.inr rfl)
    prefix_rfl invariant.served invariant.ordered
  rw [after, ← before]
  exact (invariant.owner process).symm

/-- Taking the lock, with or without a dead owner's transaction. -/
theorem Invariant.acquire
    {operation : Operation layout.size ι} {mutex : RobustMutex ι} {result : Int}
    (before : (state.processes process).possesses = false)
    (locked : state.mutex.lock process = some (mutex, result)) :
    Invariant ((state.setMutex mutex).goto process (beginRecover operation result)) := by
  have unowned := RobustMutex.lock_owner locked
  have elsewhere : ∀ other, other ≠ process → (some process = some other ↔
      state.mutex.owner = some other) := by
    intro other distinct
    simp only [unowned, reduceCtorEq, iff_false, Option.some.injEq]
    exact fun same => distinct same.symm
  rcases RobustMutex.lock_cases locked with ⟨free, rfl, rfl⟩ | ⟨dead, rfl, rfl⟩ | ⟨lost, rfl, rfl⟩
  · have closed := invariant.quiet unowned (by simp [free])
    exact invariant.move rfl invariant.sound (by simp [State.goto, State.setMutex,
      RobustMutex.owner, beginRecover, afterRecover, Errno.eownerdead, Pc.possesses]) elsewhere
      (fun _ _ => closed) closed (.inr rfl) prefix_rfl invariant.served invariant.ordered
  · exact invariant.move rfl invariant.sound (by simp [State.goto, State.setMutex,
      RobustMutex.owner, beginRecover, Pc.possesses]) elsewhere (fun none => by cases none)
      (by simp [beginRecover, PcOk]) (.inr rfl) prefix_rfl invariant.served invariant.ordered
  · have same : state.setMutex .unrecoverable = state := by
      rw [State.setMutex, ← lost]
    rw [same]
    exact invariant.outside before rfl trivial

/-! ## Steps inside a call -/

/-- A reader that starts copying the active slot. -/
theorem Invariant.startCopy (has : state.mutex.owner = some process)
    (closed : state.storage.transactionActive = 0) :
    Invariant (state.goto process
      (.copyOut state.storage.activeIndex layout.order (fun _ => 0))) := by
  refine invariant.goto has rfl ⟨closed, rfl, fun position moved => ?_⟩
  exact absurd (layout.order_covers position) moved

end

theorem Invariant.enterStep {operation : Operation layout.size ι} (outcome : Int)
    (invariant : Invariant state) (has : state.mutex.owner = some process)
    (closed : state.storage.transactionActive = 0) :
    Invariant (enterStep state process outcome operation) := by
  cases operation with
  | get =>
    simp only [Parameter.enterStep]
    split
    · exact invariant.goto has rfl closed
    · exact invariant.startCopy has closed
  | set value =>
    simp only [Parameter.enterStep]
    split
    · exact invariant.goto has rfl closed
    · exact invariant.goto has rfl closed
  | wait lastVersion =>
    simp only [Parameter.enterStep]
    split
    · exact invariant.goto has rfl closed
    split
    · split
      · exact invariant.release has closed rfl trivial
      · exact invariant.goto has rfl closed
    · exact invariant.startCopy has closed
  | stopWait target => exact invariant.inside has rfl rfl rfl prefix_rfl invariant.sound rfl closed

/-- The lock is handed back together with the value read under it. -/
theorem Invariant.returnValue {buffer : Payload layout.size} {version : Nat}
    (invariant : Invariant state) (has : state.mutex.owner = some process)
    (closed : state.storage.transactionActive = 0)
    (value : buffer = state.storage.slots state.storage.activeIndex)
    (number : version = state.storage.version) :
    Invariant (state.serve process buffer version) := by
  have sound := invariant.sound
  have shown : version = state.storage.visibleVersion := by
    simp [Storage.visibleVersion, closed, number]
  have found : state.committed[version]? = some buffer := by
    rw [shown, sound.value, Storage.visibleValue, Storage.visibleIndex, closed, value]
    rfl
  refine invariant.move rfl sound ?_ ?_ (fun _ _ => closed) found (.inr rfl) prefix_rfl ?_ ?_
  · simp [State.serve, State.goto, Pc.possesses]
  · intro other distinct
    simp only [State.serve, State.goto, RobustMutex.unlock_owner, reduceCtorEq, false_iff, has,
      Option.some.injEq]
    exact fun same => distinct same.symm
  · exact Data.forall_snoc invariant.served found
  · refine Data.pairwise_snoc invariant.ordered fun earlier membership => ?_
    have position := (List.getElem?_eq_some_iff.mp (invariant.served earlier membership)).1
    have total := sound.number
    simp only
    omega

/-- The commit: the rollback record is dropped and the new slot shows. -/
theorem Invariant.commit {value : Payload layout.size}
    (invariant : Invariant state) (has : state.mutex.owner = some process)
    (ok : PcOk state.storage state.committed (.commit value : Pc layout.size ι)) :
    Invariant (state.commit process value) := by
  obtain ⟨running, other, whole, room, version⟩ := ok
  have sound := invariant.sound
  have number := sound.number
  rw [Storage.visibleVersion_open running] at number
  have position : state.storage.version = state.committed.length := by omega
  refine invariant.inside has rfl rfl rfl (prefix_append _ _)
    ⟨sound.active, sound.active, ?_, ?_, ?_⟩ rfl rfl
  · change (state.committed ++ [value]).length = state.storage.version + 1
    rw [length_append, length_singleton, position]
  · change (state.committed ++ [value])[state.storage.version]? =
      some (state.storage.slots state.storage.activeIndex)
    rw [position, getElem?_concat_length, whole]
  · change state.storage.version ≤ maxVersion
    omega

theorem Invariant.processStep {state next : State layout ι} {outcome : Int}
    (invariant : Invariant state) (stepped : processStep state process outcome = some next) :
    Invariant next := by
  have ok := invariant.processes process
  have sound := invariant.sound
  have owned := (invariant.owner process).mp
  unfold Parameter.processStep at stepped
  split at stepped
  all_goals try cases stepped
  case h_4 operation current =>
    have before : (state.processes process).possesses = false := by rw [current]; rfl
    split at stepped
    · split at stepped <;> cases stepped
      exact invariant.outside before rfl trivial
    · obtain ⟨⟨mutex, result⟩, locked, rfl⟩ := Option.map_eq_some_iff.mp stepped
      exact invariant.acquire before locked
  all_goals
    rename_i current
    rw [current] at ok
    try have has := owned (by rw [current]; rfl)
  case h_5 operation =>
    split
    next running => exact invariant.goto has rfl running
    next closed => exact invariant.goto has rfl (not_not.mp closed)
  case h_6 operation =>
    have index := Storage.visibleIndex_open ok
    refine invariant.write has (sound.of_visible (index ▸ sound.visible) ?_ rfl rfl) rfl ⟨ok, rfl⟩
    rw [index]
    exact Storage.visibleIndex_open ok
  case h_7 operation =>
    refine invariant.write has (sound.of_visible sound.active rfl ?_ rfl) rfl ⟨ok.1, ok.2, rfl⟩
    rw [Storage.visibleVersion_open ok.1]
    exact Storage.visibleVersion_open ok.1
  case h_8 operation =>
    obtain ⟨running, active, version⟩ := ok
    refine invariant.write has (sound.of_visible sound.active ?_ ?_ rfl) rfl rfl
    · rw [Storage.visibleIndex_open running, ← active]
      rfl
    · rw [Storage.visibleVersion_open running, ← version]
      rfl
  case h_9 operation =>
    split
    · exact invariant.inside has rfl (RobustMutex.consistent_owner _) rfl prefix_rfl sound rfl ok
    · exact invariant.goto has rfl ok
  case h_10 operation =>
    exact invariant.enterStep outcome has ok
  case h_11 index buffer =>
    obtain ⟨closed, rfl, copied⟩ := ok
    exact invariant.goto has rfl ⟨closed, funext fun position => copied position not_mem_nil⟩
  case h_12 index position todo buffer =>
    obtain ⟨closed, active, copied⟩ := ok
    refine invariant.goto has rfl ⟨closed, active, fun other moved => ?_⟩
    by_cases equal : other = position
    · rw [equal, update_self]
    · rw [update_of_ne equal]
      exact copied other (by simp [equal, moved])
  case h_13 buffer =>
    exact invariant.goto has rfl ⟨ok.1, ok.2, rfl⟩
  case h_14 buffer version =>
    exact invariant.returnValue has ok.1 ok.2.1 ok.2.2
  case h_15 value =>
    have bounded := sound.bounded
    rw [Storage.visibleVersion_closed ok] at bounded
    split
    · exact invariant.goto has rfl ok
    next room => exact invariant.goto has rfl ⟨ok, by omega⟩
  case h_16 value =>
    refine invariant.write has (sound.of_visible sound.active ?_ rfl rfl) rfl ⟨ok.1, ok.2, rfl⟩
    rw [Storage.visibleIndex_closed ok.1]
    exact Storage.visibleIndex_closed ok.1
  case h_17 value =>
    obtain ⟨closed, room, active⟩ := ok
    refine invariant.write has (sound.of_visible sound.active rfl ?_ rfl) rfl
      ⟨closed, room, active, rfl⟩
    rw [Storage.visibleVersion_closed closed]
    exact Storage.visibleVersion_closed closed
  case h_18 value =>
    obtain ⟨closed, room, active, version⟩ := ok
    refine invariant.write has (sound.of_visible sound.active ?_ ?_ rfl) rfl
      ⟨Nat.one_ne_zero, active, version, version ▸ room⟩
    · rw [Storage.visibleIndex_closed closed, active]
      rfl
    · rw [Storage.visibleVersion_closed closed, version]
      rfl
  case h_19 value =>
    have small := sound.active
    refine invariant.goto has rfl ⟨ok, by omega, fun position moved => ?_⟩
    exact absurd (layout.order_covers position) moved
  case h_20 value inactive =>
    obtain ⟨copying, other, copied⟩ := ok
    exact invariant.goto has rfl
      ⟨copying, other, funext fun position => copied position not_mem_nil⟩
  case h_21 value inactive position todo =>
    obtain ⟨copying, other, copied⟩ := ok
    have distinct : state.storage.visibleIndex ≠ inactive := by
      have small := sound.active
      rw [Storage.visibleIndex_open copying.running, ← copying.active]
      omega
    refine invariant.write has (sound.of_visible sound.active rfl rfl
      (update_of_ne distinct _ _)) rfl
      ⟨{ copying with }, other, fun byte moved => ?_⟩
    simp only [update_self]
    by_cases equal : byte = position
    · rw [equal, update_self]
    · rw [update_of_ne equal]
      exact copied byte (by simp [equal, moved])
  case h_22 value inactive =>
    obtain ⟨copying, other, whole⟩ := ok
    refine invariant.write has (sound.of_visible (by simp only; omega) ?_ rfl rfl) rfl
      ⟨copying.running, by rw [other, copying.active], whole, copying.room⟩
    rw [Storage.visibleIndex_open copying.running]
    exact Storage.visibleIndex_open copying.running
  case h_23 value =>
    obtain ⟨running, other, whole, room⟩ := ok
    refine invariant.write has (sound.of_visible sound.active rfl ?_ rfl) rfl
      ⟨running, other, whole, room, ?_⟩
    · rw [Storage.visibleVersion_open running]
      exact Storage.visibleVersion_open running
    · simp only [maxVersion] at room ⊢
      omega
  case h_24 value =>
    exact invariant.commit has ok
  case h_25 =>
    exact invariant.release has ok rfl trivial
  case h_26 =>
    split at stepped <;> cases stepped
    exact invariant.outside (by rw [current]; rfl) rfl trivial
  case h_27 lastVersion =>
    obtain ⟨⟨mutex, result⟩, locked, rfl⟩ := Option.map_eq_some_iff.mp stepped
    exact invariant.acquire (by rw [current]; rfl) locked
  case h_28 =>
    exact invariant.goto has rfl ok
  case h_29 code =>
    exact invariant.release has ok rfl trivial

end Kcf.Ipc.Parameter
