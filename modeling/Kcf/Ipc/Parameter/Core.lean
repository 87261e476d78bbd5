import Kcf.Ipc.Payload
import Kcf.Posix.RobustMutex
import Kcf.Transition.System

/-!
# Shared parameters

`GetParameter`, `SetParameter`, `SharedParameter::Wait` and `StopWait` over one
`ParameterStorage`.  Every write of `SetParameter` and of `RecoverParameter` is a
step of its own, `memcpy` moves one byte per step, and a process may die between
any two steps.
-/

namespace Kcf.Ipc.Parameter

open Kcf.Transition Kcf.Posix Function Errno

/-- `std::numeric_limits<std::uint64_t>::max()`. -/
def maxVersion : Nat := 0xffffffffffffffff

/-- The payload size and the order in which `memcpy` moves the bytes. -/
structure Layout where
  size : Nat
  order : List (Fin size)
  order_covers : ∀ position, position ∈ order

/-- The mutable fields of `detail::ParameterStorage<T>` behind its mutex. -/
structure Storage (size : Nat) where
  version : Nat
  previousVersion : Nat
  activeIndex : Nat
  previousActive : Nat
  transactionActive : Nat
  slots : Nat → Payload size

/-- One call of the interface. -/
inductive Operation (size : Nat) (ι : Type) where
  | get
  | set (value : Payload size)
  | wait (lastVersion : Nat)
  /-- `StopWait` on the object that `target` waits on -/
  | stopWait (target : ι)

/-- What a call returned. -/
inductive Outcome (size : Nat) where
  /-- `Get` or `Wait` returned 0 with this value and version -/
  | value (value : Payload size) (version : Nat)
  | code (code : Int)

/-- Control state of a process, one constructor per access to the storage or to
the mutex. -/
inductive Pc (size : Nat) (ι : Type) where
  | idle
  /-- `pthread_mutex_lock` -/
  | lock (operation : Operation size ι)
  /-- `RecoverParameter`: `transaction_active.load()` -/
  | recover (operation : Operation size ι)
  /-- `active_index = previous_active` -/
  | restoreActive (operation : Operation size ι)
  /-- `version = previous_version` -/
  | restoreVersion (operation : Operation size ι)
  /-- `transaction_active.store(0)` -/
  | rollback (operation : Operation size ι)
  /-- `pthread_mutex_consistent` -/
  | consistent (operation : Operation size ι)
  /-- the first access after the lock: the test of `active_index`, of `stopped_`
  and `version`, or the store to `stopped_` -/
  | enter (operation : Operation size ι)
  /-- `memcpy(value, values + active_index * size, size)` -/
  | copyOut (index : Nat) (todo : List (Fin size)) (buffer : Payload size)
  /-- `*version = s.version` -/
  | loadVersion (buffer : Payload size)
  /-- `return -pthread_mutex_unlock(&s.mutex)` of `Get` and `Wait` -/
  | unlockValue (buffer : Payload size) (version : Nat)
  /-- `version == max` -/
  | checkVersion (value : Payload size)
  /-- `previous_active = active_index` -/
  | saveActive (value : Payload size)
  /-- `previous_version = version` -/
  | saveVersion (value : Payload size)
  /-- `transaction_active.store(1)` -/
  | start (value : Payload size)
  /-- `inactive = 1u - active_index` -/
  | choose (value : Payload size)
  /-- `memcpy(values + inactive * size, value, size)` -/
  | copyIn (value : Payload size) (inactive : Nat) (todo : List (Fin size))
  /-- `active_index = inactive` -/
  | flip (value : Payload size) (inactive : Nat)
  /-- `version = previous_version + 1` -/
  | bump (value : Payload size)
  /-- `transaction_active.store(0)` -/
  | commit (value : Payload size)
  /-- `pthread_mutex_unlock` of `Set` -/
  | unlockSet
  /-- `pthread_cond_broadcast` of `Set` -/
  | broadcast
  /-- inside `pthread_cond_timedwait`, without the lock -/
  | asleep (lastVersion : Nat)
  /-- `pthread_cond_broadcast` of `StopWait` -/
  | broadcastStop
  /-- unlock, then return this code -/
  | unlock (code : Int)
  | done (outcome : Outcome size)
  | crashed

/-- The storage, its mutex, the processes, and three records the program does not
keep: the committed values in order, the initial one first, the pairs that `Get`
and `Wait` returned, in the order of their final unlock, and what each process has
committed in its latest call. -/
structure State (layout : Layout) (ι : Type) where
  storage : Storage layout.size
  mutex : RobustMutex ι
  processes : ι → Pc layout.size ι
  stopped : ι → Bool
  committed : List (Payload layout.size)
  returned : List (Payload layout.size × Nat)
  own : ι → List (Payload layout.size)

/-- One step.  The integer of `advance` is the result of the pthread call that
the step makes, where the call may fail on its own. -/
inductive Action (layout : Layout) (ι : Type) where
  | call (process : ι) (operation : Operation layout.size ι)
  | advance (process : ι) (outcome : Int)
  | finish (process : ι)
  | crash (process : ι)

variable {layout : Layout} {ι : Type}

/-- Where a call goes once `RecoverParameter` has returned `result`. -/
def afterRecover (operation : Operation layout.size ι) (result : Int) : Pc layout.size ι :=
  if result = 0 then .enter operation else .done (.code (-result))

/-- `RecoverParameter(s, result)` up to its first access. -/
def beginRecover (operation : Operation layout.size ι) (result : Int) : Pc layout.size ι :=
  if result = eownerdead then .recover operation else afterRecover operation result

namespace State

/-- Move one process. -/
def goto [DecidableEq ι] (state : State layout ι) (process : ι) (pc : Pc layout.size ι) :
    State layout ι :=
  { state with processes := update state.processes process pc }

def setStorage (state : State layout ι) (storage : Storage layout.size) : State layout ι :=
  { state with storage }

def setMutex (state : State layout ι) (mutex : RobustMutex ι) : State layout ι :=
  { state with mutex }

end State

variable [DecidableEq ι]

/-- The last store of a transaction. -/
def State.commit (state : State layout ι) (process : ι) (value : Payload layout.size) :
    State layout ι :=
  { state with
    storage := { state.storage with transactionActive := 0 }
    committed := state.committed ++ [value]
    own := update state.own process (state.own process ++ [value]) }.goto process .unlockSet

/-- The lock is handed back, and the value that was read is returned. -/
def State.serve (state : State layout ι) (process : ι) (buffer : Payload layout.size)
    (version : Nat) : State layout ι :=
  { state with
    mutex := state.mutex.unlock
    returned := state.returned ++ [(buffer, version)] }.goto process (.done (.value buffer version))

/-- The first access of each operation after its lock. -/
def enterStep (state : State layout ι) (process : ι) (outcome : Int) :
    Operation layout.size ι → State layout ι
  | .get =>
    if state.storage.activeIndex > 1 then state.goto process (.unlock (-eproto))
    else state.goto process
      (.copyOut state.storage.activeIndex layout.order (fun _ => 0))
  | .set value =>
    if state.storage.activeIndex > 1 then state.goto process (.unlock (-eproto))
    else state.goto process (.checkVersion value)
  | .wait lastVersion =>
    if state.stopped process then state.goto process (.unlock (-ecanceled))
    else if state.storage.version = lastVersion then
      -- `pthread_cond_timedwait` gives the lock away, or refuses its arguments
      if outcome = 0 then
        (state.setMutex state.mutex.unlock).goto process (.asleep lastVersion)
      else state.goto process (.unlock (-outcome))
    else state.goto process
      (.copyOut state.storage.activeIndex layout.order (fun _ => 0))
  | .stopWait target =>
    { state with stopped := update state.stopped target true }.goto process
      .broadcastStop

/-- One step of a process inside a call. -/
def processStep (state : State layout ι) (process : ι) (outcome : Int) :
    Option (State layout ι) :=
  match state.processes process with
  | .idle | .done _ | .crashed => none
  | .lock operation =>
    if outcome ≠ 0 then
      -- a failure of the call itself, without the lock
      if outcome = eownerdead then none
      else some (state.goto process (.done (.code (-outcome))))
    else (state.mutex.lock process).map fun result =>
      (state.setMutex result.1).goto process (beginRecover operation result.2)
  | .recover operation =>
    some (state.goto process
      (if state.storage.transactionActive ≠ 0 then .restoreActive operation
       else .consistent operation))
  | .restoreActive operation =>
    some ((state.setStorage { state.storage with
      activeIndex := state.storage.previousActive }).goto process (.restoreVersion operation))
  | .restoreVersion operation =>
    some ((state.setStorage { state.storage with
      version := state.storage.previousVersion }).goto process (.rollback operation))
  | .rollback operation =>
    some ((state.setStorage { state.storage with
      transactionActive := 0 }).goto process (.consistent operation))
  | .consistent operation =>
    some (if outcome = 0 then
        (state.setMutex state.mutex.consistent).goto process (.enter operation)
      else state.goto process (.unlock (-outcome)))
  | .enter operation => some (enterStep state process outcome operation)
  | .copyOut _ [] buffer => some (state.goto process (.loadVersion buffer))
  | .copyOut index (position :: todo) buffer =>
    some (state.goto process (.copyOut index todo
      (update buffer position (state.storage.slots index position))))
  | .loadVersion buffer => some (state.goto process (.unlockValue buffer state.storage.version))
  | .unlockValue buffer version => some (state.serve process buffer version)
  | .checkVersion value =>
    some (state.goto process
      (if state.storage.version = maxVersion then .unlock (-eoverflow)
       else .saveActive value))
  | .saveActive value =>
    some ((state.setStorage { state.storage with
      previousActive := state.storage.activeIndex }).goto process (.saveVersion value))
  | .saveVersion value =>
    some ((state.setStorage { state.storage with
      previousVersion := state.storage.version }).goto process (.start value))
  | .start value =>
    some ((state.setStorage { state.storage with
      transactionActive := 1 }).goto process (.choose value))
  | .choose value =>
    some (state.goto process (.copyIn value
      ((1 + (0x100000000 - state.storage.activeIndex)) % 0x100000000) layout.order))
  | .copyIn value inactive [] => some (state.goto process (.flip value inactive))
  | .copyIn value inactive (position :: todo) =>
    some ((state.setStorage { state.storage with
      slots := update state.storage.slots inactive
        (update (state.storage.slots inactive) position (value position)) }).goto
          process (.copyIn value inactive todo))
  | .flip value inactive =>
    some ((state.setStorage { state.storage with
      activeIndex := inactive }).goto process (.bump value))
  | .bump value =>
    some ((state.setStorage { state.storage with
      version := (state.storage.previousVersion + 1) % 0x10000000000000000 }).goto process
        (.commit value))
  | .commit value => some (state.commit process value)
  | .unlockSet => some ((state.setMutex state.mutex.unlock).goto process .broadcast)
  | .broadcast =>
    -- the only error POSIX knows for this call
    if outcome = 0 ∨ outcome = einval then
      some (state.goto process (.done (.code (-outcome))))
    else none
  | .asleep lastVersion =>
    -- woken or timed out; either way the lock comes first
    (state.mutex.lock process).map fun result =>
      (state.setMutex result.1).goto process (beginRecover (.wait lastVersion) result.2)
  | .broadcastStop => some (state.goto process (.unlock (-outcome)))
  | .unlock code => some ((state.setMutex state.mutex.unlock).goto process (.done (.code code)))

/-- One step of the parameter. -/
def step (state : State layout ι) : Action layout ι → Option (State layout ι)
  | .call process operation =>
    match state.processes process with
    | .idle => some ({ state with own := update state.own process [] }.goto process
        (.lock operation))
    | _ => none
  | .advance process outcome => processStep state process outcome
  | .finish process =>
    match state.processes process with
    | .done _ => some (state.goto process .idle)
    | _ => none
  | .crash process => some ((state.setMutex (state.mutex.died process)).goto process .crashed)

/-- The storage as `Create` leaves it, with nobody inside a call. -/
structure Fresh (initial : Payload layout.size) (state : State layout ι) : Prop where
  version : state.storage.version = 0
  activeIndex : state.storage.activeIndex = 0
  transactionActive : state.storage.transactionActive = 0
  value : state.storage.slots 0 = initial
  mutex : state.mutex = .free
  processes : ∀ process, state.processes process = .idle
  stopped : ∀ process, state.stopped process = false
  committed : state.committed = [initial]
  returned : state.returned = []

/-- The processes `ι` on one parameter created with the value `initial`. -/
def system (layout : Layout) (ι : Type) [DecidableEq ι] (initial : Payload layout.size) :
    System (State layout ι) (Action layout ι) where
  initial := Fresh initial
  step state action next := step state action = some next

end Kcf.Ipc.Parameter
