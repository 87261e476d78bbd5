import Kcf.Supervisor.State

/-!
# The supervisor

The methods of `Bringup` as programs.  Before each access to a shared variable, other
threads may do anything that they can do; what the system answers is read from the inputs.
-/

namespace Kcf.Supervisor

open Kcf.Program Errno
open Kcf.Process (ProcessState)

/-- A part of the controlling thread. -/
abbrev Act (α : Type) := Stateful World α

/-! ## Access to the state -/

/-- The next input, which has to be of the right kind. -/
def ask {α : Type} (select : Input → Option α) : Act α := fun world =>
  match world.inputs with
  | [] => .error () world
  | input :: inputs =>
    match select input with
    | some answer => .ok answer { world with inputs }
    | none => .error () world

def emit (event : Event) : Act Unit :=
  modify fun world => { world with trace := world.trace ++ [event] }

def getOwn : Act Bringup := do return (← get).own

def update (change : Bringup → Bringup) : Act Unit :=
  modify fun world => { world with own := change world.own }

def element (i : Nat) : Act ManagedElement := do
  match (← getOwn).elements[i]? with
  | some entry => return entry
  | none => throw ()

def updateElement (i : Nat) (change : ManagedElement → ManagedElement) : Act Unit :=
  update fun own => { own with elements := own.elements.modify i change }

/-- The indices of the elements. -/
def indices : Act (List Nat) := do return List.range (← getOwn).elements.length

/-- What other threads do before the next access to a shared variable. -/
def interfere : Act Unit := do
  let actions ← ask Input.others?
  modify fun world => actions.foldl World.other world

def milliseconds (n : UInt32) : Nat := n.toNat * 1000000

/-! ## Requests and the application state -/

/-- `ShutdownRequested`. -/
def shutdownRequested : Act Bool := do
  interfere
  if (← get).stopRequested = true then return true
  interfere
  return (← get).shutdownRequested

/-- `RequestShutdown`. -/
def requestShutdown : Act Unit := do
  interfere
  modify fun world => { world with shutdownRequested := true }

/-- The status that `PublishSystemStatus` builds. -/
def Bringup.snapshot (own : Bringup) : SystemStatus :=
  let status : SystemStatus := { sequence := own.statusSequence + 1, state := own.state }
  if own.error.valid = true then
    { status with
      errorValid := true
      terminationKind :=
        if own.error.exitInfo.signaled = true then .signaled
        else if own.error.exitInfo.exitedNormally = true then .exited
        else .none
      failureKind := own.error.failureKind
      failedPid := own.error.pid
      exitCode := own.error.exitInfo.exitCode
      signalNumber := own.error.exitInfo.signalNumber
      runtimeError := own.error.runtimeError
      errorElement := own.error.elementName.toUTF8.toList.take 63 }
  else status

/-- `PublishSystemStatus`. -/
def publishSystemStatus : Act Unit := do
  let own ← getOwn
  if own.statusOwned = false then return
  if own.statusSequence = 0xffffffffffffffff then
    update fun own => { own with lastPublishError := errorCode eoverflow }
  else
    emit (.status own.snapshot)
    update fun own => { own with statusSequence := own.statusSequence + 1 }
    let result ← ask Input.result?
    update fun own => { own with lastPublishError := result }

/-- The store to `reset_gate_` in `SetApplicationState`; it may discard a pending reset. -/
def World.storeGate (world : World) (state : ApplicationState) : World :=
  { world with
    gate := if state = .error then .open else .closed
    trace :=
      if state = .error then world.trace ++ [.opened]
      else if world.gate = .pending then world.trace ++ [.discarded state]
      else world.trace }

/-- `SetApplicationState`. -/
def setApplicationState (state : ApplicationState) : Act Unit := do
  if (← getOwn).state = state then return
  interfere
  modify fun world => world.storeGate state
  interfere
  update fun own => { own with state }
  emit (.state state)
  publishSystemStatus

/-! ## Failures -/

/-- The failure that `RecordFailure` records for an element. -/
def ManagedElement.failure (entry : ManagedElement) (kind : FailureKind) (runtimeError : Int32) :
    ApplicationError where
  valid := true
  elementName := entry.spec.name
  pid := entry.pid
  exitInfo := if kind = .processExit then entry.process.getExitInfo else {}
  failureKind := kind
  runtimeError :=
    if kind = .processExit ∧ entry.statusValid = true ∧
        entry.lastRuntimeStatus.runtimeError ≠ 0 then
      entry.lastRuntimeStatus.runtimeError
    else runtimeError

/-- `ERROR_HISTORY_CAPACITY`. -/
def errorHistoryCapacity : Nat := 64

/-- The fields that `RecordFailure` writes. -/
def Bringup.record (own : Bringup) (i now : Nat) (entry : ManagedElement)
    (event : ApplicationError) : Bringup :=
  let kept :=
    if own.errorHistory.length = errorHistoryCapacity then own.errorHistory.tail
    else own.errorHistory
  { own with
    elements := own.elements.modify i fun entry =>
      { entry with
        failureDetected := true
        exitInfo := event.exitInfo
        failureKind := event.failureKind
        runtimeError := event.runtimeError }
    exitCode := 1
    errorSequence := own.errorSequence + 1
    errorHistory := kept ++
      [{ sequence := own.errorSequence + 1
         monotonicNs := now
         generation := own.generation
         error := event
         runtimeErrorObserved := entry.statusValid && entry.lastRuntimeStatus.runtimeError != 0 }]
    error := if own.error.valid = true then own.error else event }

/-- `RecordFailure`. -/
def recordFailure (i : Nat) (kind : FailureKind) (runtimeError : Int32) : Act Unit := do
  let entry ← element i
  if entry.failureDetected = true then return
  if ← shutdownRequested then return
  let now ← ask Input.time?
  let own ← getOwn
  update fun own => own.record i now entry (entry.failure kind runtimeError)
  if own.error.valid = false ∧ own.state ≠ .resetting then
    setApplicationState .error

/-- The fields that `UpdateExitInfo` writes. -/
def Bringup.updateExitInfo (own : Bringup) (i : Nat) (entry : ManagedElement) : Bringup :=
  let info := entry.process.getExitInfo
  let elements := own.elements.modify i fun entry => { entry with exitInfo := info }
  if entry.failureDetected = false then { own with elements }
  else
    { own with
      elements
      errorHistory := own.errorHistory.map fun event =>
        if event.generation = own.generation ∧ event.error.elementName = entry.spec.name ∧
            event.error.pid = entry.pid then
          { event with error := { event.error with exitInfo := info } }
        else event
      error :=
        if own.error.valid = true ∧ own.error.pid = entry.pid ∧
            own.error.elementName = entry.spec.name then
          { own.error with exitInfo := info }
        else own.error }

/-- `UpdateExitInfo`. -/
def updateExitInfo (i : Nat) : Act Unit := do
  let entry ← element i
  update fun own => own.updateExitInfo i entry

/-! ## Children -/

/-- What the trace says about an answer of `waitpid`. -/
def WaitResult.event (i generation : Nat) : WaitResult → List Event
  | .collected _ => [.collected i generation]
  | .failed error => if error.1 = errorCode echild then [.lost i generation] else []
  | .running => []

/-- `CollectExit` after `waitpid`. -/
def World.collectExit (world : World) (i : Nat) (entry : ManagedElement)
    (result : WaitResult) : World :=
  { world with
    own :=
      { world.own with
        elements := world.own.elements.modify i fun other =>
          { other with process := (entry.process.collectExit result).1 } }
    trace := world.trace ++ result.event i entry.child }

/-- `CollectExit`. -/
def collectExit (i : Nat) : Act Int32 := do
  let entry ← element i
  let result ← ask Input.wait?
  modify fun world => world.collectExit i entry result
  return (entry.process.collectExit result).2

/-- `IsRunning`. -/
def isRunning (i : Nat) : Act Bool := do
  if (← element i).process.pid ≤ 0 then return false
  return (← collectExit i) = 0

/-- `RequestStop` or `ForceStop`, which differ in the signal that they send. -/
def stopProcess (i : Nat) : Act Int32 := do
  if (← element i).process.pid ≤ 0 then return errorCode esrch
  let result ← collectExit i
  if result ≠ 0 then return if result < 0 then result else errorCode esrch
  emit (.signaled i (← element i).child)
  ask Input.result?

/-- `RequestStop`, by `SIGTERM`. -/
def requestStop (i : Nat) : Act Int32 := stopProcess i

/-- `ForceStop`, by `SIGKILL`. -/
def forceStop (i : Nat) : Act Int32 := stopProcess i

/-- `Wait`. -/
def waitProcess (i : Nat) : Act Int32 := do
  let process := (← element i).process
  if process.exited = true then return 0
  if process.pid ≤ 0 then return errorCode echild
  let result ← collectExit i
  return if result < 0 then result else 0

/-- `Start` after `fork`: the object owns the new child. -/
def World.adopt (world : World) (i : Nat) (pid : Int32) : World :=
  { world with
    own :=
      { world.own with
        elements := world.own.elements.modify i fun entry =>
          { entry with process := entry.process.adopt pid, child := world.own.generation } }
    trace := world.trace ++ [.forked i world.own.generation] }

/-- A child whose `exec` has failed is waited for. -/
def abandon (i : Nat) (stop : Bool) : Act Unit := do
  if stop = true then let _ ← requestStop i
  let _ ← waitProcess i
  let entry ← element i
  if entry.process.exited = false then emit (.unreaped i entry.child)

/-- `Start` from `fork` on; an exception is thrown before that. -/
def launchProcess (i : Nat) : Act Int32 := do
  match ← ask Input.launch? with
  | .refused error => return error.1
  | .threw => return errorCode enomem
  | .started pid =>
    modify fun world => world.adopt i pid
    return 0
  | .failed pid stop error =>
    modify fun world => world.adopt i pid
    abandon i stop
    return error.1

/-- `Start`. -/
def startProcess (i : Nat) : Act Int32 := do
  emit (.start i (← getOwn).generation)
  if 0 < (← element i).process.pid then
    let result ← collectExit i
    if result ≤ 0 then return if result = 0 then errorCode ebusy else result
  launchProcess i

/-! ## Status of the runtimes -/

/-- `RequestRuntimeStatus` to one child. -/
def requestRuntimeStatus (i : Nat) : Act Unit := do
  let entry ← element i
  let id := (← getOwn).requestId
  if entry.processAlive = false ∨ entry.process.supervisionOpen = false ∨ id = 0 ∨
      entry.process.pendingRequest ≠ 0 then return
  let sent ← ask Input.result?
  if sent = 0 then
    updateElement i fun entry =>
      { entry with process := { entry.process with pendingRequest := id } }

/-- What a response changes. -/
def ManagedElement.observe (entry : ManagedElement) (now : Nat) (status : RuntimeStatus) :
    ManagedElement :=
  let ready : Bool := status.state = .running ∧ entry.runtimeReady = false
  let changed : Bool := entry.statusValid = false ∨
    status.loopHeartbeat ≠ entry.lastRuntimeStatus.loopHeartbeat
  { entry with
    lastHeartbeatChangeTime :=
      if ready = true ∨ changed = true then now else entry.lastHeartbeatChangeTime
    lastRuntimeStatus := status
    statusValid := true
    lastResponseTime := now
    runtimeReady := entry.runtimeReady || ready }

/-- The answers of one child, `packets` at most. -/
def receiveRuntimeStatuses (i : Nat) : Nat → Act Unit
  | 0 => return
  | packets + 1 => do
    let entry ← element i
    if entry.process.supervisionOpen = false then return
    let (process, result) := entry.process.receiveRuntimeStatus (← ask Input.received?)
    updateElement i fun entry => { entry with process }
    match result with
    | .ok status =>
      let now ← ask Input.time?
      updateElement i fun entry => entry.observe now status
      receiveRuntimeStatuses i packets
    | .error code =>
      if code = errorCode eagain ∨ code = errorCode econnreset ∨
          code = errorCode ebadf then return
      receiveRuntimeStatuses i packets

def receiveFrom (i : Nat) : Act Unit := do
  if (← element i).processAlive = true then receiveRuntimeStatuses i 8

/-- The run is followed for one more status poll. -/
def spendPoll : Act Unit := do
  if (← get).polls = 0 then throw ()
  modify fun world => { world with polls := world.polls - 1 }

/-- `PollRuntimeStatuses`. -/
def pollRuntimeStatuses : Act Int32 := do
  spendPoll
  if (← getOwn).requestId = 0xffffffffffffffff then return errorCode eoverflow
  update fun own => { own with requestId := own.requestId + 1 }
  let all ← indices
  all.foldlM (fun _ i => requestRuntimeStatus i) ()
  all.foldlM (fun _ i => receiveFrom i) ()
  return 0

/-! ## Generations -/

/-- What `StartGeneration` notes about an element that has started. -/
def ManagedElement.launched (entry : ManagedElement) (now : Nat) : ManagedElement :=
  { entry with
    started := true
    processAlive := true
    startedAt := now
    lastResponseTime := now
    lastHeartbeatChangeTime := now
    pid := entry.process.pid }

def startElements : List Nat → Act Int32
  | [] => return 0
  | i :: rest => do
    if ← shutdownRequested then return errorCode ecanceled
    let result ← startProcess i
    if result ≠ 0 then
      recordFailure i .runtimeError result
      return result
    let now ← ask Input.time?
    updateElement i fun entry => entry.launched now
    publishSystemStatus
    startElements rest

/-- `StartGeneration`. -/
def startGeneration : Act Int32 := do
  update fun own => { own with generation := own.generation + 1 }
  startElements (← indices)

/-- One element in a round of `AwaitRunning`; yields the failure so far and whether all
elements are ready. -/
def awaitElement (found : Int32 × Bool) (i : Nat) : Act (Int32 × Bool) := do
  let alive ← isRunning i
  let entry ← element i
  let status := entry.lastRuntimeStatus
  if alive = false then
    updateElement i fun entry => { entry with processAlive := false }
    recordFailure i .processExit 0
    return (errorCode echild, found.2)
  else if entry.statusValid = true ∧
      (status.state ≠ .starting ∧ status.state ≠ .running ∨ status.runtimeError ≠ 0) then
    let error := if status.runtimeError ≠ 0 then status.runtimeError else errorCode eproto
    recordFailure i .runtimeError error
    return (error, found.2)
  else if entry.runtimeReady = false ∨ status.state ≠ .running then
    let now ← ask Input.time?
    if entry.startedAt + milliseconds entry.spec.startupTimeoutMs ≤ now then
      recordFailure i .statusTimeout (errorCode etimedout)
      return (errorCode etimedout, false)
    return (found.1, false)
  else
    let now ← ask Input.time?
    if entry.lastResponseTime + milliseconds entry.spec.healthTimeoutMs ≤ now then
      recordFailure i .statusTimeout (errorCode etimedout)
      return (errorCode etimedout, found.2)
    return found

/-- A round of `AwaitRunning`. -/
def awaitRound (_ : Unit) : Act (Unit ⊕ Int32) := do
  let _ ← ask Input.time?
  if ← shutdownRequested then return .inr (errorCode ecanceled)
  let polled ← pollRuntimeStatuses
  let (failure, ready) ← (← indices).foldlM awaitElement (polled, true)
  if ← shutdownRequested then return .inr (errorCode ecanceled)
  if failure ≠ 0 then return .inr failure
  if ready = true then return .inr 0
  publishSystemStatus
  return .inl ()

/-- `AwaitRunning`. -/
def awaitRunning : Act Int32 := do iterate awaitRound (← get).fuel ()

/-- The local variables of `StopGeneration`. -/
structure Reap where
  failure : Int32 := 0
  forced : List Nat := []
  remaining : Bool := false

/-- The first error of stopping a child, if it is not that there is none. -/
def firstFailure (failure result : Int32) : Int32 :=
  if result ≠ 0 ∧ result ≠ errorCode esrch ∧ failure = 0 then result else failure

def requestStopElement (failure : Int32) (i : Nat) : Act Int32 := do
  if (← element i).started = false then return failure
  if (← isRunning i) = false then return failure
  return firstFailure failure (← requestStop i)

/-- One element in a round of `StopGeneration`. -/
def reapElement (start cycle : Nat) (reap : Reap) (i : Nat) : Act Reap := do
  if (← element i).started = false then return reap
  let alive ← isRunning i
  let entry ← element i
  if alive = false ∧ entry.process.getExitInfo.available = true then
    updateExitInfo i
    updateElement i fun entry => { entry with started := false, processAlive := false }
    emit (.cleared i entry.child)
    return reap
  let failure := if alive = false ∧ reap.failure = 0 then errorCode echild else reap.failure
  let waiting : Reap := { reap with failure, remaining := true }
  if entry.process.pid ≤ 0 then return waiting
  if i ∈ reap.forced ∨ cycle < start + milliseconds entry.spec.shutdownTimeoutMs then
    return waiting
  let result ← forceStop i
  return { waiting with failure := firstFailure failure result, forced := i :: reap.forced }

/-- When `StopGeneration` gives up. -/
def Bringup.deadline (own : Bringup) (start : Nat) : Nat :=
  own.elements.foldl (fun deadline entry =>
    if entry.started = true then
      max deadline (start + milliseconds entry.spec.shutdownTimeoutMs + milliseconds 1000)
    else deadline) (start + milliseconds 1000)

/-- A round of `StopGeneration`. -/
def reapRound (start deadline : Nat) (reap : Reap) : Act (Reap ⊕ Int32) := do
  let cycle ← ask Input.time?
  if ← shutdownRequested then setApplicationState .shuttingDown
  let reap ← (← indices).foldlM (reapElement start cycle) { reap with remaining := false }
  if reap.remaining = false then return .inr reap.failure
  let now ← ask Input.time?
  if deadline ≤ now then
    return .inr (if reap.failure ≠ 0 then reap.failure else errorCode etimedout)
  publishSystemStatus
  return .inl reap

/-- No element has `started` set. -/
def Bringup.isClear (own : Bringup) : Bool := own.elements.all fun entry => !entry.started

/-- `StopGeneration`. -/
def stopGeneration : Act Int32 := do
  let start ← ask Input.time?
  let deadline := (← getOwn).deadline start
  let failure ← (← indices).foldlM requestStopElement 0
  let code ← iterate (reapRound start deadline) (← get).fuel { failure }
  emit (.stopped code (← getOwn).isClear)
  return code

/-- The observations of a generation. -/
def ManagedElement.renewed (entry : ManagedElement) : ManagedElement :=
  { entry with
    pid := -1
    failureDetected := false
    exitInfo := {}
    failureKind := .none
    runtimeError := 0
    statusValid := false
    runtimeReady := false
    lastRuntimeStatus := {}
    startedAt := 0
    lastResponseTime := 0
    lastHeartbeatChangeTime := 0 }

/-- The second half of `ResetGeneration`. -/
def concludeReset (result : Int32) : Act Unit := do
  if ← shutdownRequested then return
  if result ≠ 0 then
    let _ ← stopGeneration
    if ← shutdownRequested then return
    setApplicationState .error
  else
    update fun own => { own with error := {}, exitCode := 0 }
    setApplicationState .running

/-- What a new generation starts from. -/
def Bringup.renewed (own : Bringup) : Bringup :=
  { own with elements := own.elements.map ManagedElement.renewed, requestId := 0 }

/-- Starts the elements again. -/
def restartGeneration : Act Int32 := do
  update Bringup.renewed
  let result ← startGeneration
  if result ≠ 0 then return result
  awaitRunning

/-- `ResetGeneration`. -/
def resetGeneration : Act Unit := do
  emit .reset
  setApplicationState .resetting
  let result ← stopGeneration
  if ← shutdownRequested then return
  if result ≠ 0 then concludeReset result
  else concludeReset (← restartGeneration)

/-! ## The life of a supervisor -/

/-- `restore` of `RestoreSignalHandlers`. -/
def restore (installed : Bringup → Bool) (clear : Bringup → Bringup) : Act Unit := do
  if installed (← getOwn) = true then
    let result ← ask Input.result?
    update fun own =>
      if result = 0 then clear own
      else { own with exitCode := if own.exitCode = 0 then 1 else own.exitCode }

/-- `RestoreSignalHandlers`. -/
def restoreSignalHandlers : Act Unit := do
  restore Bringup.sigtermInstalled fun own => { own with sigtermInstalled := false }
  restore Bringup.sigintInstalled fun own => { own with sigintInstalled := false }

/-- `Shutdown` closes and unlinks the status. -/
def releaseStatus : Act Unit := do
  if (← getOwn).statusOwned = true then
    let closed ← ask Input.result?
    let unlinked ← ask Input.result?
    update fun own =>
      { own with
        exitCode := if (closed ≠ 0 ∨ unlinked ≠ 0) ∧ own.exitCode = 0 then 1 else own.exitCode
        statusOwned := unlinked ≠ 0 ∧ unlinked ≠ errorCode enoent }

/-- Nothing is left for `Shutdown`. -/
def Bringup.isDone (own : Bringup) : Bool :=
  own.state = .stopped ∧ own.statusOwned = false ∧ own.sigintInstalled = false ∧
    own.sigtermInstalled = false

/-- `Shutdown` after the state is settled. -/
def release : Act Unit := do
  releaseStatus
  update fun own => { own with running := false, setup := false }
  restoreSignalHandlers

/-- `Shutdown`. -/
def shutdown : Act Unit := do
  if (← getOwn).isDone = true then return
  requestShutdown
  if (← getOwn).state ≠ .stopped then setApplicationState .shuttingDown
  let stopped ← stopGeneration
  if stopped ≠ 0 then
    update fun own => { own with exitCode := if own.exitCode = 0 then 1 else own.exitCode }
  if (← getOwn).isClear = true then setApplicationState .stopped
  release

/-- The checks of `Run` on an element whose process is alive. -/
def checkHealth (polled : Int32) (i : Nat) (entry : ManagedElement) : Act Unit := do
  let status := entry.lastRuntimeStatus
  let timeout := milliseconds entry.spec.healthTimeoutMs
  if polled = errorCode eoverflow then
    recordFailure i .runtimeError polled
    return
  let now ← ask Input.time?
  if entry.lastResponseTime + timeout ≤ now then
    recordFailure i .statusTimeout 0
  else if entry.runtimeReady = false ∧ status.runtimeError = 0 ∧
      (entry.statusValid = false ∨ status.state = .starting) then
    let now ← ask Input.time?
    if entry.startedAt + milliseconds entry.spec.startupTimeoutMs ≤ now then
      recordFailure i .statusTimeout 0
  else if status.state ≠ .running ∨ status.runtimeError ≠ 0 then
    recordFailure i .runtimeError
      (if status.runtimeError ≠ 0 then status.runtimeError else errorCode eproto)
  else
    let now ← ask Input.time?
    if entry.lastHeartbeatChangeTime + timeout ≤ now then
      recordFailure i .heartbeatStall 0

/-- One element in a round of `Run`. -/
def superviseElement (polled : Int32) (i : Nat) : Act Unit := do
  if (← element i).processAlive = false then return
  let alive ← isRunning i
  let entry ← element i
  if alive = false then
    updateElement i fun entry => { entry with processAlive := false }
    if entry.failureDetected = false then recordFailure i .processExit 0 else updateExitInfo i
  else if entry.failureDetected = false then
    checkHealth polled i entry

def superviseElements (polled : Int32) : List Nat → Act Unit
  | [] => return
  | i :: rest => do
    if ← shutdownRequested then return
    superviseElement polled i
    superviseElements polled rest

/-- The exchange of `reset_gate_` in `Run`, which takes a pending reset. -/
def takeReset : Act Bool := do
  interfere
  if (← get).gate ≠ .pending then return false
  modify fun world => { world with gate := .closed }
  return true

/-- The part of a round of `Run` that watches the elements. -/
def supervise : Act Unit := do
  let _ ← ask Input.time?
  let polled ← pollRuntimeStatuses
  superviseElements polled (← indices)
  if ← shutdownRequested then return
  publishSystemStatus

/-- A round of `Run`. -/
def runRound (_ : Unit) : Act (Unit ⊕ Unit) := do
  if (← getOwn).running = false then return .inr ()
  if ← shutdownRequested then return .inr ()
  if ← takeReset then
    resetGeneration
    if ← shutdownRequested then return .inr ()
  supervise
  return .inl ()

/-- `Run`. -/
def run : Act Int32 := do
  if (← getOwn).setup = false then return errorCode einval
  update fun own => { own with running := true }
  iterate runRound (← get).fuel ()
  shutdown
  return (← getOwn).exitCode

/-- Why `ValidateElements` refuses an element. -/
def ElementSpec.reject (spec : ElementSpec) (earlier : List ElementSpec) :
    Option RegistrationError :=
  let refuse (field reason : String) : Option RegistrationError :=
    some ⟨some earlier.length, spec.name, field, reason⟩
  if spec.name = "" then refuse "name" "empty"
  else if spec.executable = "" then refuse "executable" "empty"
  else if spec.startupTimeoutMs = 0 then refuse "startup_timeout_ms" "zero"
  else if spec.healthTimeoutMs = 0 then refuse "health_timeout_ms" "zero"
  else if spec.shutdownTimeoutMs = 0 then refuse "shutdown_timeout_ms" "zero"
  else if earlier.any (·.name = spec.name) = true then refuse "name" "duplicate"
  else none

def rejectElements (earlier : List ElementSpec) : List ElementSpec → Option RegistrationError
  | [] => none
  | spec :: rest =>
    match spec.reject earlier with
    | some error => some error
    | none => rejectElements (earlier ++ [spec]) rest

/-- `ValidateElements`. -/
def validateElements (specs : List ElementSpec) : Option RegistrationError :=
  if specs.isEmpty = true then some { elementIndex := none, field := "elements", reason := "empty" }
  else rejectElements [] specs

/-- `Setup` installs its signal handlers and creates the status. -/
def prepare : Act Int32 := do
  let interrupt ← ask Input.result?
  if interrupt ≠ 0 then return interrupt
  update fun own => { own with sigintInstalled := true }
  let terminate ← ask Input.result?
  if terminate ≠ 0 then
    restoreSignalHandlers
    return terminate
  update fun own => { own with sigtermInstalled := true }
  let created ← ask Input.result?
  if created ≠ 0 then
    restoreSignalHandlers
    return created
  update fun own => { own with statusOwned := true, statusSequence := 1 }
  return 0

/-- `Setup` starts the first generation. -/
def bringUp : Act Int32 := do
  let started ← startGeneration
  let result ← if started ≠ 0 then pure started else awaitRunning
  if ← shutdownRequested then
    shutdown
    return errorCode ecanceled
  update fun own => { own with setup := true }
  setApplicationState (if result ≠ 0 then .error else .running)
  return 0

/-- `Setup`. -/
def setup (specs : List ElementSpec) : Act Int32 := do
  let own ← getOwn
  if own.state ≠ .initializing ∨ own.setup = true ∨ own.sigintInstalled = true ∨
      own.sigtermInstalled = true then
    return errorCode ebusy
  if (validateElements specs).isSome = true then return errorCode einval
  update fun own => { own with elements := specs.map fun spec => { spec }, exitCode := 0 }
  interfere
  modify fun world => { world with stopRequested := false }
  let prepared ← prepare
  if prepared ≠ 0 then return prepared
  bringUp

end Kcf.Supervisor
