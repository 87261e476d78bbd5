import Kcf.Errno
import Kcf.Transition.System

/-!
# Process runtimes

`ProcessRuntime::Run` of an element, together with the threads that race with it: signal
handlers, callers of `RequestStop`, and the supervision worker.  Every access to a shared
variable is a step of its own; what the system and the element answer is up to them.
-/

namespace Kcf.Process

open Kcf.Transition Errno

/-- `ProcessState`. -/
inductive ProcessState where
  | stopped
  | starting
  | running
  | stopping
  | error
  deriving DecidableEq

/-- How `Setup` or `Loop` ends. -/
inductive Outcome where
  | returned (code : Int32)
  | threw
  deriving DecidableEq

/-- An exception counts as `-EFAULT`. -/
def Outcome.code : Outcome → Int32
  | returned code => code
  | threw => errorCode efault

/-- The calls of an element, and how they end. -/
inductive Event where
  | setup
  | setupEnded (outcome : Outcome)
  | loop
  | loopEnded (outcome : Outcome)
  | shutdown
  | shutdownEnded (threw : Bool)
  deriving DecidableEq

/-- The calls of `RequestStop` in `Run` and `Finalize`. -/
inductive Site where
  | setup (error : Int32)
  | start
  | cycle
  | tick
  | finish (result : Int32)
  | finalize (result : Int32)

/-- The next access of `Run`, with the local variables that it still needs.  Where Setup
and Loop failures take the same way, `started` tells them apart. -/
inductive Place where
  | resetReason
  | resetState
  | resetHeartbeat
  | resetError
  | clearSignal
  | startSupervision (initialized : Int32)
  | startWorker (initialized : Int32)
  | prepare (initialized : Int32)
  | abort (error : Int32)
  | abortError (error : Int32)
  | abortState (error : Int32)
  | callSetup
  | inSetup
  | start
  | startSignal
  | startReason
  | startRunning
  | announce
  | cycle
  | cycleSignal
  | cycleRunning
  | callLoop
  | inLoop
  | loadHeartbeat
  | addHeartbeat
  | tickSignal
  | tickRunning
  | catchLoop
  | requestStop (site : Site)
  | stopRunning (site : Site)
  | loadReason (started : Bool) (result : Int32)
  | takeReason (started : Bool)
  | storeError (started : Bool) (result : Int32)
  | storeState (started : Bool) (result : Int32)
  | callShutdown (started : Bool) (result : Int32)
  | inShutdown (started : Bool) (result : Int32)
  | endRunning (result : Int32)
  | endError (result : Int32)
  | endState (result : Int32)
  | dismiss (result : Int32)
  | join (result : Int32)
  | returned (result : Int32)

/-- Where `Run` goes on after `RequestStop`. -/
def Site.next : Site → Place
  | setup error => .loadReason false error
  | start => .startRunning
  | cycle => .cycleRunning
  | tick => .tickRunning
  | finish result => .loadReason true result
  | finalize result => .dismiss result

/-- The next access of the supervision worker. -/
inductive Worker where
  | absent
  | watching
  | lost (error : Int32)
  | lostRunning (error : Int32)
  | latch (error : Int32)
  | storeError (error : Int32)
  | stopRunning
  | leave
  | ended
  deriving DecidableEq

/-- Why a worker calls `SupervisorLost`. -/
inductive Loss where
  | timeout
  | disconnect

def Loss.error : Loss → Int32
  | timeout => errorCode etimedout
  | disconnect => errorCode econnreset

/-- The shared variables, the threads, and the calls of the element so far. -/
structure Runtime where
  stopRequested : Bool
  stopReason : Int32
  running : Bool
  state : ProcessState
  loopHeartbeat : UInt64
  runtimeError : Int32
  supervisionRunning : Bool
  /-- What `ConsumeMemoryLockRequest` has found. -/
  profileError : Int32
  lockMemory : Bool
  place : Place := .resetReason
  worker : Worker := .absent
  /-- Calls of `RequestStop` by others that have yet to clear `running_`. -/
  requests : Nat := 0
  log : List Event := []

/-- What `Run` gets from the system or from the element. -/
inductive Answer where
  | nothing
  | code (value : Int32)
  | accepted
  | outcome (outcome : Outcome)
  | ended (threw : Bool)

/-- What happens in a process. -/
inductive Label where
  | run (answer : Answer)
  | signal
  | requestStop
  | stopRunning
  | lost (loss : Loss)
  | work

namespace Runtime

/-- `compare_exchange_strong` of `stop_reason_` with `0`. -/
def exchange (runtime : Runtime) (value : Int32) : Runtime :=
  { runtime with stopReason := if runtime.stopReason = 0 then value else runtime.stopReason }

/-- `GetState`. -/
def getState (runtime : Runtime) : ProcessState :=
  if runtime.stopReason < 0 then .error else runtime.state

/-- The next access of `Run`. -/
def access (runtime : Runtime) : Place → Answer → Option Runtime
  | .resetReason, .nothing => some { runtime with stopReason := 0, place := .resetState }
  | .resetState, .nothing => some { runtime with state := .starting, place := .resetHeartbeat }
  | .resetHeartbeat, .nothing => some { runtime with loopHeartbeat := 0, place := .resetError }
  | .resetError, .nothing => some { runtime with runtimeError := 0, place := .clearSignal }
  | .clearSignal, .code initialized =>
    some { runtime with stopRequested := false, place := .startSupervision initialized }
  | .startSupervision initialized, .code supervised =>
    some { runtime with place := .prepare (if initialized = 0 then supervised else initialized) }
  | .startSupervision initialized, .accepted =>
    some { runtime with supervisionRunning := true, place := .startWorker initialized }
  | .startWorker initialized, .accepted =>
    some { runtime with worker := .watching, place := .prepare initialized }
  | .startWorker initialized, .code error =>
    some
      { runtime with
        supervisionRunning := false
        place := .prepare (if initialized = 0 then error else initialized) }
  | .prepare initialized, .code locked =>
    let profiled := if initialized = 0 then runtime.profileError else initialized
    let prepared := if profiled = 0 ∧ runtime.lockMemory = true then locked else profiled
    some { runtime with place := if prepared = 0 then .callSetup else .abort prepared }
  | .abort error, .nothing => some { runtime with running := false, place := .abortError error }
  | .abortError error, .nothing =>
    some { runtime with runtimeError := error, place := .abortState error }
  | .abortState error, .nothing =>
    some { runtime with state := .error, place := .requestStop (.finalize error) }
  | .callSetup, .nothing => some { runtime with log := runtime.log ++ [.setup], place := .inSetup }
  | .inSetup, .outcome outcome =>
    some
      { runtime with
        log := runtime.log ++ [.setupEnded outcome]
        place := if outcome.code = 0 then .start else .requestStop (.setup outcome.code) }
  | .start, .nothing => some { runtime with running := true, place := .startSignal }
  | .startSignal, .nothing =>
    some
      { runtime with
        place := if runtime.stopRequested = true then .requestStop .start else .startReason }
  | .startReason, .nothing =>
    some
      { runtime with
        place := if runtime.stopReason ≠ 0 then .requestStop .start else .startRunning }
  | .startRunning, .nothing =>
    some { runtime with place := if runtime.running = true then .announce else .cycle }
  | .announce, .nothing => some { runtime with state := .running, place := .cycle }
  | .cycle, .nothing =>
    some
      { runtime with
        place := if runtime.running = true then .cycleSignal else .requestStop (.finish 0) }
  | .cycleSignal, .nothing =>
    some
      { runtime with
        place := if runtime.stopRequested = true then .requestStop .cycle else .cycleRunning }
  | .cycleRunning, .nothing =>
    some
      { runtime with
        place := if runtime.running = true then .callLoop else .requestStop (.finish 0) }
  | .callLoop, .nothing => some { runtime with log := runtime.log ++ [.loop], place := .inLoop }
  | .inLoop, .outcome outcome =>
    some
      { runtime with
        log := runtime.log ++ [.loopEnded outcome]
        place :=
          match outcome with
          | .returned code => if code = 0 then .loadHeartbeat else .requestStop (.finish code)
          | .threw => .catchLoop }
  | .loadHeartbeat, .nothing =>
    some
      { runtime with
        place :=
          if runtime.loopHeartbeat = 0xffffffffffffffff then
            .requestStop (.finish (errorCode eoverflow))
          else .addHeartbeat }
  | .addHeartbeat, .nothing =>
    some { runtime with loopHeartbeat := runtime.loopHeartbeat + 1, place := .tickSignal }
  | .tickSignal, .nothing =>
    some
      { runtime with
        place := if runtime.stopRequested = true then .requestStop .tick else .tickRunning }
  | .tickRunning, .nothing =>
    some
      { runtime with
        place := if runtime.running = true then .cycle else .requestStop (.finish 0) }
  | .catchLoop, .nothing =>
    some
      { runtime with
        running := false
        place := .requestStop (.finish (errorCode efault)) }
  | .requestStop site, .nothing => some { runtime.exchange 1 with place := .stopRunning site }
  | .stopRunning site, .nothing => some { runtime with running := false, place := site.next }
  | .loadReason started result, .nothing =>
    some
      { runtime with
        place :=
          if runtime.stopReason < 0 then .takeReason started else .storeError started result }
  | .takeReason started, .nothing =>
    some { runtime with place := .storeError started runtime.stopReason }
  | .storeError started result, .nothing =>
    some { runtime with runtimeError := result, place := .storeState started result }
  | .storeState started result, .nothing =>
    some
      { runtime with
        state := if started = true ∧ result = 0 then .stopping else .error
        place := .callShutdown started result }
  | .callShutdown started result, .nothing =>
    some
      { runtime with log := runtime.log ++ [.shutdown], place := .inShutdown started result }
  | .inShutdown started result, .ended threw =>
    some
      { runtime with
        log := runtime.log ++ [.shutdownEnded threw]
        place :=
          if started = false then .requestStop (.finalize result)
          else if threw = true ∧ result = 0 then .endRunning (errorCode efault)
          else .endRunning result }
  | .endRunning result, .nothing =>
    some { runtime with running := false, place := .endError result }
  | .endError result, .nothing =>
    some { runtime with runtimeError := result, place := .endState result }
  | .endState result, .nothing =>
    some
      { runtime with
        state := if result = 0 then .stopped else .error
        place := .requestStop (.finalize result) }
  | .dismiss result, .nothing =>
    some { runtime with supervisionRunning := false, place := .join result }
  | .join result, .nothing =>
    if runtime.worker = .absent ∨ runtime.worker = .ended then
      some { runtime with worker := .absent, place := .returned result }
    else none
  | _, _ => none

/-- The next access of the worker in `Supervise` and `SupervisorLost`. -/
def work (runtime : Runtime) : Worker → Option Runtime
  | .absent | .ended => none
  | .watching =>
    some
      { runtime with
        worker := if runtime.supervisionRunning = true then .watching else .leave }
  | .lost error =>
    some
      { runtime with
        worker := if runtime.stopRequested = true then .leave else .lostRunning error }
  | .lostRunning error =>
    some
      { runtime with
        worker := if runtime.supervisionRunning = true then .latch error else .leave }
  | .latch error =>
    some
      { runtime.exchange error with
        worker := if runtime.stopReason = 0 then .storeError error else .leave }
  | .storeError error => some { runtime with runtimeError := error, worker := .stopRunning }
  | .stopRunning => some { runtime with running := false, worker := .leave }
  | .leave => some { runtime with supervisionRunning := false, worker := .ended }

/-- One step of `Run` or of another thread. -/
def advance (runtime : Runtime) : Label → Option Runtime
  | .run answer => runtime.access runtime.place answer
  | .signal => some { runtime with stopRequested := true }
  | .requestStop => some { runtime.exchange 1 with requests := runtime.requests + 1 }
  | .stopRunning =>
    if runtime.requests = 0 then none
    else some { runtime with running := false, requests := runtime.requests - 1 }
  | .lost loss =>
    if runtime.worker = .watching then some { runtime with worker := .lost loss.error }
    else none
  | .work => runtime.work runtime.worker

/-- `Run` has been called, and no access has been made. -/
structure Called (runtime : Runtime) : Prop where
  place : runtime.place = .resetReason
  worker : runtime.worker = .absent
  log : runtime.log = []

/-- The runs of a process. -/
def executing : System Runtime Label where
  initial := Called
  step runtime label next := runtime.advance label = some next

end Runtime

end Kcf.Process
