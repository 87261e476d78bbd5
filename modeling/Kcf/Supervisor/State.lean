import Kcf.Program.Wp
import Kcf.Supervisor.Process

/-!
# The state of a supervisor

The fields of `Bringup`, what other threads share with it, and what it gets from the
system.  The trace records what the supervisor has done and what was done to its children.
-/

namespace Kcf.Supervisor

/-- `ApplicationState`. -/
inductive ApplicationState where
  | initializing
  | running
  | error
  | shuttingDown
  | resetting
  | stopped
  deriving DecidableEq

/-- `ElementFailureKind`. -/
inductive FailureKind where
  | none
  | processExit
  | runtimeError
  | statusTimeout
  | heartbeatStall
  deriving DecidableEq

/-- `ProcessTerminationKind`. -/
inductive TerminationKind where
  | none
  | exited
  | signaled
  deriving DecidableEq

/-- `ElementSpec`, as far as the supervisor reads it. -/
structure ElementSpec where
  name : String
  executable : String
  startupTimeoutMs : UInt32 := 5000
  healthTimeoutMs : UInt32 := 2000
  shutdownTimeoutMs : UInt32 := 1500

/-- `RegistrationError`. -/
structure RegistrationError where
  elementIndex : Option Nat
  elementName : String := ""
  field : String
  reason : String

/-- `ApplicationError`. -/
structure ApplicationError where
  valid : Bool := false
  elementName : String := ""
  pid : Int32 := -1
  exitInfo : ExitInfo := {}
  failureKind : FailureKind := .none
  runtimeError : Int32 := 0

/-- `ErrorHistoryEntry`. -/
structure ErrorHistoryEntry where
  sequence : Nat
  monotonicNs : Nat
  generation : Nat
  error : ApplicationError
  runtimeErrorObserved : Bool

/-- `SystemStatus`, as `PublishSystemStatus` builds it. -/
structure SystemStatus where
  sequence : UInt64
  state : ApplicationState
  errorValid : Bool := false
  terminationKind : TerminationKind := .none
  failureKind : FailureKind := .none
  failedPid : Int32 := -1
  exitCode : Int32 := 0
  signalNumber : Int32 := 0
  runtimeError : Int32 := 0
  errorElement : List UInt8 := []
  deriving DecidableEq

/-- `ManagedElement`; `child` is the generation of its last child. -/
structure ManagedElement where
  spec : ElementSpec
  process : Process := {}
  pid : Int32 := -1
  started : Bool := false
  failureDetected : Bool := false
  exitInfo : ExitInfo := {}
  failureKind : FailureKind := .none
  runtimeError : Int32 := 0
  processAlive : Bool := false
  statusValid : Bool := false
  runtimeReady : Bool := false
  lastRuntimeStatus : RuntimeStatus := {}
  startedAt : Nat := 0
  lastResponseTime : Nat := 0
  lastHeartbeatChangeTime : Nat := 0
  child : Nat := 0

/-- The fields of `Bringup` that belong to the controlling thread. -/
structure Bringup where
  elements : List ManagedElement := []
  running : Bool := false
  setup : Bool := false
  exitCode : Int32 := 0
  state : ApplicationState := .initializing
  error : ApplicationError := {}
  errorHistory : List ErrorHistoryEntry := []
  generation : Nat := 0
  errorSequence : Nat := 0
  statusOwned : Bool := false
  statusSequence : UInt64 := 0
  lastPublishError : Int32 := 0
  requestId : UInt64 := 0
  sigintInstalled : Bool := false
  sigtermInstalled : Bool := false

/-- `reset_gate_`. -/
inductive Gate where
  | closed
  | open
  | pending
  deriving DecidableEq

/-- What a supervisor does, and what becomes of its children.  A child is known by its
element and its generation. -/
inductive Event where
  | state (state : ApplicationState)
  | status (snapshot : SystemStatus)
  | opened
  | accepted
  | reset
  | discarded (state : ApplicationState)
  | start (element generation : Nat)
  | forked (element generation : Nat)
  | collected (element generation : Nat)
  | lost (element generation : Nat)
  | unreaped (element generation : Nat)
  | signaled (element generation : Nat)
  | cleared (element generation : Nat)
  | stopped (code : Int32) (clear : Bool)
  deriving DecidableEq

/-- What another thread or a signal handler does. -/
inductive Action where
  | signal
  | requestShutdown
  | requestReset
  | exchange

/-- How `Start` goes on after its checks. -/
inductive Launch where
  | refused (error : Failure)
  | threw
  | started (pid : { pid : Int32 // 0 < pid })
  | failed (pid : { pid : Int32 // 0 < pid }) (stop : Bool) (error : Failure)

/-- What a supervisor gets from the system, and what others do before its next access to a
shared variable. -/
inductive Input where
  | others (actions : List Action)
  | time (now : Nat)
  | wait (result : WaitResult)
  | launch (launch : Launch)
  | received (received : Received)
  | result (error : Option Failure)

def Input.others? : Input → Option (List Action)
  | .others requests => some requests
  | _ => none

def Input.time? : Input → Option Nat
  | .time reading => some reading
  | _ => none

def Input.wait? : Input → Option WaitResult
  | .wait answer => some answer
  | _ => none

def Input.launch? : Input → Option Launch
  | .launch answer => some answer
  | _ => none

def Input.received? : Input → Option Received
  | .received answer => some answer
  | _ => none

/-- The result of another system call: `0` or a negated error number. -/
def Input.result? : Input → Option Int32
  | .result none => some 0
  | .result (some error) => some error.1
  | _ => none

/-- The supervisor, the variables it shares, and its surroundings.  A run is followed for
`fuel` rounds of each loop, for `polls` status polls, and as long as there are inputs. -/
structure World where
  own : Bringup := {}
  gate : Gate := .closed
  stopRequested : Bool := false
  shutdownRequested : Bool := false
  /-- Calls of `RequestReset` that have found no request to shut down. -/
  resets : Nat := 0
  inputs : List Input := []
  fuel : Nat := 0
  polls : Nat := 0
  trace : List Event := []

namespace World

/-- What `ShutdownRequested` looks for. -/
def Requested (world : World) : Prop := world.stopRequested = true ∨ world.shutdownRequested = true
  deriving Decidable

/-- A step of another thread. -/
def other (world : World) : Action → World
  | .signal => { world with stopRequested := true }
  | .requestShutdown => { world with shutdownRequested := true }
  | .requestReset => if world.Requested then world else { world with resets := world.resets + 1 }
  | .exchange =>
    if world.resets = 0 then world
    else if world.gate = .open then
      { world with
        gate := .pending, resets := world.resets - 1, trace := world.trace ++ [.accepted] }
    else { world with resets := world.resets - 1 }

end World

end Kcf.Supervisor
