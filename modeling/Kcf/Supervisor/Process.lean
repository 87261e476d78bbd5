import Kcf.Process.Runtime

/-!
# Child processes

The `Process` object of a supervisor: which child it owns, whether that child has been
collected, and the status requests to it.  What the system calls answer is up to the system.
-/

namespace Kcf.Supervisor

open Errno
open Kcf.Process (ProcessState)

/-- What a failed system call leaves in `errno`, negated. -/
abbrev Failure := { code : Int32 // code < 0 }

/-- How a collected child has ended. -/
inductive ExitStatus where
  | exited (code : UInt8)
  | signaled (signal : UInt8)

/-- The answer of `waitpid`, which is called again when it is interrupted. -/
inductive WaitResult where
  | failed (error : Failure)
  | running
  | collected (status : ExitStatus)

/-- `ProcessExitInfo`. -/
structure ExitInfo where
  available : Bool := false
  exitedNormally : Bool := false
  exitCode : Int32 := 0
  signaled : Bool := false
  signalNumber : Int32 := 0

/-- `RuntimeStatusResponse` as it arrives. -/
structure StatusResponse where
  magic : UInt32
  protocolVersion : UInt16
  packetType : UInt16
  requestId : UInt64
  pid : Int32
  state : UInt8
  reserved : List UInt8
  loopHeartbeat : UInt64
  runtimeError : Int32
  reserved1 : UInt32

/-- The answer of `recv`. -/
inductive Received where
  | failed (error : Failure)
  | closed
  | malformed
  | response (response : StatusResponse)

/-- What a response says about the runtime of the child. -/
structure RuntimeStatus where
  state : ProcessState := .stopped
  loopHeartbeat : UInt64 := 0
  runtimeError : Int32 := 0

def processStateOfCode (code : UInt8) : Option ProcessState :=
  if code = 0 then some .stopped
  else if code = 1 then some .starting
  else if code = 2 then some .running
  else if code = 3 then some .stopping
  else if code = 4 then some .error
  else none

/-- `Process`; the descriptor is known by whether it is open. -/
structure Process where
  pid : Int32 := -1
  exited : Bool := false
  exitStatus : ExitStatus := .exited 0
  supervisionOpen : Bool := false
  pendingRequest : UInt64 := 0

namespace Process

def closeSupervision (process : Process) : Process :=
  { process with supervisionOpen := false, pendingRequest := 0 }

/-- `Start` after `fork`. -/
def adopt (process : Process) (pid : Int32) : Process :=
  { process.closeSupervision with
    pid
    exited := false
    exitStatus := .exited 0
    supervisionOpen := true }

/-- `CollectExit` after `waitpid`: `1` if the child was collected, `0` if it runs. -/
def collectExit (process : Process) : WaitResult → Process × Int32
  | .failed error =>
    (if error.1 = errorCode echild then { process with pid := -1 }.closeSupervision
      else process,
      error.1)
  | .running => (process, 0)
  | .collected status =>
    ({ process with exitStatus := status, exited := true, pid := -1 }.closeSupervision, 1)

/-- `GetExitInfo`. -/
def getExitInfo (process : Process) : ExitInfo :=
  if process.exited = false then {}
  else
    match process.exitStatus with
    | .exited code =>
      { available := true, exitedNormally := true, exitCode := code.toUInt32.toInt32 }
    | .signaled signal =>
      { available := true, signaled := true, signalNumber := signal.toUInt32.toInt32 }

/-- `ReceiveRuntimeStatus` after `recv`. -/
def receiveRuntimeStatus (process : Process) : Received → Process × Except Int32 RuntimeStatus
  | .failed error => (process, .error error.1)
  | .closed => (process, .error (errorCode econnreset))
  | .malformed => (process, .error (errorCode eproto))
  | .response response =>
    match processStateOfCode response.state with
    | none => (process, .error (errorCode eproto))
    | some state =>
      if response.magic ≠ 0x4b435253 ∨ response.protocolVersion ≠ 1 ∨
          response.packetType ≠ 2 ∨ response.pid ≠ process.pid ∨ response.reserved1 ≠ 0 ∨
          response.reserved.any (· ≠ 0) = true then
        (process, .error (errorCode eproto))
      else if process.pendingRequest = 0 ∨ response.requestId ≠ process.pendingRequest then
        (process, .error (errorCode estale))
      else
        ({ process with pendingRequest := 0 },
          .ok ⟨state, response.loopHeartbeat, response.runtimeError⟩)

@[simp] theorem available_getExitInfo (process : Process) :
    process.getExitInfo.available = process.exited := by
  unfold getExitInfo
  cases process.exited with
  | false => rfl
  | true => cases process.exitStatus <;> rfl

end Process

end Kcf.Supervisor
