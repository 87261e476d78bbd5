import Kcf.Data.Keyed
import Kcf.Network.Value
import Kcf.Transition.System

/-!
# The registry of local Services

A process lists its Services in a shared snapshot.  `Register`, `UnregisterService` and
the rounds of the recovery worker run under one lock, so each of them is one step; the
answers of the operating system and of the type registry are inputs of the step.
-/

namespace Kcf.Introspection

open Errno
open Kcf.Keyed (swapRemove)
open Kcf.Network (TypeDescriptor)
open Kcf.Transition

/-! ## Type registrations -/

/-- `TypeRegistrationFailure`. -/
inductive TypeRegistrationFailure where
  | none | invalidDescriptor | schemaConflict | capacity | storageCreate | snapshotPublish
  | inactive | resource
  deriving DecidableEq

/-- `TypeRegistrationResult`. -/
structure TypeRegistrationResult where
  typeId : UInt64 := 0
  error : Int := 0
  failure : TypeRegistrationFailure := .none
  deriving DecidableEq

/-- `TypeRegistrationResult::Retryable`. -/
def TypeRegistrationResult.Retryable (result : TypeRegistrationResult) : Prop :=
  result.error = -eagain ∧
    (result.failure = .storageCreate ∨ result.failure = .snapshotPublish)
  deriving Decidable

/-- `ServiceTypeRegistrationStatus`. -/
structure ServiceTypeRegistrationStatus where
  supported : Bool := false
  pending : Bool := false
  initial : TypeRegistrationResult := {}
  latest : TypeRegistrationResult := {}
  recoveryAttempts : Nat := 0
  deriving DecidableEq

/-- What an entry holds about its request type, or about its response type. -/
structure TypeState where
  status : ServiceTypeRegistrationStatus := {}
  retained : Option TypeDescriptor := none
  id : UInt64 := 0

/-- What `RegisterTypeDetailed` answers, and whether the descriptor can be copied. -/
structure TypeAnswer where
  result : TypeRegistrationResult := {}
  copied : Bool := true

namespace TypeState

/-- `InitializeType`. -/
def initializeType (state : TypeState) (descriptor : Option TypeDescriptor) (size : UInt32)
    (answer : TypeAnswer) : TypeState :=
  match descriptor with
  | none => { state with id := 0 }
  | some descriptor =>
    let latest := if descriptor.payloadSize = size then answer.result
      else { error := -einval, failure := .invalidDescriptor }
    let status := { state.status with supported := true, initial := latest, latest }
    if latest.Retryable then
      if answer.copied then
        { status := { status with pending := true }
          retained := some descriptor
          id := latest.typeId }
      else
        { state with
          status := { status with latest := { error := -enomem, failure := .resource } }
          id := latest.typeId }
    else { state with status, id := latest.typeId }

/-- `RecoverType`, with its result. -/
def recoverType (state : TypeState) (answer : TypeAnswer) : TypeState × Bool :=
  if state.status.pending then
    let latest := answer.result
    let recoveryAttempts := state.status.recoveryAttempts + 1
    let pending := decide (latest.Retryable ∧ recoveryAttempts < 64)
    ({ status := { state.status with latest, recoveryAttempts, pending }
       retained := if pending then state.retained else none
       id := if latest.typeId ≠ 0 then latest.typeId else state.id },
      decide (latest.typeId ≠ 0))
  else (state, false)

/-- The part of `CancelTypes` for one type. -/
def cancel (state : TypeState) : TypeState :=
  { state with status := { state.status with pending := false }, retained := none }

/-- The part of the handler in `Register` for one type. -/
def exhaust (state : TypeState) : TypeState :=
  let latest := if state.status.pending then { error := -enomem, failure := .resource }
    else state.status.latest
  { state with status := { state.status with latest } }

end TypeState

/-! ## Entries -/

/-- `ServiceInfo`. -/
structure ServiceInfo where
  registrationId : UInt64 := 0
  name : Vector UInt8 241 := .replicate 241 0
  port : UInt16 := 0
  serviceId : UInt16 := 0
  requestSize : UInt32 := 0
  responseSize : UInt32 := 0
  requestTypeId : UInt64 := 0
  responseTypeId : UInt64 := 0
  diagnosticRequestTypeName : Vector UInt8 160 := .replicate 160 0
  diagnosticResponseTypeName : Vector UInt8 160 := .replicate 160 0
  deriving DecidableEq

/-- The check of the argument of `Register`. -/
def ServiceInfo.Invalid (info : ServiceInfo) : Prop :=
  info.port = 0 ∨ info.requestSize = 0 ∨ info.responseSize = 0 ∨ info.name[0] = 0 ∨
    0 ∉ info.name.toList ∨ 0 ∉ info.diagnosticRequestTypeName.toList ∨
    0 ∉ info.diagnosticResponseTypeName.toList
  deriving Decidable

/-- `ServiceRegistrationFailure`. -/
inductive ServiceRegistrationFailure where
  | none | inactive | stopping | invalid | duplicate | capacity | storageCreate | publish | resource
  deriving DecidableEq

/-- `ServiceRegistrationStatus`. -/
structure ServiceRegistrationStatus where
  initialError : Int := 0
  error : Int := 0
  failure : ServiceRegistrationFailure := .none
  recoveryAttempts : Nat := 0
  pending : Bool := false
  recovered : Bool := false
  registrationId : UInt64 := 0
  requestType : ServiceTypeRegistrationStatus := {}
  responseType : ServiceTypeRegistrationStatus := {}
  deriving DecidableEq

/-- `Entry`.  A token of zero marks a free entry. -/
structure Entry where
  token : UInt64 := 0
  info : ServiceInfo := {}
  status : ServiceRegistrationStatus := {}
  request : Option TypeDescriptor := none
  response : Option TypeDescriptor := none
  deriving DecidableEq

namespace Entry

def requestState (e : Entry) : TypeState where
  status := e.status.requestType
  retained := e.request
  id := e.info.requestTypeId

def responseState (e : Entry) : TypeState where
  status := e.status.responseType
  retained := e.response
  id := e.info.responseTypeId

/-- Write both types of an entry back. -/
def setTypes (e : Entry) (request response : TypeState) : Entry where
  token := e.token
  info := { e.info with requestTypeId := request.id, responseTypeId := response.id }
  status := { e.status with requestType := request.status, responseType := response.status }
  request := request.retained
  response := response.retained

/-- `Pending`. -/
def Pending (e : Entry) : Prop :=
  e.status.pending ∨ e.status.requestType.pending ∨ e.status.responseType.pending
  deriving Decidable

/-- `CancelTypes`. -/
def cancelTypes (e : Entry) : Entry := e.setTypes e.requestState.cancel e.responseState.cancel

/-- What `UnregisterService` does to an entry. -/
def clear (id : UInt64) (e : Entry) : Entry := if e.token = id then {} else e

/-- What `Abandon` does to an entry. -/
def abandon (error : Int) (e : Entry) : Entry :=
  if e.token ≠ 0 then
    { e with
      status := { e.status with pending := false, registrationId := 0, error, failure := .publish }
      }.cancelTypes
  else e

def setFailure (failure : ServiceRegistrationFailure) (e : Entry) : Entry :=
  { e with status := { e.status with failure } }

/-- The end of a successful `Commit`. -/
def committed (e : Entry) : Entry :=
  { e with status := { e.status with registrationId := e.token, failure := .none } }

/-- The entry in a round of the worker while the registry is inactive. -/
def deactivate (e : Entry) : Entry :=
  { e with
    status := { e.status with pending := false, error := -eshutdown, failure := .inactive }
    }.cancelTypes

/-- The result of `Commit` in a round of the worker; without a code, `Commit` has thrown. -/
def attempted (code : Option Int) (e : Entry) : Entry :=
  let error := code.getD (-enomem)
  let failure := if code.isNone then .resource else e.status.failure
  let pending := decide
    (error = -eagain ∧ failure = .storageCreate ∧ e.status.recoveryAttempts < 64)
  { e with status := { e.status with error, failure, pending, recovered := error = 0 } }

/-- The entry in a round of the worker after `Commit`. -/
def retried (code : Option Int) (e : Entry) : Entry :=
  let e := e.attempted code
  if ¬e.status.pending ∧ e.status.registrationId = 0 then e.cancelTypes else e

/-- The entry in `Register` after `Commit` has returned. -/
def registered (recover : Bool) (code : Int) (e : Entry) : Entry :=
  { e with
    status := { e.status with
      initialError := code
      error := code
      pending := e.status.pending ||
        decide (recover ∧ code = -eagain ∧ e.status.failure = .storageCreate) } }

/-- The handler of `Register`. -/
def exhausted (e : Entry) : Entry :=
  let e := e.setTypes e.requestState.exhaust.cancel e.responseState.exhaust.cancel
  let e := { e with status := { e.status with pending := false } }
  if e.status.registrationId = 0 then
    { e with
      status := { e.status with
        initialError := -enomem
        error := -enomem
        failure := .resource } }
  else e

end Entry

/-! ## The registry -/

/-- `ServiceRegistrySnapshot`; the list holds the first `service_count` services. -/
structure ServiceRegistrySnapshot where
  protocolVersion : UInt32 := 1
  structSize : UInt32 := 38440
  pid : Int32 := 0
  processStartTicks : UInt64 := 0
  revision : UInt64 := 0
  services : List ServiceInfo := []
  deriving DecidableEq

def ServiceRegistrySnapshot.ids (snapshot : ServiceRegistrySnapshot) : List UInt64 :=
  snapshot.services.map ServiceInfo.registrationId

/-- What is observed of the registry, in the order in which it happens. -/
inductive Mark where
  /-- a snapshot that `TryPublishSnapshot` has accepted -/
  | published (snapshot : ServiceRegistrySnapshot)
  /-- a `Publish` with an error -/
  | failed
  /-- `Commit` has set the registration id of an entry -/
  | committed (token : UInt64)
  /-- `Register` has returned -/
  | returned (token : UInt64)
  /-- `UnregisterService` -/
  | unregistered (token : UInt64)
  /-- `EndServiceRegistry` has emptied the registry -/
  | ended
  deriving DecidableEq

/-- The variables of the registry, and what has been observed of it. -/
structure Registry where
  /-- `getpid()` -/
  process : Int32
  snapshot : ServiceRegistrySnapshot := {}
  /-- whether `storage` is set -/
  storage : Bool := false
  lastId : UInt64 := 0
  entries : List Entry := List.replicate 64 {}
  stopping : Bool := false
  /-- calls of `EndServiceRegistry` that wait for the worker -/
  ending : Nat := 0
  trace : List Mark := []

/-- What the operating system and the type registry answer during one visit of an entry. -/
structure Answers where
  request : TypeAnswer := {}
  response : TypeAnswer := {}
  /-- `TryCreate` of the storage, unless an exception is thrown -/
  create : Option Int := some 0
  /-- `TryPublishSnapshot` -/
  publish : Int := 0
  /-- the worker runs already or can be started -/
  worker : Bool := true

/-- The entry points of `Register`. -/
inductive Registration where
  /-- `RegisterService` -/
  | service
  /-- `RegisterRecoverableService` -/
  | recoverable
  /-- `RegisterTypedService` -/
  | typed (request response : Option TypeDescriptor)

def Registration.recover : Registration → Bool
  | .service => false
  | .recoverable | .typed _ _ => true

/-- The types of a new entry. -/
def Registration.initializeTypes (registration : Registration) (answers : Answers) (e : Entry) :
    Entry :=
  match registration with
  | .service | .recoverable => e
  | .typed request response =>
    e.setTypes (e.requestState.initializeType request e.info.requestSize answers.request)
      (e.responseState.initializeType response e.info.responseSize answers.response)

namespace Registry

/-- `Active`. -/
def Active (r : Registry) : Prop := r.snapshot.pid = r.process ∧ r.snapshot.processStartTicks ≠ 0
  deriving Decidable

def mark (r : Registry) (mark : Mark) : Registry := { r with trace := r.trace ++ [mark] }

def entry (r : Registry) (slot : Nat) : Entry := r.entries[slot]?.getD {}

def update (r : Registry) (slot : Nat) (change : Entry → Entry) : Registry :=
  { r with entries := r.entries.modify slot change }

def setServices (r : Registry) (services : List ServiceInfo) : Registry :=
  { r with snapshot := { r.snapshot with services } }

/-- `Abandon`. -/
def abandon (r : Registry) (error : Int) : Registry :=
  { r.setServices [] with storage := false, entries := r.entries.map (Entry.abandon error) }

/-- `Publish`, with its result. -/
def publish (r : Registry) (answer : Int) : Registry × Int :=
  if r.snapshot.revision = 0xffffffffffffffff then (r.mark .failed, -eoverflow)
  else
    let snapshot := { r.snapshot with revision := r.snapshot.revision + 1 }
    ({ r with snapshot }.mark (if answer = 0 then .published snapshot else .failed), answer)

/-- `Publish` where an error abandons the registry. -/
def announce (r : Registry) (answer : Int) : Registry × Int :=
  let (r, error) := r.publish answer
  if error ≠ 0 then (r.abandon error, error) else (r, 0)

/-- `Commit` with storage. -/
def append (r : Registry) (slot : Nat) (answer : Int) : Registry × Int :=
  let (r, error) := (r.setServices (r.snapshot.services ++ [(r.entry slot).info])).announce answer
  if error ≠ 0 then (r.update slot (Entry.setFailure .publish), error)
  else ((r.update slot Entry.committed).mark (.committed (r.entry slot).token), 0)

/-- `Commit`, with its result unless it throws. -/
def commit (r : Registry) (slot : Nat) (answers : Answers) : Registry × Option Int :=
  if r.storage then
    let (r, error) := r.append slot answers.publish
    (r, some error)
  else
    match answers.create with
    | none => (r, none)
    | some error =>
      if error ≠ 0 then (r.update slot (Entry.setFailure .storageCreate), some error)
      else
        let (r, error) := { r with storage := true }.append slot answers.publish
        (r, some error)

/-- `Recover` for an entry that is not in the snapshot yet. -/
def retry (r : Registry) (slot : Nat) (answers : Answers) : Registry :=
  let r := r.update slot fun e =>
    { e with status := { e.status with recoveryAttempts := e.status.recoveryAttempts + 1 } }
  let (r, code) := r.commit slot answers
  r.update slot (Entry.retried code)

/-- `Recover` for an entry of the snapshot whose types have become known. -/
def republish (r : Registry) (slot : Nat) (answers : Answers) : Registry :=
  let e := r.entry slot
  match r.snapshot.services.findIdx? fun info => info.registrationId = e.token with
  | none => r.update slot Entry.cancelTypes
  | some index =>
    ((r.setServices (r.snapshot.services.set index e.info)).announce answers.publish).1

/-- `Recover` for one entry. -/
def recoverEntry (r : Registry) (slot : Nat) (answers : Answers) : Registry :=
  let e := r.entry slot
  if ¬e.Pending then r
  else if ¬r.Active then r.update slot Entry.deactivate
  else
    let request := e.requestState.recoverType answers.request
    let response := e.responseState.recoverType answers.response
    let r := r.update slot fun e => e.setTypes request.1 response.1
    if e.status.pending then r.retry slot answers
    else if (request.2 ∨ response.2) ∧ e.status.registrationId ≠ 0 then r.republish slot answers
    else r

/-- A round of `Recover`. -/
def recover (r : Registry) (answers : Nat → Answers) : Registry :=
  (List.range r.entries.length).foldl (fun r slot => r.recoverEntry slot (answers slot)) r

/-- `Register` with a free entry; the worker has to run for what is pending. -/
def enter (r : Registry) (slot : Nat) (info : ServiceInfo) (registration : Registration)
    (answers : Answers) : Registry :=
  let token := r.lastId + 1
  let e := registration.initializeTypes answers
    { token, info := { info with registrationId := token } }
  let r := { r with lastId := token }.update slot fun _ => e
  match r.commit slot answers with
  | (r, none) => r.update slot Entry.exhausted
  | (r, some code) =>
    let r := r.update slot (Entry.registered registration.recover code)
    let e := r.entry slot
    if (e.status.error = 0 ∨ e.status.pending) ∧ e.Pending ∧ ¬answers.worker then
      r.update slot Entry.exhausted
    else r

/-- The end of `Register`: an entry without a result is cleared. -/
def leave (r : Registry) (slot : Nat) : Registry × UInt64 × ServiceRegistrationStatus :=
  let e := r.entry slot
  if e.status.error ≠ 0 ∧ ¬e.status.pending then (r.update slot fun _ => {}, 0, e.status)
  else (r, e.token, e.status)

/-- `Register`, with the token and the status it returns. -/
def register (r : Registry) (info : ServiceInfo) (registration : Registration)
    (answers : Answers) : Registry × UInt64 × ServiceRegistrationStatus :=
  let fail (error : Int) (failure : ServiceRegistrationFailure) :=
    (r, (0 : UInt64), ({ initialError := error, error, failure } : ServiceRegistrationStatus))
  if r.stopping then fail (-eshutdown) .stopping
  else if ¬r.Active then fail (-enodev) .inactive
  else if info.Invalid then fail (-einval) .invalid
  else if ∃ e ∈ r.entries, e.token ≠ 0 ∧ e.info.port = info.port ∧ e.info.serviceId = info.serviceId
    then fail (-eexist) .duplicate
  else
    match r.entries.findIdx? fun e => e.token = 0 with
    | none => fail (-enospc) .capacity
    | some slot =>
      if r.lastId = 0xffffffffffffffff then fail (-enospc) .capacity
      else (r.enter slot info registration answers).leave slot

/-- `UnregisterService`. -/
def unregister (r : Registry) (id : UInt64) (answers : Answers) : Registry :=
  if id = 0 then r
  else
    let r := { r with entries := r.entries.map (Entry.clear id) }.mark (.unregistered id)
    if ¬r.Active ∨ ¬r.storage then r
    else
      match r.snapshot.services.findIdx? fun info => info.registrationId = id with
      | none => r
      | some index =>
        ((r.setServices (swapRemove r.snapshot.services index)).announce answers.publish).1

/-- `BeginServiceRegistry`. -/
def begin (r : Registry) (pid : Int32) (ticks : UInt64) : Registry :=
  if r.Active then r
  else { r with snapshot := { pid, processStartTicks := ticks }, stopping := false }

/-- The first part of `EndServiceRegistry`. -/
def stop (r : Registry) : Registry := { r with stopping := true, ending := r.ending + 1 }

/-- The second part of `EndServiceRegistry`, after the worker has ended. -/
def finish (r : Registry) : Registry :=
  { r.abandon (-eshutdown) with
    snapshot := {}
    entries := List.replicate 64 {}
    ending := r.ending - 1 }.mark .ended

end Registry

/-! ## Runs -/

inductive RegistryEvent where
  | begin (pid : Int32) (ticks : UInt64)
  | register (info : ServiceInfo) (registration : Registration) (answers : Answers)
  | unregister (id : UInt64) (answers : Answers)
  | recover (answers : Nat → Answers)
  | stop
  | finish

namespace Registry

def handle (r : Registry) : RegistryEvent → Registry
  | .begin pid ticks => r.begin pid ticks
  | .register info registration answers =>
    let result := r.register info registration answers
    result.1.mark (.returned result.2.1)
  | .unregister id answers => r.unregister id answers
  | .recover answers => r.recover answers
  | .stop => r.stop
  | .finish => r.finish

/-- The worker makes no round once the registry is stopping, and the second part of
`EndServiceRegistry` follows a first one. -/
def Enabled (r : Registry) : RegistryEvent → Prop
  | .recover _ => r.stopping = false
  | .finish => r.ending ≠ 0
  | _ => True

end Registry

/-- The registry of a process under every order of calls and rounds and every answer. -/
def serviceRegistry : System Registry RegistryEvent where
  initial r := r = { process := r.process }
  step r event next := r.Enabled event ∧ next = r.handle event

end Kcf.Introspection
