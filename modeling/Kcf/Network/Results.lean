import Kcf.Network.Validation
import Mathlib.Data.List.Nodup
import Mathlib.Data.List.Perm.Subperm

/-!
# Requests to several endpoints and their results

A request is sent to every selected endpoint; its result is valid when the
results and the selection belong together one to one.
-/

namespace Kcf.Network

open List

open Kcf.Wire

inductive ControlOperation where
  | paramGet | paramSet | serviceRequest | serviceResponse
  | actionGoal | actionFeedback | actionResult | actionCancel
  deriving DecidableEq

structure ActionGoalIdentity where
  source : RemoteRuntimeIdentity := {}
  requestId : UInt64 := 0
  deriving DecidableEq

structure RemoteRequest where
  protocolVersion : UInt16 := Network.protocolVersion
  source : RemoteRuntimeIdentity := {}
  requestId : UInt64 := 0
  operation : ControlOperation := .paramGet
  target : RemoteTarget := {}
  goal : ActionGoalIdentity := {}
  endpointName : Bytes := []
  timeoutMs : UInt32 := 0
  payloadType : TypeIdentity := {}
  responseType : TypeIdentity := {}
  payload : Bytes := []

inductive RemoteStatus where
  | pending | success | timeout | disconnected | lost | rejected | remoteError
  deriving DecidableEq

structure RemoteEndpointResult where
  source : RemoteRuntimeIdentity := {}
  requestId : UInt64 := 0
  endpoint : RemoteEndpointIdentity := {}
  status : RemoteStatus := .pending
  error : Int32 := 0
  payloadType : TypeIdentity := {}
  payload : Bytes := []

/-- `MatchesTarget`. -/
def matchesTarget (target : RemoteTarget) (endpoint : NetworkEndpointMetadata) : Bool :=
  if ¬target.Valid ∨ ¬endpoint.Valid ∨ endpoint.scope ≠ .remote ∨ endpoint.role ≠ .provider ∨
      endpoint.kind = .topic then false
  else
    match target.scope with
    | .endpoint => target.endpoint = endpoint.identity
    | .host => target.host = endpoint.identity.runtime.host
    | .application => target.application = endpoint.application
    | .group => endpoint.groups.contains target.group
    | .all => true

/-- `Payload`. -/
def Payload (type : TypeIdentity) (bytes : Bytes) : Prop :=
  type.Valid ∧ bytes.length = type.payloadSize.toNat
  deriving Decidable

namespace RemoteRequest

/-- The goal is named by exactly the two operations that refer to one. -/
def GoalValid (request : RemoteRequest) : Prop :=
  if request.operation = .actionResult ∨ request.operation = .actionCancel then
    request.goal.source.Valid ∧ request.goal.requestId ≠ 0
  else request.goal = {}
  deriving Decidable

/-- `Valid(RemoteRequest)`. -/
def valid (request : RemoteRequest) : Bool :=
  if request.protocolVersion ≠ Network.protocolVersion ∨ ¬request.source.Valid ∨
      request.requestId = 0 ∨ ¬request.target.Valid ∨ ¬Text request.endpointName 240 ∨
      request.endpointName.head? ≠ some 47 ∨ request.timeoutMs = 0 ∨ ¬request.GoalValid then false
  else
    let noPayload := request.payload = [] ∧ request.payloadType = {}
    match request.operation with
    | .paramGet | .actionResult => noPayload ∧ request.responseType.Valid
    | .paramSet => Payload request.payloadType request.payload ∧ request.responseType = {}
    | .serviceRequest | .actionGoal =>
      Payload request.payloadType request.payload ∧ request.responseType.Valid
    | .actionCancel => noPayload ∧ request.responseType = {}
    | .serviceResponse | .actionFeedback => false

end RemoteRequest

/-- `MatchesRequest`. -/
def matchesRequest (request : RemoteRequest) (endpoint : NetworkEndpointMetadata) : Bool :=
  if ¬request.valid ∨ ¬matchesTarget request.target endpoint ∨
      request.endpointName ≠ endpoint.name then false
  else
    match request.operation with
    | .paramGet => endpoint.kind = .parameter ∧ request.responseType = endpoint.valueType
    | .paramSet => endpoint.kind = .parameter ∧ request.payloadType = endpoint.valueType
    | .serviceRequest => endpoint.kind = .service ∧
        request.payloadType = endpoint.requestType ∧ request.responseType = endpoint.responseType
    | .actionGoal => endpoint.kind = .action ∧
        request.payloadType = endpoint.requestType ∧ request.responseType = endpoint.responseType
    | .actionResult => endpoint.kind = .action ∧ request.responseType = endpoint.responseType
    | .actionCancel => endpoint.kind = .action
    | .serviceResponse | .actionFeedback => false

/-- `Valid(RemoteEndpointResult, RemoteRequest)`. -/
def RemoteEndpointResult.valid (result : RemoteEndpointResult) (request : RemoteRequest) : Bool :=
  if ¬request.valid ∨ ¬result.endpoint.Valid ∨ result.source ≠ request.source ∨
      result.requestId ≠ request.requestId then false
  else if result.status = .success then
    result.error = 0 ∧ result.payloadType = request.responseType ∧
      if request.responseType = {} then result.payload = []
      else Payload result.payloadType result.payload
  else if result.payloadType ≠ {} ∨ result.payload ≠ [] then false
  else
    match result.status with
    | .pending | .timeout | .disconnected | .lost => result.error = 0
    | .rejected | .remoteError => result.error ≠ 0
    | .success => false

section Results

variable (request : RemoteRequest)

/-- The loop over the results of one selected endpoint: how many there are, unless
one of them is not valid. -/
def countResults (endpoint : RemoteEndpointIdentity) (found : Nat) :
    List RemoteEndpointResult → Option Nat
  | [] => some found
  | result :: results =>
    if result.endpoint = endpoint then
      if result.valid request then countResults endpoint (found + 1) results else none
    else countResults endpoint found results

/-- The loop over the selection, behind the endpoints `earlier`. -/
def checkSelected (results : List RemoteEndpointResult) (earlier : List RemoteEndpointIdentity) :
    List NetworkEndpointMetadata → Bool
  | [] => true
  | endpoint :: selected =>
    matchesRequest request endpoint && endpoint.identity ∉ earlier &&
      countResults request endpoint.identity 0 results = some 1 &&
      checkSelected results (earlier ++ [endpoint.identity]) selected

/-- `Valid(RemoteRequestResult, RemoteRequest, selected)`. -/
def validResults (results : List RemoteEndpointResult) (selected : List NetworkEndpointMetadata) :
    Bool :=
  if ¬request.valid ∨ selected = [] ∨ results.length ≠ selected.length then false
  else checkSelected request results [] selected

variable {request} {results : List RemoteEndpointResult}

theorem countResults_eq_some {endpoint : RemoteEndpointIdentity} {found count : Nat} :
    countResults request endpoint found results = some count ↔
      (∀ result ∈ results, result.endpoint = endpoint → result.valid request) ∧
        found + (results.map (·.endpoint)).count endpoint = count := by
  induction results generalizing found with
  | nil => simp [countResults]
  | cons result results ih =>
    rw [countResults]
    split_ifs with same valid
    · simp [ih, same, valid, Nat.add_assoc, Nat.add_comm 1]
    · simp [same, valid]
    · simp [ih, same, count_cons_of_ne]

/-- The whole loop: what it asks of each endpoint, and that none appears twice. -/
theorem checkSelected_iff {earlier : List RemoteEndpointIdentity}
    {selected : List NetworkEndpointMetadata} :
    checkSelected request results earlier selected ↔
      (∀ endpoint ∈ selected, matchesRequest request endpoint ∧ endpoint.identity ∉ earlier ∧
        (∀ result ∈ results, result.endpoint = endpoint.identity → result.valid request) ∧
        (results.map (·.endpoint)).count endpoint.identity = 1) ∧
      (selected.map (·.identity)).Nodup := by
  induction selected generalizing earlier with
  | nil => simp [checkSelected]
  | cons endpoint selected ih =>
    simp only [checkSelected, Bool.and_eq_true, decide_eq_true_eq, countResults_eq_some, ih,
      forall_mem_cons, map_cons, nodup_cons, mem_append, mem_singleton,
      mem_map, Nat.zero_add]
    grind

end Results

/-- A result is valid exactly when it answers each selected endpoint once and nothing else. -/
theorem results_answer_selection (request : RemoteRequest) (results : List RemoteEndpointResult)
    (selected : List NetworkEndpointMetadata) :
    validResults request results selected ↔
      request.valid ∧ selected ≠ [] ∧ (selected.map (·.identity)).Nodup ∧
        (∀ endpoint ∈ selected, matchesRequest request endpoint) ∧
        (results.map (·.endpoint)).Perm (selected.map (·.identity)) ∧
        ∀ result ∈ results, result.valid request := by
  rw [validResults]
  split_ifs with refused
  · -- The lengths agree under a one-to-one correspondence.
    refine iff_of_false not_false fun ⟨valid, chosen, _, _, paired, _⟩ => ?_
    have length := paired.length_eq
    simp_all
  · simp only [not_or, not_not, ne_eq] at refused
    obtain ⟨valid, chosen, length⟩ := refused
    rw [checkSelected_iff]
    constructor
    · rintro ⟨each, distinct⟩
      -- Every selected identity is among the results and there is room for no other.
      have covered : selected.map (·.identity) ⊆ results.map (·.endpoint) := by
        intro identity member
        obtain ⟨endpoint, inside, rfl⟩ := mem_map.mp member
        exact count_pos_iff.mp (by simp [(each endpoint inside).2.2.2])
      have paired := (subperm_of_subset distinct covered).perm_of_length_le (by simp [length])
      refine ⟨valid, chosen, distinct, fun endpoint inside => (each endpoint inside).1, paired.symm,
        fun result inside => ?_⟩
      obtain ⟨endpoint, selects, same⟩ :=
        mem_map.mp (paired.mem_iff.mpr (mem_map_of_mem inside))
      exact (each endpoint selects).2.2.1 result inside same.symm
    · rintro ⟨_, _, distinct, fits, paired, sound⟩
      refine ⟨fun endpoint inside => ⟨fits endpoint inside, not_mem_nil,
        fun result member _ => sound result member, ?_⟩, distinct⟩
      rw [paired.count_eq, count_eq_one_of_mem distinct (mem_map_of_mem inside)]

end Kcf.Network
