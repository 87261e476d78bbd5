import Kcf.Network.Compatibility

/-!
# Control frames

The messages that gateways and control clients exchange over TCP, and which of
them are well formed.
-/

namespace Kcf.Network

open Kcf.Wire

inductive ActionState where
  | idle | accepted | running | succeeded | failed | canceled
  deriving DecidableEq

/-- `IsActionTerminal`. -/
def ActionState.IsTerminal : ActionState → Bool
  | .succeeded | .failed | .canceled => true
  | .idle | .accepted | .running => false

/-- Which type of an endpoint a descriptor query asks for. -/
inductive DescriptorRole where
  | none | value | request | response | feedback
  deriving DecidableEq

structure RemoteGoalIdentity where
  source : RemoteRuntimeIdentity := {}
  goalId : UInt64 := 0
  sessionId : UInt64 := 0
  deriving DecidableEq

/-- `MAX_PARAMETER_WIRE`. -/
def maxParameterWire : Nat := 16384

/-- A type whose values fit in a control frame. -/
def TypeIdentity.Fits (type : TypeIdentity) : Prop :=
  type.Valid ∧ type.payloadSize.toNat ≤ maxParameterWire
  deriving Decidable

namespace Control

/-- `MAX_NETWORK_DIAGNOSTICS_PAYLOAD`. -/
def maxDiagnosticsPayload : Nat := 16 * 1024

/-- `ControlMessage`. -/
inductive Message where
  | hello
  | paramGetRequest | paramGetResponse | paramSetRequest | paramSetResponse
  | serviceRequest | serviceResponse
  | actionGoalRequest | actionGoalResponse | actionFeedback | actionResult
  | actionCancelRequest | actionCancelResponse
  | diagnosticsRequest | diagnosticsResponse
  | descriptorRequest | descriptorResponse
  deriving DecidableEq

namespace Message

/-- `IsActionMessage`. -/
def IsAction : Message → Bool
  | .actionGoalRequest | .actionGoalResponse | .actionFeedback | .actionResult
  | .actionCancelRequest | .actionCancelResponse => true
  | _ => false

/-- `IsDescriptorMessage`. -/
def IsDescriptor : Message → Bool
  | .descriptorRequest | .descriptorResponse => true
  | _ => false

/-- Service and Action messages also carry the type of the response. -/
def HasResponseType : Message → Bool
  | .serviceRequest | .serviceResponse => true
  | message => message.IsAction

/-- `Request`. -/
def IsRequest : Message → Bool
  | .descriptorRequest | .paramGetRequest | .paramSetRequest | .serviceRequest
  | .actionGoalRequest | .actionCancelRequest => true
  | _ => false

/-- `ResponseOperation`. -/
def response : Message → Message
  | .descriptorRequest => .descriptorResponse
  | .actionGoalRequest => .actionGoalResponse
  | .actionCancelRequest => .actionCancelResponse
  | .serviceRequest => .serviceResponse
  | .paramGetRequest => .paramGetResponse
  | _ => .paramSetResponse

end Message

/-- `ControlFrame`. -/
structure Frame where
  operation : Message := .hello
  source : RemoteRuntimeIdentity := {}
  sessionId : UInt64 := 0
  requestId : UInt64 := 0
  endpoint : RemoteEndpointIdentity := {}
  target : TargetScope := .endpoint
  name : Bytes := []
  type : TypeIdentity := {}
  responseType : TypeIdentity := {}
  feedbackType : TypeIdentity := {}
  goal : RemoteGoalIdentity := {}
  actionState : ActionState := .idle
  outcomeUnknown : Bool := false
  feedbackSequence : UInt64 := 0
  timeoutMs : UInt32 := 0
  status : Int32 := 0
  reason : CompatibilityReason := .compatible
  payload : Bytes := []
  descriptorRole : DescriptorRole := .none
  deriving DecidableEq

/-- The two payloads that have codecs of their own: which byte strings decode to
a descriptor of a type, and which gateway (host, boot, session) a diagnostics
snapshot names. -/
structure PayloadCodec where
  descriptor : Bytes → TypeIdentity → Bool
  diagnostics : Bytes → Option (HostIdentity × HostIdentity × UInt64)

namespace Frame

variable (codec : PayloadCodec) (f : Frame)

/-- An operation on one endpoint. -/
def Addressed : Prop := f.endpoint.Valid ∧ Text f.name 240 ∧ f.name.head? = some 47 ∧ f.type.Fits
  deriving Decidable

/-- Timeout, status and reason of a request. -/
def Asks : Prop := 0 < f.timeoutMs ∧ f.timeoutMs ≤ 60000 ∧ f.status = 0 ∧ f.reason = .compatible
  deriving Decidable

/-- Timeout and status of a response. -/
def Answers : Prop := f.timeoutMs = 0 ∧ ¬0 < f.status
  deriving Decidable

/-- A Parameter or Service request with a payload of this size. -/
def RequestValid (size : Nat) : Prop :=
  f.descriptorRole = .none ∧ f.requestId ≠ 0 ∧ f.Addressed ∧ f.Asks ∧ f.payload.length = size
  deriving Decidable

/-- A Parameter or Service response; only a successful one carries a payload. -/
def ResponseValid (size : Nat) : Prop :=
  f.descriptorRole = .none ∧ f.requestId ≠ 0 ∧ f.Addressed ∧ f.Answers ∧
    if f.status ≠ 0 then f.payload = []
    else f.reason = .compatible ∧ f.payload.length = size
  deriving Decidable

/-- What all Action messages share. -/
def GoalValid : Prop :=
  f.descriptorRole = .none ∧ f.Addressed ∧ f.goal.source.Valid ∧ f.goal.goalId ≠ 0 ∧
    f.goal.sessionId ≠ 0 ∧ f.feedbackType.Fits ∧
    (f.outcomeUnknown → f.status ≠ 0 ∧
      (f.operation = .actionGoalResponse ∨ f.operation = .actionCancelResponse))
  deriving Decidable

/-- An Action request with a payload of this size, for a goal of its own source. -/
def ActionRequestValid (size : Nat) : Prop :=
  f.GoalValid ∧ f.requestId ≠ 0 ∧ f.goal.source = f.source ∧ f.goal.sessionId = f.sessionId ∧
    f.Asks ∧ f.actionState = .idle ∧ f.feedbackSequence = 0 ∧ f.payload.length = size
  deriving Decidable

/-- The acknowledgement of an Action request. -/
def ActionResponseValid : Prop :=
  f.GoalValid ∧ f.requestId ≠ 0 ∧ f.Answers ∧ f.payload = [] ∧ f.feedbackSequence = 0 ∧
    f.actionState = if f.status ≠ 0 then .idle else .accepted
  deriving Decidable

/-- What all descriptor messages share. -/
def DescriptorValid : Prop :=
  f.descriptorRole ≠ .none ∧ f.requestId ≠ 0 ∧ f.target = .endpoint ∧ f.Addressed
  deriving Decidable

/-- What all diagnostics messages share. -/
def DiagnosticsValid : Prop :=
  f.descriptorRole = .none ∧ f.requestId ≠ 0 ∧ f.endpoint = {} ∧ f.name = [] ∧ f.type = {} ∧
    f.target = .host ∧ f.payload.length ≤ maxDiagnosticsPayload
  deriving Decidable

/-- What `ValidFrame` asks of the fields of one message. -/
def BodyValid : Message → Prop
  | .hello => f.descriptorRole = .none ∧ f.requestId = 0 ∧ f.endpoint = {} ∧ f.name = [] ∧
      f.type = {} ∧ f.timeoutMs = 0 ∧ f.status = 0 ∧ f.payload = [] ∧ f.target = .endpoint ∧
      f.reason = .compatible
  | .paramGetRequest => f.RequestValid 0
  | .paramGetResponse => f.ResponseValid f.type.payloadSize.toNat
  | .paramSetRequest => f.RequestValid f.type.payloadSize.toNat
  | .paramSetResponse => f.ResponseValid 0
  | .serviceRequest => f.RequestValid f.type.payloadSize.toNat
  | .serviceResponse => f.ResponseValid f.responseType.payloadSize.toNat
  | .actionGoalRequest => f.ActionRequestValid f.type.payloadSize.toNat
  | .actionGoalResponse => f.ActionResponseValid
  | .actionFeedback => f.GoalValid ∧ f.requestId = 0 ∧ f.timeoutMs = 0 ∧ f.status = 0 ∧
      f.reason = .compatible ∧ f.feedbackSequence ≠ 0 ∧ f.actionState = .running ∧
      f.payload.length = f.feedbackType.payloadSize.toNat
  | .actionResult => f.GoalValid ∧ f.requestId = 0 ∧ f.Answers ∧
      f.actionState.IsTerminal = true ∧
      if f.status ≠ 0 then f.payload = []
      else f.payload.length = f.responseType.payloadSize.toNat
  | .actionCancelRequest => f.ActionRequestValid 0
  | .actionCancelResponse => f.ActionResponseValid
  | .diagnosticsRequest => f.DiagnosticsValid ∧ f.Asks ∧ f.payload = []
  | .diagnosticsResponse => f.DiagnosticsValid ∧ f.Answers ∧
      if f.status ≠ 0 then f.payload = []
      else f.reason = .compatible ∧
        codec.diagnostics f.payload = some (f.source.host, f.source.bootId, f.sessionId)
  | .descriptorRequest => f.DescriptorValid ∧ f.Asks ∧ f.payload = []
  | .descriptorResponse => f.DescriptorValid ∧ f.Answers ∧ f.reason = .compatible ∧
      if f.status ≠ 0 then f.payload = [] else codec.descriptor f.payload f.type = true

instance : (message : Message) → Decidable (f.BodyValid codec message)
  | .hello | .actionFeedback | .actionResult | .diagnosticsRequest | .diagnosticsResponse
  | .descriptorRequest | .descriptorResponse => inferInstanceAs (Decidable (_ ∧ _))
  | .paramGetRequest | .paramSetRequest | .serviceRequest =>
    inferInstanceAs (Decidable (f.RequestValid _))
  | .paramGetResponse | .paramSetResponse | .serviceResponse =>
    inferInstanceAs (Decidable (f.ResponseValid _))
  | .actionGoalRequest | .actionCancelRequest =>
    inferInstanceAs (Decidable (f.ActionRequestValid _))
  | .actionGoalResponse | .actionCancelResponse => inferInstanceAs (Decidable f.ActionResponseValid)

/-- The fields that only Service and Action messages carry are absent elsewhere. -/
def ExtensionsValid : Prop :=
  (if f.operation.HasResponseType then f.responseType.Fits else f.responseType = {}) ∧
    (f.operation.IsAction = false → f.feedbackType = {} ∧ f.goal = {} ∧ f.actionState = .idle ∧
      f.feedbackSequence = 0 ∧ f.outcomeUnknown = false)
  deriving Decidable

/-- `ValidFrame`.  Scopes, reasons, roles and states outside their enumeration
cannot be built here; the decoder refuses their codes. -/
def Valid : Prop :=
  f.source.Valid ∧ f.sessionId ≠ 0 ∧ f.payload.length ≤ maxParameterWire ∧ f.ExtensionsValid ∧
    f.BodyValid codec f.operation
  deriving Decidable

end Frame

end Control

end Kcf.Network
