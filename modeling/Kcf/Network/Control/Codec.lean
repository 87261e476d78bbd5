import Kcf.Network.Control.Frame
import Kcf.Network.Fields

/-!
# The control frame codec

`EncodeControlFrame`, `ControlFrameSize` and `DecodeControlFrame`, with the proof
that the decoder reads back exactly the frames the encoder accepts and that a
frame announces its own length.
-/

namespace Kcf.Network

open Kcf.Wire List Errno

/-! ## Codes -/

def TargetScope.code : TargetScope → UInt8
  | .endpoint => 1
  | .host => 2
  | .application => 3
  | .group => 4
  | .all => 5

def TargetScope.ofCode (code : UInt8) : Option TargetScope :=
  [TargetScope.endpoint, .host, .application, .group, .all].find? fun scope => scope.code = code

theorem TargetScope.ofCode_code (scope : TargetScope) :
    TargetScope.ofCode scope.code = some scope := by
  cases scope <;> rfl

/-- The reasons in the order of their codes. -/
def CompatibilityReason.all : List CompatibilityReason :=
  [.compatible, .invalidProfile, .invalidPolicy, .networkMajorMismatch,
    .frameworkVersionMismatch, .capabilityMissing, .invalidEndpoint, .semanticMismatch,
    .typeMismatch, .localOnly, .hostMismatch, .peerLost, .metadataUnavailable, .unknownEndpoint]

def CompatibilityReason.code (reason : CompatibilityReason) : UInt8 :=
  UInt8.ofNat (CompatibilityReason.all.idxOf reason)

def CompatibilityReason.ofCode (code : UInt8) : Option CompatibilityReason :=
  CompatibilityReason.all[code.toNat]?

theorem CompatibilityReason.ofCode_code (reason : CompatibilityReason) :
    CompatibilityReason.ofCode reason.code = some reason := by
  cases reason <;> rfl

/-- The states in the order of their codes. -/
def ActionState.all : List ActionState :=
  [.idle, .accepted, .running, .succeeded, .failed, .canceled]

def ActionState.code (state : ActionState) : UInt8 := UInt8.ofNat (ActionState.all.idxOf state)

def ActionState.ofCode (code : UInt8) : Option ActionState := ActionState.all[code.toNat]?

theorem ActionState.ofCode_code (state : ActionState) :
    ActionState.ofCode state.code = some state := by
  cases state <;> rfl

/-- The roles in the order of their codes. -/
def DescriptorRole.all : List DescriptorRole := [.none, .value, .request, .response, .feedback]

def DescriptorRole.code (role : DescriptorRole) : UInt8 :=
  UInt8.ofNat (DescriptorRole.all.idxOf role)

def DescriptorRole.ofCode (code : UInt8) : Option DescriptorRole := DescriptorRole.all[code.toNat]?

theorem DescriptorRole.ofCode_code (role : DescriptorRole) :
    DescriptorRole.ofCode role.code = some role := by
  cases role <;> rfl

namespace Control

def magic : UInt32 := 0x4b434643
def wireVersion : UInt16 := 1

/-- `CONTROL_PREFIX_SIZE`. -/
def prefixSize : Nat := 16

/-- Bytes of a frame without extensions, name and payload. -/
def headerSize : Nat := 172

/-- `MAX_CONTROL_FRAME`. -/
def maxFrame : Nat := maxParameterWire + 1024

def Message.code : Message → UInt16
  | .hello => 1
  | .paramGetRequest => 2
  | .paramGetResponse => 3
  | .paramSetRequest => 4
  | .paramSetResponse => 5
  | .serviceRequest => 6
  | .serviceResponse => 7
  | .actionGoalRequest => 8
  | .actionGoalResponse => 9
  | .actionFeedback => 10
  | .actionResult => 11
  | .actionCancelRequest => 12
  | .actionCancelResponse => 13
  | .diagnosticsRequest => 14
  | .diagnosticsResponse => 15
  | .descriptorRequest => 16
  | .descriptorResponse => 17

def Message.all : List Message :=
  [.hello, .paramGetRequest, .paramGetResponse, .paramSetRequest, .paramSetResponse,
    .serviceRequest, .serviceResponse, .actionGoalRequest, .actionGoalResponse, .actionFeedback,
    .actionResult, .actionCancelRequest, .actionCancelResponse, .diagnosticsRequest,
    .diagnosticsResponse, .descriptorRequest, .descriptorResponse]

def Message.ofCode (code : UInt16) : Option Message :=
  Message.all.find? fun message => message.code = code

theorem Message.ofCode_code (message : Message) : Message.ofCode message.code = some message := by
  cases message <;> rfl

/-! ## Encoding -/

/-- Bytes of the extensions of a message. -/
def Message.extensionSize (message : Message) : Nat :=
  (if message = .serviceRequest ∨ message = .serviceResponse then 24 else 0) +
    (if message.IsAction then 120 else 0) + if message.IsDescriptor then 4 else 0

/-- The length that a frame announces. -/
def Frame.size (f : Frame) : Nat :=
  headerSize + f.operation.extensionSize + f.name.length + f.payload.length

/-- The first 16 bytes. -/
def Frame.prefixBytes (f : Frame) : Bytes :=
  Writer.u32 magic ++ Writer.u16 wireVersion ++ Writer.u16 f.operation.code ++
    Writer.number f.size 4 ++ Writer.number 0 4

/-- The fields that every frame carries behind its first 16 bytes. -/
def Frame.commonBytes (f : Frame) : Bytes :=
  Writer.runtime f.source ++ Writer.u64 f.sessionId ++ Writer.u64 f.requestId ++
    Writer.runtime f.endpoint.runtime ++ Writer.u64 f.endpoint.registrationId ++
    Writer.u8 f.target.code ++ Writer.u8 f.reason.code ++
    Writer.number 0 2 ++ Writer.type f.type ++ Writer.u32 f.timeoutMs ++
    Writer.u32 f.status.toUInt32 ++ Writer.number f.name.length 2 ++ Writer.number 0 2 ++
    Writer.number f.payload.length 4

/-- The extension of Action messages. -/
def Frame.goalBytes (f : Frame) : Bytes :=
  Writer.type f.feedbackType ++ Writer.runtime f.goal.source ++ Writer.u64 f.goal.goalId ++
    Writer.u64 f.goal.sessionId ++ Writer.u8 f.actionState.code ++
    Writer.flag f.outcomeUnknown ++ Writer.number 0 2 ++
    Writer.u64 f.feedbackSequence

/-- The frame behind its first 16 bytes. -/
def Frame.bodyBytes (f : Frame) : Bytes :=
  f.commonBytes ++
    ((if f.operation.HasResponseType then Writer.type f.responseType else []) ++
      ((if f.operation.IsAction then f.goalBytes else []) ++
        ((if f.operation.IsDescriptor then
            Writer.u8 f.descriptorRole.code ++ Writer.number 0 3
          else []) ++ (f.name ++ f.payload))))

/-- The bytes of a frame, whether it is valid or not. -/
def Frame.bytes (f : Frame) : Bytes := f.prefixBytes ++ f.bodyBytes

/-- `EncodeControlFrame`. -/
def encodeFrame (codec : PayloadCodec) (f : Frame) : Except Int Bytes :=
  if f.Valid codec then .ok f.bytes else .error (-einval)

/-! ## Decoding -/

/-- The fields that `ControlFrameSize` reads; the result is the announced length. -/
def readPrefix : Reader Nat := do
  let tag ← Reader.u32
  Decoder.require (-eproto) (tag = magic)
  let release ← Reader.u16
  Decoder.require (-eprotonosupport) (release = wireVersion)
  let code ← Reader.u16
  Decoder.require (-eproto) (1 ≤ code ∧ code ≤ 17)
  let length ← Reader.number 4
  Decoder.require (-emsgsize) (headerSize ≤ length ∧ length ≤ maxFrame)
  Decoder.require (-emsgsize)
    (code = Message.diagnosticsRequest.code → length = headerSize)
  Decoder.require (-emsgsize)
    (code = Message.diagnosticsResponse.code → length ≤ headerSize + maxDiagnosticsPayload)
  Reader.reserved 4
  pure length

/-- `ControlFrameSize`. -/
def frameSize (bytes : Bytes) : Except Int Nat :=
  if bytes.length < prefixSize then .error (-eagain)
  else
    match readPrefix bytes with
    | .ok (length, _) => .ok length
    | .error error => .error error

/-- What the extension of Action messages holds. -/
structure GoalFields where
  feedbackType : TypeIdentity := {}
  goal : RemoteGoalIdentity := {}
  actionState : ActionState := .idle
  outcomeUnknown : Bool := false
  feedbackSequence : UInt64 := 0

def readGoal : Reader GoalFields := do
  let feedbackType ← Reader.type
  let source ← Reader.runtime
  let goalId ← Reader.u64
  let sessionId ← Reader.u64
  let actionState ← Reader.code ActionState.ofCode
  let outcomeUnknown ← Reader.flag
  Reader.reserved 2
  let feedbackSequence ← Reader.u64
  pure ⟨feedbackType, ⟨source, goalId, sessionId⟩, actionState, outcomeUnknown, feedbackSequence⟩

def readRole : Reader DescriptorRole := do
  let role ← Reader.code DescriptorRole.ofCode
  Reader.reserved 3
  pure role

/-- A frame from its operation on, to the end of the bytes. -/
def readFrame : Reader Frame := do
  let code ← Reader.u16
  let operation ← Decoder.accept (-eproto) (Message.ofCode code)
  -- the length and the reserved word, which `ControlFrameSize` has checked
  let _ ← Reader.number 8
  let source ← Reader.runtime
  let sessionId ← Reader.u64
  let requestId ← Reader.u64
  let runtime ← Reader.runtime
  let registrationId ← Reader.u64
  let target ← Reader.code TargetScope.ofCode
  let reason ← Reader.code CompatibilityReason.ofCode
  Reader.reserved 2
  let type ← Reader.type
  let timeoutMs ← Reader.u32
  let status ← Reader.u32
  let names ← Reader.number 2
  Reader.reserved 2
  let payloads ← Reader.number 4
  let responseType ← Reader.optional operation.HasResponseType Reader.type {}
  let goal ← Reader.optional operation.IsAction readGoal {}
  let descriptorRole ← Reader.optional operation.IsDescriptor readRole .none
  let left ← Decoder.left
  Decoder.require (-eproto)
    (names ≤ 240 ∧ payloads ≤ maxParameterWire ∧ names + payloads = left)
  let name ← Decoder.take (-eproto) names
  let payload ← Decoder.take (-eproto) payloads
  pure { operation, source, sessionId, requestId, endpoint := ⟨runtime, registrationId⟩, target,
         name, type, responseType, feedbackType := goal.feedbackType, goal := goal.goal,
         actionState := goal.actionState, outcomeUnknown := goal.outcomeUnknown,
         feedbackSequence := goal.feedbackSequence, timeoutMs, status := status.toInt32, reason,
         payload, descriptorRole }

/-- `DecodeControlFrame`. -/
def decodeFrame (codec : PayloadCodec) (bytes : Bytes) : Except Int Frame :=
  match frameSize bytes with
  | .error error => .error error
  | .ok length =>
    if length ≠ bytes.length then .error (-emsgsize)
    else
      match Decoder.whole (-eproto) readFrame (bytes.drop 6) with
      | .error error => .error error
      | .ok f => if f.Valid codec then .ok f else .error (-eproto)

/-- The announced length is bounded, and behind four fields with checked values. -/
theorem reads_prefix :
    Reads (· < 0) [] readPrefix fun length whole => (headerSize ≤ length ∧ length ≤ maxFrame) ∧
      ∃ code, whole = Writer.u32 magic ++ Writer.u16 wireVersion ++ Writer.u16 code ++
        Writer.number length 4 ++ Writer.number 0 4 := by
  refine exact_u32.field fun _ => .require (by decide) ?_
  rintro rfl
  refine exact_u16.field fun _ => .require (by decide) ?_
  rintro rfl
  exact exact_u16.field fun code => .require (by decide) fun _ =>
    (exact_number 4).field fun length => .require (by decide) fun bounds =>
    .require (by decide) fun _ => .require (by decide) fun _ =>
    (exact_reserved 4).field fun _ => .pure ⟨bounds, code, rfl⟩

theorem frameSize_eq_ok {bytes : Bytes} {length : Nat} (announced : frameSize bytes = .ok length) :
    ∃ rest, readPrefix bytes = .ok (length, rest) := by
  unfold frameSize at announced
  split at announced
  · cases announced
  split at announced
  next read =>
    cases announced
    exact ⟨_, read⟩
  · cases announced

variable {codec : PayloadCodec} {f : Frame}

/-- What acceptance of a frame means. -/
theorem decodeFrame_eq_ok {bytes : Bytes} (decoded : decodeFrame codec bytes = .ok f) :
    frameSize bytes = .ok bytes.length ∧ readFrame (bytes.drop 6) = .ok (f, []) ∧
      f.Valid codec := by
  unfold decodeFrame at decoded
  split at decoded
  · cases decoded
  next announced =>
    split at decoded
    · cases decoded
    next length =>
      split at decoded
      · cases decoded
      next read =>
        split at decoded
        next valid =>
          cases decoded
          rw [not_not] at length
          exact ⟨length ▸ announced, Decoder.whole_eq_ok read, valid⟩
        · cases decoded

theorem decodeFrame_valid {bytes : Bytes}
    (decoded : decodeFrame codec bytes = .ok f) : f.Valid codec :=
  (decodeFrame_eq_ok decoded).2.2

/-! ## Round trip -/

/-- What a valid frame needs to survive the wire. -/
structure Frame.Portable (f : Frame) : Prop where
  source : 0 ≤ f.source.pid
  endpoint : 0 ≤ f.endpoint.runtime.pid
  goal : 0 ≤ f.goal.source.pid
  name : f.name.length ≤ 240
  payload : f.payload.length ≤ maxParameterWire
  responseType : f.operation.HasResponseType = false → f.responseType = {}
  action : f.operation.IsAction = false →
    f.feedbackType = {} ∧ f.goal = {} ∧ f.actionState = .idle ∧ f.feedbackSequence = 0 ∧
      f.outcomeUnknown = false
  role : f.operation.IsDescriptor = false → f.descriptorRole = .none
  plain : f.operation = .diagnosticsRequest → f.name = [] ∧ f.payload = []
  bounded : f.operation = .diagnosticsResponse →
    f.name = [] ∧ f.payload.length ≤ maxDiagnosticsPayload

theorem Frame.BodyValid.addressed {message : Message}
    (body : f.BodyValid codec message) : f.Addressed ∨ f.endpoint = {} ∧ f.name = [] := by
  cases message with
  | hello => exact .inr ⟨body.2.2.1, body.2.2.2.1⟩
  | diagnosticsRequest | diagnosticsResponse => exact .inr ⟨body.1.2.2.1, body.1.2.2.2.1⟩
  | descriptorRequest | descriptorResponse => exact .inl body.1.2.2.2
  | paramGetRequest | paramGetResponse | paramSetRequest | paramSetResponse
  | serviceRequest | serviceResponse => exact .inl body.2.2.1
  | actionGoalRequest | actionGoalResponse | actionFeedback | actionResult
  | actionCancelRequest | actionCancelResponse => exact .inl body.1.2.1

theorem Frame.BodyValid.role {message : Message}
    (body : f.BodyValid codec message) (plain : message.IsDescriptor = false) :
    f.descriptorRole = .none := by
  cases message with
  | descriptorRequest | descriptorResponse => cases plain
  | hello | paramGetRequest | paramGetResponse | paramSetRequest | paramSetResponse
  | serviceRequest | serviceResponse => exact body.1
  | diagnosticsRequest | diagnosticsResponse | actionGoalRequest | actionGoalResponse
  | actionFeedback | actionResult | actionCancelRequest | actionCancelResponse => exact body.1.1

theorem Frame.BodyValid.goal {message : Message}
    (body : f.BodyValid codec message) (action : message.IsAction = true) : f.GoalValid := by
  cases message with
  | actionGoalRequest | actionGoalResponse | actionFeedback | actionResult
  | actionCancelRequest | actionCancelResponse => exact body.1
  | _ => cases action

theorem Frame.Valid.portable (valid : f.Valid codec) : f.Portable := by
  obtain ⟨source, _, payload, ⟨response, action⟩, body⟩ := valid
  constructor
  case source => exact source.pid_nonneg
  case endpoint =>
    obtain addressed | ⟨endpoint, _⟩ := body.addressed
    · exact addressed.1.1.pid_nonneg
    · rw [endpoint]
      decide
  case goal =>
    cases kind : f.operation.IsAction with
    | true => exact (body.goal kind).2.2.1.pid_nonneg
    | false =>
      rw [(action kind).2.1]
      decide
  case name =>
    obtain addressed | ⟨_, name⟩ := body.addressed
    · exact addressed.2.1.2.1
    · rw [name]
      exact Nat.zero_le 240
  case payload => exact payload
  case responseType =>
    intro absent
    rwa [if_neg (by rw [absent]; exact Bool.false_ne_true)] at response
  case action => exact action
  case role => exact body.role
  case plain =>
    intro operation
    rw [operation] at body
    exact ⟨body.1.2.2.2.1, body.2.2⟩
  case bounded =>
    intro operation
    rw [operation] at body
    exact ⟨body.1.2.2.2.1, body.1.2.2.2.2.2.2⟩

@[simp] theorem Frame.length_prefixBytes (f : Frame) : f.prefixBytes.length = prefixSize := by
  simp [Frame.prefixBytes, prefixSize]

theorem Frame.length_bytes (f : Frame) : f.bytes.length = f.size := by
  have service : (f.operation.HasResponseType = true ↔
      (f.operation = .serviceRequest ∨ f.operation = .serviceResponse) ∨
        f.operation.IsAction = true) := by
    cases f.operation <;> decide
  have apart : f.operation.IsAction = true →
      ¬(f.operation = .serviceRequest ∨ f.operation = .serviceResponse) := by
    cases f.operation <;> decide
  simp only [Frame.bytes, Frame.bodyBytes, Frame.commonBytes, Frame.goalBytes, Frame.size,
    headerSize, Message.extensionSize, length_append, Frame.length_prefixBytes, prefixSize,
    length_runtime, length_u64, length_u8, length_u32, length_number, length_type, length_flag,
    apply_ite length, length_nil]
  split_ifs <;> simp_all <;> omega

theorem Frame.Portable.size_le (portable : f.Portable) : f.size ≤ maxFrame := by
  have extension : f.operation.extensionSize ≤ 120 := by cases f.operation <;> decide
  have name := portable.name
  have payload := portable.payload
  unfold Frame.size headerSize maxFrame
  omega

theorem Frame.headerSize_le (f : Frame) : headerSize ≤ f.size := by
  unfold Frame.size
  omega

/-- The first 16 bytes announce the length of the frame. -/
theorem decodes_prefix (portable : f.Portable) : Decodes readPrefix f.prefixBytes f.size := by
  have range : 1 ≤ f.operation.code ∧ f.operation.code ≤ 17 := by cases f.operation <;> decide
  have plain : f.operation.code = Message.diagnosticsRequest.code → f.size = headerSize := by
    intro code
    have operation : f.operation = .diagnosticsRequest := by
      rw [← Option.some_inj, ← Message.ofCode_code f.operation, code]
      rfl
    obtain ⟨name, payload⟩ := portable.plain operation
    simp [Frame.size, operation, name, payload, Message.extensionSize, Message.IsAction,
      Message.IsDescriptor]
  have bounded : f.operation.code = Message.diagnosticsResponse.code →
      f.size ≤ headerSize + maxDiagnosticsPayload := by
    intro code
    have operation : f.operation = .diagnosticsResponse := by
      rw [← Option.some_inj, ← Message.ofCode_code f.operation, code]
      rfl
    obtain ⟨name, payload⟩ := portable.bounded operation
    simpa [Frame.size, operation, name, Message.extensionSize, Message.IsAction,
      Message.IsDescriptor] using payload
  have narrow : f.size < 256 ^ 4 := lt_of_le_of_lt portable.size_le (by decide)
  simp only [Frame.prefixBytes, append_assoc]
  refine (decodes_u32 _).bind ((Decodes.require rfl).skip ((decodes_u16 _).bind
    ((Decodes.require rfl).skip ((decodes_u16 _).bind ((Decodes.require range).skip
      ((decodes_number narrow).bind ((Decodes.require
        ⟨f.headerSize_le, portable.size_le⟩).skip ?_)))))))
  exact (Decodes.require plain).skip ((Decodes.require bounded).skip
    ((decodes_reserved 4).last (Decodes.pure f.size)))

theorem decodes_goal (portable : f.Portable) :
    Decodes readGoal f.goalBytes
      ⟨f.feedbackType, f.goal, f.actionState, f.outcomeUnknown, f.feedbackSequence⟩ := by
  simp only [Frame.goalBytes, append_assoc]
  refine (decodes_type _).bind ((decodes_runtime portable.goal).bind ((decodes_u64 _).bind
    ((decodes_u64 _).bind ((decodes_code (ActionState.ofCode_code _)).bind
      ((decodes_flag _).bind ((decodes_reserved 2).bind ((decodes_u64 _).last ?_)))))))
  exact Decodes.pure _

theorem decodes_role (role : DescriptorRole) :
    Decodes readRole (Writer.u8 role.code ++ Writer.number 0 3) role :=
  (decodes_code (DescriptorRole.ofCode_code role)).bind
    ((decodes_reserved 3).last (Decodes.pure role))

/-- The frame from its operation on. -/
def Frame.tailBytes (f : Frame) : Bytes :=
  Writer.u16 f.operation.code ++ ((Writer.number f.size 4 ++ Writer.number 0 4) ++ f.bodyBytes)

theorem Frame.drop_bytes (f : Frame) : f.bytes.drop 6 = f.tailBytes := by
  have split : f.bytes = (Writer.u32 magic ++ Writer.u16 wireVersion) ++ f.tailBytes := by
    simp only [Frame.bytes, Frame.prefixBytes, Frame.tailBytes, append_assoc]
  rw [split]
  exact drop_left' (by simp)

/-- Two words that are read over. -/
theorem decodes_skipped (size : Nat) : ∃ value,
    Decodes (Reader.number 8) (Writer.number size 4 ++ Writer.number 0 4) value :=
  ⟨_, (Decodes.take_of_length (by simp)).map fromBigEndian⟩

/-- The name and the payload, which fill the rest of the frame. -/
theorem consumes_texts {β : Type} {name payload : Bytes} {next : Bytes → Bytes → β}
    (short : name.length ≤ 240) (bounded : payload.length ≤ maxParameterWire) :
    Consumes (do
      let left ← Decoder.left
      Decoder.require (-eproto)
        (name.length ≤ 240 ∧ payload.length ≤ maxParameterWire ∧
          name.length + payload.length = left)
      let name ← Decoder.take (-eproto) name.length
      let payload ← Decoder.take (-eproto) payload.length
      pure (next name payload) : Reader β) (name ++ payload) (next name payload) := by
  refine Consumes.left (Consumes.skip (Decodes.require ⟨short, bounded, by simp⟩) ?_)
  exact Consumes.field (Decodes.take name)
    (Consumes.of_decodes ((Decodes.take payload).last (Decodes.pure _)))

theorem consumes_frame (portable : f.Portable) : Consumes readFrame f.tailBytes f := by
  obtain ⟨skipped, skip⟩ := decodes_skipped f.size
  have names : f.name.length < 256 ^ 2 := lt_of_le_of_lt portable.name (by decide)
  have payloads : f.payload.length < 256 ^ 4 := lt_of_le_of_lt portable.payload (by decide)
  simp only [Frame.tailBytes, Frame.bodyBytes, Frame.commonBytes, append_assoc]
  refine Consumes.field (decodes_u16 _) (Consumes.skip (Decodes.accept (Message.ofCode_code _)) ?_)
  rw [← append_assoc (Writer.number f.size 4)]
  refine Consumes.field skip (Consumes.field (decodes_runtime portable.source)
    (Consumes.field (decodes_u64 _) (Consumes.field (decodes_u64 _)
      (Consumes.field (decodes_runtime portable.endpoint) (Consumes.field (decodes_u64 _) ?_)))))
  refine Consumes.field (decodes_code (TargetScope.ofCode_code _))
    (Consumes.field (decodes_code (CompatibilityReason.ofCode_code _))
      (Consumes.field (decodes_reserved 2) (Consumes.field (decodes_type _)
        (Consumes.field (decodes_u32 _) (Consumes.field (decodes_u32 _) ?_)))))
  refine Consumes.field (decodes_number names) (Consumes.field (decodes_reserved 2)
    (Consumes.field (decodes_number payloads) ?_))
  refine Consumes.field (decodes_optional (decodes_type _) portable.responseType)
    (Consumes.field (decodes_optional (decodes_goal portable) ?_)
      (Consumes.field (decodes_optional (decodes_role _) portable.role) ?_))
  · intro absent
    obtain ⟨feedback, goal, state, sequence, unknown⟩ := portable.action absent
    rw [feedback, goal, state, sequence, unknown]
  · exact consumes_texts portable.name portable.payload

/-- A frame announces its length as soon as its first 16 bytes are there. -/
theorem frameSize_of_prefix (portable : f.Portable) (rest : Bytes) :
    frameSize (f.prefixBytes ++ rest) = .ok f.size := by
  have long : ¬(f.prefixBytes ++ rest).length < prefixSize := by simp
  unfold frameSize
  rw [if_neg long, decodes_prefix portable rest]

/-- Every encoded frame is decoded to itself. -/
theorem decodeFrame_bytes (valid : f.Valid codec) : decodeFrame codec f.bytes = .ok f := by
  have portable := valid.portable
  have size : frameSize f.bytes = .ok f.size := frameSize_of_prefix portable _
  have tail : Decoder.whole (-eproto) readFrame (f.bytes.drop 6) = .ok f := by
    rw [f.drop_bytes]
    exact (consumes_frame portable).whole
  simp [decodeFrame, size, f.length_bytes, tail, valid]

/-! ## Streams of frames -/

/-- One turn of the loops that take frames off a TCP stream. -/
def nextFrame (codec : PayloadCodec) (input : Bytes) : Front Frame :=
  if input.length < prefixSize then .more
  else
    match frameSize input with
    | .error _ => .bad
    | .ok size =>
      if input.length < size then .more
      else
        match decodeFrame codec (input.take size) with
        | .error _ => .bad
        | .ok f => .frame f (input.drop size)

/-- A frame taken off a stream is valid. -/
theorem nextFrame_valid {input rest : Bytes}
    (taken : nextFrame codec input = .frame f rest) : f.Valid codec := by
  unfold nextFrame at taken
  split at taken
  · cases taken
  split at taken
  · cases taken
  split at taken
  · cases taken
  split at taken
  · cases taken
  next decoded =>
    cases taken
    exact decodeFrame_valid decoded

end Control

end Kcf.Network
