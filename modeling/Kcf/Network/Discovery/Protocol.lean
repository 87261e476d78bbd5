import Kcf.Network.Compatibility
import Kcf.Network.Fields

/-!
# The discovery protocol

Datagrams of the discovery protocol and the metadata they carry in chunks, with
the proof that a receiver decodes exactly what an encoder accepted.
-/

namespace Kcf.Network.Discovery

open Kcf.Wire List Errno

def magic : UInt32 := 0x4b434644
def version : UInt16 := 2
def headerSize : Nat := 56
def maxDatagram : Nat := 1200
def chunkSize : Nat := 1024
def maxMetadata : Nat := 256 * 1024
def maxEndpoints : Nat := 64

/-- `DiscoveryMessage`. -/
inductive Message where
  | announce | metadataRequest | metadataResponse
  deriving DecidableEq

def Message.code : Message → UInt16
  | .announce => 1
  | .metadataRequest => 2
  | .metadataResponse => 3

/-- `DiscoveryPacket`. -/
structure Packet where
  kind : Message := .announce
  host : HostIdentity := .zero
  bootId : HostIdentity := .zero
  sessionId : UInt64 := 0
  sequence : UInt64 := 0
  revision : UInt64 := 0
  requestId : UInt64 := 0
  metadataSize : UInt32 := 0
  offset : UInt32 := 0
  endpointCount : UInt16 := 0
  profile : PeerProfile := {}
  chunk : Bytes := []
  deriving DecidableEq

namespace Packet

/-- What `ValidPacket` asks of the fields of one message. -/
def BodyValid (p : Packet) : Message → Prop
  | .announce =>
    p.profile.Valid ∧ p.profile.capabilities &&& Capability.discovery ≠ 0 ∧ p.sequence ≠ 0 ∧
      p.requestId = 0 ∧ p.offset = 0 ∧ p.chunk = [] ∧ 2 ≤ p.metadataSize.toNat ∧
      p.metadataSize.toNat ≤ maxMetadata ∧ p.endpointCount.toNat ≤ maxEndpoints
  | .metadataRequest =>
    p.requestId ≠ 0 ∧ p.sequence = 0 ∧ p.metadataSize = 0 ∧ p.endpointCount = 0 ∧
      p.chunk = [] ∧ p.offset.toNat < maxMetadata ∧ p.offset.toNat % chunkSize = 0
  | .metadataResponse =>
    p.requestId ≠ 0 ∧ p.sequence = 0 ∧ p.endpointCount = 0 ∧ 2 ≤ p.metadataSize.toNat ∧
      p.metadataSize.toNat ≤ maxMetadata ∧ p.offset.toNat < p.metadataSize.toNat ∧
      p.offset.toNat % chunkSize = 0 ∧
      p.chunk.length = min chunkSize (p.metadataSize.toNat - p.offset.toNat)

instance (p : Packet) : (kind : Message) → Decidable (p.BodyValid kind)
  | .announce => inferInstanceAs (Decidable (_ ∧ _))
  | .metadataRequest => inferInstanceAs (Decidable (_ ∧ _))
  | .metadataResponse => inferInstanceAs (Decidable (_ ∧ _))

/-- `ValidPacket`. -/
def Valid (p : Packet) : Prop :=
  p.host.Valid ∧ p.bootId.Valid ∧ p.sessionId ≠ 0 ∧ p.revision ≠ 0 ∧ p.BodyValid p.kind
  deriving Decidable

end Packet

/-! ## Datagrams -/

/-- Bytes behind the header, without the chunk. -/
def Message.bodySize : Message → Nat
  | .announce => 44
  | .metadataRequest => 20
  | .metadataResponse => 24

/-- The body of a datagram. -/
def encodeBody (p : Packet) : Message → Bytes
  | .announce =>
    Writer.u64 p.sequence ++ Writer.u64 p.revision ++ Writer.u32 p.metadataSize ++
      Writer.u16 p.endpointCount ++ Writer.number 0 2 ++
      Writer.u16 p.profile.framework.major ++ Writer.u16 p.profile.framework.minor ++
      Writer.u16 p.profile.framework.patch ++ Writer.u16 p.profile.network.major ++
      Writer.u16 p.profile.network.minor ++ Writer.number 0 2 ++
      Writer.u64 p.profile.capabilities
  | .metadataRequest => Writer.u64 p.requestId ++ Writer.u64 p.revision ++ Writer.u32 p.offset
  | .metadataResponse =>
    Writer.u64 p.requestId ++ Writer.u64 p.revision ++ Writer.u32 p.offset ++
      Writer.u32 p.metadataSize ++ p.chunk

/-- The datagram of a packet. -/
def Packet.bytes (p : Packet) : Bytes :=
  Writer.u32 magic ++ Writer.u16 version ++ Writer.u16 p.kind.code ++
    Writer.number (headerSize + p.kind.bodySize + p.chunk.length) 4 ++ Writer.number 0 4 ++
    Writer.host p.host ++ Writer.host p.bootId ++ Writer.u64 p.sessionId ++
    encodeBody p p.kind

/-- `EncodeDiscoveryPacket`. -/
def encodePacket (p : Packet) : Except Int Bytes :=
  if ¬p.Valid then .error (-einval) else .ok p.bytes

/-- The body of a datagram with this message code. -/
def decodeBody (host bootId : HostIdentity) (sessionId : UInt64) (code : UInt16) :
    Reader Packet :=
  if code = Message.announce.code then do
    let sequence ← Reader.u64
    let revision ← Reader.u64
    let metadataSize ← Reader.u32
    let endpointCount ← Reader.u16
    Reader.reserved 2
    let major ← Reader.u16
    let minor ← Reader.u16
    let patch ← Reader.u16
    let networkMajor ← Reader.u16
    let networkMinor ← Reader.u16
    Reader.reserved 2
    let capabilities ← Reader.u64
    pure { kind := .announce, host, bootId, sessionId, sequence, revision, metadataSize,
           endpointCount,
           profile := ⟨⟨major, minor, patch⟩, ⟨networkMajor, networkMinor⟩, capabilities⟩ }
  else if code = Message.metadataRequest.code then do
    let requestId ← Reader.u64
    let revision ← Reader.u64
    let offset ← Reader.u32
    pure { kind := .metadataRequest, host, bootId, sessionId, revision, requestId, offset }
  else if code = Message.metadataResponse.code then do
    let requestId ← Reader.u64
    let revision ← Reader.u64
    let offset ← Reader.u32
    let metadataSize ← Reader.u32
    let left ← Decoder.left
    Decoder.require (-emsgsize) (left ≤ chunkSize)
    let chunk ← Decoder.remaining
    pure { kind := .metadataResponse, host, bootId, sessionId, revision, requestId, offset,
           metadataSize, chunk }
  else Decoder.accept (-eproto) none

/-- The fields of a datagram of the given size. -/
def decodeFields (size : Nat) : Reader Packet := do
  let tag ← Reader.u32
  Decoder.require (-eproto) (tag = magic)
  let release ← Reader.u16
  Decoder.require (-eprotonosupport) (release = version)
  let code ← Reader.u16
  let length ← Reader.number 4
  Decoder.require (-emsgsize) (length = size)
  Reader.reserved 4
  let host ← Reader.host
  let bootId ← Reader.host
  let sessionId ← Reader.u64
  let p ← decodeBody host bootId sessionId code
  Decoder.require (-eproto) p.Valid
  pure p

/-- `DecodeDiscoveryPacket`. -/
def decodePacket (bytes : Bytes) : Except Int Packet :=
  Decoder.within (-emsgsize) (-eproto) headerSize maxDatagram (decodeFields bytes.length) bytes

/-! ## Metadata -/

def kindCode : EndpointKind → UInt8
  | .topic => 1
  | .parameter => 2
  | .service => 3
  | .action => 4

def kindOfCode (code : UInt8) : Option EndpointKind :=
  if code = 1 then some .topic
  else if code = 2 then some .parameter
  else if code = 3 then some .service
  else if code = 4 then some .action
  else none

def roleCode : EndpointRole → UInt8
  | .provider => 1
  | .consumer => 2

def roleOfCode (code : UInt8) : Option EndpointRole :=
  if code = 1 then some .provider else if code = 2 then some .consumer else none

def scopeCode : NetworkScope → UInt8
  | .local => 0
  | .remote => 1

def scopeOfCode (code : UInt8) : Option NetworkScope :=
  if code = 0 then some .local else if code = 1 then some .remote else none

/-- One endpoint in the metadata. -/
def encodeEndpoint (m : NetworkEndpointMetadata) : Bytes :=
  Writer.u16 m.protocolVersion ++ Writer.runtime m.identity.runtime ++
    Writer.u64 m.identity.registrationId ++ Writer.runtime m.application ++
    Writer.u8 (kindCode m.kind) ++ Writer.u8 (roleCode m.role) ++
    Writer.u8 (scopeCode m.scope) ++ Writer.number 0 1 ++
    Writer.type m.valueType ++ Writer.type m.requestType ++ Writer.type m.responseType ++
    Writer.type m.feedbackType ++ Writer.string m.hostName ++ Writer.string m.applicationName ++
    Writer.string m.elementName ++ Writer.string m.name ++
    Writer.number m.groups.length 2 ++ m.groups.flatMap Writer.string

/-- The loop of `EncodeDiscoveryMetadata`. -/
def encodeEndpoints (written : Bytes) : List NetworkEndpointMetadata → Except Int Bytes
  | [] => .ok written
  | m :: rest =>
    if ¬m.Valid then .error (-einval)
    else if (written ++ encodeEndpoint m).length > maxMetadata then .error (-e2big)
    else encodeEndpoints (written ++ encodeEndpoint m) rest

/-- `EncodeDiscoveryMetadata`. -/
def encodeMetadata (endpoints : List NetworkEndpointMetadata) : Except Int Bytes :=
  if endpoints.length > maxEndpoints then .error (-e2big)
  else encodeEndpoints (Writer.number endpoints.length 2) endpoints

def decodeEndpoint : Reader NetworkEndpointMetadata := do
  let protocolVersion ← Reader.u16
  let runtime ← Reader.runtime
  let registrationId ← Reader.u64
  let application ← Reader.runtime
  let kind ← Reader.code kindOfCode
  let role ← Reader.code roleOfCode
  let scope ← Reader.code scopeOfCode
  Reader.reserved 1
  let valueType ← Reader.type
  let requestType ← Reader.type
  let responseType ← Reader.type
  let feedbackType ← Reader.type
  let hostName ← Reader.string 128
  let applicationName ← Reader.string 128
  let elementName ← Reader.string 128
  let name ← Reader.string 240
  let count ← Reader.number 2
  Decoder.require (-eproto) (count ≤ 64)
  let groups ← Decoder.replicate count (Reader.string 128)
  let m : NetworkEndpointMetadata :=
    { protocolVersion, identity := ⟨runtime, registrationId⟩, application, hostName,
      applicationName, elementName, name, groups, kind, role, scope, valueType, requestType,
      responseType, feedbackType }
  Decoder.require (-eproto) m.Valid
  pure m

def decodeEndpoints : Reader (List NetworkEndpointMetadata) := do
  let count ← Reader.number 2
  Decoder.require (-e2big) (count ≤ maxEndpoints)
  Decoder.replicate count decodeEndpoint

/-- `DecodeDiscoveryMetadata`. -/
def decodeMetadata (bytes : Bytes) : Except Int (List NetworkEndpointMetadata) :=
  Decoder.within (-emsgsize) (-eproto) 2 maxMetadata decodeEndpoints bytes

/-- `ValidDiscoveryMetadata`. -/
def ValidMetadata (endpoints : List NetworkEndpointMetadata) (host bootId : HostIdentity) : Prop :=
  host.Valid ∧ bootId.Valid ∧ endpoints.length ≤ maxEndpoints ∧
    (∀ m ∈ endpoints, m.Valid ∧ m.identity.runtime.host = host ∧
      m.identity.runtime.bootId = bootId) ∧
    (endpoints.map (·.identity)).Nodup
  deriving Decidable

/-! ## Round trips -/

variable {p : Packet} {bytes : Bytes} {endpoints : List NetworkEndpointMetadata}

theorem length_encodeBody {kind : Message} (valid : p.BodyValid kind) :
    (encodeBody p kind).length = kind.bodySize + p.chunk.length := by
  cases kind with
  | announce =>
    obtain ⟨_, _, _, _, _, empty, _⟩ := valid
    simp [encodeBody, Message.bodySize, Writer.u64, Writer.u32, Writer.u16, Writer.number, empty]
  | metadataRequest =>
    obtain ⟨_, _, _, _, empty, _⟩ := valid
    simp [encodeBody, Message.bodySize, Writer.u64, Writer.u32, Writer.number, empty]
  | metadataResponse =>
    simp [encodeBody, Message.bodySize, Writer.u64, Writer.u32, Writer.number]
    omega

theorem encodePacket_eq_ok : encodePacket p = .ok bytes ↔ p.Valid ∧ p.bytes = bytes := by
  unfold encodePacket
  split <;> simp_all

theorem Packet.Valid.length_bytes (valid : p.Valid) :
    p.bytes.length = headerSize + p.kind.bodySize + p.chunk.length := by
  simp [Packet.bytes, Writer.host, HostIdentity.length_bytes, length_encodeBody valid.2.2.2.2,
    headerSize]
  omega

theorem consumes_body {kind : Message} (same : p.kind = kind)
    (valid : p.BodyValid kind) (silent : kind ≠ .announce → p.profile = {}) :
    Consumes (decodeBody p.host p.bootId p.sessionId kind.code) (encodeBody p kind) p := by
  subst same
  obtain ⟨kind, host, bootId, sessionId, sequence, revision, requestId, metadataSize, offset,
    endpointCount, profile, chunk⟩ := p
  cases kind with
  | announce =>
    obtain ⟨_, _, _, rfl, rfl, rfl, _⟩ := valid
    apply Consumes.of_decodes
    simp only [encodeBody, append_assoc]
    exact (decodes_u64 _).bind ((decodes_u64 _).bind ((decodes_u32 _).bind
      ((decodes_u16 _).bind ((decodes_reserved 2).bind ((decodes_u16 _).bind
      ((decodes_u16 _).bind ((decodes_u16 _).bind ((decodes_u16 _).bind ((decodes_u16 _).bind
      ((decodes_reserved 2).bind ((decodes_u64 _).last (Decodes.pure _))))))))))))
  | metadataRequest =>
    obtain ⟨_, rfl, rfl, rfl, rfl, _⟩ := valid
    obtain rfl := silent (by simp)
    apply Consumes.of_decodes
    simp only [encodeBody, append_assoc]
    exact (decodes_u64 _).bind ((decodes_u64 _).bind ((decodes_u32 _).last (Decodes.pure _)))
  | metadataResponse =>
    obtain ⟨_, rfl, rfl, _, _, _, _, length⟩ := valid
    obtain rfl := silent (by simp)
    have fits : chunk.length ≤ chunkSize := by
      simp only at length
      omega
    simp only [encodeBody, append_assoc]
    exact Consumes.field (decodes_u64 _) (Consumes.field (decodes_u64 _)
      (Consumes.field (decodes_u32 _) (Consumes.field (decodes_u32 _)
      (Consumes.left (Consumes.skip (Decodes.require fits) (Consumes.remaining rfl))))))

theorem Message.bodySize_le (kind : Message) : kind.bodySize ≤ 44 := by cases kind <;> decide

theorem Packet.Valid.chunk_le (valid : p.Valid) : p.chunk.length ≤ chunkSize := by
  have body := valid.2.2.2.2
  cases same : p.kind with
  | announce =>
    rw [same] at body
    obtain ⟨_, _, _, _, _, empty, _⟩ := body
    simp [empty]
  | metadataRequest =>
    rw [same] at body
    obtain ⟨_, _, _, _, empty, _⟩ := body
    simp [empty]
  | metadataResponse =>
    rw [same] at body
    obtain ⟨_, _, _, _, _, _, _, chunk⟩ := body
    omega

theorem Packet.Valid.length_le (valid : p.Valid) : p.bytes.length ≤ maxDatagram := by
  have short := valid.chunk_le
  have body := p.kind.bodySize_le
  rw [valid.length_bytes]
  simp only [chunkSize, headerSize, maxDatagram] at short ⊢
  omega

/-- A datagram that `EncodeDiscoveryPacket` built is decoded to its own packet.
Only an announce carries a profile. -/
theorem decodePacket_encodePacket
    (encoded : encodePacket p = .ok bytes) (silent : p.kind ≠ .announce → p.profile = {}) :
    decodePacket bytes = .ok p := by
  obtain ⟨valid, rfl⟩ := encodePacket_eq_ok.mp encoded
  have length := valid.length_bytes
  refine Consumes.within ?_ (by omega) valid.length_le
  rw [length]
  simp only [Packet.bytes, append_assoc]
  refine Consumes.field (decodes_u32 _) (Consumes.skip (Decodes.require rfl)
    (Consumes.field (decodes_u16 _) (Consumes.skip (Decodes.require rfl)
    (Consumes.field (decodes_u16 _) (Consumes.field (decodes_number ?_)
    (Consumes.skip (Decodes.require rfl) (Consumes.field (decodes_reserved 4)
    (Consumes.field (decodes_host _) (Consumes.field (decodes_host _)
    (Consumes.field (decodes_u64 _)
    ((consumes_body rfl valid.2.2.2.2 silent).last
      ((Decodes.require valid).skip (Decodes.pure p)))))))))))))
  have short := valid.length_le
  rw [length, maxDatagram] at short
  omega

theorem kindOfCode_kindCode (kind : EndpointKind) : kindOfCode (kindCode kind) = some kind := by
  cases kind <;> rfl

theorem roleOfCode_roleCode (role : EndpointRole) : roleOfCode (roleCode role) = some role := by
  cases role <;> rfl

theorem scopeOfCode_scopeCode (scope : NetworkScope) :
    scopeOfCode (scopeCode scope) = some scope := by
  cases scope <;> rfl

theorem decodes_endpoint {m : NetworkEndpointMetadata} (valid : m.Valid) :
    Decodes decodeEndpoint (encodeEndpoint m) m := by
  have application : 0 ≤ m.application.pid := by
    rcases valid.application with ⟨standalone, _⟩ | ⟨_, owned, _⟩
    · rw [standalone]
      decide
    · exact owned.pid_nonneg
  have applicationName : m.applicationName.length ≤ 128 := by
    rcases valid.application with ⟨_, empty⟩ | ⟨_, _, text, _⟩
    · simp [empty]
    · exact text.2.1
  have hostName : m.hostName.length ≤ 128 := by
    rcases valid.hostName with empty | text
    · simp [empty]
    · exact text.2.1
  have groups : ∀ group ∈ m.groups, Decodes (Reader.string 128) (Writer.string group) group :=
    fun group membership => decodes_string (valid.groups group membership).2.1 (by decide)
  have count : m.groups.length < 256 ^ 2 := by
    have := valid.groupCount
    omega
  simp only [encodeEndpoint, append_assoc]
  exact (decodes_u16 _).bind ((decodes_runtime valid.identity.1.pid_nonneg).bind
    ((decodes_u64 _).bind ((decodes_runtime application).bind
    ((decodes_code (kindOfCode_kindCode _)).bind ((decodes_code (roleOfCode_roleCode _)).bind
    ((decodes_code (scopeOfCode_scopeCode _)).bind ((decodes_reserved 1).bind
    ((decodes_type _).bind ((decodes_type _).bind ((decodes_type _).bind ((decodes_type _).bind
    ((decodes_string hostName (by decide)).bind ((decodes_string applicationName (by decide)).bind
    ((decodes_string valid.element.2.1 (by decide)).bind
    ((decodes_string valid.name.2.1 (by decide)).bind ((decodes_number count).bind
    ((Decodes.require valid.groupCount).skip ((Decodes.replicate m.groups groups).last
    ((Decodes.require valid).skip (Decodes.pure m))))))))))))))))))))

/-- The bytes of some endpoints. -/
def metadataBytes (endpoints : List NetworkEndpointMetadata) : Bytes :=
  Writer.number endpoints.length 2 ++ endpoints.flatMap encodeEndpoint

/-- The encoding loop appends the endpoints and stays below the limit. -/
theorem encodeEndpoints_eq {written bytes : Bytes}
    (encoded : encodeEndpoints written endpoints = .ok bytes)
    (small : written.length ≤ maxMetadata) :
    bytes = written ++ endpoints.flatMap encodeEndpoint ∧ bytes.length ≤ maxMetadata ∧
      ∀ m ∈ endpoints, m.Valid := by
  induction endpoints generalizing written with
  | nil =>
    cases encoded
    exact ⟨by simp, small, by simp⟩
  | cons m rest ih =>
    simp only [encodeEndpoints] at encoded
    split at encoded
    · cases encoded
    next valid =>
      split at encoded
      · cases encoded
      next fits =>
        obtain ⟨equal, limit, others⟩ := ih encoded (by omega)
        refine ⟨by simp [equal], limit, ?_⟩
        intro other membership
        rcases mem_cons.mp membership with rfl | later
        · exact not_not.mp valid
        · exact others other later

/-- Metadata that `EncodeDiscoveryMetadata` accepted is decoded to the same
endpoints, and its size is one that a packet may announce. -/
theorem decodeMetadata_encodeMetadata (encoded : encodeMetadata endpoints = .ok bytes) :
    decodeMetadata bytes = .ok endpoints ∧ 2 ≤ bytes.length ∧ bytes.length ≤ maxMetadata ∧
      endpoints.length ≤ maxEndpoints := by
  unfold encodeMetadata at encoded
  split at encoded
  · cases encoded
  next bounded =>
    have count : endpoints.length ≤ maxEndpoints := by omega
    obtain ⟨rfl, limit, valid⟩ := encodeEndpoints_eq encoded (by
      simp [Writer.number, maxMetadata])
    have body : Decodes decodeEndpoints (metadataBytes endpoints) endpoints := by
      refine (decodes_number ?_).bind ((Decodes.require count).skip
        (Decodes.replicate endpoints fun m membership => decodes_endpoint (valid m membership)))
      simp only [maxEndpoints] at count
      omega
    have least : 2 ≤ (metadataBytes endpoints).length := by simp [metadataBytes]
    exact ⟨(Consumes.of_decodes body).within least limit, least, limit, count⟩

end Kcf.Network.Discovery
