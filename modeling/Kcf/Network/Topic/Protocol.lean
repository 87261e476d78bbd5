import Kcf.Network.Fields

/-!
# The Topic data protocol

`INTEREST` asks the source of a Topic for its samples and travels from the
destination to the source; `DATA` carries one sample.  The identities keep the
direction of the data in both.
-/

namespace Kcf.Network.Topic

open Kcf.Wire Errno

def magic : UInt32 := 0x4b434654
def version : UInt16 := 1
def headerSize : Nat := 184
def maxDatagram : Nat := 1200
def maxWirePayload : Nat := 768

/-- `TopicMessage`. -/
inductive Message where
  | interest | data
  deriving DecidableEq

def Message.code : Message → UInt16
  | .interest => 1
  | .data => 2

def Message.ofCode (code : UInt16) : Option Message :=
  if code = 1 then some .interest else if code = 2 then some .data else none

/-- `TopicPacket`. -/
structure Packet where
  kind : Message := .interest
  source : RemoteEndpointIdentity := {}
  destination : RemoteEndpointIdentity := {}
  sourceSession : UInt64 := 0
  destinationSession : UInt64 := 0
  routeId : UInt64 := 0
  sequence : UInt64 := 0
  sampleSequence : UInt64 := 0
  type : TypeIdentity := {}
  name : Bytes := []
  payload : Bytes := []
  deriving DecidableEq

namespace Packet

/-- What `ValidPacket` asks of the fields of one message. -/
def BodyValid (p : Packet) : Message → Prop
  | .interest => p.sequence = 0 ∧ p.sampleSequence = 0 ∧ p.payload = []
  | .data => p.sequence ≠ 0 ∧ p.sampleSequence ≠ 0 ∧ p.payload.length = p.type.payloadSize.toNat

instance (p : Packet) : (kind : Message) → Decidable (p.BodyValid kind)
  | .interest => inferInstanceAs (Decidable (_ ∧ _))
  | .data => inferInstanceAs (Decidable (_ ∧ _))

/-- `ValidPacket`. -/
def Valid (p : Packet) : Prop :=
  p.source.Valid ∧ p.destination.Valid ∧ p.source.runtime.host ≠ p.destination.runtime.host ∧
    p.sourceSession ≠ 0 ∧ p.destinationSession ≠ 0 ∧ p.routeId ≠ 0 ∧ p.type.Valid ∧
    p.type.payloadSize.toNat ≤ maxWirePayload ∧ Text p.name 240 ∧ p.name.head? = some 47 ∧
    p.BodyValid p.kind
  deriving Decidable

end Packet

/-- The datagram of a packet. -/
def Packet.bytes (p : Packet) : Bytes :=
  Writer.u32 magic ++ Writer.u16 version ++ Writer.u16 p.kind.code ++
    Writer.number (headerSize + p.name.length + p.payload.length) 2 ++ Writer.number 0 2 ++
    Writer.number p.name.length 2 ++ Writer.number p.payload.length 2 ++
    Writer.endpoint p.source ++ Writer.endpoint p.destination ++ Writer.u64 p.sourceSession ++
    Writer.u64 p.destinationSession ++ Writer.u64 p.routeId ++ Writer.u64 p.sequence ++
    Writer.u64 p.sampleSequence ++ Writer.type p.type ++ p.name ++ p.payload

/-- `EncodeTopicPacket`. -/
def encodePacket (p : Packet) : Except Int Bytes :=
  if p.type.payloadSize.toNat > maxWirePayload then .error (-emsgsize)
  else if ¬p.Valid then .error (-einval)
  else .ok p.bytes

/-- The fields of a datagram of the given size. -/
def decodeFields (size : Nat) : Reader Packet := do
  let tag ← Reader.u32
  Decoder.require (-eproto) (tag = magic)
  let release ← Reader.u16
  Decoder.require (-eprotonosupport) (release = version)
  let code ← Reader.u16
  let length ← Reader.number 2
  Decoder.require (-eproto) (length = size)
  Reader.reserved 2
  let names ← Reader.number 2
  let payloads ← Reader.number 2
  let source ← Reader.endpoint
  let destination ← Reader.endpoint
  let sourceSession ← Reader.u64
  let destinationSession ← Reader.u64
  let routeId ← Reader.u64
  let sequence ← Reader.u64
  let sampleSequence ← Reader.u64
  let type ← Reader.type
  let left ← Decoder.left
  Decoder.require (-eproto)
    (names ≤ 240 ∧ payloads ≤ maxWirePayload ∧ names + payloads = left)
  let name ← Decoder.take (-eproto) names
  let payload ← Decoder.take (-eproto) payloads
  let kind ← Decoder.accept (-eproto) (Message.ofCode code)
  let p : Packet :=
    { kind, source, destination, sourceSession, destinationSession, routeId, sequence,
      sampleSequence, type, name, payload }
  Decoder.require (-eproto) p.Valid
  pure p

/-- `DecodeTopicPacket`. -/
def decodePacket (bytes : Bytes) : Except Int Packet :=
  Decoder.within (-emsgsize) (-eproto) headerSize maxDatagram (decodeFields bytes.length) bytes

end Kcf.Network.Topic
