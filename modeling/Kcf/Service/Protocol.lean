import Kcf.Errno
import Kcf.Wire.Decoder

/-!
# Service packets

The datagrams of the local Service protocol.  A packet travels as the memory image
of its header and payload between processes of one machine, so no byte order shows
up here; a datagram that is shorter than a header carries nothing.
-/

namespace Kcf.Service

open Kcf.Wire

def magic : UInt32 := 0x4b434653
def protocolVersion : UInt16 := 2
def maxPayload : Nat := 4096

/-- `ServicePacketType::REQUEST`. -/
def requestType : UInt16 := 1

/-- `ServicePacketType::RESPONSE`. -/
def responseType : UInt16 := 2

/-- `ServiceHeader`. -/
structure Header where
  magic : UInt32 := Service.magic
  protocolVersion : UInt16 := Service.protocolVersion
  packetType : UInt16 := requestType
  serviceId : UInt16 := 0
  reserved : UInt16 := 0
  payloadSize : UInt32 := 0
  clientId : UInt64 := 0
  requestId : UInt64 := 0
  frameworkStatus : Int32 := 0
  reserved2 : UInt32 := 0
  requestTypeId : UInt64 := 0
  responseTypeId : UInt64 := 0
  requestLayoutId : UInt64 := 0
  responseLayoutId : UInt64 := 0
  deriving DecidableEq

/-- `ServicePacket`, as long as the datagram that carried it. -/
structure Packet where
  header : Header
  payload : Bytes := []
  deriving DecidableEq

/-- What `recvfrom` hands over. -/
inductive Datagram where
  | short
  | packet (p : Packet)
  deriving DecidableEq

/-- The address and port of a socket. -/
structure Endpoint where
  address : UInt32
  port : UInt16
  deriving DecidableEq

/-- `INADDR_LOOPBACK`. -/
def loopback : UInt32 := 0x7f000001

/-- `StorageIdentity`. -/
structure StorageIdentity where
  typeId : UInt64 := 0
  layoutId : UInt64 := 0
  deriving DecidableEq

/-- `ValidHeader`. -/
def Header.Valid (header : Header) (type : UInt16) : Prop :=
  header.magic = Service.magic ∧ header.protocolVersion = Service.protocolVersion ∧
    header.packetType = type ∧ header.reserved = 0 ∧ header.reserved2 = 0 ∧
    header.clientId ≠ 0 ∧ header.requestId ≠ 0
  deriving Decidable

/-- The payload is as long as the header says, and not too long. -/
def Packet.Sized (p : Packet) : Prop :=
  p.header.payloadSize.toNat ≤ maxPayload ∧ p.payload.length = p.header.payloadSize.toNat
  deriving Decidable

/-- The header carries the identities of both types. -/
def Header.Identifies (header : Header) (request response : StorageIdentity) : Prop :=
  header.requestTypeId = request.typeId ∧ header.responseTypeId = response.typeId ∧
    header.requestLayoutId = request.layoutId ∧ header.responseLayoutId = response.layoutId
  deriving Decidable

/-- A response without a payload. -/
def Packet.refuse (request : Packet) (status : Int32) : Packet where
  header :=
    { request.header with
      packetType := responseType
      payloadSize := 0
      frameworkStatus := status }

end Kcf.Service
