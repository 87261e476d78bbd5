import Kcf.Wire.Decoder

/-!
# Network contracts

The identities, type identities and endpoint metadata that nodes exchange, with
the field widths of the sources.  Strings are byte strings.
-/

namespace Kcf.Network

open Kcf.Wire

/-- Endpoint and control-model schema. -/
def protocolVersion : UInt16 := 1

def maxControlPayload : Nat := 1024 * 1024

/-- Sixteen bytes, used for hosts and for boots. -/
structure HostIdentity where
  bytes : Bytes
  length_bytes : bytes.length = 16
  deriving DecidableEq

namespace HostIdentity

/-- The all-zero identity. -/
def zero : HostIdentity := ⟨List.replicate 16 0, rfl⟩

instance : Inhabited HostIdentity := ⟨zero⟩

/-- The identity that is zero up to its last byte. -/
def ofByte (last : UInt8) : HostIdentity := ⟨List.replicate 15 0 ++ [last], rfl⟩

end HostIdentity

structure RemoteRuntimeIdentity where
  host : HostIdentity := .zero
  bootId : HostIdentity := .zero
  pid : Int32 := 0
  processStartTicks : UInt64 := 0
  deriving DecidableEq

structure RemoteEndpointIdentity where
  runtime : RemoteRuntimeIdentity := {}
  registrationId : UInt64 := 0
  deriving DecidableEq

inductive TargetScope where
  | endpoint | host | application | group | all
  deriving DecidableEq

structure RemoteTarget where
  scope : TargetScope := .endpoint
  endpoint : RemoteEndpointIdentity := {}
  host : HostIdentity := .zero
  application : RemoteRuntimeIdentity := {}
  group : Bytes := []
  deriving DecidableEq

inductive NetworkScope where
  | local | remote
  deriving DecidableEq

inductive EndpointKind where
  | topic | parameter | service | action
  deriving DecidableEq

inductive EndpointRole where
  | provider | consumer
  deriving DecidableEq

structure TypeIdentity where
  typeId : UInt64 := 0
  schemaId : UInt64 := 0
  encodingId : UInt32 := 0
  payloadSize : UInt32 := 0
  deriving DecidableEq

structure NetworkEndpointMetadata where
  protocolVersion : UInt16 := Network.protocolVersion
  identity : RemoteEndpointIdentity := {}
  application : RemoteRuntimeIdentity := {}
  hostName : Bytes := []
  applicationName : Bytes := []
  elementName : Bytes := []
  name : Bytes := []
  groups : List Bytes := []
  kind : EndpointKind := .topic
  role : EndpointRole := .provider
  scope : NetworkScope := .local
  valueType : TypeIdentity := {}
  requestType : TypeIdentity := {}
  responseType : TypeIdentity := {}
  feedbackType : TypeIdentity := {}
  deriving DecidableEq

end Kcf.Network
