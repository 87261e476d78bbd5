import Kcf.Network.Types

/-!
# Validation of identities and endpoint metadata
-/

namespace Kcf.Network

open Kcf.Wire

/-- `Valid(HostIdentity)`: some byte is not zero. -/
def HostIdentity.Valid (identity : HostIdentity) : Prop := ∃ byte ∈ identity.bytes, byte ≠ 0
  deriving Decidable

def RemoteRuntimeIdentity.Valid (identity : RemoteRuntimeIdentity) : Prop :=
  identity.host.Valid ∧ identity.bootId.Valid ∧ 0 < identity.pid ∧ identity.processStartTicks ≠ 0
  deriving Decidable

theorem RemoteRuntimeIdentity.Valid.pid_nonneg {identity : RemoteRuntimeIdentity}
    (valid : identity.Valid) : 0 ≤ identity.pid :=
  Int32.le_of_lt valid.2.2.1

def RemoteEndpointIdentity.Valid (identity : RemoteEndpointIdentity) : Prop :=
  identity.runtime.Valid ∧ identity.registrationId ≠ 0
  deriving Decidable

/-- `Text(value, maximum)`: not empty, not too long, no control characters. -/
def Text (value : Bytes) (maximum : Nat) : Prop :=
  value ≠ [] ∧ value.length ≤ maximum ∧ ∀ byte ∈ value, ¬(byte < 32 ∨ byte = 127)
  deriving Decidable

def TypeIdentity.Valid (type : TypeIdentity) : Prop :=
  type.typeId ≠ 0 ∧ type.schemaId ≠ 0 ∧ type.encodingId ≠ 0 ∧ type.payloadSize ≠ 0 ∧
    type.payloadSize.toNat ≤ maxControlPayload
  deriving Decidable

/-- `Valid(RemoteTarget)`: exactly the selector of the scope is filled in. -/
def RemoteTarget.Valid (target : RemoteTarget) : Prop :=
  match target.scope with
  | .endpoint => target.endpoint.Valid ∧ target.host = .zero ∧ target.application = {} ∧
      target.group = []
  | .host => target.endpoint = {} ∧ target.host.Valid ∧ target.application = {} ∧
      target.group = []
  | .application => target.endpoint = {} ∧ target.host = .zero ∧ target.application.Valid ∧
      target.group = []
  | .group => target.endpoint = {} ∧ target.host = .zero ∧ target.application = {} ∧
      Text target.group 128
  | .all => target.endpoint = {} ∧ target.host = .zero ∧ target.application = {} ∧
      target.group = []

instance : (target : RemoteTarget) → Decidable target.Valid
  | ⟨.endpoint, _, _, _, _⟩ | ⟨.host, _, _, _, _⟩ | ⟨.application, _, _, _, _⟩
  | ⟨.group, _, _, _, _⟩ | ⟨.all, _, _, _, _⟩ => inferInstanceAs (Decidable (_ ∧ _))

/-- The type identities an endpoint of this kind carries. -/
def EndpointKind.TypesValid (value request response feedback : TypeIdentity) :
    EndpointKind → Prop
  | .topic | .parameter => value.Valid ∧ request = {} ∧ response = {} ∧ feedback = {}
  | .service => value = {} ∧ request.Valid ∧ response.Valid ∧ feedback = {}
  | .action => value = {} ∧ request.Valid ∧ response.Valid ∧ feedback.Valid

instance (value request response feedback : TypeIdentity) :
    (kind : EndpointKind) → Decidable (kind.TypesValid value request response feedback)
  | .topic | .parameter | .service | .action => inferInstanceAs (Decidable (_ ∧ _))

namespace NetworkEndpointMetadata

/-- A standalone endpoint has no application name; any other one belongs to an
application of its own host and boot. -/
def ApplicationValid (m : NetworkEndpointMetadata) : Prop :=
  (m.application = {} ∧ m.applicationName = []) ∨
    (m.application ≠ {} ∧ m.application.Valid ∧ Text m.applicationName 128 ∧
      m.application.host = m.identity.runtime.host ∧
      m.application.bootId = m.identity.runtime.bootId)
  deriving Decidable

/-- `Valid(NetworkEndpointMetadata)`.  Roles and scopes outside the enumeration
cannot be built here; the decoder refuses their codes. -/
structure Valid (m : NetworkEndpointMetadata) : Prop where
  version : m.protocolVersion = Network.protocolVersion
  identity : m.identity.Valid
  name : Text m.name 240
  rooted : m.name.head? = some 47
  element : Text m.elementName 128
  hostName : m.hostName = [] ∨ Text m.hostName 128
  groupCount : m.groups.length ≤ 64
  application : m.ApplicationValid
  groups : ∀ group ∈ m.groups, Text group 128
  distinct : m.groups.Nodup
  types : m.kind.TypesValid m.valueType m.requestType m.responseType m.feedbackType

instance (m : NetworkEndpointMetadata) : Decidable m.Valid :=
  decidable_of_iff
    (m.protocolVersion = Network.protocolVersion ∧ m.identity.Valid ∧ Text m.name 240 ∧
      m.name.head? = some 47 ∧ Text m.elementName 128 ∧
      (m.hostName = [] ∨ Text m.hostName 128) ∧ m.groups.length ≤ 64 ∧ m.ApplicationValid ∧
      (∀ group ∈ m.groups, Text group 128) ∧ m.groups.Nodup ∧
      m.kind.TypesValid m.valueType m.requestType m.responseType m.feedbackType)
    ⟨fun ⟨a, b, c, d, e, f, g, h, i, j, k⟩ => ⟨a, b, c, d, e, f, g, h, i, j, k⟩,
      fun ⟨a, b, c, d, e, f, g, h, i, j, k⟩ => ⟨a, b, c, d, e, f, g, h, i, j, k⟩⟩

end NetworkEndpointMetadata

end Kcf.Network
