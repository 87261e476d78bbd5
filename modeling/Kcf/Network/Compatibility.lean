import Kcf.Network.Validation

/-!
# Peer profiles and endpoint compatibility
-/

namespace Kcf.Network

structure FrameworkVersion where
  major : UInt16 := 5
  minor : UInt16 := 6
  patch : UInt16 := 0
  deriving DecidableEq

structure NetworkProtocolVersion where
  major : UInt16 := 1
  minor : UInt16 := 0
  deriving DecidableEq

/-- A set of capability bits. -/
abbrev CapabilitySet := UInt64

namespace Capability

def discovery : CapabilitySet := 0x1
def remoteParameter : CapabilitySet := 0x2
def remoteService : CapabilitySet := 0x4
def remoteAction : CapabilitySet := 0x8
def remoteTopic : CapabilitySet := 0x10
def targetEndpoint : CapabilitySet := 0x20
def targetHost : CapabilitySet := 0x40
def targetApplication : CapabilitySet := 0x80
def targetGroup : CapabilitySet := 0x100
def targetAll : CapabilitySet := 0x200
def remoteTopicReceiver : CapabilitySet := 0x1000
def topicEndpointSubscription : CapabilitySet := 0x2000

/-- `KNOWN_CAPABILITIES`. -/
def known : CapabilitySet := 0x3fff

end Capability

structure PeerProfile where
  framework : FrameworkVersion := {}
  network : NetworkProtocolVersion := {}
  capabilities : CapabilitySet := Capability.discovery
  deriving DecidableEq

/-- `IsObserverProfile`: a receive-only tool or a control client. -/
def PeerProfile.IsObserver (profile : PeerProfile) : Prop :=
  profile.capabilities &&& Capability.known = Capability.discovery ∨
    profile.capabilities &&& Capability.known =
      (Capability.discovery ||| Capability.remoteTopicReceiver ||| Capability.targetEndpoint)
  deriving Decidable

def PeerProfile.Valid (profile : PeerProfile) : Prop := profile.network.major ≠ 0
  deriving Decidable

/-- `CompatibilityPolicy`; `invalid` stands for the other values of its byte. -/
inductive CompatibilityPolicy where
  | networkProtocol | exactFrameworkVersion | invalid
  deriving DecidableEq

inductive CompatibilityReason where
  | compatible | invalidProfile | invalidPolicy | networkMajorMismatch
  | frameworkVersionMismatch | capabilityMissing | invalidEndpoint
  | semanticMismatch | typeMismatch | localOnly | hostMismatch
  | peerLost | metadataUnavailable | unknownEndpoint
  deriving DecidableEq

structure CompatibilityResult where
  reason : CompatibilityReason := .invalidProfile
  commonCapabilities : CapabilitySet := 0
  missingCapabilities : CapabilitySet := 0
  deriving DecidableEq

def CompatibilityResult.Compatible (result : CompatibilityResult) : Prop :=
  result.reason = .compatible
  deriving Decidable

/-- `CheckPeerCompatibility`. -/
def checkPeerCompatibility (here there : PeerProfile) (policy : CompatibilityPolicy) :
    CompatibilityResult :=
  if ¬here.Valid ∨ ¬there.Valid then {}
  else if policy = .invalid then { reason := .invalidPolicy }
  else if here.network.major ≠ there.network.major then { reason := .networkMajorMismatch }
  else if policy = .exactFrameworkVersion ∧ here.framework ≠ there.framework then
    { reason := .frameworkVersionMismatch }
  else
    { reason := .compatible
      commonCapabilities := here.capabilities &&& there.capabilities &&& Capability.known }

/-- `CheckCapability`. -/
def checkCapability (here there : PeerProfile) (required : CapabilitySet)
    (policy : CompatibilityPolicy) : CompatibilityResult :=
  let result := checkPeerCompatibility here there policy
  if ¬result.Compatible then result
  else
    let missing := required &&& ~~~result.commonCapabilities
    { result with
      missingCapabilities := missing
      reason := if missing ≠ 0 then .capabilityMissing else result.reason }

/-- `TargetCapability`. -/
def targetCapability : TargetScope → CapabilitySet
  | .endpoint => Capability.targetEndpoint
  | .host => Capability.targetHost
  | .application => Capability.targetApplication
  | .group => Capability.targetGroup
  | .all => Capability.targetAll

/-- Capability that an endpoint of this kind needs on both sides. -/
def EndpointKind.capability : EndpointKind → CapabilitySet
  | .topic => Capability.remoteTopic
  | .parameter => Capability.remoteParameter
  | .service => Capability.remoteService
  | .action => Capability.remoteAction

/-- A Topic consumer with only the receiver capability counts as a Topic peer. -/
def receiverProfile (profile : PeerProfile) (endpoint : NetworkEndpointMetadata) : PeerProfile :=
  if endpoint.kind = .topic ∧ endpoint.role = .consumer ∧
      profile.capabilities &&& Capability.remoteTopicReceiver ≠ 0 then
    { profile with capabilities := profile.capabilities ||| Capability.remoteTopic }
  else profile

/-- `CheckEndpointCompatibility`. -/
def checkEndpointCompatibility (here there : PeerProfile) (a b : NetworkEndpointMetadata)
    (policy : CompatibilityPolicy) (target : TargetScope) : CompatibilityResult :=
  let result := checkPeerCompatibility here there policy
  if ¬result.Compatible then result
  else if ¬a.Valid ∨ ¬b.Valid then { result with reason := .invalidEndpoint }
  else if a.kind ≠ b.kind ∨ a.name ≠ b.name ∨ a.role = b.role ∨ targetCapability target = 0 then
    { result with reason := .semanticMismatch }
  else if a.scope ≠ .remote ∨ b.scope ≠ .remote then { result with reason := .localOnly }
  else if a.identity.runtime.host = b.identity.runtime.host then
    { result with reason := .hostMismatch }
  else
    let result := checkCapability (receiverProfile here a) (receiverProfile there b)
      (a.kind.capability ||| targetCapability target) policy
    if ¬result.Compatible then result
    else if a.valueType ≠ b.valueType ∨ a.requestType ≠ b.requestType ∨
        a.responseType ≠ b.responseType ∨ a.feedbackType ≠ b.feedbackType then
      { result with reason := .typeMismatch }
    else result

end Kcf.Network
