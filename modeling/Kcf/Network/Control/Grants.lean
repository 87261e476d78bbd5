import Kcf.Network.Control.Frame
import Kcf.Network.Discovery.Node

/-!
# Grants

Which peers a gateway serves.  General gateways share the remote capabilities;
observers (discovery-only tools and receive-only Topic clients) are served one
operation at a time, each by an explicit list of hosts.
-/

namespace Kcf.Network.Control

open Kcf.Network.Discovery (PeerInfo)

/-- `ControlConfig`, as far as connections and requests depend on it.  Durations
are in milliseconds. -/
structure Config where
  discovery : Discovery.Config
  connectTimeout : Int := 1000
  diagnosticsEnabled : Bool := false
  parameterGetClients : List HostIdentity := []
  parameterSetClients : List HostIdentity := []
  serviceCallClients : List HostIdentity := []
  actionGoalClients : List HostIdentity := []
  actionCancelClients : List HostIdentity := []
  descriptorQueryClients : List HostIdentity := []
  topicObserverEnabled : Bool := false

/-- `Find`. -/
def findPeer (peers : List PeerInfo) (host : HostIdentity) : Option PeerInfo :=
  peers.find? fun peer => peer.host = host

namespace Config

variable (config : Config) (peer : PeerInfo) (f : Frame)

/-- `CheckPeerCompatibility` of the node and a peer. -/
def CompatibleWith : Prop :=
  (checkPeerCompatibility config.discovery.profile peer.profile
    config.discovery.compatibilityPolicy).Compatible
  deriving Decidable

/-- `Allowed`: a general gateway. -/
def Allowed : Prop :=
  let result := checkCapability config.discovery.profile peer.profile Capability.targetEndpoint
    config.discovery.compatibilityPolicy
  peer.state = .online ∧ result.Compatible ∧
    result.commonCapabilities &&&
      (Capability.remoteParameter ||| Capability.remoteService ||| Capability.remoteAction) ≠ 0
  deriving Decidable

/-- A peer with an observer profile that a grant covers. -/
def ClientAllowed (granted : Prop) : Prop :=
  peer.state = .online ∧ peer.profile.IsObserver ∧ granted ∧ config.CompatibleWith peer

instance (granted : Prop) [Decidable granted] : Decidable (config.ClientAllowed peer granted) :=
  inferInstanceAs (Decidable (_ ∧ _))

def ObserverAllowed : Prop := config.ClientAllowed peer (config.diagnosticsEnabled = true)
  deriving Decidable

def ReadClientAllowed : Prop := config.ClientAllowed peer (peer.host ∈ config.parameterGetClients)
  deriving Decidable

def WriteClientAllowed : Prop := config.ClientAllowed peer (peer.host ∈ config.parameterSetClients)
  deriving Decidable

/-- The grants of `ENDPOINT` Parameter operations. -/
def ParameterClientAllowed : Prop :=
  f.target = .endpoint ∧
    (f.operation = .paramGetRequest ∧ config.ReadClientAllowed peer ∨
      f.operation = .paramSetRequest ∧ config.WriteClientAllowed peer)
  deriving Decidable

def ServiceClientAllowed : Prop := config.ClientAllowed peer (peer.host ∈ config.serviceCallClients)
  deriving Decidable

/-- The grant of `ENDPOINT` Service calls. -/
def ServiceClientRequest : Prop :=
  f.target = .endpoint ∧ f.operation = .serviceRequest ∧ config.ServiceClientAllowed peer
  deriving Decidable

/-- The hosts that may start goals, or cancel them. -/
def actionClients (cancel : Bool) : List HostIdentity :=
  if cancel then config.actionCancelClients else config.actionGoalClients

def ActionClientAllowed (cancel : Bool) : Prop :=
  config.ClientAllowed peer (peer.host ∈ config.actionClients cancel)
  deriving Decidable

/-- The grants of `ENDPOINT` Action requests. -/
def ActionClientRequest : Prop :=
  f.target = .endpoint ∧
    (f.operation = .actionGoalRequest ∧ config.ActionClientAllowed peer false ∨
      f.operation = .actionCancelRequest ∧ config.ActionClientAllowed peer true)
  deriving Decidable

def DescriptorClientAllowed : Prop :=
  config.ClientAllowed peer
    (config.topicObserverEnabled = true ∨ peer.host ∈ config.descriptorQueryClients)
  deriving Decidable

/-- `LimitedAllowed`: an observer with some grant. -/
def LimitedAllowed : Prop :=
  config.DescriptorClientAllowed peer ∨ config.ObserverAllowed peer ∨
    config.ReadClientAllowed peer ∨ config.WriteClientAllowed peer ∨
    config.ServiceClientAllowed peer ∨ config.ActionClientAllowed peer false ∨
    config.ActionClientAllowed peer true
  deriving Decidable

/-- `Receive` demands this of the peer of a limited, or of a general connection. -/
def Serves : Bool → Prop
  | true => config.LimitedAllowed peer
  | false => config.Allowed peer

instance : (observer : Bool) → Decidable (config.Serves peer observer)
  | true => inferInstanceAs (Decidable (config.LimitedAllowed peer))
  | false => inferInstanceAs (Decidable (config.Allowed peer))

end Config

/-! ## Observers and general gateways -/

section

variable {config : Config} {peer : PeerInfo}

/-- Some grant covers every limited peer. -/
theorem Config.LimitedAllowed.granted (limited : config.LimitedAllowed peer) :
    ∃ granted : Prop, config.ClientAllowed peer granted := by
  rcases limited with allowed | allowed | allowed | allowed | allowed | allowed | allowed <;>
    exact ⟨_, allowed⟩

theorem Config.LimitedAllowed.observer (limited : config.LimitedAllowed peer) :
    peer.profile.IsObserver := by
  obtain ⟨_, allowed⟩ := limited.granted
  exact allowed.2.1

/-- A compatible peer shares exactly the capabilities that both sides know. -/
theorem checkCapability_common {here there : PeerProfile} {required : CapabilitySet}
    {policy : CompatibilityPolicy}
    (compatible : (checkCapability here there required policy).Compatible) :
    (checkCapability here there required policy).commonCapabilities =
      here.capabilities &&& there.capabilities &&& Capability.known := by
  unfold checkCapability at compatible ⊢
  by_cases peers : (checkPeerCompatibility here there policy).Compatible
  · simp only [peers, not_true_eq_false, if_false]
    unfold checkPeerCompatibility CompatibilityResult.Compatible at *
    split_ifs at peers ⊢
    rfl
  · simp only [peers, not_false_eq_true, if_true] at compatible

/-- The bits of an observer contain none of the remote operations. -/
theorem observer_operations {profile : PeerProfile} (observer : profile.IsObserver)
    (here : CapabilitySet) :
    here &&& profile.capabilities &&& Capability.known &&&
      (Capability.remoteParameter ||| Capability.remoteService ||| Capability.remoteAction) =
        0 := by
  rw [UInt64.and_assoc here]
  rcases observer with bits | bits <;>
    (rw [bits, UInt64.and_assoc]; exact UInt64.and_zero)

theorem Config.Allowed.not_observer (allowed : config.Allowed peer) : ¬peer.profile.IsObserver := by
  intro observer
  apply allowed.2.2
  rw [checkCapability_common allowed.2.1]
  exact observer_operations observer _

end

end Kcf.Network.Control
