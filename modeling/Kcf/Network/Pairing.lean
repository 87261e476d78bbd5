import Kcf.Network.Compatibility

/-!
# The two sides of an endpoint pair

`CheckEndpointCompatibility` does not depend on which side is the local one, and what it
accepts can be routed.
-/

namespace Kcf.Network

/-- `CanRouteTopic`. -/
def CanRouteTopic (publisher subscriber : NetworkEndpointMetadata)
    (activeRemoteSubscription : Bool) : Prop :=
  activeRemoteSubscription = true ∧ publisher.Valid ∧ subscriber.Valid ∧
    publisher.kind = .topic ∧ subscriber.kind = .topic ∧
    publisher.role = .provider ∧ subscriber.role = .consumer ∧
    publisher.scope = .remote ∧ subscriber.scope = .remote ∧
    publisher.identity.runtime.host ≠ subscriber.identity.runtime.host ∧
    publisher.name = subscriber.name ∧ publisher.valueType = subscriber.valueType
  deriving Decidable

section Pair

variable (here there : PeerProfile) (a b : NetworkEndpointMetadata)
variable (policy : CompatibilityPolicy) (target : TargetScope)

theorem checkPeerCompatibility_comm :
    checkPeerCompatibility here there policy = checkPeerCompatibility there here policy := by
  unfold checkPeerCompatibility
  rw [UInt64.and_comm here.capabilities]
  simp only [or_comm, ne_comm]

theorem checkCapability_comm (required : CapabilitySet) :
    checkCapability here there required policy = checkCapability there here required policy := by
  unfold checkCapability
  rw [checkPeerCompatibility_comm]

theorem checkEndpointCompatibility_comm :
    checkEndpointCompatibility here there a b policy target =
      checkEndpointCompatibility there here b a policy target := by
  unfold checkEndpointCompatibility
  rw [checkPeerCompatibility_comm, checkCapability_comm]
  by_cases same : a.kind = b.kind
  · rw [same]
    simp only [or_comm, ne_comm, eq_comm]
  · simp only [same, Ne.symm same, ne_eq, not_false_iff, true_or, if_true, or_comm]

variable {here there a b policy target}

theorem commonCapabilities_of_compatible
    (compatible : (checkPeerCompatibility here there policy).Compatible) :
    (checkPeerCompatibility here there policy).commonCapabilities =
      here.capabilities &&& there.capabilities &&& Capability.known := by
  unfold checkPeerCompatibility at compatible ⊢
  split_ifs at compatible ⊢
  all_goals first | rfl | cases compatible

/-- A capability that is required and not missing is on both sides. -/
theorem checkCapability_compatible {required : CapabilitySet}
    (compatible : (checkCapability here there required policy).Compatible) :
    required &&& ~~~(here.capabilities &&& there.capabilities &&& Capability.known) = 0 := by
  by_cases peers : (checkPeerCompatibility here there policy).Compatible
  · rw [← commonCapabilities_of_compatible peers]
    by_contra missing
    simp only [checkCapability, peers, missing, ne_eq, not_true, not_false_iff, if_false,
      if_true] at compatible
    cases compatible
  · rw [checkCapability, if_pos peers] at compatible
    exact absurd compatible peers

/-- What a compatible answer says of the endpoints and of their capabilities. -/
structure EndpointAgreement (here there : PeerProfile) (a b : NetworkEndpointMetadata)
    (target : TargetScope) : Prop where
  valid : a.Valid ∧ b.Valid
  kind : a.kind = b.kind
  name : a.name = b.name
  role : a.role ≠ b.role
  remote : a.scope = .remote ∧ b.scope = .remote
  hosts : a.identity.runtime.host ≠ b.identity.runtime.host
  capable : (a.kind.capability ||| targetCapability target) &&&
    ~~~((receiverProfile here a).capabilities &&& (receiverProfile there b).capabilities &&&
      Capability.known) = 0
  types : a.valueType = b.valueType ∧ a.requestType = b.requestType ∧
    a.responseType = b.responseType ∧ a.feedbackType = b.feedbackType

theorem EndpointAgreement.of_compatible
    (compatible : (checkEndpointCompatibility here there a b policy target).Compatible) :
    EndpointAgreement here there a b target := by
  unfold checkEndpointCompatibility at compatible
  dsimp only at compatible
  split_ifs at compatible with peers valid semantic scope host capability types
  any_goals first | contradiction | cases compatible
  simp only [not_or, ne_eq, not_not] at valid semantic scope types
  exact {
    valid
    kind := semantic.1
    name := semantic.2.1
    role := semantic.2.2.1
    remote := scope
    hosts := host
    capable := checkCapability_compatible compatible
    types }

/-- A Topic route: the provider's side publishes, the consumer's side receives. -/
structure TopicRoute (publishing receiving : PeerProfile)
    (publisher subscriber : NetworkEndpointMetadata) : Prop where
  routable : CanRouteTopic publisher subscriber true
  publishes : publishing.capabilities &&& Capability.remoteTopic ≠ 0
  receives : receiving.capabilities &&& Capability.remoteTopic ≠ 0 ∨
    receiving.capabilities &&& Capability.remoteTopicReceiver ≠ 0

theorem has_remoteTopic {set : CapabilitySet} (bit : set.toBitVec[4] = true) :
    set &&& Capability.remoteTopic ≠ 0 := by
  intro none
  have cleared := congrArg (fun s : CapabilitySet => s.toBitVec[4]) none
  simp [Capability.remoteTopic, bit] at cleared

theorem EndpointAgreement.topicRoute (agreed : EndpointAgreement here there a b target)
    (topic : a.kind = .topic) (provider : a.role = .provider) : TopicRoute here there a b := by
  have consumer : b.role = .consumer := by
    have differ := agreed.role
    cases role : b.role <;> simp_all
  have bits : (receiverProfile here a).capabilities.toBitVec[4] = true ∧
      (receiverProfile there b).capabilities.toBitVec[4] = true := by
    have bit := congrArg (fun s : CapabilitySet => s.toBitVec[4]) agreed.capable
    simpa [topic, EndpointKind.capability, Capability.remoteTopic, Capability.known] using bit
  constructor
  case routable =>
    exact ⟨rfl, agreed.valid.1, agreed.valid.2, topic, agreed.kind ▸ topic, provider, consumer,
      agreed.remote.1, agreed.remote.2, agreed.hosts, agreed.name, agreed.types.1⟩
  case publishes =>
    have same : receiverProfile here a = here := if_neg (by simp [provider])
    exact has_remoteTopic (same ▸ bits.1)
  case receives =>
    by_cases receiver : there.capabilities &&& Capability.remoteTopicReceiver ≠ 0
    · exact .inr receiver
    · have same : receiverProfile there b = there := if_neg (by simp [receiver])
      exact .inl (has_remoteTopic (same ▸ bits.2))

end Pair

/-- Swapping the two sides changes nothing, and a compatible pair can be routed. -/
theorem endpoint_compatibility_symmetric_sufficient (here there : PeerProfile)
    (a b : NetworkEndpointMetadata) (policy : CompatibilityPolicy) (target : TargetScope) :
    checkEndpointCompatibility here there a b policy target =
        checkEndpointCompatibility there here b a policy target ∧
      ((checkEndpointCompatibility here there a b policy target).Compatible →
        (a.role = .provider ∧ b.role ≠ .provider ∨ a.role ≠ .provider ∧ b.role = .provider) ∧
        a.scope = .remote ∧ b.scope = .remote ∧
        a.identity.runtime.host ≠ b.identity.runtime.host ∧
        a.valueType = b.valueType ∧ a.requestType = b.requestType ∧
        a.responseType = b.responseType ∧ a.feedbackType = b.feedbackType ∧
        (a.kind = .topic ∨ b.kind = .topic →
          (a.role = .provider → TopicRoute here there a b) ∧
          (b.role = .provider → TopicRoute there here b a))) := by
  have swapped := checkEndpointCompatibility_comm here there a b policy target
  refine ⟨swapped, fun compatible => ?_⟩
  have agreed := EndpointAgreement.of_compatible compatible
  have roles : a.role = .provider ∧ b.role ≠ .provider ∨
      a.role ≠ .provider ∧ b.role = .provider := by
    have differ := agreed.role
    cases left : a.role <;> cases right : b.role <;> simp_all
  refine ⟨roles, agreed.remote.1, agreed.remote.2, agreed.hosts, agreed.types.1, agreed.types.2.1,
    agreed.types.2.2.1, agreed.types.2.2.2, fun topic => ⟨?_, ?_⟩⟩
  · exact agreed.topicRoute (topic.elim id agreed.kind.trans)
  · rw [swapped] at compatible
    exact (EndpointAgreement.of_compatible compatible).topicRoute
      (topic.elim agreed.kind.symm.trans id)

/-- An endpoint of the Topic `/x` on some host. -/
def pairEndpoint (host : UInt8) (role : EndpointRole) : NetworkEndpointMetadata where
  identity := ⟨⟨.ofByte host, .ofByte 1, 1, 1⟩, 1⟩
  name := [47, 120]
  elementName := [120]
  role := role
  scope := .remote
  valueType := ⟨1, 1, 1, 1⟩

/-- A publisher and a tool that can only receive. -/
theorem endpoint_compatibility_receiver :
    CanRouteTopic (pairEndpoint 1 .provider) (pairEndpoint 2 .consumer) true := by
  have agreed := (endpoint_compatibility_symmetric_sufficient { capabilities := 0x31 }
    { capabilities := 0x1021 } (pairEndpoint 1 .provider) (pairEndpoint 2 .consumer)
    .networkProtocol .endpoint).2 (by decide +kernel)
  obtain ⟨-, -, -, -, -, -, -, -, routes⟩ := agreed
  exact ((routes (.inl rfl)).1 rfl).routable

end Kcf.Network
