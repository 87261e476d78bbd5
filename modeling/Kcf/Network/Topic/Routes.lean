import Kcf.Network.Discovery.Route
import Kcf.Network.Topic.Protocol

/-!
# Outgoing routes

The records of the sending side of `TopicDataPlane::Impl`, the gates that its worker
asks, and what `Transmit` does to one route.  What shared memory, the readers and the
socket answer is an input.
-/

namespace Kcf.Network.Topic

open Kcf.Wire
open Discovery (PeerInfo)

/-- `TopicRouteState`. -/
inductive RouteState where
  | waitingSubscriber | active | rejected | closed
  deriving DecidableEq

/-- The counters of an outgoing route in `TopicRouteInfo`. -/
structure RouteStats where
  state : RouteState := .active
  error : Int := 0
  packetsSent : UInt64 := 0
  dropped : UInt64 := 0
  localSamplesSkipped : UInt64 := 0

/-- `Outgoing`.  Times are ticks of the steady clock; a `next` of zero is unset. -/
structure Outgoing where
  packet : Packet
  expires : Int
  next : Int := 0
  freshStart : Bool
  baseline : UInt64
  address : UInt32
  port : UInt16
  stats : RouteStats := {}

/-- What the sending side reads of `TopicConfig`.  The period of a name stands for
`max_hz` and the rate limits. -/
structure Config where
  port : UInt16 := 37652
  maxRoutes : Nat := 64
  receiveOnly : Bool := false
  freshStartTopics : List Bytes := []
  period : Bytes → Int := fun _ => 20000000

/-- Whether a Topic is listed in `fresh_start_topics`. -/
def Config.freshStart (config : Config) (name : Bytes) : Bool :=
  decide (name ∈ config.freshStartTopics)

/-- `Topic(endpoint, PROVIDER)`. -/
def IsProvider (endpoint : NetworkEndpointMetadata) : Prop :=
  endpoint.kind = .topic ∧ endpoint.role = .provider ∧ endpoint.scope = .remote
  deriving Decidable

/-- `SameRoute`. -/
def SameRoute (a b : Packet) : Prop :=
  a.source = b.source ∧ a.destination = b.destination ∧ a.sourceSession = b.sourceSession ∧
    a.destinationSession = b.destinationSession ∧ a.routeId = b.routeId
  deriving Decidable

/-- Routes between the same two endpoints. -/
def SamePair (a b : Packet) : Prop := a.source = b.source ∧ a.destination = b.destination
  deriving Decidable

/-- `Peer`. -/
def findPeer (peers : List PeerInfo) (host : HostIdentity) : Option PeerInfo :=
  peers.find? fun peer => peer.host = host

/-- `Find`. -/
def findEntry (entries : List NetworkEndpointMetadata) (identity : RemoteEndpointIdentity) :
    Option NetworkEndpointMetadata :=
  entries.find? fun entry => entry.identity = identity

/-! ## Gates -/

/-- `supports` in `PeerGate`. -/
def Supports (profile : PeerProfile) : Prop :=
  profile.capabilities &&& Capability.targetEndpoint ≠ 0 ∧
    profile.capabilities &&& (Capability.remoteTopic ||| Capability.remoteTopicReceiver) ≠ 0
  deriving Decidable

/-- `PeerGate`. -/
def peerGate (config : Discovery.Config) (peer : PeerInfo) : CompatibilityResult :=
  let result := checkPeerCompatibility config.profile peer.profile config.compatibilityPolicy
  if peer.state ≠ .online then { result with reason := .peerLost }
  else if result.Compatible ∧ (¬Supports peer.profile ∨ ¬Supports config.profile) then
    { result with reason := .capabilityMissing }
  else result

/-- `Gate`. -/
def Gate (config : Discovery.Config) (peer : PeerInfo) (here : NetworkEndpointMetadata)
    (remote : RemoteEndpointIdentity) : Prop :=
  (peerGate config peer).Compatible ∧
    (Discovery.checkRouteCompatibility config peer here remote .endpoint).Compatible
  deriving Decidable

/-! ## Refresh -/

/-- The test by which `Refresh` keeps an outgoing route. -/
def Retains (config : Discovery.Config) (peers : List PeerInfo)
    (entries : List NetworkEndpointMetadata) (r : Outgoing) : Prop :=
  ∃ peer ∈ findPeer peers r.packet.destination.runtime.host,
    ∃ entry ∈ findEntry entries r.packet.source,
      peer.sessionId = r.packet.destinationSession ∧ IsProvider entry ∧
        Gate config peer entry r.packet.destination
  deriving Decidable

/-- A kept route closes when its interest has run out. -/
def Outgoing.lapse (now : Int) (r : Outgoing) : Outgoing :=
  if now ≥ r.expires then { r with stats := { r.stats with state := .closed } } else r

/-! ## Interest -/

/-- What `Interest` learns from shared memory: `ValidateLocalTopicEndpoint`, `Open` of
the reader and `FreshBaseline`. -/
structure OpenResult where
  validated : Int := 0
  opened : Int := 0
  baseline : Except Int UInt64 := .ok 0

/-- The reader of a route opens, with its baseline where one is asked for. -/
def OpenResult.Opens (result : OpenResult) (config : Config) (name : Bytes) : Prop :=
  result.opened = 0 ∧ (name ∈ config.freshStartTopics → result.baseline.isOk = true)
  deriving Decidable

/-- The route refuses an interest between its endpoints: it is of the same session,
and the only one of a receive-only registration or not older. -/
def Outgoing.Refuses (receiver : Bool) (packet : Packet) (r : Outgoing) : Prop :=
  r.packet.destinationSession = packet.destinationSession ∧
    (receiver ∨ r.packet.routeId ≥ packet.routeId)
  deriving Decidable

/-- The peer only receives Topics. -/
def IsReceiver (peer : PeerInfo) : Bool :=
  peer.profile.capabilities &&& Capability.remoteTopicReceiver ≠ 0

/-- 750 ms in ticks of one nanosecond. -/
def lease : Int := 750000000

/-! ## Transmit -/

/-- What one round of `Transmit` meets: the two clock readings, the local endpoint,
the latest sample, its encoding, and the result of `sendto`. -/
structure Attempt where
  due : Int
  finish : Int
  validated : Int := 0
  latest : Except Int UInt64
  encoded : Except Int Bytes
  sent : Int := 0

/-- The next deadline keeps the phase of the route and skips missed periods. -/
def nextDeadline (next due finish period : Int) : Int :=
  let deadline := next + (due - next).tdiv period * period
  deadline + ((finish - deadline).tdiv period + 1) * period

/-- A sample is taken: the packet that carries it, if its payload can be encoded. -/
def Outgoing.sample (r : Outgoing) (sampleSequence : UInt64) (attempt : Attempt) :
    Outgoing × Option Packet :=
  let skipped :=
    if r.packet.sampleSequence ≠ 0 then
      r.stats.localSamplesSkipped + (sampleSequence - r.packet.sampleSequence - 1)
    else r.stats.localSamplesSkipped
  let packet := { r.packet with sampleSequence, sequence := r.packet.sequence + 1 }
  let stats := { r.stats with localSamplesSkipped := skipped }
  let failed (packet : Packet) (code : Int) : Outgoing :=
    { r with packet, stats := { stats with dropped := stats.dropped + 1, error := code } }
  match attempt.encoded with
  | .error code => (failed packet code, none)
  | .ok payload =>
    let packet := { packet with payload }
    match encodePacket packet with
    | .error code => (failed packet code, none)
    | .ok _ =>
      if attempt.sent ≠ 0 then (failed packet attempt.sent, some packet)
      else
        ({ r with
            packet
            stats := { stats with packetsSent := stats.packetsSent + 1, error := 0 } },
          some packet)

/-- `Advance`: the deadline after this attempt. -/
def Outgoing.reschedule (config : Config) (attempt : Attempt) (r : Outgoing) : Outgoing :=
  { r with
    next := nextDeadline (if r.next = 0 then attempt.due else r.next) attempt.due attempt.finish
      (config.period r.packet.name) }

/-- One route in `Transmit`, and the packet it hands to `sendto`. -/
def Outgoing.transmit (config : Config) (attempt : Attempt) (r : Outgoing) :
    Outgoing × Option Packet :=
  if r.stats.state ≠ .active ∨ attempt.due < r.next then (r, none)
  else
    let r := r.reschedule config attempt
    match if attempt.validated ≠ 0 then .error attempt.validated else attempt.latest with
    | .error code =>
      if code ≠ -Errno.eagain then ({ r with stats := { r.stats with error := code } }, none)
      else (r, none)
    | .ok sampleSequence =>
      if r.freshStart ∧ sampleSequence ≤ r.baseline then (r, none)
      else if sampleSequence = r.packet.sampleSequence then (r, none)
      else if sampleSequence < r.packet.sampleSequence ∨
          r.packet.sequence = Discovery.maxUInt64 then
        ({ r with stats := { r.stats with error := -Errno.estale } }, none)
      else r.sample sampleSequence attempt

end Kcf.Network.Topic
