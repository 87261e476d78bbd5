import Kcf.Network.Discovery.Protocol

/-!
# A discovery node

`PeerDiscovery::Impl`: the peer table, the node's own metadata, and the handlers
`Tick`, `Announce` and `Receive`.  Times are nanoseconds of the steady clock.  A
handler returns the new node and the packets it passes to `Send`.
-/

namespace Kcf.Network.Discovery

open Kcf.Wire Errno

/-- `std::numeric_limits<std::uint64_t>::max()`. -/
def maxUInt64 : UInt64 := 0xffffffffffffffff

/-- Nanoseconds of one millisecond. -/
def millisecond : Int := 1000000

/-- `sockaddr_in`, with both numbers in host order. -/
structure Address where
  ip : UInt32 := 0
  port : UInt16 := 0
  deriving DecidableEq

/-- The source addresses `Drain` accepts. -/
def Address.Usable (address : Address) : Prop :=
  address.port ≠ 0 ∧ address.ip ≠ 0 ∧ address.ip &&& 0xf0000000 ≠ 0xe0000000
  deriving Decidable

inductive PeerState where
  | online | lost
  deriving DecidableEq

/-- `PeerInfo`. -/
structure PeerInfo where
  host : HostIdentity := .zero
  bootId : HostIdentity := .zero
  sessionId : UInt64 := 0
  address : Address := {}
  lastSeen : Int := 0
  metadataRevision : UInt64 := 0
  state : PeerState := .online
  profile : PeerProfile := {}
  compatibility : CompatibilityResult := {}
  metadataReady : Bool := false
  endpoints : List NetworkEndpointMetadata := []
  deriving DecidableEq

/-- `PeerDiscovery::Impl::Entry`. -/
structure Entry where
  info : PeerInfo := {}
  address : Address := {}
  sequence : UInt64 := 0
  requestId : UInt64 := 0
  size : UInt32 := 0
  count : UInt16 := 0
  staging : Bytes := []
  nextRequest : Int := 0
  nextResponse : Int := 0
  retired : List (HostIdentity × UInt64) := []
  deriving DecidableEq

/-- `DiscoveryConfig`.  Durations are in milliseconds. -/
structure Config where
  host : HostIdentity
  bootId : HostIdentity
  profile : PeerProfile := {}
  compatibilityPolicy : CompatibilityPolicy := .networkProtocol
  multicastGroup : Address := ⟨0xefff4b43, 37651⟩
  announceInterval : Int := 1000
  peerTimeout : Int := 4000
  metadataRetry : Int := 200
  maxPeers : Nat := 64

/-- `peer_timeout` on the clock. -/
def Config.timeout (config : Config) : Int := config.peerTimeout * millisecond

/-- `PeerDiscovery::Impl` while it is started. -/
structure Node where
  config : Config
  peers : List Entry := []
  metadata : Bytes
  baseMetadata : List NetworkEndpointMetadata
  consumers : List NetworkEndpointMetadata := []
  endpointCount : UInt16
  revision : UInt64 := 1
  sequence : UInt64 := 0
  session : UInt64
  requestCounter : UInt64 := 0
  dirty : Bool := true
  nextAnnounce : Int := 0
  running : Bool := true

/-- A datagram on its way to one address. -/
structure Datagram where
  bytes : Bytes
  destination : Address

/-- `Send`, up to the `sendto` call. -/
def send (p : Packet) (destination : Address) : List Datagram :=
  match encodePacket p with
  | .ok bytes => [⟨bytes, destination⟩]
  | .error _ => []

/-- A packet and the address it is passed to `Send` with. -/
abbrev Outgoing := Packet × Address

/-- `Send` on each of them. -/
def sendAll (packets : List Outgoing) : List Datagram := packets.flatMap fun o => send o.1 o.2

/-- Overwrite one entry of the table. -/
def Node.setPeer (node : Node) (index : Nat) (e : Entry) : Node :=
  { node with peers := node.peers.set index e }

/-- `Packet(kind)`. -/
def Node.packet (node : Node) (kind : Message) : Packet :=
  { kind, host := node.config.host, bootId := node.config.bootId, sessionId := node.session }

/-- `BeginMetadata`. -/
def Node.beginMetadata (node : Node) (e : Entry) : Node × Entry :=
  let e := { e with info := { e.info with metadataReady := false, endpoints := [] }, staging := [] }
  if node.requestCounter = maxUInt64 then ({ node with running := false }, e)
  else
    ({ node with requestCounter := node.requestCounter + 1 },
      { e with requestId := node.requestCounter + 1, nextRequest := 0 })

/-! ## Tick -/

/-- An `ONLINE` entry that has been silent for too long becomes `LOST`. -/
def Entry.expire (config : Config) (now : Int) (e : Entry) : Entry :=
  if e.info.state = .online ∧ now - e.info.lastSeen ≥ config.timeout then
    { e with
      info := { e.info with state := .lost, metadataReady := false, endpoints := [] }
      staging := [] }
  else e

/-- The request for the rest of an entry's metadata. -/
def Node.requestTo (node : Node) (e : Entry) : Packet :=
  { node.packet .metadataRequest with
    requestId := e.requestId
    revision := e.info.metadataRevision
    offset := UInt32.ofNat e.staging.length }

/-- The metadata request that is due for an entry, if any. -/
def Node.requestMetadata (node : Node) (now : Int) (e : Entry) : Entry × List Outgoing :=
  if e.info.state = .online ∧ ¬e.info.metadataReady ∧ now ≥ e.nextRequest then
    ({ e with nextRequest := now + node.config.metadataRetry * millisecond },
      [(node.requestTo e, e.address)])
  else (e, [])

/-- The loop of `Tick` over the peers. -/
def Node.tickPeers (node : Node) (now : Int) : Node × List Outgoing :=
  let visited := node.peers.map fun e => node.requestMetadata now (e.expire node.config now)
  ({ node with peers := visited.map (·.1) }, visited.flatMap (·.2))

/-- The announce of `Tick`. -/
def Node.announcement (node : Node) : Packet :=
  { node.packet .announce with
    sequence := node.sequence + 1
    revision := node.revision
    metadataSize := UInt32.ofNat node.metadata.length
    endpointCount := node.endpointCount
    profile := node.config.profile }

/-- `Tick`. -/
def Node.tick (node : Node) (now : Int) : Node × List Outgoing :=
  if node.dirty ∨ now ≥ node.nextAnnounce then
    if node.sequence = maxUInt64 then ({ node with running := false }, [])
    else
      let visited := { node with
        sequence := node.sequence + 1
        dirty := false
        nextAnnounce := now + node.config.announceInterval * millisecond }.tickPeers now
      (visited.1, (node.announcement, node.config.multicastGroup) :: visited.2)
  else node.tickPeers now

/-! ## Announce -/

/-- What `Announce` decided about one entry. -/
inductive Verdict where
  | rejected
  /-- accepted; `refresh` asks for the metadata again -/
  | accepted (refresh : Bool)
  deriving DecidableEq

/-- `changed`: the entry belongs to another incarnation of the host. -/
def Entry.changed (e : Entry) (p : Packet) : Prop :=
  e.info.sessionId ≠ 0 ∧ (e.info.sessionId ≠ p.sessionId ∨ e.info.bootId ≠ p.bootId)
  deriving Decidable

/-- The entry after a change of incarnation, before the announce is examined. -/
def Entry.retire (e : Entry) : Entry :=
  let retired := e.retired ++ [(e.info.bootId, e.info.sessionId)]
  { e with
    retired := if retired.length > 8 then retired.drop 1 else retired
    sequence := 0
    info := { e.info with metadataRevision := 0 }
    nextResponse := 0 }

/-- The fields an accepted announce writes. -/
def Entry.accept (config : Config) (e : Entry) (p : Packet) (address : Address) (now : Int) :
    Entry :=
  { e with
    info := { e.info with
      profile := p.profile
      compatibility := checkPeerCompatibility config.profile p.profile config.compatibilityPolicy
      host := p.host
      bootId := p.bootId
      sessionId := p.sessionId
      lastSeen := now
      state := .online
      metadataRevision := p.revision
      address := address }
    address := address
    sequence := p.sequence
    size := p.metadataSize
    count := p.endpointCount }

/-- `Announce` from the comparison of sequences on. -/
def Entry.offer (config : Config) (e : Entry) (changed : Prop) [Decidable changed] (p : Packet)
    (address : Address) (now : Int) : Entry × Verdict :=
  if p.sequence ≤ e.sequence ∨ p.revision < e.info.metadataRevision then (e, .rejected)
  else if e.sequence ≠ 0 ∧ p.revision = e.info.metadataRevision ∧
      (e.size ≠ p.metadataSize ∨ e.count ≠ p.endpointCount) then (e, .rejected)
  else if (e.sequence ≠ 0 ∧ e.address ≠ address) ∧ now - e.info.lastSeen < config.timeout then
    (e, .rejected)
  else
    (e.accept config p address now,
      .accepted (e.info.sessionId = 0 ∨ changed ∨ (e.sequence ≠ 0 ∧ e.address ≠ address) ∨
        e.info.state = .lost ∨ p.revision ≠ e.info.metadataRevision))

/-- `Announce` once the entry of the host is found or made. -/
def Entry.announce (config : Config) (e : Entry) (p : Packet) (address : Address) (now : Int) :
    Entry × Verdict :=
  if e.info.sessionId ≠ 0 ∧ ¬e.changed p ∧ e.info.profile ≠ p.profile then (e, .rejected)
  else if e.changed p then
    if now - e.info.lastSeen < config.timeout then (e, .rejected)
    else if (p.bootId, p.sessionId) ∈ e.retired then (e, .rejected)
    else e.retire.offer config True p address now
  else e.offer config False p address now

/-- One round of the search for the entry to evict. -/
def olderLost (best : Option (Entry × Nat)) (candidate : Entry × Nat) : Option (Entry × Nat) :=
  if candidate.1.info.state = .lost ∧
      best.all (fun found => candidate.1.info.lastSeen < found.1.info.lastSeen) then
    some candidate
  else best

/-- Index of the `LOST` entry that has been silent longest. -/
def oldestLost (peers : List Entry) : Option Nat := (peers.zipIdx.foldl olderLost none).map (·.2)

/-- The position of a host's entry. -/
def findPeer (peers : List Entry) (host : HostIdentity) : Option Nat :=
  peers.findIdx? fun e => e.info.host = host

/-- The table with a place for the host, and that place; a full table gives up
its oldest `LOST` entry. -/
def placeFor (config : Config) (peers : List Entry) (host : HostIdentity) :
    Option (List Entry × Nat) :=
  match findPeer peers host with
  | some index => some (peers, index)
  | none =>
    if peers.length = config.maxPeers then
      (oldestLost peers).map fun index =>
        (peers.eraseIdx index ++ [{}], (peers.eraseIdx index).length)
    else some (peers ++ [{}], peers.length)

/-- `BeginMetadata` where the announce asks for it. -/
def Node.refresh (node : Node) (refresh : Bool) (e : Entry) : Node × Entry :=
  if refresh then node.beginMetadata e else (node, e)

/-- `Announce`.  The flag tells whether the announce was accepted. -/
def Node.announce (node : Node) (p : Packet) (address : Address) (now : Int) : Node × Bool :=
  match placeFor node.config node.peers p.host with
  | none => (node, false)
  | some (peers, index) =>
    let (e, verdict) := (peers.getD index {}).announce node.config p address now
    match verdict with
    | .rejected => ({ node with peers := peers.set index e }, false)
    | .accepted refresh =>
      let (node, e) := node.refresh refresh e
      ({ node with peers := peers.set index e }, true)

/-! ## Receive -/

/-- The response to a request. -/
def Node.responseTo (node : Node) (p : Packet) : Packet :=
  { node.packet .metadataResponse with
    requestId := p.requestId
    revision := node.revision
    offset := p.offset
    metadataSize := UInt32.ofNat node.metadata.length
    chunk := (node.metadata.drop p.offset.toNat).take
      (min chunkSize (node.metadata.length - p.offset.toNat)) }

/-- `METADATA_REQUEST` from a known peer. -/
def Node.answerRequest (node : Node) (index : Nat) (e : Entry) (p : Packet) (address : Address)
    (now : Int) : Node × List Outgoing :=
  if p.revision ≠ node.revision ∨ p.offset.toNat ≥ node.metadata.length ∨ now < e.nextResponse then
    (node, [])
  else
    (node.setPeer index { e with nextResponse := now + 10 * millisecond },
      [(node.responseTo p, address)])

/-- A transfer that did not decode starts again after the retry time. -/
def Node.restartMetadata (node : Node) (index : Nat) (e : Entry) (now : Int) : Node :=
  let (node, e) := node.beginMetadata e
  node.setPeer index { e with nextRequest := now + node.config.metadataRetry * millisecond }

/-- `METADATA_RESPONSE` from a known peer. -/
def Node.takeResponse (node : Node) (index : Nat) (e : Entry) (p : Packet) (now : Int) : Node :=
  if e.info.metadataReady ∨ p.requestId ≠ e.requestId ∨ p.revision ≠ e.info.metadataRevision ∨
      p.metadataSize ≠ e.size ∨ p.offset.toNat ≠ e.staging.length then node
  else
    let e := { e with staging := e.staging ++ p.chunk }
    if e.staging.length = e.size.toNat then
      match decodeMetadata e.staging with
      | .ok decoded =>
        if decoded.length ≠ e.count.toNat ∨ ¬ValidMetadata decoded p.host p.bootId then
          node.restartMetadata index e now
        else
          node.setPeer index { e with
            info := { e.info with endpoints := decoded, metadataReady := true }
            staging := [] }
      | .error _ => node.restartMetadata index e now
    else node.setPeer index { e with nextRequest := 0 }

/-- `Receive`. -/
def Node.receive (node : Node) (p : Packet) (address : Address) (multicast : Bool) (now : Int) :
    Node × List Outgoing :=
  if p.host = node.config.host then (node, [])
  else if multicast then
    if p.kind = .announce then ((node.announce p address now).1, []) else (node, [])
  else
    match findPeer node.peers p.host with
    | none => (node, [])
    | some index =>
      let e := node.peers.getD index {}
      if e.info.state ≠ .online ∨ e.info.bootId ≠ p.bootId ∨ e.info.sessionId ≠ p.sessionId ∨
          e.address ≠ address then (node, [])
      else
        match p.kind with
        | .metadataRequest => node.answerRequest index e p address now
        | .metadataResponse => (node.takeResponse index e p now, [])
        | .announce => (node, [])

/-- One datagram out of `Drain`. -/
def Node.drain (node : Node) (bytes : Bytes) (address : Address) (multicast : Bool) (now : Int) :
    Node × List Outgoing :=
  if ¬address.Usable then (node, [])
  else
    match decodePacket bytes with
    | .error _ => (node, [])
    | .ok p => node.receive p address multicast now

/-! ## The node's own metadata -/

/-- `Start`, with the session drawn by `getrandom`. -/
def start (config : Config) (endpoints : List NetworkEndpointMetadata) (session : UInt64) :
    Except Int Node :=
  if ¬(checkPeerCompatibility config.profile config.profile config.compatibilityPolicy).Compatible ∨
      config.profile.capabilities &&& Capability.discovery = 0 ∨
      ¬ValidMetadata endpoints config.host config.bootId ∨
      config.multicastGroup.port = 0 ∨
      config.multicastGroup.ip &&& 0xff000000 ≠ 0xef000000 ∨
      config.announceInterval < 20 ∨ config.announceInterval > 60000 ∨
      config.peerTimeout < config.announceInterval * 3 ∨ config.peerTimeout > 300000 ∨
      config.metadataRetry < 20 ∨ config.metadataRetry > config.peerTimeout ∨
      config.maxPeers = 0 ∨ config.maxPeers > 64 then .error (-einval)
  else
    match encodeMetadata endpoints with
    | .error error => .error error
    | .ok bytes =>
      if session = 0 then .error (-eio)
      else .ok
        { config
          metadata := bytes
          baseMetadata := endpoints
          endpointCount := UInt16.ofNat endpoints.length
          session }

/-- The last lines of the three updates: new metadata under a new revision. -/
def Node.publish (node : Node) (base consumers : List NetworkEndpointMetadata) (bytes : Bytes) :
    Node :=
  { node with
    metadata := bytes
    baseMetadata := base
    consumers := consumers
    endpointCount := UInt16.ofNat (base ++ consumers).length
    revision := node.revision + 1
    dirty := true }

/-- `UpdateMetadata`. -/
def Node.updateMetadata (node : Node) (endpoints : List NetworkEndpointMetadata) : Node × Int :=
  if ¬ValidMetadata endpoints node.config.host node.config.bootId then (node, -einval)
  else if ¬ValidMetadata (endpoints ++ node.consumers) node.config.host node.config.bootId then
    (node, -einval)
  else
    match encodeMetadata (endpoints ++ node.consumers) with
    | .error error => (node, error)
    | .ok bytes =>
      if bytes = node.metadata then (node, 0)
      else if node.revision = maxUInt64 then (node, -eoverflow)
      else (node.publish endpoints node.consumers bytes, 0)

/-- `RegisterConsumer`. -/
def Node.registerConsumer (node : Node) (session : UInt64) (endpoint : NetworkEndpointMetadata) :
    Node × Int :=
  if node.session ≠ session then (node, -estale)
  else if endpoint.kind ≠ .topic ∨ endpoint.role ≠ .consumer ∨ endpoint.scope ≠ .remote then
    (node, -einval)
  else if node.consumers.length ≥ 64 then (node, -enospc)
  else if ¬ValidMetadata (node.baseMetadata ++ node.consumers ++ [endpoint]) node.config.host
      node.config.bootId then (node, -einval)
  else
    match encodeMetadata (node.baseMetadata ++ node.consumers ++ [endpoint]) with
    | .error error => (node, error)
    | .ok bytes =>
      if node.revision = maxUInt64 then (node, -eoverflow)
      else (node.publish node.baseMetadata (node.consumers ++ [endpoint]) bytes, 0)

/-- `UnregisterConsumer`. -/
def Node.unregisterConsumer (node : Node) (session : UInt64) (endpoint : RemoteEndpointIdentity) :
    Node × Int :=
  if node.session ≠ session then (node, -estale)
  else
    match node.consumers.findIdx? fun e => e.identity = endpoint with
    | none => (node, -enoent)
    | some index =>
      match encodeMetadata (node.baseMetadata ++ node.consumers.eraseIdx index) with
      | .error error => (node, error)
      | .ok bytes =>
        if node.revision = maxUInt64 then (node, -eoverflow)
        else (node.publish node.baseMetadata (node.consumers.eraseIdx index) bytes, 0)

/-! ## Events -/

/-- What can happen to a started node. -/
inductive Event where
  | tick (now : Int)
  | datagram (bytes : Bytes) (address : Address) (multicast : Bool) (now : Int)
  | updateMetadata (endpoints : List NetworkEndpointMetadata)
  | registerConsumer (session : UInt64) (endpoint : NetworkEndpointMetadata)
  | unregisterConsumer (session : UInt64) (endpoint : RemoteEndpointIdentity)

/-- The clock after an event; the calls of the node's owner take no time. -/
def Event.time (clock : Int) : Event → Int
  | .tick now => now
  | .datagram _ _ _ now => now
  | _ => clock

/-- One event of a node; a node that has stopped ignores it. -/
def Node.handle (node : Node) (event : Event) : Node × List Outgoing :=
  if node.running then
    match event with
    | .tick now => node.tick now
    | .datagram bytes address multicast now => node.drain bytes address multicast now
    | .updateMetadata endpoints => ((node.updateMetadata endpoints).1, [])
    | .registerConsumer session endpoint => ((node.registerConsumer session endpoint).1, [])
    | .unregisterConsumer session endpoint => ((node.unregisterConsumer session endpoint).1, [])
  else (node, [])

/-- An announce with the address it came from and the time it was accepted at. -/
structure Acceptance where
  packet : Packet
  address : Address
  time : Int

/-- The announce that an event makes the node accept. -/
def Node.accepts (node : Node) : Event → Option Acceptance
  | .datagram bytes address true now =>
    if node.running ∧ address.Usable then
      match decodePacket bytes with
      | .ok p =>
        if p.host ≠ node.config.host ∧ p.kind = .announce ∧ (node.announce p address now).2
        then some ⟨p, address, now⟩ else none
      | .error _ => none
    else none
  | _ => none

end Kcf.Network.Discovery
