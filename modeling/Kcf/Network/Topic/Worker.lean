import Kcf.Network.Control.Node
import Kcf.Network.Value
import Kcf.Network.Diagnostics

/-!
# The worker of the Topic data plane

`TopicDataPlane::Impl` as a whole: the routes in both directions, the proxies and
subscriptions behind the receiving ones, the notices and the history that `Export`
publishes, and the cycles of `Start` and the end of the worker.  Shared memory, the
socket, the clock and the discovery answer as they like.
-/

namespace Kcf.Network

open Kcf.Wire Errno

/-- `LocalEndpoint`: metadata and the descriptor of its value. -/
structure LocalEndpoint where
  metadata : NetworkEndpointMetadata := {}
  descriptor : TypeDescriptor := {}

/-- `LayoutId`. -/
def TypeDescriptor.layoutId (d : TypeDescriptor) : UInt64 :=
  let number (value : UInt64) : Bytes := (Writer.u64 value).reverse
  let name (text : CString) : Bytes := text.bytes ++ [0]
  fnv (number d.typeId ++ name d.typeName ++ number d.payloadSize.toUInt64 ++
    number d.payloadAlignment.toUInt64 ++ number (UInt64.ofNat d.fields.length) ++
    d.fields.flatMap fun field =>
      name field.name ++ number field.kind.code.toUInt64 ++ number field.offset.toUInt64 ++
        number field.elementSize.toUInt64 ++ number field.arrayCount.toUInt64)

namespace Topic

open Discovery (PeerInfo)

/-! ## Records of routes -/

/-- `Info`. -/
def Packet.info (p : Packet) (sending : Bool) : TopicRouteInfo where
  source := p.source
  destination := p.destination
  name := p.name
  sourceSession := p.sourceSession
  destinationSession := p.destinationSession
  routeId := p.routeId
  sending
  state := .active

/-- The `stats` of an outgoing route. -/
def Outgoing.info (r : Outgoing) : TopicRouteInfo :=
  { r.packet.info true with
    state := r.stats.state
    error := Int32.ofInt r.stats.error
    counters :=
      { packetsSent := r.stats.packetsSent
        dropped := r.stats.dropped
        localSamplesSkipped := r.stats.localSamplesSkipped } }

/-- `Archive`: the oldest of 64 records makes room. -/
def archive (history : List TopicRouteInfo) (info : TopicRouteInfo) : List TopicRouteInfo :=
  (if history.length = 64 then history.drop 1 else history) ++ [{ info with state := .closed }]

def archiveAll (history routes : List TopicRouteInfo) : List TopicRouteInfo :=
  routes.foldl archive history

/-- The record that `Notice` makes about a source. -/
def noticeOf (source : NetworkEndpointMetadata) (code : Int32) : TopicRouteInfo where
  source := source.identity
  name := source.name
  error := code
  state := .rejected

/-- `Notice`: what comes after 64 notices is not told. -/
def post (notices : List TopicRouteInfo) (info : TopicRouteInfo) : List TopicRouteInfo :=
  if notices.length ≥ 64 then notices else notices ++ [info]

/-! ## State -/

/-- `Incoming`.  `accepted` is not stored by the program: it holds sequence and sample
sequence of every `DATA` packet that the route has accepted, oldest first. -/
structure Incoming where
  subscription : Option UInt64 := none
  packet : Packet
  consumer : LocalEndpoint
  proxy : Nat := 0
  interest : Int := 0
  stats : TopicRouteInfo
  latest : Option Packet := none
  accepted : List (UInt64 × UInt64) := []

/-- `Outgoing`, and the samples it has taken so far, oldest first, which the program
does not store. -/
structure SendRoute where
  route : Outgoing
  taken : List UInt64 := []

/-- `Proxy`. -/
structure Proxy where
  name : Bytes
  source : RemoteEndpointIdentity
  descriptor : TypeDescriptor

/-- `RemoteTopicSubscription::State`; `live` tells whether its writer exists. -/
structure Subscription where
  id : UInt64
  source : NetworkEndpointMetadata
  consumer : NetworkEndpointMetadata
  descriptor : TypeDescriptor
  localSession : UInt64
  sourceSession : UInt64
  live : Bool := true

/-- What `Start` is given. -/
structure Setup where
  topic : Config := {}
  localTypes : List (Bytes × TypeDescriptor) := []
  maxProxies : Nat := 32
  remoteTopics : List Bytes := []
  discovery : Discovery.Config
  self : RemoteRuntimeIdentity := {}
  /-- the byte order of the machine -/
  little : Bool := true

/-- `TopicDataPlane::Impl`. -/
structure Worker where
  setup : Setup
  running : Bool := false
  session : UInt64 := 0
  peers : List PeerInfo := []
  entries : List LocalEndpoint := []
  proxies : List Proxy := []
  incoming : List Incoming := []
  outgoing : List SendRoute := []
  subscriptions : List Subscription := []
  history : List TopicRouteInfo := []
  notices : List TopicRouteInfo := []
  nextRoute : UInt64 := 0
  malformed : UInt64 := 0
  stale : UInt64 := 0
  resourceDrops : UInt64 := 0
  /-- the routes of the last `Export` -/
  published : List TopicRouteInfo := []

/-- `Topic(endpoint, CONSUMER)`. -/
def IsConsumer (endpoint : NetworkEndpointMetadata) : Prop :=
  endpoint.kind = .topic ∧ endpoint.role = .consumer ∧ endpoint.scope = .remote
  deriving Decidable

/-- `Consumer`: the gateway itself as a consumer of the source. -/
def Setup.consumer (setup : Setup) (source : NetworkEndpointMetadata) :
    NetworkEndpointMetadata where
  identity := ⟨setup.self, 1⟩
  name := source.name
  elementName := "network_topic_gateway".toUTF8.toList
  role := .consumer
  scope := .remote
  valueType := source.valueType

/-- `Export`. -/
def Worker.exportRoutes (w : Worker) : Worker :=
  { w with
    published := w.history ++ w.notices ++ w.incoming.map (·.stats) ++
      w.outgoing.map (·.route.info) }

/-! ## Refresh -/

/-- What `Refresh` has found for one name so far. -/
structure Search where
  notices : List TopicRouteInfo
  found : Option (NetworkEndpointMetadata × PeerInfo) := none
  count : Nat := 0

/-- One endpoint of a peer in the search for the sources of a name. -/
def Search.visit (setup : Setup) (name : Bytes) (peer : PeerInfo) (search : Search)
    (endpoint : NetworkEndpointMetadata) : Search :=
  if endpoint.name ≠ name ∨ ¬IsProvider endpoint ∨ ¬peer.metadataReady then search
  else
    let gate := Discovery.checkRouteCompatibility setup.discovery peer (setup.consumer endpoint)
      endpoint.identity .endpoint
    if ¬gate.Compatible then
      { search with
        notices := post search.notices
          { noticeOf endpoint (errorCode eacces) with reason := gate.reason } }
    else if endpoint.valueType.payloadSize.toNat > maxWirePayload then
      { search with notices := post search.notices (noticeOf endpoint (errorCode emsgsize)) }
    else { search with found := some (endpoint, peer), count := search.count + 1 }

/-- All endpoints of all peers. -/
def search (setup : Setup) (peers : List PeerInfo) (name : Bytes) (notices : List TopicRouteInfo) :
    Search :=
  peers.foldl (fun found peer => peer.endpoints.foldl (Search.visit setup name peer) found)
    { notices }

/-- `Descriptor`: a declared type wins over the types of the local consumers. -/
def Setup.descriptor (setup : Setup) (entries : List LocalEndpoint) (name : Bytes)
    (type : TypeIdentity) : Option TypeDescriptor :=
  match setup.localTypes.find? fun binding => binding.1 = name with
  | some binding => if parameterWireType binding.2 = .ok type then some binding.2 else none
  | none =>
    (entries.find? fun e => e.metadata.name = name ∧ e.metadata.role = .consumer ∧
      e.metadata.valueType = type).map (·.descriptor)

/-- What `Refresh` learns from outside: the result of `TopicProxy::Create` for a name,
`ValidateLocalTopicEndpoint` of the local endpoint at an index, and the clock. -/
structure Answers where
  created : Bytes → Int32 × ProxyRecoveryState := fun _ => (0, .created)
  validated : Bytes → Nat → Int32 := fun _ _ => 0
  now : Int := 0

/-- `ProxyFor`: the index of the proxy, and the proxies afterwards. -/
def proxyFor (setup : Setup) (proxies : List Proxy) (source : NetworkEndpointMetadata)
    (descriptor : TypeDescriptor) (created : Int32 × ProxyRecoveryState) :
    Except (Int32 × ProxyRecoveryState) (Nat × List Proxy) :=
  match proxies.findIdx? fun proxy => proxy.name = source.name with
  | some index =>
    if (proxies[index]?.map fun proxy => proxy.descriptor.layoutId) ≠
        some descriptor.layoutId then
      .error (errorCode eprototype, .none)
    else .ok (index, proxies.modify index ({ · with source := source.identity }))
  | none =>
    if proxies.length ≥ setup.maxProxies then .error (errorCode enospc, .none)
    else if created.1 ≠ 0 then .error created
    else .ok (proxies.length, proxies ++ [⟨source.name, source.identity, descriptor⟩])

/-- The local consumer with the lowest registration that can take the source, and the
notices about those that cannot. -/
structure Choice where
  notices : List TopicRouteInfo
  consumer : Option LocalEndpoint := none

/-- One local endpoint in the choice of the consumer. -/
def Choice.visit (setup : Setup) (name : Bytes) (source : NetworkEndpointMetadata)
    (owner : PeerInfo) (descriptor : TypeDescriptor) (validated : Nat → Int32) (choice : Choice)
    (entry : LocalEndpoint × Nat) : Choice :=
  if entry.1.metadata.name ≠ name ∨ ¬IsConsumer entry.1.metadata then choice
  else if ¬Gate setup.discovery owner entry.1.metadata source.identity then
    { choice with
      notices := post choice.notices
        { noticeOf source (errorCode eprototype) with reason := .typeMismatch } }
  else if entry.1.descriptor.layoutId ≠ descriptor.layoutId then
    { choice with notices := post choice.notices (noticeOf source (errorCode eprototype)) }
  else if validated entry.2 ≠ 0 then choice
  else
    match choice.consumer with
    | none => { choice with consumer := some entry.1 }
    | some best =>
      if entry.1.metadata.identity.registrationId < best.metadata.identity.registrationId then
        { choice with consumer := some entry.1 }
      else choice

/-- What `Refresh` works on while it goes through the names; the flag of a route is its
`keep`. -/
structure Draft where
  proxies : List Proxy
  incoming : List (Incoming × Bool)
  notices : List TopicRouteInfo
  nextRoute : UInt64
  resourceDrops : UInt64

def Draft.tell (draft : Draft) (info : TopicRouteInfo) : Draft :=
  { draft with notices := post draft.notices info }

/-- The packet of a route from a source to a consumer. -/
def Worker.routePacket (w : Worker) (name : Bytes) (source : NetworkEndpointMetadata)
    (owner : PeerInfo) (consumer : LocalEndpoint) (routeId : UInt64) : Packet where
  source := source.identity
  destination := consumer.metadata.identity
  sourceSession := owner.sessionId
  destinationSession := w.session
  routeId
  name
  type := source.valueType

/-- A source with a consumer: its route stays, or a new one is added if there is room. -/
def Draft.enroll (draft : Draft) (w : Worker) (name : Bytes) (source : NetworkEndpointMetadata)
    (owner : PeerInfo) (proxy : Nat) (consumer : LocalEndpoint) : Draft :=
  let packet := w.routePacket name source owner consumer
  match draft.incoming.findIdx? fun r => SameRoute (packet r.1.packet.routeId) r.1.packet with
  | some index =>
    { draft with incoming := draft.incoming.modify index fun r => ({ r.1 with consumer }, true) }
  | none =>
    if draft.incoming.length + w.outgoing.length ≥ w.setup.topic.maxRoutes ∨
        draft.nextRoute = Discovery.maxUInt64 then
      { draft.tell (noticeOf source (errorCode enospc)) with
        resourceDrops := draft.resourceDrops + 1 }
    else
      let packet := packet (draft.nextRoute + 1)
      { draft with
        nextRoute := draft.nextRoute + 1
        incoming := draft.incoming ++
          [({ packet, consumer, proxy, stats := packet.info false }, true)] }

/-- A source whose type is known here: it needs a proxy and a consumer. -/
def Draft.attach (draft : Draft) (w : Worker) (answers : Answers) (name : Bytes)
    (source : NetworkEndpointMetadata) (owner : PeerInfo) (descriptor : TypeDescriptor) : Draft :=
  match proxyFor w.setup draft.proxies source descriptor (answers.created name) with
  | .error (code, recovery) => draft.tell { noticeOf source code with proxyRecovery := recovery }
  | .ok (proxy, proxies) =>
    let choice := w.entries.zipIdx.foldl
      (Choice.visit w.setup name source owner descriptor (answers.validated name))
      { notices := draft.notices }
    let draft := { draft with proxies, notices := choice.notices }
    match choice.consumer with
    | none => draft.tell { noticeOf source 0 with state := .waitingSubscriber }
    | some consumer => draft.enroll w name source owner proxy consumer

/-- One name of `remote_topics`. -/
def Draft.visit (w : Worker) (answers : Answers) (draft : Draft) (name : Bytes) : Draft :=
  let search := search w.setup w.peers name draft.notices
  let draft := { draft with notices := search.notices }
  match search.found with
  | none => draft
  | some (source, owner) =>
    if search.count ≠ 1 then draft.tell (noticeOf source (errorCode eaddrinuse))
    else if ∃ e ∈ w.entries, e.metadata.name = name ∧ e.metadata.role = .provider then
      draft.tell
        { noticeOf source (errorCode eexist) with proxyRecovery := .localPublisher }
    else
      match w.setup.descriptor w.entries name source.valueType with
      | none =>
        if ∃ binding ∈ w.setup.localTypes, binding.1 = name then
          draft.tell
            { noticeOf source (errorCode eprototype) with reason := .typeMismatch }
        else draft.tell (noticeOf source (errorCode enodata))
      | some descriptor => draft.attach w answers name source owner descriptor

/-- The draft at the beginning: only local providers that are too large are told. -/
def Worker.draft (w : Worker) : Draft where
  proxies := w.proxies
  incoming := w.incoming.map (·, false)
  notices := (w.entries.filter fun e => IsProvider e.metadata ∧
    e.metadata.valueType.payloadSize.toNat > maxWirePayload).foldl
      (fun notices e => post notices (noticeOf e.metadata (errorCode emsgsize))) []
  nextRoute := w.nextRoute
  resourceDrops := w.resourceDrops

/-- The end of `Refresh`: routes without a source and routes without a gate go to the
history, the last of each first. -/
def Worker.settle (w : Worker) (draft : Draft) (now : Int) : Worker :=
  let staying (r : Incoming × Bool) : Bool := r.2 || r.1.subscription.isSome
  let retained (r : SendRoute) : Bool :=
    Retains w.setup.discovery w.peers (w.entries.map (·.metadata)) r.route
  let dropped := (draft.incoming.filter (!staying ·)).reverse.map (·.1.stats)
  let lost := (w.outgoing.filter (!retained ·)).reverse.map (·.route.info)
  { w with
    proxies := draft.proxies
    incoming := (draft.incoming.filter staying).map (·.1)
    outgoing := (w.outgoing.filter retained).map fun r => { r with route := r.route.lapse now }
    history := archiveAll (archiveAll w.history dropped) lost
    notices := draft.notices
    nextRoute := draft.nextRoute
    resourceDrops := draft.resourceDrops }

/-- `Refresh`. -/
def Worker.refresh (w : Worker) (answers : Answers) : Worker :=
  w.settle
    (if w.setup.topic.receiveOnly then w.draft
     else w.setup.remoteTopics.foldl (Draft.visit w answers) w.draft)
    answers.now

/-! ## Subscriptions -/

/-- `CloseSubscription`, as far as the routes are concerned. -/
def Worker.closeSubscription (w : Worker) (id : UInt64) : Worker :=
  { w with
    incoming := w.incoming.filter fun r => r.subscription ≠ some id
    history := archiveAll w.history
      ((w.incoming.filter fun r => r.subscription = some id).reverse.map (·.stats))
    subscriptions := w.subscriptions.map fun s =>
      if s.id = id then { s with live := false } else s }

/-- What `CheckSubscriptions` wants of the peer of a subscription. -/
def Subscription.Served (discovery : Discovery.Config) (s : Subscription)
    (peer : PeerInfo) : Prop :=
  peer.state ≠ .lost ∧ peer.sessionId = s.sourceSession ∧
    peer.bootId = s.source.identity.runtime.bootId ∧
    (peer.metadataReady = true → Gate discovery peer s.consumer s.source.identity)
  deriving Decidable

/-- A subscription that `CheckSubscriptions` leaves open. -/
def Subscription.Kept (discovery : Discovery.Config) (peers : List PeerInfo) (session : UInt64)
    (s : Subscription) : Prop :=
  session = s.localSession ∧
    ∃ peer ∈ findPeer peers s.source.identity.runtime.host, s.Served discovery peer
  deriving Decidable

/-- `CheckSubscriptions`, with the session that the discovery has now. -/
def Worker.checkSubscriptions (w : Worker) (session : UInt64) : Worker :=
  (w.subscriptions.filter fun s =>
    s.live ∧ ¬s.Kept w.setup.discovery w.peers session).foldl
      (fun w s => w.closeSubscription s.id) w

/-- What `Subscribe` meets: the peers and the session of the discovery, the number it
draws, and the results of `TopicProxy::Create` and `RegisterConsumer`. -/
structure SubscribeAnswers where
  peers : List PeerInfo
  session : UInt64
  id : UInt64
  created : Int32 := 0
  registered : Int32 := 0

/-- The consumer that a subscription registers. -/
def Setup.subscriber (setup : Setup) (source : NetworkEndpointMetadata) (id : UInt64) :
    NetworkEndpointMetadata :=
  { setup.consumer source with identity := ⟨setup.self, 0x1000000000000000 ||| id⟩ }

/-- The checks of `Subscribe`; the result is the wire type of the descriptor. -/
def Worker.admitsSubscription (w : Worker) (source : NetworkEndpointMetadata) (expected : UInt64)
    (descriptor : TypeDescriptor) (answers : SubscribeAnswers) : Except Int32 TypeIdentity :=
  if ¬w.running ∨ ¬w.setup.topic.receiveOnly then .error (errorCode enotconn)
  else if w.subscriptions.length ≥ w.setup.topic.maxRoutes then .error (errorCode enospc)
  else
    match parameterWireType descriptor, findPeer answers.peers source.identity.runtime.host with
    | .error code, _ => .error code
    | .ok type, found =>
      if type ≠ source.valueType ∨ type.payloadSize.toNat > maxWirePayload then
        .error (errorCode eprototype)
      else
        match found with
        | none => .error (errorCode enotconn)
        | some peer =>
          if peer.state ≠ .online then .error (errorCode enotconn)
          else if peer.sessionId ≠ expected ∨
              peer.bootId ≠ source.identity.runtime.bootId then .error (errorCode estale)
          else if peer.profile.capabilities &&& Capability.topicEndpointSubscription = 0 then
            .error (errorCode enotsup)
          else if answers.id ≥ 0x1000000000000000 then .error (errorCode eoverflow)
          else if answers.session ≠ w.session then .error (errorCode estale)
          else if ¬Gate w.setup.discovery peer (w.setup.subscriber source answers.id)
              source.identity then .error (errorCode eprototype)
          else if answers.created ≠ 0 then .error answers.created
          else if answers.registered ≠ 0 then .error answers.registered
          else .ok type

/-- The receiving route of a new subscription. -/
def Worker.subscriptionRoute (w : Worker) (source : NetworkEndpointMetadata) (expected : UInt64)
    (descriptor : TypeDescriptor) (type : TypeIdentity) (id : UInt64) : Incoming :=
  let consumer := w.setup.subscriber source id
  let packet : Packet :=
    { source := source.identity
      destination := consumer.identity
      sourceSession := expected
      destinationSession := w.session
      routeId := id
      name := source.name
      type }
  { subscription := some id
    packet
    consumer := { metadata := consumer, descriptor }
    stats := { packet.info false with state := .waitingSubscriber } }

/-- `Subscribe`. -/
def Worker.subscribe (w : Worker) (source : NetworkEndpointMetadata) (expected : UInt64)
    (descriptor : TypeDescriptor) (answers : SubscribeAnswers) : Worker × Int32 :=
  match w.admitsSubscription source expected descriptor answers with
  | .error code => (w, code)
  | .ok type =>
    ({ w with
        subscriptions := w.subscriptions ++
          [{ id := answers.id
             source
             consumer := w.setup.subscriber source answers.id
             descriptor
             localSession := answers.session
             sourceSession := expected }]
        incoming := w.incoming ++
          [w.subscriptionRoute source expected descriptor type answers.id] },
      0)

/-- `Unsubscribe`. -/
def Worker.unsubscribe (w : Worker) (id : UInt64) : Worker :=
  if ∃ s ∈ w.subscriptions, s.id = id then
    let w := w.closeSubscription id
    Worker.exportRoutes { w with subscriptions := w.subscriptions.filter (·.id ≠ id) }
  else w

/-! ## Receive -/

/-- `INTEREST` for a route that exists. -/
def SendRoute.renew (now : Int) (r : SendRoute) : SendRoute :=
  { r with
    route := { r.route with
      expires := now + lease
      stats := { r.route.stats with state := .active } } }

/-- The routes that stay when an `INTEREST` comes for a new route, those that it
replaces, and whether it is accepted.  The routes are searched from the newest to the
oldest; those it has already passed stay erased if it is not. -/
def replace (receiver : Bool) (packet : Packet) :
    List SendRoute → List SendRoute × List SendRoute × Bool
  | [] => ([], [], true)
  | r :: older =>
    let rest := replace receiver packet older
    if SamePair r.route.packet packet then
      if r.route.Refuses receiver packet then (r :: older, [], false)
      else (rest.1, r :: rest.2.1, rest.2.2)
    else (r :: rest.1, rest.2.1, rest.2.2)

/-- The last part of `Interest`: the reader is opened for a new route. -/
def Worker.openRoute (w : Worker) (entry : NetworkEndpointMetadata) (packet : Packet)
    (peer : PeerInfo) (port : UInt16) (result : OpenResult) (now : Int) : Worker :=
  let freshStart := w.setup.topic.freshStart packet.name
  let route (baseline : UInt64) : Worker :=
    { w with
      outgoing := w.outgoing ++ [
        { route :=
            { packet := { packet with kind := .data }
              expires := now + lease
              freshStart
              baseline
              address := peer.address.ip
              port } }] }
  let tell (code : Int) : Worker :=
    { w with notices := post w.notices (noticeOf entry (Int32.ofInt code)) }
  if result.opened ≠ 0 then tell result.opened
  else if freshStart then
    match result.baseline with
    | .ok baseline => route baseline
    | .error code => tell code
  else route 0

/-- `Interest`. -/
def Worker.interest (w : Worker) (packet : Packet) (peer : PeerInfo) (port : UInt16)
    (result : OpenResult) (now : Int) : Worker :=
  if w.setup.topic.receiveOnly then w
  else
    match findEntry (w.entries.map (·.metadata)) packet.source with
    | none => { w with stale := w.stale + 1 }
    | some entry =>
      if packet.sourceSession ≠ w.session ∨ packet.destinationSession ≠ peer.sessionId ∨
          ¬IsProvider entry ∨ entry.name ≠ packet.name ∨ entry.valueType ≠ packet.type ∨
          ¬Gate w.setup.discovery peer entry packet.destination ∨ result.validated ≠ 0 then
        { w with stale := w.stale + 1 }
      else
        match w.outgoing.findIdx? fun r => SameRoute r.route.packet packet with
        | some index =>
          if w.outgoing[index]?.any fun r => r.route.port = port then
            { w with outgoing := w.outgoing.modify index (·.renew now) }
          else { w with stale := w.stale + 1 }
        | none =>
          let found := replace (IsReceiver peer) packet w.outgoing.reverse
          let w : Worker := { w with
            outgoing := found.1.reverse
            history := archiveAll w.history (found.2.1.map (·.route.info)) }
          if ¬found.2.2 then { w with stale := w.stale + 1 }
          else if w.incoming.length + w.outgoing.length ≥ w.setup.topic.maxRoutes then
            { w with resourceDrops := w.resourceDrops + 1 }
          else w.openRoute entry packet peer port result now

/-- A `DATA` packet is refused: one more on the counters of the route. -/
def Incoming.count (r : Incoming) (counters : RouteCounters → RouteCounters) : Incoming :=
  { r with stats := { r.stats with counters := counters r.stats.counters } }

/-- A `DATA` packet is accepted. -/
def Incoming.accept (r : Incoming) (packet : Packet) : Incoming :=
  { r with
    packet := { r.packet with
      sequence := packet.sequence
      sampleSequence := packet.sampleSequence }
    latest := some packet
    accepted := r.accepted ++ [(packet.sequence, packet.sampleSequence)] }.count
      fun c => { c with
        missedSequence := c.missedSequence + (packet.sequence - r.packet.sequence - 1)
        packetsReceived := c.packetsReceived + 1
        dropped := if r.latest.isSome then c.dropped + 1 else c.dropped }

/-- `Data` on its route; the flag tells whether the packet counts as malformed. -/
def Incoming.data (discovery : Discovery.Config) (little : Bool) (packet : Packet)
    (peer : PeerInfo) (r : Incoming) : Incoming × Bool :=
  let malformed := r.count fun c => { c with malformed := c.malformed + 1 }
  if packet.name ≠ r.packet.name ∨ packet.type ≠ r.packet.type ∨
      ¬Gate discovery peer r.consumer.metadata packet.source then (malformed, true)
  else if packet.sequence = r.packet.sequence then
    (r.count fun c => { c with duplicate := c.duplicate + 1 }, false)
  else if packet.sequence < r.packet.sequence ∨
      packet.sampleSequence ≤ r.packet.sampleSequence then
    (r.count fun c => { c with outOfOrder := c.outOfOrder + 1 }, false)
  else
    match decodeParameterValue little r.consumer.descriptor packet.payload with
    | .error _ => (malformed, true)
    | .ok _ => (r.accept packet, false)

/-- `Data`. -/
def Worker.data (w : Worker) (packet : Packet) (peer : PeerInfo) : Worker :=
  match w.incoming.findIdx? fun r => SameRoute r.packet packet with
  | none => { w with stale := w.stale + 1 }
  | some index =>
    match w.incoming[index]? with
    | none => w
    | some r =>
      let moved := r.data w.setup.discovery w.setup.little packet peer
      { w with
        incoming := w.incoming.set index moved.1
        malformed := if moved.2 then w.malformed + 1 else w.malformed }

/-- One datagram of `Receive`. -/
def Worker.receive (w : Worker) (bytes : Bytes) (ip : UInt32) (port : UInt16)
    (result : OpenResult) (now : Int) : Worker :=
  match decodePacket bytes with
  | .error _ => { w with malformed := w.malformed + 1 }
  | .ok packet =>
    let host := if packet.kind = .interest then packet.destination.runtime.host
      else packet.source.runtime.host
    match findPeer w.peers host with
    | none => { w with stale := w.stale + 1 }
    | some peer =>
      if ¬peer.metadataReady ∨ ¬(peerGate w.setup.discovery peer).Compatible ∨
          peer.address.ip ≠ ip ∨
          (¬(IsReceiver peer ∧ packet.kind = .interest) ∧ port ≠ w.setup.topic.port) then
        { w with stale := w.stale + 1 }
      else if packet.kind = .interest then w.interest packet peer port result now
      else w.data packet peer

/-! ## Deliver and Transmit -/

/-- What one route meets in `Deliver`: the local endpoint and the proxy. -/
structure DeliverAnswer where
  validated : Int32 := 0
  published : Int32 := 0

/-- What `Deliver` does with a packet: it reaches the proxy only if the endpoint is still
valid and the payload can be decoded. -/
def Incoming.publish (little : Bool) (answer : DeliverAnswer) (packet : Packet) (r : Incoming) :
    Int32 :=
  if r.subscription = none ∧ answer.validated ≠ 0 then answer.validated
  else
    match decodeParameterValue little r.consumer.descriptor packet.payload with
    | .error code => code
    | .ok _ => answer.published

/-- One route in `Deliver`. -/
def Incoming.deliver (little : Bool) (answer : DeliverAnswer) (r : Incoming) : Incoming :=
  match r.latest with
  | none => r
  | some packet =>
    let code := r.publish little answer packet
    let c := r.stats.counters
    { r with
      latest := none
      stats :=
        if code ≠ 0 then
          { r.stats with error := code, counters := { c with dropped := c.dropped + 1 } }
        else
          { r.stats with
            error := 0
            state := .active
            counters := { c with samplesPublished := c.samplesPublished + 1 } } }

/-- 200 ms in ticks of one nanosecond. -/
def interestPeriod : Int := 200000000

/-- The `INTEREST` of a receiving route, which is sent if its source is still there. -/
def Incoming.ask (discovery : Discovery.Config) (peers : List PeerInfo) (sent : Int32)
    (r : Incoming) : Int32 :=
  match findPeer peers r.packet.source.runtime.host with
  | none => 0
  | some peer =>
    if Gate discovery peer r.consumer.metadata r.packet.source then
      match encodePacket { r.packet with sequence := 0, sampleSequence := 0, payload := [] } with
      | .error code => Int32.ofInt code
      | .ok _ => sent
    else 0

/-- One receiving route in `Transmit`: it repeats its `INTEREST`. -/
def Incoming.request (discovery : Discovery.Config) (peers : List PeerInfo) (now : Int)
    (sent : Int32) (r : Incoming) : Incoming :=
  if now < r.interest then r
  else
    let code := r.ask discovery peers sent
    { r with
      interest := now + interestPeriod
      stats := if code ≠ 0 then { r.stats with error := code } else r.stats }

/-- One sending route in `Transmit`. -/
def SendRoute.transmit (config : Config) (attempt : Attempt) (r : SendRoute) : SendRoute :=
  let route := (r.route.transmit config attempt).1
  { route
    taken := if route.packet.sequence = r.route.packet.sequence then r.taken
      else r.taken ++ [route.packet.sampleSequence] }

/-- `Transmit`. -/
def Worker.transmit (w : Worker) (now : Int) (sent : Nat → Int32) (attempts : Nat → Attempt) :
    Worker :=
  { w with
    incoming := w.incoming.mapIdx fun index r =>
      r.request w.setup.discovery w.peers now (sent index)
    outgoing := w.outgoing.mapIdx fun index r => r.transmit w.setup.topic (attempts index) }

/-- The `DATA` packets that `Transmit` hands to `sendto`. -/
def Worker.emits (w : Worker) (attempts : Nat → Attempt) : List Packet :=
  (w.outgoing.mapIdx fun index r =>
    (r.route.transmit w.setup.topic (attempts index)).2).filterMap id

/-! ## Cycles -/

/-- A list of names as `Start` wants it. -/
def NamesAccepted (names : List Bytes) : Prop :=
  names.length ≤ 64 ∧ (∀ name ∈ names, Text name 240 ∧ name.head? = some 47) ∧ names.Nodup
  deriving Decidable

/-- The checks of `Start`. -/
def Setup.Accepted (setup : Setup) : Prop :=
  setup.topic.port ≠ 0 ∧ 1 ≤ setup.topic.maxRoutes ∧ setup.topic.maxRoutes ≤ 64 ∧
    1 ≤ setup.maxProxies ∧ setup.maxProxies ≤ 64 ∧ NamesAccepted setup.remoteTopics ∧
    NamesAccepted setup.topic.freshStartTopics ∧
    NamesAccepted (setup.localTypes.map (·.1)) ∧
    ∀ binding ∈ setup.localTypes, (parameterWireType binding.2).toOption.isSome
  deriving Decidable

/-- `Start`: the proxies stay from an earlier cycle, and so does the numbering of the
routes. -/
def Worker.start (w : Worker) (setup : Setup) (session : UInt64) : Worker :=
  { w with
    setup
    running := true
    session := if setup.topic.receiveOnly then session else 0
    peers := []
    entries := []
    history := []
    notices := []
    malformed := 0
    stale := 0
    resourceDrops := 0 }

/-- The end of `Run`: subscriptions are closed and all routes go to the history. -/
def Worker.finish (w : Worker) : Worker :=
  let w : Worker := w.subscriptions.foldl (fun w s => w.closeSubscription s.id) w
  Worker.exportRoutes { w with
    running := false
    subscriptions := []
    incoming := []
    outgoing := []
    history := archiveAll (archiveAll w.history (w.incoming.map (·.stats)))
      (w.outgoing.map (·.route.info)) }

/-- What happens to the data plane, with everything it meets on the way. -/
inductive Event where
  | start (setup : Setup) (session : UInt64)
  /-- the worker reads the session of the discovery -/
  | join (session : UInt64)
  | refresh (peers : List PeerInfo) (entries : List LocalEndpoint) (session : UInt64)
      (answers : Answers)
  | receive (bytes : Bytes) (ip : UInt32) (port : UInt16) (result : OpenResult) (now : Int)
  | deliver (answers : Nat → DeliverAnswer)
  | transmit (now : Int) (sent : Nat → Int32) (attempts : Nat → Attempt)
  | subscribe (source : NetworkEndpointMetadata) (expected : UInt64) (descriptor : TypeDescriptor)
      (answers : SubscribeAnswers)
  | unsubscribe (id : UInt64)
  | finish

/-- When an event can happen.  Before it has a session the worker only waits. -/
def Worker.Enabled (w : Worker) : Event → Prop
  | .start setup _ => w.running = false ∧ setup.Accepted ∧
      (w.proxies ≠ [] → setup.self = w.setup.self ∧ w.proxies.length ≤ setup.maxProxies)
  | .join _ => w.running = true ∧ w.session = 0
  | .refresh _ _ _ _ | .receive _ _ _ _ _ | .deliver _ | .transmit _ _ _ =>
    w.running = true ∧ w.session ≠ 0
  | .subscribe _ _ _ _ | .unsubscribe _ => True
  | .finish => w.running = true

instance (w : Worker) : (event : Event) → Decidable (w.Enabled event)
  | .start _ _ => inferInstanceAs (Decidable (_ ∧ _))
  | .join _ | .refresh _ _ _ _ | .receive _ _ _ _ _ | .deliver _ | .transmit _ _ _ =>
    inferInstanceAs (Decidable (_ ∧ _))
  | .subscribe _ _ _ _ | .unsubscribe _ => isTrue trivial
  | .finish => inferInstanceAs (Decidable (_ = _))

def Worker.handle (w : Worker) : Event → Worker
  | .start setup session => w.start setup session
  | .join session => { w with session }
  | .refresh peers entries session answers =>
    (({ w with peers, entries }.checkSubscriptions session).refresh answers).exportRoutes
  | .receive bytes ip port result now => w.receive bytes ip port result now
  | .deliver answers =>
    { w with incoming := w.incoming.mapIdx fun index r => r.deliver w.setup.little (answers index) }
  | .transmit now sent attempts => w.transmit now sent attempts
  | .subscribe source expected descriptor answers =>
    (w.subscribe source expected descriptor answers).1
  | .unsubscribe id => w.unsubscribe id
  | .finish => w.finish

/-- A data plane that has just been made; nothing reads its setup before `Start`. -/
def Worker.Initial (w : Worker) : Prop := ∃ setup, w = { setup }

/-- A data plane under every sequence of events. -/
def working : Transition.System Worker Event where
  initial := Worker.Initial
  step w event next := w.Enabled event ∧ next = w.handle event

end Topic

end Kcf.Network
