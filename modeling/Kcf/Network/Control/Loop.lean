import Kcf.Network.Control.Receive

/-!
# The I/O thread

The phases of `ControlNode::Impl::IO`: admission of submitted batches, expiry,
the send pass, replies of the backend, and the sockets.
-/

namespace Kcf.Network.Control

open Kcf.Wire Errno
open Kcf.Network.Discovery (PeerInfo millisecond checkRouteCompatibility maxUInt64)

/-! ## Admission -/

/-- `Select`. -/
def RemoteTarget.Selects (target : RemoteTarget) (endpoint : NetworkEndpointMetadata) : Prop :=
  match target.scope with
  | .endpoint => target.endpoint = endpoint.identity
  | .host => target.host = endpoint.identity.runtime.host
  | .application => target.application = endpoint.application
  | .group => target.group ∈ endpoint.groups
  | .all => True

instance (endpoint : NetworkEndpointMetadata) :
    (target : RemoteTarget) → Decidable (RemoteTarget.Selects target endpoint)
  | ⟨.endpoint, _, _, _, _⟩ | ⟨.host, _, _, _, _⟩ | ⟨.application, _, _, _, _⟩ =>
    inferInstanceAs (Decidable (_ = _))
  | ⟨.group, _, _, _, _⟩ => inferInstanceAs (Decidable (_ ∈ _))
  | ⟨.all, _, _, _, _⟩ => inferInstanceAs (Decidable True)

namespace Batch

variable (batch : Batch)

def kind : EndpointKind :=
  if batch.action then .action else if batch.service then .service else .parameter

/-- The endpoints a batch is sent to. -/
def selected (peers : List PeerInfo) : List NetworkEndpointMetadata :=
  peers.flatMap fun peer => peer.endpoints.filter fun endpoint =>
    endpoint.kind = batch.kind ∧ endpoint.role = .provider ∧ endpoint.name = batch.name ∧
      RemoteTarget.Selects batch.target endpoint

/-- A batch that starts goals. -/
def startsGoals : Bool := batch.action && batch.cancel.isNone

/-- The error of a batch that selects nothing. -/
def missing (peers : List PeerInfo) : Int32 :=
  let host :=
    if batch.target.scope = .host then batch.target.host else batch.target.endpoint.runtime.host
  if batch.target.scope = .endpoint ∨ batch.target.scope = .host then
    match findPeer peers host with
    | none => errorCode enotconn
    | some peer =>
      if peer.state = .lost then errorCode enotconn
      else if peer.metadataReady = false then errorCode eagain
      else errorCode enoent
  else errorCode enoent

def operation : Message :=
  if batch.action then
    if batch.cancel.isSome then .actionCancelRequest else .actionGoalRequest
  else if batch.service then .serviceRequest
  else if batch.set then .paramSetRequest
  else .paramGetRequest

/-- Reject a batch as a whole. -/
def reject (code : Int32) : Batch :=
  { batch with
    result := { batch.result with error := code }
    promise := batch.promise ++ [{ batch.result with error := code }] }

end Batch

/-- Write back a connection, and drop it if its handler failed. -/
def Handled.settle (handled : Handled) (index : Nat) : Node :=
  let node := { handled.node with
    connections := handled.node.connections.set index handled.connection }
  if handled.good then node else { node with rejected := node.rejected + 1 }.drop index

namespace Node

variable (gateway : Gateway) (node : Node)

/-- The goal that a request of a batch names. -/
def goalOf (batch : Batch) : RemoteGoalIdentity :=
  if batch.startsGoals then ⟨gateway.self, node.nextGoal + 1, gateway.session⟩
  else
    match batch.cancel.bind fun session => node.sessions[session]? with
    | some session => session.request.goal
    | none => {}

/-- The request for one endpoint, under the next request number. -/
def requestFor (batch : Batch) (endpoint : NetworkEndpointMetadata) : Frame :=
  { operation := batch.operation
    source := gateway.self
    sessionId := gateway.session
    requestId := node.nextRequest + 1
    endpoint := endpoint.identity
    target := batch.target.scope
    name := batch.name
    type := batch.type
    responseType := batch.responseType
    feedbackType := batch.feedbackType
    goal := node.goalOf gateway batch
    payload := batch.value }

/-- The session that the result of one endpoint refers to; a goal gets a new one. -/
def sessionFor (batch : Batch) : Option Nat :=
  if batch.startsGoals then some node.sessions.length else batch.cancel

/-- Add one endpoint of a batch to the pending requests. -/
def enqueue (index : Nat) (batch : Batch) (endpoint : NetworkEndpointMetadata) (position : Nat) :
    Node :=
  let f := node.requestFor gateway batch endpoint
  let result : EndpointResult := { endpoint := endpoint.identity, action := node.sessionFor batch }
  { node with
    nextRequest := node.nextRequest + 1
    nextGoal := if batch.startsGoals then node.nextGoal + 1 else node.nextGoal
    sessions :=
      if batch.startsGoals then
        node.sessions ++
          [{ snapshot := { goal := f.goal, endpoint := endpoint.identity }, request := f }]
      else node.sessions
    batches := node.batches.modify index fun batch =>
      { batch with
        left := batch.left + 1
        result := { batch.result with endpoints := batch.result.endpoints ++ [result] } }
    pending := node.pending ++ [{ batch := index, index := position, frame := f }] }

/-- The endpoints of a batch, in order. -/
def enqueueAll (index : Nat) (batch : Batch) : List NetworkEndpointMetadata → Nat → Node → Node
  | [], _, node => node
  | endpoint :: rest, position, node =>
    enqueueAll index batch rest (position + 1) (node.enqueue gateway index batch endpoint position)

/-- The next request and goal numbers would overflow. -/
def Exhausted (batch : Batch) (count : Nat) : Prop :=
  maxUInt64.toNat - count < node.nextRequest.toNat ∨
    batch.startsGoals = true ∧ maxUInt64.toNat - count < node.nextGoal.toNat
  deriving Decidable

/-- There is no room for this many more requests. -/
def Full (batch : Batch) (count : Nat) : Prop :=
  maxPending < count + node.pending.length ∨
    batch.startsGoals = true ∧ maxPending < count + node.pending.length + node.outgoing.length
  deriving Decidable

/-- One batch of `Admit`. -/
def admitBatch (peers : List PeerInfo) (index : Nat) : Node :=
  match node.batches[index]? with
  | none => node
  | some batch =>
    let selected := batch.selected peers
    if selected = [] then
      { node with batches := node.batches.set index (batch.reject (batch.missing peers)) }
    else if node.Exhausted batch selected.length then
      { node with
        batches := node.batches.set index (batch.reject (errorCode eoverflow)) }
    else if node.Full batch selected.length then
      { node with batches := node.batches.set index (batch.reject (errorCode eagain)) }
    else enqueueAll gateway index batch selected 0 node

/-- `Admit`. -/
def admitPeers (peers : List PeerInfo) : Node :=
  node.submissions.foldl (fun node index => node.admitBatch gateway peers index)
    { node with submissions := [] }

/-! ## Expiry -/

/-- `Consumer`: the node's own side of a route; the types tell the kind. -/
def consumer (source : RemoteRuntimeIdentity) (name : Bytes)
    (type : TypeIdentity) (response feedback : TypeIdentity := {}) : NetworkEndpointMetadata :=
  let m : NetworkEndpointMetadata :=
    { identity := ⟨source, 1⟩
      -- "network_control"
      elementName := [110, 101, 116, 119, 111, 114, 107, 95, 99, 111, 110, 116, 114, 111, 108]
      name
      kind := .parameter
      role := .consumer
      scope := .remote
      valueType := type }
  let m :=
    if response ≠ {} then
      { m with kind := .service, valueType := {}, requestType := type, responseType := response }
    else m
  if feedback ≠ {} then { m with kind := .action, feedbackType := feedback } else m

/-- Why a pending request cannot go on, if it cannot. -/
def obstacle (peers : List PeerInfo) (now : Int) (p : Pending) (deadline : Int) :
    Option Completion :=
  if deadline ≤ now then some { code := errorCode etimedout }
  else
    match findPeer peers p.frame.endpoint.runtime.host with
    | none => some { code := errorCode enotconn, reason := .peerLost }
    | some peer =>
      let gate := checkRouteCompatibility gateway.config.discovery peer
        (consumer gateway.self p.frame.name p.frame.type p.frame.responseType
          p.frame.feedbackType) p.frame.endpoint p.frame.target
      if gate.Compatible then none
      else some { code := reasonError gate.reason, reason := gate.reason }

/-- One turn of the expiry loop. -/
def expire (peers : List PeerInfo) (now : Int) (index : Nat) : Node :=
  match node.pending[index]? with
  | none => node
  | some p =>
    match node.batches[p.batch]? with
    | none => node
    | some batch =>
      match obstacle gateway peers now p batch.deadline with
      | some completion => node.finish index completion
      | none => node

/-! ## The send pass -/

/-- Milliseconds until a deadline, at least one. -/
def remaining (deadline now : Int) : UInt32 :=
  UInt32.ofNat (max 1 ((deadline - now).tdiv millisecond)).toNat

/-- The connection over which requests for a host are sent. -/
def route (host : HostIdentity) : Option Nat :=
  node.connections.findIdx? fun c => c.host = host ∧ c.ready

/-- A request was queued on a connection. -/
def markSent (index : Nat) (p : Pending) (batch : Batch) (connection : UInt64) : Node :=
  { node with
    pending := node.pending.set index { p with sent := true, connection }
    outgoing :=
      if batch.startsGoals then
        match batch.result.endpoints[p.index]?.bind EndpointResult.action with
        | some session => node.outgoing ++ [⟨session, connection⟩]
        | none => node.outgoing
      else node.outgoing
    sent := node.sent + 1 }

/-- One unsent request: the node after it, and whether the request is still there. -/
def sendOne (now : Int) (index : Nat) (p : Pending) (batch : Batch) : Node × Bool :=
  match node.route p.frame.endpoint.runtime.host with
  | none => (node, true)
  | some position =>
    match node.connections[position]? with
    | none => (node, true)
    | some c =>
      let f := { p.frame with timeoutMs := remaining batch.deadline now }
      match gateway.queue c f with
      | none => (node.finish index { code := errorCode eagain }, false)
      | some queued =>
        ({ node with connections := node.connections.set position queued }.markSent index
          { p with frame := f } batch c.id, true)

/-- The send loop from one index on; `fuel` bounds the requests that are left. -/
def sendFrom (now : Int) : Nat → Nat → Node → Node
  | 0, _, node => node
  | fuel + 1, index, node =>
    match node.pending[index]? with
    | none => node
    | some p =>
      match node.batches[p.batch]? with
      | none => sendFrom now fuel (index + 1) node
      | some batch =>
        if p.sent then sendFrom now fuel (index + 1) node
        else
          let result := node.sendOne gateway now index p batch
          sendFrom now fuel (if result.2 then index + 1 else index) result.1

/-- The send pass: every request that was not sent, in the order of admission. -/
def sendPass (now : Int) : Node := sendFrom gateway now node.pending.length 0 node

/-! ## Replies -/

/-- Position of a connection. -/
def findConnection (id : UInt64) : Option Nat := node.connections.findIdx? fun c => c.id = id

/-- Queue one reply of the backend. -/
def deliver (reply : Reply) : Node :=
  match node.findConnection reply.connection with
  | none => node
  | some position =>
    match node.connections[position]? with
    | none => node
    | some c =>
      match gateway.queue c reply.frame with
      | some queued => { node with connections := node.connections.set position queued }
      | none => if reply.frame.operation = .actionFeedback then node else node.drop position

/-- The replies that the backend has ready. -/
def deliverReplies : Node :=
  node.replies.foldl (fun node reply => node.deliver gateway reply) { node with replies := [] }

/-! ## Sockets -/

/-- The peer of an established connection is gone or changed. -/
def Obsolete (c : Connection) : Option PeerInfo → Prop
  | none => True
  | some peer => ¬gateway.config.Serves peer c.diagnosticsOnly ∨ peer.sessionId ≠ c.session ∨
      (c.diagnosticsOnly = true ∧ peer.bootId ≠ c.observerSource.bootId)

instance (c : Connection) : (peer : Option PeerInfo) → Decidable (Obsolete gateway c peer)
  | none => isTrue trivial
  | some _ => inferInstanceAs (Decidable (_ ∨ _))

/-- A connection that the loop gives up. -/
def Doomed (peers : List PeerInfo) (now : Int) (c : Connection) : Prop :=
  c.id ∈ node.abortConnections ∨ (c.ready = false ∧ c.deadline ≤ now) ∨
    (c.host.Valid ∧ Obsolete gateway c (findPeer peers c.host))
  deriving Decidable

/-- One turn of the loop that drops connections. -/
def purge (index : Nat) (peers : List PeerInfo) (now : Int) : Node :=
  match node.connections[index]? with
  | none => node
  | some c => if node.Doomed gateway peers now c then node.drop index else node

/-- Greet on a connection that is established. -/
def greetOutbound (c : Connection) : Handled :=
  match gateway.hello c with
  | some greeted => ⟨node, greeted, true⟩
  | none => ⟨node, c, false⟩

/-- One turn of `Connect`; `connecting` tells whether `connect` is in progress. -/
def connect (peer : PeerInfo) (now : Int) (connecting : Bool) : Node :=
  if maxConnections ≤ node.connections.length ∨ ¬gateway.config.Allowed peer ∨
      ¬Lower gateway.self.host peer.host ∨
      (∃ c ∈ node.connections, c.host = peer.host) then node
  else
    let c : Connection :=
      { id := node.nextConnection + 1
        outbound := true
        connecting
        host := peer.host
        session := peer.sessionId
        address := peer.address.ip
        deadline := now + gateway.config.connectTimeout * millisecond }
    let node :=
      { node with nextConnection := node.nextConnection + 1, opened := node.opened + 1 }
    if connecting then { node with connections := node.connections ++ [c] }
    else
      match gateway.hello c with
      | some greeted => { node with connections := node.connections ++ [greeted] }
      | none => { node with connections := node.connections ++ [c] }.drop node.connections.length

/-- One turn of `Accept`. -/
def accept (address : UInt32) (now : Int) : Node :=
  if maxConnections ≤ node.connections.length then node
  else
    { node with
      nextConnection := node.nextConnection + 1
      opened := node.opened + 1
      connections := node.connections ++
        [{ id := node.nextConnection + 1
           address
           deadline := now + gateway.config.connectTimeout * millisecond }] }

/-- The outcome of a `connect` that was in progress. -/
def establish (index : Nat) (good : Bool) : Node :=
  match node.connections[index]? with
  | none => node
  | some c =>
    if c.connecting = false then node
    else
      let c := { c with connecting := false }
      let handled := if good then node.greetOutbound gateway c else ⟨node, c, false⟩
      handled.settle index

/-- Bytes from `recv`. -/
def arrive (index : Nat) (chunk : Bytes) : Node :=
  { node with connections := node.connections.modify index fun c =>
      { c with input := c.input ++ chunk } }

/-- One turn of the inner loop of `Read`. -/
def read (index : Nat) (peers : List PeerInfo) (now : Int) : Node :=
  match node.connections[index]? with
  | none => node
  | some c =>
    match nextFrame gateway.codec c.input with
    | .more => if maxFrame < c.input.length then Handled.settle ⟨node, c, false⟩ index else node
    | .bad => Handled.settle ⟨node, c, false⟩ index
    | .frame f rest =>
      let handled := gateway.receive node c f peers now
      { handled with connection := { handled.connection with input := rest } }.settle index

end Node

/-- The bytes that one `send` hands over. -/
def Connection.outgoing (c : Connection) (count : Nat) : Bytes :=
  match c.output with
  | [] => []
  | front :: _ => (front.drop c.offset).take count

/-- One turn of `Write`, with the result of `send`. -/
def Connection.write (c : Connection) (count : Nat) : Connection :=
  match c.output with
  | [] => c
  | front :: rest =>
    if c.offset + count < front.length then
      { c with offset := c.offset + count, queued := c.queued - count }
    else { c with output := rest, offset := 0, queued := c.queued - (front.length - c.offset) }

namespace Node

variable (gateway : Gateway) (node : Node)

def write (index : Nat) (count : Nat) : Node :=
  { node with connections := node.connections.modify index fun c => c.write count }

/-! ## Diagnostics -/

/-- `ReclaimObserverDiagnostics`. -/
def reclaimDiagnostics (peers : List PeerInfo) : Node :=
  { node with
    observerDiagnosticsSeen := node.observerDiagnosticsSeen.filter fun entry =>
      (findPeer peers entry.host).any (fun peer =>
        peer.state = .online ∧ peer.bootId = entry.boot ∧ peer.sessionId = entry.session) ||
      node.connections.any fun c => c.host = entry.host ∧ c.session = entry.session }

/-- The peer of a diagnostics job is still the one that asked. -/
def StillAsks (c : Connection) (job : Job) (peer : PeerInfo) : Prop :=
  (if c.diagnosticsOnly then gateway.config.ObserverAllowed peer else gateway.config.Allowed peer) ∧
    peer.bootId = job.frame.source.bootId ∧ peer.sessionId = job.frame.sessionId
  deriving Decidable

/-- The response to a diagnostics job: a snapshot, or an error. -/
def diagnosticsResponse (job : Job) (made : Except Int32 Bytes) : Frame :=
  { job.frame with
    source := gateway.self
    sessionId := gateway.session
    operation := .diagnosticsResponse
    timeoutMs := 0
    status := match made with | .ok _ => 0 | .error code => code
    payload := match made with | .ok bytes => bytes | .error _ => [] }

/-- Answer a diagnostics job on its connection. -/
def answerDiagnostics (peers : List PeerInfo) (finished : Int) (made : Except Int32 Bytes)
    (job : Job) : Node :=
  match node.findConnection job.connection with
  | none => node
  | some position =>
    match node.connections[position]? with
    | none => node
    | some c =>
      let c := { c with diagnosticsPending := false }
      let node := { node with connections := node.connections.set position c }
      if (findPeer peers c.host).any fun peer => StillAsks gateway c job peer then
        let made := if job.deadline ≤ finished then .error (errorCode etimedout) else made
        match gateway.queue c (diagnosticsResponse gateway job made) with
        | some queued => { node with connections := node.connections.set position queued }
        | none => node.drop position
      else node.drop position

/-- `DispatchDiagnostics`; `made` is the encoded snapshot of the Topic plane. -/
def dispatchDiagnostics (peers : List PeerInfo) (now finished : Int)
    (made : Except Int32 Bytes) : Node :=
  if now < node.nextDiagnostics then node
  else
    let node := { node with nextDiagnostics := now + 20 * millisecond }
    match node.diagnosticsJobs with
    | [] => node
    | job :: rest =>
      { node with diagnosticsJobs := rest }.answerDiagnostics gateway peers finished made job

end Node

end Kcf.Network.Control
