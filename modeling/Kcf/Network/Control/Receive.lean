import Kcf.Data.Records
import Kcf.Network.Control.State

/-!
# Frames that arrive

`ControlNode::Impl::Receive`.  A handler works on the connection that delivered
the frame; a connection that is not `good` afterwards is dropped.
-/

namespace Kcf.Network.Control

open Kcf.Wire Errno
open Kcf.Network.Discovery (PeerInfo millisecond)

/-- `Lower`: of two gateways, the one with the lower host connects. -/
def Lower (a b : HostIdentity) : Prop := a.bytes < b.bytes
  deriving Decidable

/-- What a handler leaves behind. -/
structure Handled where
  node : Node
  connection : Connection
  good : Bool

variable (gateway : Gateway) (node : Node) (c : Connection) (f : Frame)

/-- Queue a frame on the connection that is being handled. -/
def Gateway.answer (response : Frame) : Handled :=
  match gateway.queue c response with
  | some c => ⟨node, c, true⟩
  | none => ⟨node, c, false⟩

/-- The response to a request, with its payload. -/
def Gateway.respond (code : Int32) : Frame :=
  { f with
    source := gateway.self
    sessionId := gateway.session
    operation := f.operation.response
    timeoutMs := 0
    status := code }

/-- The response that refuses a request; only Action frames have a state. -/
def Gateway.denial (code : Int32) : Frame :=
  { gateway.respond f code with payload := [], actionState := .idle }

/-! ## HELLO -/

/-- Another connection of the same host that a new one cannot join. -/
def Connection.Clashes (observer : Bool) (other : Connection) : Prop :=
  other.id ≠ c.id ∧ other.host = f.source.host ∧
    (observer = false ∨ other.diagnosticsOnly = false ∨ other.session ≠ f.sessionId ∨
      other.observerSource ≠ f.source)
  deriving Decidable

/-- The connection becomes usable. -/
def Node.greet : Handled :=
  ⟨{ node with
      liveConnections := node.liveConnections.insert c.id
      connected := node.connected + 1 },
    { c with ready := true }, true⟩

/-- A `HELLO` on a connection the other side opened. -/
def Gateway.greetInbound (observer : Bool) : Handled :=
  let limited := { c with diagnosticsOnly := observer, observerSource := f.source }
  if ∃ other ∈ node.connections, c.Clashes f observer other then ⟨node, limited, false⟩
  else
    let bound := { limited with host := f.source.host, session := f.sessionId }
    match gateway.hello bound with
    | some greeted => node.greet greeted
    | none => ⟨node, bound, false⟩

/-- The `HELLO` branch. -/
def Gateway.receiveHello (observer : Bool) : Handled :=
  if c.ready then ⟨node, c, false⟩
  else if c.outbound then
    if c.host ≠ f.source.host then ⟨node, c, false⟩ else node.greet c
  else if observer = false ∧ ¬Lower f.source.host gateway.self.host then ⟨node, c, false⟩
  else if observer = true ∧ maxDiagnosticsConnections ≤
      (node.connections.filter Connection.diagnosticsOnly).length then ⟨node, c, false⟩
  else gateway.greetInbound node c f observer

/-! ## Limited connections -/

/-- An observer asks for what it was granted. -/
def Config.GrantsRequest (config : Config) (peer : PeerInfo) : Prop :=
  f.operation = .descriptorRequest ∧ config.DescriptorClientAllowed peer ∨
    config.ParameterClientAllowed peer f ∨ config.ServiceClientRequest peer f ∨
    config.ActionClientRequest peer f
  deriving Decidable

/-- What becomes of a frame on a limited connection. -/
inductive Verdict where
  | pass
  | deny
  | close
  deriving DecidableEq

/-- The checks of a limited connection. -/
def Config.screen (config : Config) (peer : PeerInfo) : Verdict :=
  if f.source ≠ c.observerSource then .close
  else if f.operation = .serviceRequest ∧ ¬config.GrantsRequest f peer ∧
      ¬config.ReadClientAllowed peer ∧ ¬config.WriteClientAllowed peer ∧
      ¬config.ServiceClientAllowed peer then .close
  else if (f.operation = .paramSetRequest ∨ f.operation = .serviceRequest) ∧
      ¬config.GrantsRequest f peer then .deny
  else if ¬config.GrantsRequest f peer ∧
      (f.operation = .actionGoalRequest ∨ f.operation = .actionCancelRequest) ∧
      (config.ReadClientAllowed peer ∨ config.WriteClientAllowed peer ∨
        config.ServiceClientAllowed peer ∨ config.ActionClientAllowed peer false ∨
        config.ActionClientAllowed peer true) then .deny
  else if ¬config.GrantsRequest f peer ∧
      ¬(f.operation = .diagnosticsRequest ∧ config.ObserverAllowed peer) then .close
  else .pass

/-! ## Diagnostics -/

/-- `DiagnosticsError`. -/
def Gateway.diagnosticsError (code : Int32) : Handled :=
  gateway.answer node c
    { f with
      source := gateway.self
      sessionId := gateway.session
      operation := .diagnosticsResponse
      timeoutMs := 0
      status := code
      payload := [] }

/-- The diagnostics records of general gateways or of observers. -/
def Node.diagnosticsRecords (limited : Bool) : List DiagnosticsSeen :=
  if limited then node.observerDiagnosticsSeen else node.diagnosticsSeen

def Node.setDiagnosticsRecord (limited : Bool) (record : DiagnosticsSeen) : Node :=
  let records := Records.store DiagnosticsSeen.host (node.diagnosticsRecords limited) record
  if limited then { node with observerDiagnosticsSeen := records }
  else { node with diagnosticsSeen := records }

/-- `AdmitDiagnostics`. -/
def Gateway.admitDiagnostics (now : Int) : Handled :=
  if gateway.config.diagnosticsEnabled = false then
    gateway.diagnosticsError node c f (errorCode enotsup)
  else
    let fresh : DiagnosticsSeen := { host := c.host, boot := f.source.bootId, session := c.session }
    match Records.lookup DiagnosticsSeen.host (node.diagnosticsRecords c.diagnosticsOnly)
        maxConnections fresh with
    | none => gateway.diagnosticsError node c f (errorCode enospc)
    | some found =>
      let known := if found.boot ≠ f.source.bootId ∨ found.session ≠ c.session then fresh else found
      if f.requestId ≤ known.last then
        let node := node.setDiagnosticsRecord c.diagnosticsOnly known
        gateway.diagnosticsError { node with ignored := node.ignored + 1 } c f
          (errorCode ealready)
      else
        let known := { known with last := f.requestId }
        if c.diagnosticsPending = true ∨ now < known.next ∨
            maxDiagnosticsJobs ≤ node.diagnosticsJobs.length then
          gateway.diagnosticsError (node.setDiagnosticsRecord c.diagnosticsOnly known) c f
            (errorCode eagain)
        else
          let known := { known with next := now + 100 * millisecond }
          let node := node.setDiagnosticsRecord c.diagnosticsOnly known
          ⟨{ node with
              diagnosticsJobs := node.diagnosticsJobs ++
                [⟨c.id, f, now + f.timeoutMs.toNat * millisecond⟩] },
            { c with diagnosticsPending := true }, true⟩

/-! ## Requests -/

/-- The replay check of a general gateway: identifiers have to ascend. -/
def Seen.admitFrame (entry : Seen) : Seen × Bool :=
  if f.requestId ≤ entry.last then (entry, false)
  else if f.operation = .actionGoalRequest then
    if f.goal.goalId ≤ entry.lastGoal then ({ entry with last := f.requestId }, false)
    else ({ entry with last := f.requestId, lastGoal := f.goal.goalId }, true)
  else ({ entry with last := f.requestId }, true)

/-- The replay check of an observer: two windows. -/
def ClientSeen.admitFrame (entry : ClientSeen) : ClientSeen × Bool :=
  let requests := entry.requests.admitId f.requestId
  if requests.2 = false then ({ entry with requests := requests.1 }, false)
  else if f.operation = .actionGoalRequest then
    let goals := entry.goals.admitId f.goal.goalId
    ({ entry with requests := requests.1, goals := goals.1 }, goals.2)
  else ({ entry with requests := requests.1 }, true)

/-- An entry of another session starts again. -/
def Seen.renew (entry : Seen) : Seen :=
  if entry.session ≠ c.session then { entry with session := c.session, last := 0, lastGoal := 0 }
  else entry

/-- An entry of another boot or session is replaced. -/
def ClientSeen.renew (entry : ClientSeen) : ClientSeen :=
  if entry.boot ≠ f.source.bootId ∨ entry.session ≠ c.session then
    { host := c.host, boot := f.source.bootId, session := c.session }
  else entry

/-- Hand a request to the backend. -/
def Node.pushJob (now : Int) : Handled :=
  if 64 ≤ node.jobs.length then ⟨node, c, false⟩
  else
    ⟨{ node with
        jobs := node.jobs ++ [⟨c.id, f, now + f.timeoutMs.toNat * millisecond⟩] }, c, true⟩

/-- Requests of an observer. -/
def Gateway.admitClient (now : Int) : Handled :=
  match Records.lookup ClientSeen.host node.clientSeen 192
      { host := c.host, boot := f.source.bootId, session := c.session } with
  | none => ⟨node, c, false⟩
  | some found =>
    let checked := (found.renew c f).admitFrame f
    let node := { node with
      clientSeen := Records.store ClientSeen.host node.clientSeen checked.1 }
    if checked.2 then node.pushJob c f now
    else
      gateway.answer { node with ignored := node.ignored + 1 } c
        (gateway.denial f (errorCode ealready))

/-- Requests of a general gateway. -/
def Node.admitGeneral (now : Int) : Handled :=
  match Records.lookup Seen.host node.seen maxConnections
      { host := c.host, session := c.session } with
  | none => ⟨node, c, false⟩
  | some found =>
    let checked := (found.renew c).admitFrame f
    let node := { node with seen := Records.store Seen.host node.seen checked.1 }
    if checked.2 then node.pushJob c f now
    else ⟨{ node with ignored := node.ignored + 1 }, c, true⟩

/-- The branch of requests. -/
def Gateway.admitRequest (now : Int) : Handled :=
  if f.endpoint.runtime.host ≠ gateway.self.host ∨
      f.endpoint.runtime.bootId ≠ gateway.self.bootId then ⟨node, c, false⟩
  else if c.diagnosticsOnly then gateway.admitClient node c f now
  else node.admitGeneral c f now

/-! ## Events and responses -/

/-- The frame is about the same operation as the request. -/
def Frame.SameOperation (request : Frame) : Prop :=
  f.endpoint = request.endpoint ∧ f.name = request.name ∧ f.type = request.type ∧
    f.feedbackType = request.feedbackType ∧ f.responseType = request.responseType ∧
    f.target = request.target
  deriving Decidable

/-- What a feedback or result frame does to the snapshot of an accepted goal. -/
def ActionSnapshot.observe (a : ActionSnapshot) : ActionSnapshot :=
  if f.operation = .actionFeedback then
    { a with
      feedbackSequence := f.feedbackSequence
      feedback := f.payload
      state := .running }
  else if f.status ≠ 0 then { a with error := f.status, communicationLost := true }
  else { a with error := f.status, terminal := true, state := f.actionState, result := f.payload }

/-- The tracked goal of this connection that an event is about. -/
def Node.findOutgoing : Option (Nat × ActionSession) :=
  node.outgoing.findSome? fun o =>
    match node.sessions[o.session]? with
    | some session =>
      if o.connection = c.id ∧ session.request.goal = f.goal then some (o.session, session)
      else none
    | none => none

/-- The branch of Action events. -/
def Node.receiveEvent : Handled :=
  match node.findOutgoing c f with
  | none => ⟨{ node with ignored := node.ignored + 1 }, c, true⟩
  | some (index, session) =>
    if ¬f.SameOperation session.request ∨ session.snapshot.accepted = false then
      ⟨node, c, false⟩
    else if f.operation = .actionFeedback ∧
        f.feedbackSequence ≤ session.snapshot.feedbackSequence then
      ⟨{ node with ignored := node.ignored + 1 }, c, true⟩
    else
      ⟨{ node with
          sessions := node.sessions.set index
            { session with snapshot := session.snapshot.observe f }
          outgoing :=
            if f.operation = .actionFeedback then node.outgoing
            else node.outgoing.eraseP fun o => o.connection = c.id ∧ o.session = index },
        c, true⟩

/-- The branch of responses: an expired or duplicate one satisfies no request. -/
def Node.receiveResponse (now : Int) : Handled :=
  match node.pending.findIdx? fun p =>
      p.sent ∧ p.connection = c.id ∧ p.frame.requestId = f.requestId with
  | none => ⟨{ node with ignored := node.ignored + 1 }, c, true⟩
  | some index =>
    match node.pending[index]? with
    | none => ⟨node, c, true⟩
    | some p =>
      if ¬f.SameOperation p.frame ∨ f.goal ≠ p.frame.goal ∨
          f.operation ≠ p.frame.operation.response then ⟨node, c, false⟩
      else if node.batches[p.batch]?.any fun batch => batch.deadline ≤ now then
        let node := node.finish index { code := errorCode etimedout }
        ⟨{ node with ignored := node.ignored + 1 }, c, true⟩
      else
        ⟨node.finish index
          { code := f.status, reason := f.reason, value := f.payload, confirmed := true,
            unknown := f.outcomeUnknown }, c, true⟩

/-! ## Receive -/

/-- What a ready connection does with a frame that passed its checks. -/
def Gateway.dispatch (now : Int) : Handled :=
  if f.operation = .diagnosticsRequest then gateway.admitDiagnostics node c f now
  else if f.operation = .actionFeedback ∨ f.operation = .actionResult then node.receiveEvent c f
  else if f.operation.IsRequest then gateway.admitRequest node c f now
  else node.receiveResponse c f now

/-- Frames other than `HELLO`, from a known peer. -/
def Gateway.receiveReady (peer : PeerInfo) (now : Int) : Handled :=
  if c.ready = false ∨ c.host ≠ f.source.host ∨ c.session ≠ f.sessionId then ⟨node, c, false⟩
  else if f.operation = .descriptorRequest ∧ ¬gateway.config.DescriptorClientAllowed peer then
    gateway.answer node c (gateway.respond f (errorCode eacces))
  else if c.diagnosticsOnly then
    match gateway.config.screen c f peer with
    | .close => ⟨node, c, false⟩
    | .deny => gateway.answer node c (gateway.denial f (errorCode eacces))
    | .pass => gateway.dispatch node c f now
  else gateway.dispatch node c f now

/-- The peer is the one the frame and the connection name. -/
def Frame.ComesFrom (peer : PeerInfo) : Prop :=
  peer.bootId = f.source.bootId ∧ peer.sessionId = f.sessionId ∧ peer.address.ip = c.address
  deriving Decidable

/-- The connection is treated as limited to the grants of an observer. -/
def Gateway.limited (peer : PeerInfo) : Bool :=
  if c.ready then c.diagnosticsOnly
  else !c.outbound && gateway.config.LimitedAllowed peer

/-- `Receive`. -/
def Gateway.receive (peers : List PeerInfo) (now : Int) : Handled :=
  match findPeer peers f.source.host with
  | none => ⟨node, c, false⟩
  | some peer =>
    if ¬f.ComesFrom c peer ∨ ¬gateway.config.Serves peer (gateway.limited c peer) then
      ⟨node, c, false⟩
    else if f.operation = .hello then
      gateway.receiveHello node c f (gateway.limited c peer)
    else gateway.receiveReady node c f peer now

end Kcf.Network.Control
