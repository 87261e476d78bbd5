import Kcf.Network.Control.Effects

/-!
# Admission of requests

Which steps of a node touch the replay records and the job queue: only a request
that passed every check of `Receive`, and then in one of two ways.
-/

namespace Kcf.Network.Control

open Kcf.Network.Discovery (PeerInfo)

/-- The replay records and the job queue. -/
def Node.records (node : Node) : List Seen × List ClientSeen × List Job :=
  (node.seen, node.clientSeen, node.jobs)

theorem Node.records_eq {node : Node} {seen : List Seen} {clientSeen : List ClientSeen}
    {jobs : List Job} :
    node.records = (seen, clientSeen, jobs) ↔
      node.seen = seen ∧ node.clientSeen = clientSeen ∧ node.jobs = jobs := by
  simp [Node.records]

/-! ## The node's own requests -/

theorem Node.submit_rest (node : Node) (submission : Submission) (now : Int) :
    (node.submit submission now).rest = node.rest := by
  unfold Node.submit
  dsimp only
  split_ifs <;> rfl

theorem Node.enqueueAll_rest (gateway : Gateway) (index : Nat) (batch : Batch)
    (endpoints : List NetworkEndpointMetadata) (position : Nat) (node : Node) :
    (Node.enqueueAll gateway index batch endpoints position node).rest = node.rest := by
  induction endpoints generalizing position node with
  | nil => rfl
  | cons endpoint rest ih => exact ih _ _

theorem Node.admitBatch_rest (gateway : Gateway) (peers : List PeerInfo) (node : Node)
    (index : Nat) : (node.admitBatch gateway peers index).rest = node.rest := by
  unfold Node.admitBatch
  split
  · rfl
  dsimp only
  split_ifs
  · rfl
  · rfl
  · rfl
  · exact Node.enqueueAll_rest gateway _ _ _ _ _

theorem Node.admitPeers_rest (gateway : Gateway) (node : Node) (peers : List PeerInfo) :
    (node.admitPeers gateway peers).rest = node.rest := by
  have all (indices : List Nat) (node : Node) :
      (indices.foldl (fun node index => node.admitBatch gateway peers index) node).rest =
        node.rest := by
    induction indices generalizing node with
    | nil => rfl
    | cons index rest ih => exact (ih _).trans (Node.admitBatch_rest gateway peers node index)
  exact all _ _

/-! ## Steps that leave the records alone -/

theorem Node.records_of_rest {node next : Node} (same : next.rest = node.rest) :
    next.records = node.records := by
  change next.rest.records = node.rest.records
  rw [same]

theorem Node.drop_records (node : Node) (index : Nat) :
    (node.drop index).records = node.records := by
  unfold Node.drop
  split
  · rfl
  next c _ => exact (Node.records_of_rest (node.abandon_rest c.id) :)

theorem Handled.settle_records (handled : Handled) (index : Nat) :
    (handled.settle index).records = handled.node.records := by
  unfold Handled.settle
  dsimp only
  split
  · rfl
  · exact Node.drop_records _ index

theorem Node.Effects.records {gateway : Gateway} {node next : Node}
    (effects : node.Effects gateway next) : next.records = node.records := by
  induction effects with
  | refl => rfl
  | tail _ effect ih =>
    refine Eq.trans ?_ ih
    cases effect with
    | submit submission now => exact Node.records_of_rest (Node.submit_rest _ submission now)
    | admitPeers peers => exact Node.records_of_rest (Node.admitPeers_rest gateway _ peers)
    | finish => exact Node.records_of_rest (Node.finish_rest _ _ _)
    | drop index => exact Node.drop_records _ index
    | send | queue | join | settle | arrive | write | answer | orphan | other => rfl

/-! ## The branches of `Receive` -/

section

variable {gateway : Gateway} {node : Node} {c : Connection} {f : Frame} {now : Int}
  {motive : Handled → Prop}

theorem Gateway.answer_node (response : Frame) : (gateway.answer node c response).node = node := by
  unfold Gateway.answer
  split <;> rfl

theorem Gateway.receiveHello_node (gateway : Gateway) (node : Node) (c : Connection) (f : Frame)
    (observer : Bool) : ∃ liveConnections connected,
    (gateway.receiveHello node c f observer).node = { node with liveConnections, connected } := by
  unfold Gateway.receiveHello Gateway.greetInbound Node.greet
  split_ifs <;> try exact ⟨_, _, rfl⟩
  dsimp only
  split <;> exact ⟨_, _, rfl⟩

/-- A diagnostics request is answered with an error, or becomes a job. -/
theorem Gateway.admitDiagnostics_rule
    (answers : ∀ diagnosticsSeen observerDiagnosticsSeen ignored response,
      motive (gateway.answer { node with diagnosticsSeen, observerDiagnosticsSeen, ignored } c
        response))
    (asks : ∀ diagnosticsSeen observerDiagnosticsSeen deadline, c.diagnosticsPending = false →
      motive ⟨{ node with
          diagnosticsSeen, observerDiagnosticsSeen
          diagnosticsJobs := node.diagnosticsJobs ++ [⟨c.id, f, deadline⟩] },
        { c with diagnosticsPending := true }, true⟩) :
    motive (gateway.admitDiagnostics node c f now) := by
  have stored (limited : Bool) (record : DiagnosticsSeen) :
      ∃ diagnosticsSeen observerDiagnosticsSeen, node.setDiagnosticsRecord limited record =
        { node with diagnosticsSeen, observerDiagnosticsSeen } := by
    unfold Node.setDiagnosticsRecord
    dsimp only
    split <;> exact ⟨_, _, rfl⟩
  unfold Gateway.admitDiagnostics Gateway.diagnosticsError
  split
  · exact answers _ _ _ _
  dsimp only
  split
  · exact answers _ _ _ _
  next found _ =>
    generalize (if found.boot ≠ f.source.bootId ∨ found.session ≠ c.session then
      { host := c.host, boot := f.source.bootId, session := c.session } else found) = known
    split_ifs with old busy
    · obtain ⟨_, _, same⟩ := stored c.diagnosticsOnly known
      rw [same]
      exact answers _ _ _ _
    · obtain ⟨_, _, same⟩ := stored c.diagnosticsOnly { known with last := f.requestId }
      rw [same]
      exact answers _ _ _ _
    · obtain ⟨_, _, same⟩ := stored c.diagnosticsOnly
        { known with last := f.requestId, next := now + 100 * Discovery.millisecond }
      rw [same]
      exact asks _ _ _ (Bool.eq_false_of_not_eq_true (not_or.mp busy).1)

/-- A request is refused, taken or answered, and the replay records may change. -/
theorem Gateway.admitRequest_rule
    (kept : ∀ seen clientSeen jobs ignored good,
      motive ⟨{ node with seen, clientSeen, jobs, ignored }, c, good⟩)
    (answers : ∀ clientSeen ignored response,
      motive (gateway.answer { node with clientSeen, ignored } c response)) :
    motive (gateway.admitRequest node c f now) := by
  have pushed (seen : List Seen) (clientSeen : List ClientSeen) :
      motive ({ node with seen, clientSeen }.pushJob c f now) := by
    unfold Node.pushJob
    split <;> exact kept _ _ _ _ _
  unfold Gateway.admitRequest Gateway.admitClient Node.admitGeneral
  split
  · exact kept _ _ _ _ _
  split
  · split
    · exact kept _ _ _ _ _
    dsimp only
    split
    · exact pushed _ _
    · exact answers _ _ _
  split
  · exact kept _ _ _ _ _
  dsimp only
  split
  · exact pushed _ _
  · exact kept _ _ _ _ _

/-- A response completes one request at most, and only one that was sent. -/
theorem Node.receiveResponse_rule (kept : ∀ ignored good, motive ⟨{ node with ignored }, c, good⟩)
    (finishes : ∀ index p completion ignored, node.pending[index]? = some p → p.sent = true →
      motive ⟨{ node.finish index completion with ignored }, c, true⟩) :
    motive (node.receiveResponse c f now) := by
  unfold Node.receiveResponse
  split
  · exact kept _ _
  next index found =>
    split
    · exact kept _ _
    next p present =>
      have sent : p.sent = true := by
        obtain ⟨inside, chosen, _⟩ := List.findIdx?_eq_some_iff_getElem.mp found
        rw [List.getElem?_eq_getElem inside] at present
        cases present
        exact (of_decide_eq_true chosen).1
      split_ifs
      · exact kept _ _
      · exact finishes index p _ _ present sent
      · exact finishes index p _ _ present sent

/-- Every frame is refused, answered at once, a `HELLO`, or passed on. -/
theorem Gateway.receive_rule {peers : List PeerInfo} (refused : motive ⟨node, c, false⟩)
    (answers : ∀ response, motive (gateway.answer node c response))
    (hello : ∀ observer, motive (gateway.receiveHello node c f observer))
    (passes : ∀ peer, findPeer peers f.source.host = some peer → f.ComesFrom c peer →
      (c.ready = true ∧ c.host = f.source.host ∧ c.session = f.sessionId) →
      gateway.config.Serves peer c.diagnosticsOnly →
      (f.operation = .descriptorRequest → gateway.config.DescriptorClientAllowed peer) →
      (c.diagnosticsOnly = true → gateway.config.screen c f peer = .pass) →
      motive (gateway.dispatch node c f now)) :
    motive (gateway.receive node c f peers now) := by
  unfold Gateway.receive
  split
  · exact refused
  next peer found =>
    split
    · exact refused
    next known =>
      obtain ⟨origin, serves⟩ := not_or.mp known
      split
      · exact hello _
      unfold Gateway.receiveReady
      split
      · exact refused
      next bound =>
        simp only [not_or, Bool.not_eq_false, ne_eq, not_not] at bound
        have limited : gateway.limited c peer = c.diagnosticsOnly := by
          simp [Gateway.limited, bound.1]
        rw [limited] at serves
        split
        · exact answers _
        next described =>
          have passes := passes peer found (not_not.mp origin) bound (not_not.mp serves)
            fun operation => not_not.mp fun denied => described ⟨operation, denied⟩
          split
          · split
            · exact refused
            · exact answers _
            next passed => exact passes fun _ => passed
          next general => exact passes fun observer => absurd observer general

end

/-! ## Requests that pass -/

/-- Everything `Receive` checks before it looks at the replay records. -/
structure Gateway.Admits (gateway : Gateway) (c : Connection) (f : Frame) (peers : List PeerInfo)
    (peer : PeerInfo) : Prop where
  found : findPeer peers f.source.host = some peer
  origin : f.ComesFrom c peer
  ready : c.ready = true
  host : c.host = f.source.host
  session : c.session = f.sessionId
  request : f.operation.IsRequest = true
  serves : gateway.config.Serves peer c.diagnosticsOnly
  granted : c.diagnosticsOnly = true → gateway.config.GrantsRequest f peer
  descriptor : f.operation = .descriptorRequest → gateway.config.DescriptorClientAllowed peer

/-- The job queue takes the request, if the replay check passed it. -/
def Node.Pushes (node next : Node) (c : Connection) (f : Frame) (passed : Bool) : Prop :=
  next.jobs = node.jobs ∨
    passed = true ∧ ∃ deadline, next.jobs = node.jobs ++ [⟨c.id, f, deadline⟩]

/-- The replay check of an observer. -/
def Node.ChecksClient (node next : Node) (c : Connection) (f : Frame) : Prop :=
  ∃ found, Records.lookup ClientSeen.host node.clientSeen 192
      { host := c.host, boot := f.source.bootId, session := c.session } = some found ∧
    next.seen = node.seen ∧
    next.clientSeen =
      Records.store ClientSeen.host node.clientSeen ((found.renew c f).admitFrame f).1 ∧
    node.Pushes next c f ((found.renew c f).admitFrame f).2

/-- The replay check of a general gateway. -/
def Node.ChecksGeneral (node next : Node) (c : Connection) (f : Frame) : Prop :=
  ∃ found, Records.lookup Seen.host node.seen maxConnections
      { host := c.host, session := c.session } = some found ∧
    next.clientSeen = node.clientSeen ∧
    next.seen = Records.store Seen.host node.seen ((found.renew c).admitFrame f).1 ∧
    node.Pushes next c f ((found.renew c).admitFrame f).2

theorem Node.pushJob_cases (node : Node) (c : Connection) (f : Frame) (now : Int) :
    (node.pushJob c f now).node = node ∨ ∃ deadline, (node.pushJob c f now).node =
      { node with jobs := node.jobs ++ [⟨c.id, f, deadline⟩] } := by
  unfold Node.pushJob
  split
  · exact .inl rfl
  · exact .inr ⟨_, rfl⟩

theorem Gateway.admitClient_cases (gateway : Gateway) (node : Node) (c : Connection) (f : Frame)
    (now : Int) :
    (gateway.admitClient node c f now).node = node ∨
      node.ChecksClient (gateway.admitClient node c f now).node c f := by
  unfold Gateway.admitClient
  split
  · exact .inl rfl
  next found present =>
    right
    refine ⟨found, present, ?_⟩
    dsimp only
    split
    next passed =>
      rcases Node.pushJob_cases { node with
        clientSeen := Records.store ClientSeen.host node.clientSeen
          ((found.renew c f).admitFrame f).1 } c f now with full | ⟨_, pushed⟩
      · rw [full]
        exact ⟨rfl, rfl, .inl rfl⟩
      · rw [pushed]
        exact ⟨rfl, rfl, .inr ⟨passed, _, rfl⟩⟩
    · rw [Gateway.answer_node]
      exact ⟨rfl, rfl, .inl rfl⟩

theorem Node.admitGeneral_cases (node : Node) (c : Connection) (f : Frame) (now : Int) :
    (node.admitGeneral c f now).node = node ∨
      node.ChecksGeneral (node.admitGeneral c f now).node c f := by
  unfold Node.admitGeneral
  split
  · exact .inl rfl
  next found present =>
    right
    refine ⟨found, present, ?_⟩
    dsimp only
    split
    next passed =>
      rcases Node.pushJob_cases { node with
        seen := Records.store Seen.host node.seen ((found.renew c).admitFrame f).1 } c f now
        with full | ⟨_, pushed⟩
      · rw [full]
        exact ⟨rfl, rfl, .inl rfl⟩
      · rw [pushed]
        exact ⟨rfl, rfl, .inr ⟨passed, _, rfl⟩⟩
    · exact ⟨rfl, rfl, .inl rfl⟩

/-- A frame that a limited connection lets through is granted, or asks for
diagnostics. -/
theorem Config.screen_pass {config : Config} {c : Connection} {f : Frame} {peer : PeerInfo}
    (passed : config.screen c f peer = .pass) :
    config.GrantsRequest f peer ∨ f.operation = .diagnosticsRequest := by
  unfold Config.screen at passed
  split_ifs at passed with _ _ _ _ refused
  rcases not_and_or.mp refused with granted | asks
  · exact .inl (not_not.mp granted)
  · exact .inr (not_not.mp asks).1

/-- The replay check that belongs to the kind of the connection. -/
def Node.Checks (node next : Node) (c : Connection) (f : Frame) : Prop :=
  c.diagnosticsOnly = true ∧ node.ChecksClient next c f ∨
    c.diagnosticsOnly = false ∧ node.ChecksGeneral next c f

theorem Node.Checks.of_records {node middle next : Node} {c : Connection} {f : Frame}
    (checks : node.Checks middle c f) (same : next.records = middle.records) :
    node.Checks next c f := by
  obtain ⟨seen, clientSeen, jobs⟩ := Node.records_eq.mp same
  unfold Node.Checks Node.ChecksClient Node.ChecksGeneral Node.Pushes at *
  rwa [seen, clientSeen, jobs]

theorem Gateway.dispatch_cases (gateway : Gateway) (node : Node) (c : Connection) (f : Frame)
    (now : Int) :
    (gateway.dispatch node c f now).node.records = node.records ∨
      f.operation.IsRequest = true ∧ node.Checks (gateway.dispatch node c f now).node c f := by
  unfold Gateway.dispatch
  split
  · exact .inl (admitDiagnostics_rule (motive := fun handled => handled.node.records = node.records)
      (fun _ _ _ _ => by rw [answer_node]; rfl) fun _ _ _ _ => rfl)
  split
  · left
    unfold Node.receiveEvent
    split
    · rfl
    · split_ifs <;> rfl
  split
  next request =>
    unfold Gateway.admitRequest
    split
    · exact .inl rfl
    split
    next limited =>
      rcases gateway.admitClient_cases node c f now with same | checked
      · exact .inl (by rw [same])
      · exact .inr ⟨request, .inl ⟨limited, checked⟩⟩
    next general =>
      rcases node.admitGeneral_cases c f now with same | checked
      · exact .inl (by rw [same])
      · exact .inr ⟨request, .inr ⟨Bool.eq_false_iff.mpr general, checked⟩⟩
  · exact .inl (Node.receiveResponse_rule
      (motive := fun handled => handled.node.records = node.records) (fun _ _ => rfl)
      fun index _ completion _ _ _ => (Node.records_of_rest (node.finish_rest index completion) :))

/-- `Receive` changes the replay records and the jobs only for a request that
passed every other check. -/
theorem Gateway.receive_cases (gateway : Gateway) (node : Node) (c : Connection) (f : Frame)
    (peers : List PeerInfo) (now : Int) :
    (gateway.receive node c f peers now).node.records = node.records ∨
      ∃ peer, gateway.Admits c f peers peer ∧
        node.Checks (gateway.receive node c f peers now).node c f := by
  refine receive_rule (motive := fun handled => handled.node.records = node.records ∨
    ∃ peer, gateway.Admits c f peers peer ∧ node.Checks handled.node c f)
    (.inl rfl) (fun _ => .inl (by rw [answer_node])) (fun observer => .inl ?_) ?_
  · obtain ⟨_, _, same⟩ := gateway.receiveHello_node node c f observer
    rw [same]
    rfl
  intro peer found origin ⟨ready, host, session⟩ serves descriptor screened
  refine (gateway.dispatch_cases node c f now).imp_right fun ⟨request, checks⟩ =>
    ⟨peer, { found, origin, ready, host, session, request, serves, descriptor, granted := ?_ },
      checks⟩
  intro observer
  rcases Config.screen_pass (screened observer) with granted | diagnostics
  · exact granted
  · rw [diagnostics] at request
    cases request

/-! ## Steps -/

/-- A frame that a node takes off a connection. -/
def Node.Takes (gateway : Gateway) (node : Node) (c : Connection) (f : Frame) : Prop :=
  ∃ (index : Nat) (rest : Wire.Bytes), node.connections[index]? = some c ∧
    nextFrame gateway.codec c.input = .frame f rest

/-- The only step that touches the replay records is the one that hands a frame to
`Receive`; jobs leave the queue one by one. -/
theorem Node.step_cases (gateway : Gateway) (node : Node) (event : Event) :
    ((node.step gateway event).records = node.records ∨
      (node.step gateway event).records = (node.seen, node.clientSeen, node.jobs.tail)) ∨
    ∃ index peers now c f, event = .read index peers now ∧ node.Takes gateway c f ∧
      (node.step gateway event).records = (gateway.receive node c f peers now).node.records := by
  rcases Node.step_effects gateway node event with ⟨index, peers, now, rfl⟩ | rfl | effects
  · unfold Node.step Node.read
    dsimp only
    split
    · exact .inl (.inl rfl)
    next c present =>
      split
      · split
        · exact .inl (.inl (Handled.settle_records _ index))
        · exact .inl (.inl rfl)
      · exact .inl (.inl (Handled.settle_records _ index))
      next f rest taken =>
        exact .inr ⟨index, peers, now, c, f, rfl, ⟨index, rest, present, taken⟩,
          Handled.settle_records _ index⟩
  · exact .inl (.inr rfl)
  · exact .inl (.inl effects.records)

end Kcf.Network.Control
