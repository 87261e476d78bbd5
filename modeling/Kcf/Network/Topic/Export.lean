import Kcf.Network.Discovery.Stability
import Kcf.Network.Topic.Counters
import Kcf.Network.Topic.Tables

/-!
# The export of route records

A snapshot with one record that `ValidRoute` refuses cannot be made at all.  So every
record that can be exported has to be valid: those of living routes, those in the
history and the notices about sources without a route.
-/

namespace Kcf.Network.Topic

open Kcf.Wire Kcf.Transition List
open Discovery (PeerInfo)

/-! ## Records -/

/-- The record of a route between two hosts. -/
structure Connects (info : TopicRouteInfo) : Prop where
  source : info.source.Valid
  name : Text info.name 240
  rooted : info.name.head? = some 47
  destination : info.destination.Valid
  apart : info.source.runtime.host ≠ info.destination.runtime.host
  sourceSession : info.sourceSession ≠ 0
  destinationSession : info.destinationSession ≠ 0
  routeId : info.routeId ≠ 0

namespace Connects

variable {info : TopicRouteInfo}

theorem valid (connects : Connects info) : info.Valid := by
  have named : info.destination ≠ {} := by
    intro empty
    have valid := connects.destination
    rw [empty] at valid
    exact absurd valid (by decide)
  refine ⟨connects.source, connects.name, connects.rooted, ?_⟩
  rw [if_neg named]
  exact ⟨connects.destination, connects.apart, connects.sourceSession,
    connects.destinationSession, connects.routeId⟩

/-- State, error and counters of a route do not matter. -/
theorem update (connects : Connects info) (state : RouteState) (error : Int32)
    (counters : RouteCounters) : Connects { info with state, error, counters } :=
  { connects with }

theorem of_packet {p : Packet} (valid : p.Valid) (sending : Bool) : Connects (p.info sending) := by
  obtain ⟨source, destination, apart, sourceSession, destinationSession, routeId, -, -, name,
    rooted, -⟩ := valid
  exact ⟨source, name, rooted, destination, apart, sourceSession, destinationSession, routeId⟩

end Connects

/-- A record without a destination is valid as long as it names no route either. -/
theorem valid_of_notice {info : TopicRouteInfo} (source : info.source.Valid)
    (name : Text info.name 240) (rooted : info.name.head? = some 47)
    (unbound : info.destination = {})
    (rest : (info.state = .waitingSubscriber ∨ info.state = .rejected) ∧ info.sending = false ∧
      info.sourceSession = 0 ∧ info.destinationSession = 0 ∧ info.routeId = 0) : info.Valid := by
  refine ⟨source, name, rooted, ?_⟩
  rw [if_pos unbound]
  exact rest

/-- Every notice about a valid endpoint is valid. -/
theorem noticeOf_valid {source : NetworkEndpointMetadata} (valid : source.Valid) (code : Int32)
    (proxyRecovery : ProxyRecoveryState) (reason : CompatibilityReason) {state : RouteState}
    (waits : state = .waitingSubscriber ∨ state = .rejected) :
    TopicRouteInfo.Valid { noticeOf source code with proxyRecovery, reason, state } :=
  valid_of_notice valid.identity valid.name valid.rooted rfl ⟨waits, rfl, rfl, rfl, rfl⟩

theorem noticeOf_rejected {source : NetworkEndpointMetadata} (valid : source.Valid) (code : Int32) :
    (noticeOf source code).Valid :=
  noticeOf_valid valid code .none .compatible (.inr rfl)

/-- A list of at most 64 records of one sort. -/
structure Logged (property : TopicRouteInfo → Prop) (records : List TopicRouteInfo) : Prop where
  short : records.length ≤ 64
  each : ∀ info ∈ records, property info

namespace Logged

variable {records routes : List TopicRouteInfo} {info : TopicRouteInfo}

theorem nil (property : TopicRouteInfo → Prop) : Logged property [] :=
  ⟨Nat.zero_le _, forall_mem_nil _⟩

theorem post {property : TopicRouteInfo → Prop} (logged : Logged property records)
    (holds : property info) : Logged property (Topic.post records info) := by
  unfold Topic.post
  split
  · exact logged
  next room =>
    refine ⟨?_, Data.forall_snoc logged.each holds⟩
    rw [length_append, length_singleton]
    omega

theorem archive (logged : Logged Connects records) (connects : Connects info) :
    Logged Connects (Topic.archive records info) := by
  have short := logged.short
  unfold Topic.archive
  refine ⟨?_, Data.forall_snoc (fun other old => ?_) ?_⟩
  · rw [length_append, length_singleton]
    split
    next full =>
      rw [length_drop]
      omega
    · omega
  · split at old
    · exact logged.each other (mem_of_mem_drop old)
    · exact logged.each other old
  · exact connects.update .closed info.error info.counters

theorem archiveAll (logged : Logged Connects records) (connect : ∀ info ∈ routes, Connects info) :
    Logged Connects (Topic.archiveAll records routes) :=
  foldlRecOn routes _ logged fun _ so_far info member => so_far.archive (connect info member)

end Logged

/-! ## Notices -/

theorem Search.visit_logged {setup : Setup} {name : Bytes} {peer : PeerInfo} {search : Search}
    {endpoint : NetworkEndpointMetadata} (genuine : peer.metadataReady = true → endpoint.Valid)
    (logged : Logged TopicRouteInfo.Valid search.notices) :
    Logged TopicRouteInfo.Valid (search.visit setup name peer endpoint).notices := by
  unfold Search.visit
  split
  · exact logged
  next candidate =>
    simp only [not_or, not_not] at candidate
    have valid := genuine candidate.2.2
    dsimp only
    split
    · exact logged.post (noticeOf_valid valid _ _ _ (.inr rfl))
    · split
      · exact logged.post (noticeOf_rejected valid _)
      · exact logged

theorem search_logged {setup : Setup} {peers : List PeerInfo} {notices : List TopicRouteInfo}
    (name : Bytes)
    (genuine : ∀ peer ∈ peers, peer.metadataReady = true → ∀ m ∈ peer.endpoints, m.Valid)
    (logged : Logged TopicRouteInfo.Valid notices) :
    Logged TopicRouteInfo.Valid (search setup peers name notices).notices := by
  refine foldlRecOn (motive := fun s : Search => Logged TopicRouteInfo.Valid s.notices) peers
    _ logged fun found so_far peer known => ?_
  refine foldlRecOn (motive := fun s : Search => Logged TopicRouteInfo.Valid s.notices)
    peer.endpoints _ so_far fun found so_far endpoint listed => ?_
  exact Search.visit_logged (fun ready => genuine peer known ready endpoint listed) so_far

theorem Choice.visit_logged {setup : Setup} {name : Bytes} {source : NetworkEndpointMetadata}
    {owner : PeerInfo} {descriptor : TypeDescriptor} {validated : Nat → Int32} {choice : Choice}
    (entry : LocalEndpoint × Nat) (valid : source.Valid)
    (logged : Logged TopicRouteInfo.Valid choice.notices) :
    Logged TopicRouteInfo.Valid
      (choice.visit setup name source owner descriptor validated entry).notices := by
  unfold Choice.visit
  split
  · exact logged
  split
  · exact logged.post (noticeOf_valid valid _ _ _ (.inr rfl))
  split
  · exact logged.post (noticeOf_rejected valid _)
  split
  · exact logged
  split
  · exact logged
  · split <;> exact logged

/-! ## Refresh -/

/-- The two hosts of endpoints that pass the gate. -/
theorem Gate.hosts {config : Discovery.Config} {peer : PeerInfo} {here : NetworkEndpointMetadata}
    {remote : RemoteEndpointIdentity} (gate : Gate config peer here remote) :
    here.identity.runtime.host = config.host ∧ remote.runtime.host = peer.host := by
  have compatible := gate.2
  unfold Discovery.checkRouteCompatibility at compatible
  split at compatible
  · cases compatible
  dsimp only at compatible
  split at compatible
  next refused => exact absurd compatible refused
  split at compatible
  · cases compatible
  split at compatible
  · cases compatible
  next same =>
    simp only [not_or, not_not] at same
    exact ⟨same.1, same.2.2.1⟩

/-- What the worker has been told by the discovery and by the local registry. -/
structure Worker.Informed (w : Worker) : Prop where
  peers : ∀ peer ∈ w.peers, peer.Genuine w.setup.discovery
  entries : ∀ e ∈ w.entries, e.metadata.Valid
  session : w.session ≠ 0

variable {consumer : LocalEndpoint}

theorem Offer.connects {w : Worker} {name : Bytes} {source : NetworkEndpointMetadata}
    {owner : PeerInfo} {proxy : Nat} {routeId : UInt64}
    (offer : Offer w name source owner consumer) (informed : w.Informed) (positive : routeId ≠ 0) :
    Connects (newRoute w name source owner consumer proxy routeId).stats := by
  have genuine := informed.peers owner offer.owned
  have valid := genuine.endpoints offer.ready source offer.listed
  obtain ⟨here, there⟩ := offer.gate.hosts
  have apart : source.identity.runtime.host ≠ consumer.metadata.identity.runtime.host := by
    rw [here, there]
    exact genuine.other
  exact ⟨valid.identity, offer.named ▸ valid.name, offer.named ▸ valid.rooted,
    (informed.entries consumer offer.here).identity, apart, genuine.session, informed.session,
    positive⟩

/-- A draft whose records are sound. -/
structure Draft.Sound (draft : Draft) : Prop where
  connects : draft.All fun r => Connects r.stats
  notices : Logged TopicRouteInfo.Valid draft.notices

section Draft

variable {w : Worker} {draft : Draft} {name : Bytes} {source : NetworkEndpointMetadata}
variable {owner : PeerInfo} {answers : Answers}

theorem Draft.Sound.tell (sound : draft.Sound) {info : TopicRouteInfo} (valid : info.Valid) :
    (draft.tell info).Sound :=
  { sound with notices := sound.notices.post valid }

theorem Draft.notices_admit {proxy : Nat} (sound : draft.Sound)
    (valid : source.Valid) :
    Logged TopicRouteInfo.Valid (draft.enroll w name source owner proxy consumer).notices := by
  unfold Draft.enroll
  dsimp only
  split
  · exact sound.notices
  split
  · exact sound.notices.post (noticeOf_rejected valid _)
  · exact sound.notices

theorem Incoming.rule_connects : Incoming.Rule fun r => Connects r.stats where
  retarget _ _ connects := connects
  data discovery little packet peer r connects := by
    rcases r.data_cases discovery little packet peer with ⟨counters, _, changed⟩ | ⟨_, _, changed⟩
    · rw [changed]
      exact connects.update r.stats.state r.stats.error _
    · rw [changed]
      exact connects.update r.stats.state r.stats.error _
  deliver little answer r connects := by
    rcases r.deliver_cases little answer with ⟨_, same⟩ | ⟨_, _, _, _, _, changed, _⟩
    · rw [same]
      exact connects
    · rw [changed]
      exact connects.update _ _ _
  request discovery peers now sent r connects := by
    rcases r.request_cases discovery peers now sent with same | ⟨_, _, changed⟩
    · rw [same]
      exact connects
    · rw [changed]
      exact connects.update r.stats.state _ r.stats.counters

theorem Outgoing.connects_of_info {r next : Outgoing} (connects : Connects r.info)
    (same : next.packet.info true = r.packet.info true) : Connects next.info := by
  unfold Outgoing.info
  rw [same]
  exact connects.update _ _ _

theorem SendRoute.rule_connects : SendRoute.Rule fun r => Connects r.route.info where
  lapse now r connects := by
    refine Outgoing.connects_of_info connects ?_
    rw [Outgoing.lapse_packet]
  renew now r connects := Outgoing.connects_of_info connects rfl
  transmit config attempt r connects := by
    refine Outgoing.connects_of_info connects ?_
    cases r.route.transmit_counts config attempt with
    | quiet packet _ _ _ => exact congrArg (Packet.info · true) packet
    | takes _ _ _ _ packet _ _ => exact (congrArg (Packet.info · true) packet).trans rfl

theorem SendRoute.New.connects {r : SendRoute} (new : r.New) : Connects r.route.info := by
  obtain ⟨p, valid, _, packet⟩ := new.packet
  unfold Outgoing.info
  rw [packet]
  exact (Connects.of_packet valid true).update _ _ _

theorem Draft.Sound.attach {descriptor : TypeDescriptor} (sound : draft.Sound)
    (informed : w.Informed) (owned : owner ∈ w.peers) (ready : owner.metadataReady = true)
    (listed : source ∈ owner.endpoints) (named : source.name = name) :
    (draft.attach w answers name source owner descriptor).Sound := by
  have valid := (informed.peers owner owned).endpoints ready source listed
  unfold Draft.attach
  split
  · exact sound.tell (noticeOf_valid valid _ _ _ (.inr rfl))
  next proxy proxies _ =>
    have passes := choice_sound w name source owner descriptor (answers.validated name)
      draft.notices
    have chosen : Draft.Sound { draft with
        proxies
        notices := (w.entries.zipIdx.foldl
          (Choice.visit w.setup name source owner descriptor (answers.validated name))
          { notices := draft.notices }).notices } :=
      ⟨sound.connects,
        foldlRecOn (motive := fun c : Choice => Logged TopicRouteInfo.Valid c.notices)
          w.entries.zipIdx _ sound.notices
          fun _ so_far entry _ => Choice.visit_logged entry valid so_far⟩
    dsimp only
    split
    · exact chosen.tell (noticeOf_valid valid _ _ _ (.inl rfl))
    next consumer found =>
      obtain ⟨here, gate⟩ := passes consumer found
      have offer : Offer w name source owner consumer := ⟨owned, ready, listed, named, here, gate⟩
      refine ⟨?_, Draft.notices_admit chosen valid⟩
      exact chosen.connects.enroll Incoming.rule_connects
        fun routeId positive => offer.connects informed positive

theorem Draft.Sound.visit (sound : draft.Sound) (informed : w.Informed) (name : Bytes) :
    (draft.visit w answers name).Sound := by
  have found := search_sound w.setup w.peers name draft.notices
  have searched : Draft.Sound
      { draft with notices := (search w.setup w.peers name draft.notices).notices } :=
    ⟨sound.connects,
      search_logged name (fun peer known => (informed.peers peer known).endpoints) sound.notices⟩
  unfold Draft.visit
  dsimp only
  split
  · exact searched
  next source owner chosen =>
    obtain ⟨owned, ready, listed, named⟩ := found.found source owner chosen
    have valid := (informed.peers owner owned).endpoints ready source listed
    split
    · exact searched.tell (noticeOf_rejected valid _)
    split
    · exact searched.tell (noticeOf_valid valid _ _ _ (.inr rfl))
    split
    · split
      · exact searched.tell (noticeOf_valid valid _ _ _ (.inr rfl))
      · exact searched.tell (noticeOf_rejected valid _)
    · exact searched.attach informed owned ready listed named

end Draft

/-! ## One event -/

/-- A list of routes that can be exported. -/
structure Exportable (routes : List TopicRouteInfo) : Prop where
  short : routes.length ≤ 192
  each : ∀ info ∈ routes, info.Valid

/-- The records of a data plane. -/
structure Worker.Sound (w : Worker) : Prop where
  entries : ∀ e ∈ w.entries, e.metadata.Valid
  history : Logged Connects w.history
  notices : Logged TopicRouteInfo.Valid w.notices
  received : ∀ r ∈ w.incoming, Connects r.stats
  sent : ∀ r ∈ w.outgoing, Connects r.route.info
  published : Exportable w.published

namespace Worker.Sound

variable {w next : Worker}

section

variable (sound : w.Sound)
include sound

theorem exportRoutes (bounded : w.exportRoutes.Bounded) : w.exportRoutes.Sound := by
  have few : w.incoming.length + w.outgoing.length ≤ 64 := bounded.few
  have first := sound.history.short
  have second := sound.notices.short
  refine { sound with published := ⟨?_, ?_⟩ }
  · simp only [Worker.exportRoutes, length_append, length_map]
    omega
  · intro info member
    simp only [Worker.exportRoutes, mem_append, mem_map] at member
    rcases member with ((old | told) | ⟨r, present, rfl⟩) | ⟨r, present, rfl⟩
    · exact (sound.history.each info old).valid
    · exact sound.notices.each info told
    · exact (sound.received r present).valid
    · exact (sound.sent r present).valid

theorem closes (closes : w.Closes next) : next.Sound := by
  obtain ⟨closed, known, archived⟩ := closes.history
  refine ⟨?_, ?_, ?_, ?_, ?_, ?_⟩
  · rw [closes.entries]
    exact sound.entries
  · rw [archived]
    refine sound.history.archiveAll fun info member => ?_
    obtain ⟨r, present, rfl⟩ := known info member
    exact sound.received r present
  · rw [closes.notices]
    exact sound.notices
  · exact fun r member => sound.received r (closes.incoming.subset member)
  · rw [closes.outgoing]
    exact sound.sent
  · rw [closes.published]
    exact sound.published

theorem settle {draft : Draft} (now : Int) (drafted : draft.Sound) :
    (w.settle draft now).Sound := by
  refine ⟨sound.entries, ?_, drafted.notices, ?_, ?_, sound.published⟩
  · refine (sound.history.archiveAll fun info member => ?_).archiveAll fun info member => ?_
    · obtain ⟨r, present, rfl⟩ := mem_map.mp member
      exact drafted.connects r (mem_filter.mp (mem_reverse.mp present)).1
    · obtain ⟨r, present, rfl⟩ := mem_map.mp member
      exact sound.sent r (mem_filter.mp (mem_reverse.mp present)).1
  · intro r member
    obtain ⟨marked, present, rfl⟩ := mem_map.mp member
    exact drafted.connects marked (mem_filter.mp present).1
  · intro r member
    obtain ⟨old, present, rfl⟩ := mem_map.mp member
    exact SendRoute.rule_connects.lapse now old (sound.sent old (mem_filter.mp present).1)

theorem refresh (informed : w.Informed) (answers : Answers) : (w.refresh answers).Sound := by
  have begun : w.draft.Sound := by
    refine ⟨fun r member => ?_, ?_⟩
    · obtain ⟨old, present, rfl⟩ := mem_map.mp member
      exact sound.received old present
    · refine foldlRecOn (motive := Logged TopicRouteInfo.Valid) _ _ (.nil _)
        fun notices logged e member => ?_
      exact logged.post (noticeOf_rejected (sound.entries e (mem_filter.mp member).1) _)
  unfold Worker.refresh
  split
  · exact sound.settle _ begun
  refine sound.settle _ ?_
  exact foldlRecOn w.setup.remoteTopics _ begun fun draft drafted name _ =>
    drafted.visit informed name

theorem interest {packet : Packet} (peer : PeerInfo) (port : UInt16)
    (result : OpenResult) (now : Int) (valid : packet.Valid) (kind : packet.kind = .interest) :
    (w.interest packet peer port result now).Sound := by
  have sent : ∀ r ∈ (w.interest packet peer port result now).outgoing, Connects r.route.info :=
    SendRoute.rule_connects.interest valid kind sound.sent fun r new => new.connects
  have archived (receiver : Bool) : Logged Connects
      (archiveAll w.history ((w.replaced receiver packet).map (·.route.info))) := by
    refine sound.history.archiveAll fun info member => ?_
    obtain ⟨r, present, rfl⟩ := mem_map.mp member
    exact sound.sent r (w.replaced_subset receiver packet present)
  cases w.interest_cases packet peer port result now with
  | refused stale equal =>
    rw [equal]
    exact { sound with }
  | renewed index equal =>
    rw [equal] at sent ⊢
    exact { sound with sent }
  | replaced receiver notices stale resourceDrops equal told =>
    rw [equal] at sent ⊢
    refine { sound with history := archived receiver, notices := ?_, sent }
    rcases told with rfl | ⟨entry, known, code, rfl⟩
    · exact sound.notices
    · exact sound.notices.post (noticeOf_rejected (sound.entries entry known) code)
  | opened receiver r same _ _ equal =>
    rw [equal] at sent ⊢
    exact { sound with history := archived receiver, sent }

theorem data (packet : Packet) (peer : PeerInfo) : (w.data packet peer).Sound := by
  have received := Incoming.rule_connects.data_worker packet peer sound.received
  unfold Worker.data at received ⊢
  split
  · exact { sound with }
  next index found =>
    split
    · exact sound
    next r present =>
      rw [found] at received
      simp only [present] at received
      exact { sound with received }

theorem finish (bounded : w.finish.Bounded) : w.finish.Sound := by
  have closed := sound.closes (w.closes_foldl w.subscriptions)
  unfold Worker.finish at bounded ⊢
  refine exportRoutes ⟨closed.entries, ?_, closed.notices, forall_mem_nil _, forall_mem_nil _,
    closed.published⟩ bounded
  refine (closed.history.archiveAll fun info member => ?_).archiveAll fun info member => ?_
  · obtain ⟨r, present, rfl⟩ := mem_map.mp member
    exact closed.received r present
  · obtain ⟨r, present, rfl⟩ := mem_map.mp member
    exact closed.sent r present

end

end Worker.Sound

/-! ## Whole runs -/

/-- An entry as `PeerDiscovery` produces it. -/
def Produced (config : Discovery.Config) (info : PeerInfo) : Prop :=
  ∃ watch, Discovery.watching.Reachable watch ∧ watch.node.config = config ∧
    ∃ e ∈ watch.node.peers, e.info = info

theorem Produced.genuine {config : Discovery.Config} {info : PeerInfo}
    (produced : Produced config info) : info.Genuine config := by
  obtain ⟨watch, reachable, rfl, e, member, rfl⟩ := produced
  exact Discovery.Watch.genuine_of_reachable reachable e member

/-- The data plane is not `receive_only`, its peers come from the discovery, and the
local endpoints are valid and of the own host. -/
def Worker.Ordinary (w : Worker) : Event → Prop
  | .start setup _ => setup.topic.receiveOnly = false
  | .refresh peers entries _ _ => (∀ peer ∈ peers, Produced w.setup.discovery peer) ∧
      ∀ e ∈ entries, e.metadata.Valid ∧
        e.metadata.identity.runtime.host = w.setup.discovery.host
  | _ => True

theorem Worker.Sound.handle {w : Worker} {event : Event} (sound : w.Sound)
    (bounded : (w.handle event).Bounded) (enabled : w.Enabled event) (ordinary : w.Ordinary event) :
    (w.handle event).Sound := by
  cases event with
  | start setup session =>
    exact ⟨forall_mem_nil _, .nil _, .nil _, sound.received, sound.sent, sound.published⟩
  | join session => exact { sound with }
  | refresh peers entries session answers =>
    have told : Worker.Sound { w with peers, entries } :=
      { sound with entries := fun e member => (ordinary.2 e member).1 }
    have closes := Worker.closes_checkSubscriptions { w with peers, entries } session
    have informed : (Worker.checkSubscriptions { w with peers, entries } session).Informed := by
      refine ⟨?_, ?_, ?_⟩
      · rw [closes.peers, closes.setup]
        exact fun peer member => (ordinary.1 peer member).genuine
      · rw [closes.entries]
        exact told.entries
      · rw [closes.session]
        exact enabled.2
    exact ((told.closes closes).refresh informed answers).exportRoutes bounded
  | receive bytes ip port result now =>
    exact Worker.receive_rule (fun _ _ => { sound with })
      (fun _ peer decoded kind _ =>
        sound.interest peer port result now (decodePacket_valid decoded) kind)
      fun packet peer => sound.data packet peer
  | deliver answers =>
    exact { sound with
      received := Incoming.rule_connects.handle sound.received fun _ added => added.elim }
  | transmit now sent attempts =>
    exact { sound with
      received := Incoming.rule_connects.handle sound.received fun _ added => added.elim
      sent := SendRoute.rule_connects.handle sound.sent fun r new => new.connects }
  | subscribe source expected descriptor answers =>
    rcases w.subscribe_incoming source expected descriptor answers with same |
        ⟨running, receiveOnly, _, _, _, changed⟩
    · simp only [Worker.handle, same]
      exact sound
    · simp only [Worker.handle, changed] at bounded
      rw [(bounded.sending running).1] at receiveOnly
      cases receiveOnly
  | unsubscribe id =>
    simp only [Worker.handle, Worker.unsubscribe] at bounded ⊢
    split
    next known =>
      rw [if_pos known] at bounded
      have closed := sound.closes (w.closes_closeSubscription id)
      exact Worker.Sound.exportRoutes { closed with } bounded
    · exact sound
  | finish => exact sound.finish bounded

theorem sound_of_reachable {w : Worker}
    (reachable : (working.restrict Worker.Ordinary).Reachable w) : w.Bounded ∧ w.Sound := by
  have preserves : (working.restrict Worker.Ordinary).Preserves fun w => w.Bounded ∧ w.Sound := by
    rintro w event _ ⟨ordinary, enabled, rfl⟩ ⟨bounded, sound⟩
    have next : (w.handle event).Bounded := by
      refine bounded.handle enabled ?_
      rintro setup session rfl
      exact ordinary
    exact ⟨next, sound.handle next enabled ordinary⟩
  refine reachable.invariant ?_ preserves
  rintro _ ⟨setup, rfl⟩
  exact ⟨⟨fun _ => ⟨rfl, rfl⟩, nofun, .nil _ _⟩, forall_mem_nil _, .nil _, .nil _,
    forall_mem_nil _, forall_mem_nil _, Nat.zero_le _, forall_mem_nil _⟩

/-- The tables and records of a data plane that is not `receive_only`, over all of its
cycles: they stay within their bounds, and what is exported can be made into a snapshot
and encoded. -/
theorem routes_bounded_and_exportable {w : Worker}
    (reachable : (working.restrict Worker.Ordinary).Reachable w) :
    w.incoming.length + w.outgoing.length ≤ w.setup.topic.maxRoutes ∧
    (w.outgoing.map fun r => (r.route.packet.source, r.route.packet.destination)).Nodup ∧
    (w.incoming.map fun r => r.packet.routeId).Nodup ∧
    w.history.length ≤ 64 ∧ w.notices.length ≤ 64 ∧
    (∀ info ∈ w.published, info.Valid) ∧
    ∀ host bootId session, host.Valid → bootId.Valid → session ≠ 0 →
      ∃ snapshot bytes,
        NetworkDiagnosticsSnapshot.make host bootId session w.published = .ok snapshot ∧
          snapshot.encode = .ok bytes := by
  obtain ⟨bounded, sound⟩ := sound_of_reachable reachable
  refine ⟨bounded.tables.room, bounded.tables.pairs, bounded.tables.ids, sound.history.short,
    sound.notices.short, sound.published.each,
    fun host bootId session hostValid bootValid known => ?_⟩
  have short : w.published.length < UInt32.size := lt_of_le_of_lt sound.published.short (by decide)
  exact NetworkDiagnosticsSnapshot.encode_make hostValid bootValid known short sound.published.each

/-! ## The pump with a discovered peer -/

namespace Pump

open Discovery (Watch watchStep watching)

def metadata : Bytes := (Discovery.encodeMetadata peer.endpoints).toOption.getD []

def announce : Discovery.Packet where
  host := peer.host
  bootId := peer.bootId
  sessionId := peer.sessionId
  sequence := 1
  revision := 1
  metadataSize := UInt32.ofNat metadata.length
  endpointCount := 2
  profile := peer.profile

def response : Discovery.Packet where
  kind := .metadataResponse
  host := peer.host
  bootId := peer.bootId
  sessionId := peer.sessionId
  revision := 1
  requestId := 1
  metadataSize := UInt32.ofNat metadata.length
  chunk := metadata

/-- The peer announces itself and answers the request for its metadata. -/
def heard : List Discovery.Event :=
  [.datagram ((Discovery.encodePacket announce).toOption.getD []) peer.address true 0,
    .datagram ((Discovery.encodePacket response).toOption.getD []) peer.address false 0]

def startNode : Option Discovery.Node :=
  (Discovery.start setup.discovery (entries.map (·.metadata)) 5).toOption

theorem start_of_startNode {node : Discovery.Node} (ready : startNode = some node) :
    Discovery.start setup.discovery (entries.map (·.metadata)) 5 = .ok node := by
  unfold startNode at ready
  cases started : Discovery.start setup.discovery (entries.map (·.metadata)) 5 with
  | error code =>
    rw [started] at ready
    cases ready
  | ok other =>
    rw [started] at ready
    rw [Option.some.inj ready]

theorem peer_produced : Produced setup.discovery peer := by
  have computed : (startNode.bind fun node =>
      (heard.foldlM watchStep ⟨node, 0, fun _ => [], []⟩).map fun w => w.node.peers.map (·.info)) =
        some [peer] := by
    decide +kernel
  obtain ⟨node, ready, computed⟩ := Option.bind_eq_some_iff.mp computed
  obtain ⟨watch, computed, infos⟩ := Option.map_eq_some_iff.mp computed
  have started := start_of_startNode ready
  have run := Discovery.run_of_watchStep computed
  have config : watch.node.config = setup.discovery :=
    (Watch.config_of_run run).trans (Discovery.advert_start started).2.2.1
  obtain ⟨e, member, equal⟩ := mem_map.mp (infos ▸ mem_singleton_self peer)
  exact ⟨watch, ⟨_, _, ⟨⟨_, _, _, started⟩, fun _ => rfl, rfl⟩, run⟩, config, e, member, equal⟩

/-- The events behind which nothing has to be known about peers and endpoints. -/
def Plain : Event → Bool
  | .receive _ _ _ _ _ | .deliver _ | .transmit _ _ _ => true
  | _ => false

def plainStep (w : Worker) (event : Event) : Option Worker :=
  if w.Enabled event ∧ Plain event = true then some (w.handle event) else none

theorem run_of_plainStep {events : List Event} {start finish : Worker}
    (computed : events.foldlM plainStep start = some finish) :
    (working.restrict Worker.Ordinary).Run start events finish := by
  refine System.Run.of_foldlM (fun w event next stepped => ?_) computed
  obtain ⟨⟨enabled, plain⟩, equal⟩ := Option.ite_none_right_eq_some.mp stepped
  refine ⟨?_, enabled, (Option.some.inj equal).symm⟩
  cases event with
  | receive | deliver | transmit => trivial
  | _ => cases plain

/-- The pump right after its first `Refresh`. -/
def connected : Worker :=
  ((({ setup } : Worker).handle (.start setup 0)).handle (.join 5)).handle
    (.refresh [peer] entries 5 {})

theorem connected_reachable : (working.restrict Worker.Ordinary).Reachable connected := by
  let system := working.restrict Worker.Ordinary
  have fresh : system.Reachable { setup } := .of_initial ⟨setup, rfl⟩
  have started : system.step { setup } (.start setup 0) _ := ⟨rfl, by decide +kernel, rfl⟩
  have joined : system.step (Worker.handle { setup } (.start setup 0)) (.join 5) _ :=
    ⟨trivial, by decide +kernel, rfl⟩
  have refreshed : system.step ((Worker.handle { setup } (.start setup 0)).handle (.join 5))
      (.refresh [peer] entries 5 {}) connected := by
    refine ⟨⟨?_, ?_⟩, by decide +kernel, rfl⟩
    · intro other member
      rw [mem_singleton.mp member]
      exact peer_produced
    · decide +kernel
  exact ((fresh.step started).step joined).step refreshed

end Pump

open Pump in
/-- A route in each direction, one of them exported. -/
theorem routes_bounded_and_exportable_pump : ∃ w : Worker,
    (working.restrict Worker.Ordinary).Reachable w ∧ w.incoming.length = 1 ∧
      w.outgoing.length = 1 ∧ w.published.length = 1 ∧
      ∃ snapshot bytes,
        NetworkDiagnosticsSnapshot.make (.ofByte 1) (.ofByte 9) 5 w.published = .ok snapshot ∧
          snapshot.encode = .ok bytes := by
  have computed : ([arrives interest, publishes 3 1, arrives (pressure 1 4)].foldlM plainStep
      connected).map (fun w => (w.incoming.length, w.outgoing.length, w.published.length)) =
        some (1, 1, 1) := by
    decide +kernel
  obtain ⟨w, computed, lengths⟩ := Option.map_eq_some_iff.mp computed
  simp only [Prod.mk.injEq] at lengths
  have reachable := connected_reachable.run (run_of_plainStep computed)
  obtain ⟨-, -, -, -, -, -, exported⟩ := routes_bounded_and_exportable reachable
  exact ⟨w, reachable, lengths.1, lengths.2.1, lengths.2.2,
    exported _ _ 5 (by decide) (by decide) (by decide)⟩

end Kcf.Network.Topic
