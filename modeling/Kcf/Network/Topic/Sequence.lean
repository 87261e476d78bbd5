import Kcf.Network.Topic.Counters
import Kcf.Network.Topic.Tables

/-!
# Sequences of outgoing routes

A route counts its packets.  Its counter is lost when the route is erased, so the
sequences of a route key can only go on increasing while `Refresh` keeps the routes
between its endpoints and one of them is erased for the sake of a newer one alone.  The
invariant says that each packet ever emitted with the key is remembered by a route that is
still there: its own, with a counter at least as high, or a newer one between the same
endpoints.
-/

namespace Kcf.Network.Topic

open Kcf.Wire Kcf.Transition List
open Discovery (PeerInfo)

/-! ## One session -/

/-- A data plane and every `DATA` packet it has handed to `sendto`, oldest first. -/
structure Sender where
  worker : Worker
  emitted : List Packet := []

/-- The events within one session of the worker. -/
def Event.Inside : Event → Prop
  | .start _ _ | .join _ | .finish => False
  | _ => True

instance : (event : Event) → Decidable event.Inside
  | .start _ _ | .join _ | .finish => isFalse id
  | .refresh _ _ _ _ | .receive _ _ _ _ _ | .deliver _ | .transmit _ _ _ | .subscribe _ _ _ _
  | .unsubscribe _ => isTrue trivial

def Sender.act (sender : Sender) (event : Event) : Sender where
  worker := sender.worker.handle event
  emitted :=
    match event with
    | .transmit _ _ attempts => sender.emitted ++ sender.worker.emits attempts
    | _ => sender.emitted

/-- A data plane that sends, before its first route. -/
structure Sender.Initial (sender : Sender) : Prop where
  running : sender.worker.running = true
  accepted : sender.worker.setup.Accepted
  sends : sender.worker.setup.topic.receiveOnly = false
  incoming : sender.worker.incoming = []
  outgoing : sender.worker.outgoing = []
  emitted : sender.emitted = []

/-- A sending data plane within one discovery session. -/
def sending : System Sender Event where
  initial := Sender.Initial
  step sender event next := event.Inside ∧ sender.worker.Enabled event ∧ next = sender.act event

/-- What an event must respect for the sequences of a route key to go on: `Refresh` finds
the routes between its endpoints worth keeping, and an interest that takes the place of
one of them opens its reader. -/
def Sender.Keeps (key : Packet) (sender : Sender) : Event → Prop
  | .refresh peers entries _ _ =>
    ∀ r ∈ sender.worker.outgoing, SamePair r.route.packet key →
      Retains sender.worker.setup.discovery peers (entries.map (·.metadata)) r.route
  | .receive bytes _ _ result _ =>
    ∀ packet ∈ (decodePacket bytes).toOption, SamePair packet key →
      (∃ r ∈ sender.worker.outgoing,
        SamePair r.route.packet packet ∧ ¬SameRoute r.route.packet packet) →
      result.Opens sender.worker.setup.topic packet.name
  | _ => True

instance (key : Packet) (sender : Sender) : (event : Event) → Decidable (sender.Keeps key event)
  | .refresh peers entries _ _ =>
    inferInstanceAs (Decidable (∀ r ∈ sender.worker.outgoing, SamePair r.route.packet key →
      Retains sender.worker.setup.discovery peers (entries.map (·.metadata)) r.route))
  | .receive bytes _ _ result _ =>
    inferInstanceAs (Decidable (∀ packet ∈ (decodePacket bytes).toOption, SamePair packet key →
      (∃ r ∈ sender.worker.outgoing,
        SamePair r.route.packet packet ∧ ¬SameRoute r.route.packet packet) →
      result.Opens sender.worker.setup.topic packet.name))
  | .start _ _ | .join _ | .finish | .deliver _ | .transmit _ _ _ | .subscribe _ _ _ _
  | .unsubscribe _ => isTrue trivial

/-! ## One route -/

/-- What `Transmit` does to one route: it stays the same route, its counter does not
go back, and a packet carries a new value of the counter. -/
structure Advances (before after : Packet) (emitted : Option Packet) : Prop where
  route : SameRoute after before
  counter : before.sequence ≤ after.sequence
  packet : ∀ q, emitted = some q →
    SameRoute q before ∧ before.sequence < q.sequence ∧ q.sequence ≤ after.sequence

theorem SameRoute.refl (p : Packet) : SameRoute p p := ⟨rfl, rfl, rfl, rfl, rfl⟩

theorem SameRoute.symm {a b : Packet} (same : SameRoute a b) : SameRoute b a :=
  ⟨same.1.symm, same.2.1.symm, same.2.2.1.symm, same.2.2.2.1.symm, same.2.2.2.2.symm⟩

theorem SameRoute.trans {a b c : Packet} (first : SameRoute a b) (second : SameRoute b c) :
    SameRoute a c :=
  ⟨first.1.trans second.1, first.2.1.trans second.2.1, first.2.2.1.trans second.2.2.1,
    first.2.2.2.1.trans second.2.2.2.1, first.2.2.2.2.trans second.2.2.2.2⟩

theorem SameRoute.pair {a b : Packet} (same : SameRoute a b) : a.pair = b.pair :=
  samePair_iff.mp ⟨same.1, same.2.1⟩

theorem Advances.refl (p : Packet) : Advances p p none :=
  ⟨SameRoute.refl p, UInt64.le_refl _, nofun⟩

theorem Outgoing.sample_advances (r : Outgoing) (sampleSequence : UInt64) (attempt : Attempt)
    (room : r.packet.sequence ≠ Discovery.maxUInt64) :
    Advances r.packet (r.sample sampleSequence attempt).1.packet
      (r.sample sampleSequence attempt).2 := by
  have newer := Data.UInt64.lt_add_one room
  have quiet : ∀ {p : Packet}, SameRoute p r.packet → p.sequence = r.packet.sequence + 1 →
      Advances r.packet p none := fun same counter =>
    ⟨same, counter ▸ UInt64.le_of_lt newer, nofun⟩
  have loud : ∀ {p : Packet}, SameRoute p r.packet → p.sequence = r.packet.sequence + 1 →
      Advances r.packet p (some p) := by
    intro p same counter
    refine ⟨same, counter ▸ UInt64.le_of_lt newer, ?_⟩
    intro q equal
    cases equal
    exact ⟨same, counter ▸ newer, UInt64.le_refl _⟩
  unfold Outgoing.sample
  dsimp only
  split
  · exact quiet ⟨rfl, rfl, rfl, rfl, rfl⟩ rfl
  split
  · exact quiet ⟨rfl, rfl, rfl, rfl, rfl⟩ rfl
  split
  · exact loud ⟨rfl, rfl, rfl, rfl, rfl⟩ rfl
  · exact loud ⟨rfl, rfl, rfl, rfl, rfl⟩ rfl

theorem Outgoing.transmit_advances (config : Config) (attempt : Attempt) (r : Outgoing) :
    Advances r.packet (r.transmit config attempt).1.packet (r.transmit config attempt).2 := by
  unfold Outgoing.transmit
  split
  · exact Advances.refl _
  dsimp only
  split
  · split
    · exact Advances.refl _
    · exact Advances.refl _
  split
  · exact Advances.refl _
  split
  · exact Advances.refl _
  split
  · exact Advances.refl _
  next going =>
    exact (r.reschedule config attempt).sample_advances _ attempt fun full => going (.inr full)

/-! ## The invariant -/

/-- The packets of the outgoing routes. -/
def Worker.routes (w : Worker) : List Packet := w.outgoing.map (·.route.packet)

/-- A route that keeps a packet from being repeated. -/
def Remembers (r p : Packet) : Prop :=
  (SameRoute r p ∧ p.sequence ≤ r.sequence) ∨
    (r.pair = p.pair ∧ r.destinationSession = p.destinationSession ∧ p.routeId < r.routeId)

theorem Remembers.pair {r p : Packet} (remembers : Remembers r p) : r.pair = p.pair := by
  rcases remembers with ⟨same, _⟩ | ⟨pair, _⟩
  · exact same.pair
  · exact pair

/-- Every route belongs to a peer of the snapshot, in its present session, and every packet
of the key is remembered by a route. -/
structure Recalls (key : Packet) (peers : List PeerInfo) (routes emitted : List Packet) :
    Prop where
  current : ∀ r ∈ routes, ∃ peer ∈ findPeer peers r.destination.runtime.host,
    peer.sessionId = r.destinationSession
  remembered : ∀ p ∈ emitted, SameRoute p key → ∃ r ∈ routes, Remembers r p
  ordered : emitted.Pairwise fun p q => SameRoute p key → SameRoute q key →
    p.sequence < q.sequence

variable {key packet : Packet} {peers later : List PeerInfo} {routes next emitted : List Packet}

/-- The routes between the endpoints of the key stay. -/
theorem Recalls.keep (recalls : Recalls key peers routes emitted)
    (kept : ∀ r ∈ routes, r.pair = key.pair → r ∈ next)
    (current : ∀ r ∈ next, ∃ peer ∈ findPeer later r.destination.runtime.host,
      peer.sessionId = r.destinationSession) : Recalls key later next emitted := by
  refine ⟨current, fun p member same => ?_, recalls.ordered⟩
  obtain ⟨r, inside, remembers⟩ := recalls.remembered p member same
  exact ⟨r, kept r inside (remembers.pair.trans same.pair), remembers⟩

/-- The route that takes the place of others remembers what they remembered. -/
theorem Remembers.replaced {r p : Packet} (remembers : Remembers r p)
    (pair : r.pair = packet.pair) (session : r.destinationSession = packet.destinationSession)
    (newer : r.routeId < packet.routeId) : Remembers { packet with kind := .data } p := by
  refine .inr ⟨pair.symm.trans remembers.pair, ?_⟩
  rcases remembers with ⟨⟨_, _, _, destinationSession, routeId⟩, _⟩ | ⟨_, sameSession, older⟩
  · exact ⟨session.symm.trans destinationSession, routeId ▸ newer⟩
  · exact ⟨session.symm.trans sameSession, UInt64.lt_trans older newer⟩

/-- A newer route takes the place of the routes between its endpoints. -/
theorem Recalls.supersede (recalls : Recalls key peers routes emitted)
    (kept : ∀ r ∈ routes, r.pair ≠ packet.pair → r ∈ next)
    (added : { packet with kind := .data } ∈ next)
    (only : ∀ r ∈ next, r ∈ routes ∨ r = { packet with kind := .data })
    (session : ∃ peer ∈ findPeer peers packet.destination.runtime.host,
      peer.sessionId = packet.destinationSession)
    (newer : ∀ r ∈ routes, r.pair = packet.pair →
      r.destinationSession = packet.destinationSession → r.routeId < packet.routeId) :
    Recalls key peers next emitted := by
  refine ⟨fun r member => ?_, fun p member same => ?_, recalls.ordered⟩
  · rcases only r member with old | rfl
    · exact recalls.current r old
    · exact session
  · obtain ⟨r, inside, remembers⟩ := recalls.remembered p member same
    by_cases pair : r.pair = packet.pair
    · -- the superseded route belongs to the session of the interest
      have session : r.destinationSession = packet.destinationSession := by
        obtain ⟨peer, found, sameSession⟩ := recalls.current r inside
        obtain ⟨other, foundOther, otherSession⟩ := session
        rw [(Prod.mk.inj pair).2] at found
        have equal : peer = other := Option.some.inj (found.symm.trans foundOther)
        rw [← sameSession, equal, otherSession]
      exact ⟨_, added, remembers.replaced pair session (newer r inside pair session)⟩
    · exact ⟨r, kept r inside pair, remembers⟩

/-! ## Refresh and Interest -/

variable {w : Worker}

theorem Worker.mem_routes_refresh {entries : List LocalEndpoint} {session : UInt64}
    {answers : Answers} {p : Packet} :
    p ∈ (w.handle (.refresh peers entries session answers)).routes ↔
      ∃ r ∈ w.outgoing, Retains w.setup.discovery peers (entries.map (·.metadata)) r.route ∧
        r.route.packet = p := by
  have closes := Worker.closes_checkSubscriptions { w with peers, entries } session
  have outgoing : (w.handle (.refresh peers entries session answers)).outgoing =
      (w.outgoing.filter fun r =>
        Retains w.setup.discovery peers (entries.map (·.metadata)) r.route).map fun r =>
          { r with route := r.route.lapse answers.now } := by
    simp only [Worker.handle, Worker.exportRoutes, Worker.refresh, Worker.settle, closes.outgoing,
      closes.setup, closes.peers, closes.entries]
  simp only [Worker.routes, outgoing, map_map, mem_map, mem_filter, decide_eq_true_eq,
    Function.comp, Outgoing.lapse_packet, and_assoc]

theorem Recalls.refresh {sender : Sender} {entries : List LocalEndpoint} {session : UInt64}
    {answers : Answers}
    (recalls : Recalls key sender.worker.peers sender.worker.routes sender.emitted)
    (keeps : sender.Keeps key (.refresh peers entries session answers)) :
    Recalls key peers (sender.worker.handle (.refresh peers entries session answers)).routes
      sender.emitted := by
  refine recalls.keep (fun p member pair => ?_) fun p member => ?_
  · obtain ⟨r, inside, rfl⟩ := mem_map.mp member
    exact Worker.mem_routes_refresh.mpr ⟨r, inside, keeps r inside (samePair_iff.mpr pair), rfl⟩
  · obtain ⟨r, -, ⟨peer, found, -, -, same, -⟩, rfl⟩ := Worker.mem_routes_refresh.mp member
    exact ⟨peer, found, same⟩

/-- An interest that opens no route takes none away either, unless its reader fails. -/
theorem Worker.staying_of_denies {receiver : Bool} {result : OpenResult} (bounded : w.Bounded)
    (denies : w.Denies receiver packet result)
    (opens : result.Opens w.setup.topic packet.name) : w.staying receiver packet = w.outgoing := by
  rcases denies with refused | full | closed
  · have distinct : (w.outgoing.reverse.map (·.route.packet.pair)).Nodup := by
      rw [map_reverse, nodup_reverse]
      exact bounded.tables.pairs
    rw [Worker.staying, replace_refused distinct refused, reverse_reverse]
  · have room := bounded.tables.room
    exact (w.staying_sublist receiver packet).eq_of_length_le (by omega)
  · exact absurd opens closed

theorem Recalls.interest {peer : PeerInfo} {port : UInt16} {result : OpenResult} {now : Int}
    (recalls : Recalls key w.peers w.routes emitted) (bounded : w.Bounded)
    (known : findPeer w.peers packet.destination.runtime.host = some peer)
    (keeps : packet.pair = key.pair → (∃ r ∈ w.outgoing,
      SamePair r.route.packet packet ∧ ¬SameRoute r.route.packet packet) →
        result.Opens w.setup.topic packet.name) :
    let after := w.interest packet peer port result now
    Recalls key after.peers after.routes emitted := by
  intro after
  have fewer {receiver : Bool} : (w.staying receiver packet).map (·.route.packet) ⊆ w.routes :=
    ((w.staying_sublist receiver packet).map _).subset
  have apart {receiver : Bool} : ∀ p ∈ w.routes, p.pair ≠ packet.pair →
      p ∈ (w.staying receiver packet).map (·.route.packet) := by
    intro p member other
    obtain ⟨r, inside, rfl⟩ := mem_map.mp member
    exact mem_map.mpr ⟨r, Worker.mem_staying inside fun same => other (samePair_iff.mp same), rfl⟩
  cases w.interest_cases packet peer port result now with
  | refused stale equal =>
    rw [show after = _ from equal]
    exact recalls
  | renewed index equal =>
    have same : after.routes = w.routes := by
      rw [show after = _ from equal]
      refine Keyed.map_modify ?_ _ _
      exact fun _ => rfl
    rw [same, show after = _ from equal]
    exact recalls
  | replaced receiver notices stale resourceDrops equal _ unknown denies =>
    rw [show after = _ from equal]
    refine recalls.keep (fun p member pair => ?_) fun p member => recalls.current p (fewer member)
    by_cases other : p.pair = packet.pair
    · obtain ⟨r, inside, rfl⟩ := mem_map.mp member
      have opens := keeps (other.symm.trans pair)
        ⟨r, inside, samePair_iff.mpr other, unknown r inside⟩
      rw [Worker.staying_of_denies bounded denies opens]
      exact member
    · exact apart p member other
  | opened receiver r same _ _ equal _ session accepted =>
    have routes : after.routes =
        (w.staying receiver packet).map (·.route.packet) ++ [{ packet with kind := .data }] := by
      rw [show after = _ from equal, Worker.routes, map_append, map_singleton, same]
    rw [routes, show after = _ from equal]
    refine recalls.supersede (fun p member other => mem_append_left _ (apart p member other))
      (mem_append_right _ mem_cons_self) (fun p member => ?_) ⟨peer, known, session.symm⟩
      fun p member pair sameSession => ?_
    · exact (Data.mem_snoc member).imp_left fun old => fewer old
    · obtain ⟨other, inside, rfl⟩ := mem_map.mp member
      exact UInt64.not_le.mp fun older =>
        accepted other inside (samePair_iff.mpr pair) ⟨sameSession, .inr older⟩

/-! ## Transmit -/

section Transmit

variable {now : Int} {sent : Nat → Int32} {attempts : Nat → Attempt}

theorem Worker.mem_routes_transmit {index : Nat} (bound : index < w.outgoing.length) :
    ((w.outgoing[index]).route.transmit w.setup.topic (attempts index)).1.packet ∈
      (w.transmit now sent attempts).routes :=
  mem_map.mpr ⟨_, List.mem_mapIdx.mpr ⟨index, bound, rfl⟩, rfl⟩

/-- Every route goes through `Transmit`, and no other route comes out. -/
theorem Worker.transmit_advances :
    (∀ p ∈ w.routes, ∃ after ∈ (w.transmit now sent attempts).routes, ∃ handed,
      Advances p after handed) ∧
    ∀ after ∈ (w.transmit now sent attempts).routes, ∃ p ∈ w.routes, ∃ handed,
      Advances p after handed := by
  refine ⟨fun p member => ?_, fun after member => ?_⟩
  · obtain ⟨r, inside, rfl⟩ := mem_map.mp member
    obtain ⟨index, bound, rfl⟩ := getElem_of_mem inside
    exact ⟨_, Worker.mem_routes_transmit bound, _, Outgoing.transmit_advances _ _ _⟩
  · obtain ⟨next, moved, rfl⟩ := mem_map.mp member
    obtain ⟨index, bound, rfl⟩ := List.mem_mapIdx.mp moved
    exact ⟨_, mem_map.mpr ⟨_, getElem_mem bound, rfl⟩, _, Outgoing.transmit_advances _ _ _⟩

theorem Worker.emits_advances {q : Packet} (now : Int) (sent : Nat → Int32)
    (member : q ∈ w.emits attempts) :
    ∃ p ∈ w.routes, ∃ after ∈ (w.transmit now sent attempts).routes, Advances p after (some q) := by
  obtain ⟨handed, moved, equal⟩ := mem_filterMap.mp member
  obtain ⟨index, bound, rfl⟩ := List.mem_mapIdx.mp moved
  have advances := (w.outgoing[index]).route.transmit_advances w.setup.topic (attempts index)
  rw [show (Outgoing.transmit _ _ _).2 = some q from equal] at advances
  exact ⟨_, mem_map.mpr ⟨_, getElem_mem bound, rfl⟩, _, Worker.mem_routes_transmit bound, advances⟩

/-- Two packets of one round belong to different pairs of endpoints. -/
theorem Worker.emits_apart (distinct : (w.outgoing.map (·.route.packet.pair)).Nodup) :
    (w.emits attempts).Pairwise fun p q => p.pair ≠ q.pair := by
  rw [Worker.emits, pairwise_filterMap, pairwise_iff_getElem]
  intro first second before after less p handed q handedToo equal
  simp only [length_mapIdx, getElem_mapIdx, id_eq] at before after handed handedToo
  rw [Nodup, pairwise_map, pairwise_iff_getElem] at distinct
  refine distinct first second before after less ?_
  have left := ((w.outgoing[first]).route.transmit_advances _ _).packet p handed
  have right := ((w.outgoing[second]).route.transmit_advances _ _).packet q handedToo
  exact left.1.pair.symm.trans (equal.trans right.1.pair)

/-- A route goes on remembering while its counter does not go back. -/
theorem Remembers.advances {before after p : Packet} {handed : Option Packet}
    (remembers : Remembers before p) (advances : Advances before after handed) :
    Remembers after p := by
  rcases remembers with ⟨same, counted⟩ | ⟨pair, session, older⟩
  · exact .inl ⟨advances.route.trans same, UInt64.le_trans counted advances.counter⟩
  · obtain ⟨_, _, _, destinationSession, routeId⟩ := advances.route
    exact .inr ⟨advances.route.pair.trans pair, destinationSession.trans session, routeId ▸ older⟩

/-- A packet is remembered by the route that emitted it. -/
theorem Advances.remembers {before after q : Packet} (advances : Advances before after (some q)) :
    Remembers after q := by
  obtain ⟨same, _, counted⟩ := advances.packet q rfl
  exact .inl ⟨advances.route.trans same.symm, counted⟩

theorem Recalls.transmit (recalls : Recalls key w.peers w.routes emitted)
    (distinct : (w.outgoing.map (·.route.packet.pair)).Nodup) :
    Recalls key w.peers (w.transmit now sent attempts).routes (emitted ++ w.emits attempts) := by
  refine ⟨fun p member => ?_, fun p member same => ?_, ?_⟩
  · obtain ⟨before, inside, _, advances⟩ := Worker.transmit_advances.2 p member
    obtain ⟨_, destination, _, session, _⟩ := advances.route
    rw [destination, session]
    exact recalls.current before inside
  · rcases mem_append.mp member with old | new
    · obtain ⟨r, inside, remembers⟩ := recalls.remembered p old same
      obtain ⟨after, there, _, advances⟩ := Worker.transmit_advances.1 r inside
      exact ⟨after, there, remembers.advances advances⟩
    · obtain ⟨_, _, after, there, advances⟩ := Worker.emits_advances now sent new
      exact ⟨after, there, advances.remembers⟩
  · refine pairwise_append.mpr ⟨recalls.ordered, ?_, fun p old q new first second => ?_⟩
    · exact (Worker.emits_apart distinct).imp fun apart first second =>
        absurd (first.pair.trans second.pair.symm) apart
    · -- the packet was remembered by the route that emits the new one
      obtain ⟨before, inside, _, _, advances⟩ := Worker.emits_advances now sent new
      obtain ⟨emits, newer, _⟩ := advances.packet q rfl
      obtain ⟨r, member, remembers⟩ := recalls.remembered p old first
      have equal : r = before := by
        refine inj_on_of_nodup_map (f := Packet.pair) ?_ member inside
          (remembers.pair.trans (first.pair.trans (second.pair.symm.trans emits.pair)))
        rw [Worker.routes, map_map]
        exact distinct
      rw [equal] at remembers
      rcases remembers with ⟨_, counted⟩ | ⟨_, _, older⟩
      · exact UInt64.lt_of_le_of_lt counted newer
      · rw [first.2.2.2.2, ← second.2.2.2.2, emits.2.2.2.2] at older
        exact absurd older (UInt64.lt_irrefl _)

end Transmit

/-! ## Runs -/

theorem Recalls.act {sender : Sender} {event : Event}
    (recalls : Recalls key sender.worker.peers sender.worker.routes sender.emitted)
    (bounded : sender.worker.Bounded) (inside : event.Inside) (keeps : sender.Keeps key event) :
    Recalls key (sender.act event).worker.peers (sender.act event).worker.routes
      (sender.act event).emitted := by
  cases event with
  | start | join | finish => exact inside.elim
  | refresh peers entries session answers =>
    have closes := Worker.closes_checkSubscriptions { sender.worker with peers, entries } session
    have known : (sender.act (.refresh peers entries session answers)).worker.peers = peers :=
      closes.peers
    rw [known]
    exact recalls.refresh keeps
  | receive bytes ip port result now =>
    refine Worker.receive_rule (motive := fun w => Recalls key w.peers w.routes sender.emitted)
      (fun _ _ => recalls) (fun packet peer decoded _ known => ?_) fun packet peer => ?_
    · exact recalls.interest bounded known fun pair =>
        keeps packet (by rw [decoded]; rfl) (samePair_iff.mpr pair)
    · obtain ⟨outgoing, same⟩ := sender.worker.data_frame packet peer
      rw [Worker.routes, outgoing, same]
      exact recalls
  | deliver answers => exact recalls
  | transmit now sent attempts => exact recalls.transmit bounded.tables.pairs
  | subscribe source expected descriptor answers =>
    rcases sender.worker.subscribe_incoming source expected descriptor answers with same |
        ⟨_, _, _, _, _, changed⟩
    · simp only [Sender.act, Worker.handle, same]
      exact recalls
    · simp only [Sender.act, Worker.handle, changed]
      exact recalls
  | unsubscribe id =>
    simp only [Sender.act, Worker.handle, Worker.unsubscribe]
    split <;> exact recalls

/-- A sender that has not lost its memory of the key. -/
structure Sender.Invariant (key : Packet) (sender : Sender) : Prop where
  bounded : sender.worker.Bounded
  recalls : Recalls key sender.worker.peers sender.worker.routes sender.emitted

theorem Sender.Invariant.of_reachable {sender : Sender}
    (reachable : (sending.restrict (Sender.Keeps key)).Reachable sender) :
    sender.Invariant key := by
  refine reachable.invariant (fun sender initial => ?_) ?_
  · refine ⟨⟨fun _ => ⟨initial.incoming, initial.outgoing⟩,
      fun _ => ⟨initial.sends, initial.accepted.2.2.1⟩, ?_⟩, ?_⟩
    · rw [initial.incoming, initial.outgoing]
      exact .nil _ _
    · rw [Worker.routes, initial.outgoing, initial.emitted]
      exact ⟨forall_mem_nil _, forall_mem_nil _, .nil⟩
  · rintro sender event _ ⟨keeps, inside, enabled, rfl⟩ invariant
    refine ⟨invariant.bounded.handle enabled ?_,
      invariant.recalls.act invariant.bounded inside keeps⟩
    rintro setup session rfl
    exact inside.elim

/-- In every run whose events keep the routes between the endpoints of a route key, the
packets of this key carry strictly increasing sequences. -/
theorem route_sequences_increase {key : Packet} {sender : Sender}
    (reachable : (sending.restrict (Sender.Keeps key)).Reachable sender) :
    (sender.emitted.filter fun p => SameRoute p key).Pairwise fun p q =>
      p.sequence < q.sequence := by
  rw [pairwise_filter]
  exact (Sender.Invariant.of_reachable reachable).recalls.ordered.imp fun ordered first second =>
    ordered (of_decide_eq_true first) (of_decide_eq_true second)

/-! ## A peer whose metadata is fetched again -/

namespace Pump

def sender : Sender where
  worker := (({ setup } : Worker).handle (.start setup 0)).handle (.join 5)

theorem sender_initial : sender.Initial := ⟨rfl, by decide +kernel, rfl, rfl, rfl, rfl⟩

/-- The endpoints of the peer are gone while its metadata is fetched. -/
def refreshed (ready : Bool) : Event :=
  .refresh [{ peer with metadataReady := ready, endpoints := if ready then peer.endpoints else [] }]
    entries 5 {}

/-- Between the first two samples and the third one the metadata of the peer is fetched
again; endpoints and sessions stay what they were. -/
def refetched : List Event :=
  [refreshed true, arrives interest, publishes 1 1, publishes 2 30000000, refreshed false,
    refreshed true, arrives interest, publishes 3 60000000]

/-- The endpoints of the speed are there, and the peer is in the same session. -/
def Steady : Event → Prop
  | .refresh peers entries _ _ =>
    endpoint 1 118 .provider ∈ entries.map (·.metadata) ∧
      ∃ peer ∈ findPeer peers (.ofByte 2), peer.bootId = .ofByte 9 ∧ peer.sessionId = 6 ∧
        peer.state = .online
  | _ => True

instance : (event : Event) → Decidable (Steady event)
  | .refresh _ _ _ _ => inferInstanceAs (Decidable (_ ∧ _))
  | .start _ _ | .join _ | .finish | .receive _ _ _ _ _ | .deliver _ | .transmit _ _ _
  | .subscribe _ _ _ _ | .unsubscribe _ => isTrue trivial

/-- A run of a system of senders as a partial function. -/
def senderStep (condition : Sender → Event → Prop)
    [∀ sender event, Decidable (condition sender event)] (sender : Sender) (event : Event) :
    Option Sender :=
  if condition sender event ∧ event.Inside ∧ sender.worker.Enabled event then
    some (sender.act event)
  else none

theorem run_of_senderStep {condition : Sender → Event → Prop}
    [∀ sender event, Decidable (condition sender event)] {events : List Event}
    {start finish : Sender}
    (computed : events.foldlM (senderStep condition) start = some finish) :
    (sending.restrict condition).Run start events finish := by
  refine System.Run.of_foldlM ?_ computed
  intro sender event next stepped
  obtain ⟨⟨holds, inside, enabled⟩, equal⟩ := Option.ite_none_right_eq_some.mp stepped
  exact ⟨holds, inside, enabled, (Option.some.inj equal).symm⟩

end Pump

open Pump in
/-- Endpoints and sessions stay the same, and yet a route key starts again. -/
theorem refetch_restarts_sequence : ∃ start finish events,
    start.Initial ∧ sending.Run start events finish ∧ (∀ event ∈ events, Steady event) ∧
      ¬finish.emitted.Pairwise fun p q => SameRoute p q → p.sequence < q.sequence := by
  have computed : (refetched.foldlM (senderStep fun _ _ => True) sender).any
      (fun finish => ¬finish.emitted.Pairwise fun p q => SameRoute p q → p.sequence < q.sequence) =
        true := by
    decide +kernel
  obtain ⟨finish, run, repeated⟩ := (Option.any_eq_true _ _).mp computed
  have whole : sending.restrict (fun _ _ => True) = sending := by simp [System.restrict, sending]
  refine ⟨sender, finish, refetched, sender_initial, whole ▸ run_of_senderStep run,
    by decide +kernel, of_decide_eq_true repeated⟩

open Pump in
/-- The route outlives a `Refresh` that finds the peer ready. -/
theorem route_sequences_increase_steady : ∃ sender : Sender,
    (sending.restrict (Sender.Keeps interest)).Reachable sender ∧
      (sender.emitted.map fun p => (decide (SameRoute p interest), p.sequence)) =
        [(true, 1), (true, 2)] ∧
      (sender.emitted.filter fun p => SameRoute p interest).Pairwise
        fun p q => p.sequence < q.sequence := by
  have computed : ([refreshed true, arrives interest, publishes 1 1, refreshed true,
      arrives interest, publishes 2 30000000].foldlM
        (senderStep (Sender.Keeps interest)) sender).map
        (fun finish => finish.emitted.map fun p => (decide (SameRoute p interest), p.sequence)) =
      some [(true, 1), (true, 2)] := by
    decide +kernel
  obtain ⟨finish, run, emitted⟩ := Option.map_eq_some_iff.mp computed
  have reachable : (sending.restrict (Sender.Keeps interest)).Reachable finish :=
    ⟨sender, _, sender_initial, run_of_senderStep run⟩
  exact ⟨finish, reachable, emitted, route_sequences_increase reachable⟩

end Kcf.Network.Topic
