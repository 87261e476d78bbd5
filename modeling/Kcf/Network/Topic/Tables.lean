import Kcf.Data.Keyed
import Kcf.Network.Topic.Laws

/-!
# Bounds of the route tables

A data plane that is not `receive_only` adds a route only if both tables together have
room for it, never a second one between two endpoints, and draws a new number for every
receiving route.
-/

namespace Kcf.Network.Topic

open Kcf.Wire List
open Discovery (PeerInfo)

/-- The bounds of the two route tables. -/
structure Tables (limit : Nat) (nextRoute : UInt64) (incoming : List Incoming)
    (outgoing : List SendRoute) : Prop where
  room : incoming.length + outgoing.length ≤ limit
  pairs : (outgoing.map (·.route.packet.pair)).Nodup
  ids : (incoming.map (·.packet.routeId)).Nodup
  drawn : ∀ id ∈ incoming.map (·.packet.routeId), id ≤ nextRoute

namespace Tables

variable {limit : Nat} {nextRoute : UInt64} {incoming fewer : List Incoming}
variable {outgoing less : List SendRoute}

theorem nil (limit : Nat) (nextRoute : UInt64) : Tables limit nextRoute [] [] :=
  ⟨Nat.zero_le _, nodup_nil, nodup_nil, forall_mem_nil _⟩

section

variable (tables : Tables limit nextRoute incoming outgoing)
include tables

/-- Routes may change and go as long as no name is new. -/
theorem shrink
    (ids : (fewer.map (·.packet.routeId)).Sublist (incoming.map (·.packet.routeId)))
    (pairs : (less.map (·.route.packet.pair)).Sublist (outgoing.map (·.route.packet.pair))) :
    Tables limit nextRoute fewer less := by
  have first := ids.length_le
  have second := pairs.length_le
  simp only [length_map] at first second
  refine ⟨?_, tables.pairs.sublist pairs, tables.ids.sublist ids, ?_⟩
  · exact le_trans (Nat.add_le_add first second) tables.room
  · exact fun id member => tables.drawn id (ids.subset member)

theorem rename
    (ids : fewer.map (·.packet.routeId) = incoming.map (·.packet.routeId))
    (pairs : less.map (·.route.packet.pair) = outgoing.map (·.route.packet.pair)) :
    Tables limit nextRoute fewer less :=
  tables.shrink (ids ▸ .refl _) (pairs ▸ .refl _)

theorem receive {r : Incoming}
    (room : incoming.length + outgoing.length < limit) (free : nextRoute ≠ Discovery.maxUInt64)
    (id : r.packet.routeId = nextRoute + 1) :
    Tables limit (nextRoute + 1) (incoming ++ [r]) outgoing := by
  have later := Data.UInt64.lt_add_one free
  refine ⟨?_, tables.pairs, ?_, ?_⟩
  · rw [length_append, length_singleton]
    omega
  · rw [map_append, map_singleton, id]
    refine Data.nodup_snoc tables.ids fun old => ?_
    exact absurd (UInt64.lt_of_lt_of_le later (tables.drawn _ old)) (UInt64.lt_irrefl _)
  · rw [map_append, map_singleton, id]
    refine Data.forall_snoc (fun other old => ?_) (UInt64.le_refl _)
    exact UInt64.le_trans (tables.drawn other old) (UInt64.le_of_lt later)

theorem send {r : SendRoute}
    (room : incoming.length + outgoing.length < limit)
    (alone : ∀ other ∈ outgoing, other.route.packet.pair ≠ r.route.packet.pair) :
    Tables limit nextRoute incoming (outgoing ++ [r]) := by
  refine ⟨?_, ?_, tables.ids, tables.drawn⟩
  · rw [length_append, length_singleton]
    omega
  · rw [map_append, map_singleton]
    refine Data.nodup_snoc tables.pairs fun old => ?_
    obtain ⟨other, member, equal⟩ := mem_map.mp old
    exact alone other member equal

end

end Tables

/-! ## Refresh -/

section Draft

variable {w : Worker} {draft : Draft} {name : Bytes} {source : NetworkEndpointMetadata}
variable {owner : PeerInfo} {answers : Answers}

/-- The tables while `Refresh` goes through the names. -/
def Draft.Bounded (w : Worker) (draft : Draft) : Prop :=
  Tables w.setup.topic.maxRoutes draft.nextRoute (draft.incoming.map (·.1)) w.outgoing

theorem Draft.Bounded.enroll {proxy : Nat} {consumer : LocalEndpoint} (bounded : draft.Bounded w) :
    (draft.enroll w name source owner proxy consumer).Bounded w := by
  unfold Draft.enroll
  dsimp only
  split
  next index _ =>
    refine bounded.rename ?_ rfl
    rw [map_map, map_map]
    refine Keyed.map_modify ?_ _ _
    exact fun _ => rfl
  split
  · exact bounded
  next free =>
    simp only [not_or, not_le] at free
    unfold Draft.Bounded
    rw [map_append, map_singleton]
    refine bounded.receive ?_ free.2 rfl
    rw [length_map]
    exact free.1

theorem Draft.Bounded.visit (bounded : draft.Bounded w) :
    (draft.visit w answers name).Bounded w := by
  unfold Draft.visit
  dsimp only
  split
  · exact bounded
  split
  · exact bounded
  split
  · exact bounded
  split
  · split <;> exact bounded
  unfold Draft.attach
  split
  · exact bounded
  dsimp only
  split
  · exact bounded
  · exact Draft.Bounded.enroll bounded

end Draft

/-! ## One event -/

/-- The tables of a data plane that is not `receive_only`. -/
structure Worker.Bounded (w : Worker) : Prop where
  idle : w.running = false → w.incoming = [] ∧ w.outgoing = []
  sending : w.running = true → w.setup.topic.receiveOnly = false ∧ w.setup.topic.maxRoutes ≤ 64
  tables : Tables w.setup.topic.maxRoutes w.nextRoute w.incoming w.outgoing

namespace Worker.Bounded

variable {w next : Worker}

theorem few (bounded : w.Bounded) : w.incoming.length + w.outgoing.length ≤ 64 := by
  cases running : w.running with
  | false =>
    obtain ⟨incoming, outgoing⟩ := bounded.idle running
    rw [incoming, outgoing]
    decide
  | true => exact le_trans bounded.tables.room (bounded.sending running).2

section

variable (bounded : w.Bounded)
include bounded

theorem closes (closes : w.Closes next) : next.Bounded := by
  refine ⟨fun stopped => ?_, ?_, ?_⟩
  · rw [closes.running] at stopped
    obtain ⟨incoming, outgoing⟩ := bounded.idle stopped
    have none := closes.incoming
    rw [incoming] at none
    exact ⟨sublist_nil.mp none, closes.outgoing.trans outgoing⟩
  · rw [closes.running, closes.setup]
    exact bounded.sending
  · rw [closes.setup, closes.nextRoute, closes.outgoing]
    exact bounded.tables.shrink (closes.incoming.map _) (.refl _)

/-- While the worker runs, only the tables matter. -/
theorem change (running : w.running = true) {incoming : List Incoming} {outgoing : List SendRoute}
    {nextRoute : UInt64} (tables : Tables w.setup.topic.maxRoutes nextRoute incoming outgoing) :
    Worker.Bounded { w with incoming, outgoing, nextRoute } :=
  ⟨fun stopped => absurd (running.symm.trans stopped) (by decide), bounded.sending, tables⟩

theorem refresh (running : w.running = true) (answers : Answers) :
    (w.refresh answers).Bounded := by
  have begun : w.draft.Bounded w := bounded.tables.rename (by simp [Worker.draft]) rfl
  have settled {draft : Draft} (drafted : draft.Bounded w) :
      (w.settle draft answers.now).Bounded := by
    have lapsed (r : SendRoute) : (r.route.lapse answers.now).packet.pair = r.route.packet.pair :=
      congrArg Packet.pair (r.route.lapse_packet answers.now)
    refine { bounded.change running (drafted.shrink ((filter_sublist.map _).map _) ?_) with }
    simp only [Worker.settle, map_map, Function.comp_def, lapsed]
    exact filter_sublist.map _
  unfold Worker.refresh
  split
  · exact settled begun
  · exact settled (foldlRecOn w.setup.remoteTopics _ begun fun _ drafted _ _ => drafted.visit)

theorem interest (running : w.running = true) (packet : Packet) (peer : PeerInfo) (port : UInt16)
    (result : OpenResult) (now : Int) : (w.interest packet peer port result now).Bounded := by
  have fewer (receiver : Bool) :=
    bounded.tables.shrink (.refl _) ((w.staying_sublist receiver packet).map _)
  cases w.interest_cases packet peer port result now with
  | refused stale equal =>
    rw [equal]
    exact { bounded with }
  | renewed index equal =>
    rw [equal]
    refine bounded.change running (bounded.tables.rename rfl ?_)
    refine Keyed.map_modify ?_ _ _
    exact fun _ => rfl
  | replaced receiver _ _ _ equal =>
    rw [equal]
    exact { bounded.change running (fewer receiver) with }
  | opened receiver r same _ _ equal alone _ _ room =>
    rw [equal]
    refine { bounded.change running ((fewer receiver).send room fun other present pair => ?_) with }
    refine alone other present (samePair_iff.mpr ?_)
    rw [pair, same]
    rfl

/-- The receiving routes keep their numbers. -/
theorem rereceive {incoming : List Incoming}
    (ids : incoming.map (·.packet.routeId) = w.incoming.map (·.packet.routeId)) :
    Worker.Bounded { w with incoming } := by
  refine { bounded with idle := fun stopped => ?_, tables := bounded.tables.rename ids rfl }
  obtain ⟨empty, outgoing⟩ := bounded.idle stopped
  rw [empty, map_nil] at ids
  exact ⟨map_eq_nil_iff.mp ids, outgoing⟩

theorem data (packet : Packet) (peer : PeerInfo) : (w.data packet peer).Bounded := by
  unfold Worker.data
  split
  · exact { bounded with }
  split
  · exact bounded
  next r present =>
    refine { bounded.rereceive (Keyed.map_set present ?_) with }
    rcases r.data_cases w.setup.discovery w.setup.little packet peer with
      ⟨_, _, changed⟩ | ⟨_, _, changed⟩ <;> rw [changed] <;> rfl

theorem transmit (running : w.running = true) (now : Int) (sent : Nat → Int32)
    (attempts : Nat → Attempt) : (w.transmit now sent attempts).Bounded := by
  refine bounded.change running (bounded.tables.rename (Keyed.map_mapIdx (fun index r => ?_) _)
    (Keyed.map_mapIdx (fun index r => ?_) _))
  · rcases r.request_cases w.setup.discovery w.peers now (sent index) with same | ⟨_, _, same⟩ <;>
      rw [same]
  · cases r.route.transmit_counts w.setup.topic (attempts index) with
    | quiet packet _ _ _ => exact congrArg Packet.pair packet
    | takes _ _ _ _ packet _ _ => exact (congrArg Packet.pair packet).trans rfl

end

theorem handle {event : Event} (bounded : w.Bounded) (enabled : w.Enabled event)
    (sends : ∀ setup session, event = .start setup session → setup.topic.receiveOnly = false) :
    (w.handle event).Bounded := by
  cases event with
  | start setup session =>
    obtain ⟨incoming, outgoing⟩ := bounded.idle enabled.1
    refine ⟨fun _ => ⟨incoming, outgoing⟩, fun _ => ⟨sends _ _ rfl, enabled.2.1.2.2.1⟩, ?_⟩
    change Tables _ _ w.incoming w.outgoing
    rw [incoming, outgoing]
    exact .nil _ _
  | join session => exact { bounded with }
  | refresh peers entries session answers =>
    have closes := Worker.closes_checkSubscriptions { w with peers, entries } session
    have told : Worker.Bounded { w with peers, entries } := { bounded with }
    exact { (told.closes closes).refresh (closes.running.trans enabled.1) answers with }
  | receive bytes ip port result now =>
    exact Worker.receive_rule (fun _ _ => { bounded with })
      (fun packet peer _ _ _ => bounded.interest enabled.1 packet peer port result now)
      fun packet peer => bounded.data packet peer
  | deliver answers =>
    refine bounded.rereceive (Keyed.map_mapIdx (fun index r => ?_) _)
    rcases r.deliver_cases w.setup.little (answers index) with
      ⟨_, same⟩ | ⟨_, _, _, _, _, same, _⟩ <;> rw [same]
  | transmit now sent attempts => exact bounded.transmit enabled.1 now sent attempts
  | subscribe source expected descriptor answers =>
    rcases w.subscribe_incoming source expected descriptor answers with same |
        ⟨running, receiveOnly, _⟩
    · simp only [Worker.handle, same]
      exact bounded
    · rw [(bounded.sending running).1] at receiveOnly
      cases receiveOnly
  | unsubscribe id =>
    simp only [Worker.handle, Worker.unsubscribe]
    split
    · exact { bounded.closes (w.closes_closeSubscription id) with }
    · exact bounded
  | finish =>
    exact ⟨fun _ => ⟨rfl, rfl⟩, fun running => (by cases running), .nil _ _⟩

end Worker.Bounded

end Kcf.Network.Topic
