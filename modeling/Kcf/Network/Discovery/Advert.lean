import Kcf.Data.Counter
import Kcf.Network.Discovery.Table

/-!
# What a node says about itself

The endpoints a node holds, their encoding and the revision they carry change
together.  Every packet a node sends is cut from this one record.
-/

namespace Kcf.Network.Discovery

open Kcf.Wire

/-- The node's own side: its incarnation, and its endpoints under their revision. -/
structure Advert where
  host : HostIdentity
  bootId : HostIdentity
  sessionId : UInt64
  revision : UInt64
  endpoints : List NetworkEndpointMetadata
  endpointCount : UInt16
  metadata : Bytes
  deriving DecidableEq

def Node.advert (node : Node) : Advert :=
  ⟨node.config.host, node.config.bootId, node.session, node.revision,
    node.baseMetadata ++ node.consumers, node.endpointCount, node.metadata⟩

namespace Advert

/-- The session that the record belongs to. -/
def session (a : Advert) : HostIdentity × HostIdentity × UInt64 := (a.host, a.bootId, a.sessionId)

/-- The encoding is the one of the endpoints. -/
structure Ok (a : Advert) : Prop where
  encoded : encodeMetadata a.endpoints = .ok a.metadata
  count : a.endpointCount = UInt16.ofNat a.endpoints.length

/-- New endpoints under the next revision. -/
def revise (a : Advert) (endpoints : List NetworkEndpointMetadata) (bytes : Bytes) : Advert :=
  { a with
    revision := a.revision + 1
    endpoints := endpoints
    endpointCount := UInt16.ofNat endpoints.length
    metadata := bytes }

/-- One event leaves the record alone or revises it. -/
def Advances (a b : Advert) : Prop :=
  b = a ∨ ∃ endpoints bytes, encodeMetadata endpoints = .ok bytes ∧ a.revision ≠ maxUInt64 ∧
    b = a.revise endpoints bytes

theorem Advances.session {a b : Advert} (advances : a.Advances b) : b.session = a.session := by
  rcases advances with rfl | ⟨_, _, _, _, rfl⟩
  · rfl
  · rfl

theorem Advances.ok {a b : Advert} (advances : a.Advances b) (ok : a.Ok) : b.Ok := by
  rcases advances with rfl | ⟨_, _, encoded, _, rfl⟩
  · exact ok
  · exact ⟨encoded, rfl⟩

/-- A revision is newer than all before it. -/
theorem Advances.revision {a b : Advert} (advances : a.Advances b) :
    b = a ∨ a.revision < b.revision := by
  rcases advances with rfl | ⟨_, _, _, room, rfl⟩
  · exact .inl rfl
  · exact .inr (Data.UInt64.lt_add_one room)

/-- The piece of the metadata that starts at an offset. -/
def chunkAt (a : Advert) (offset : UInt32) : Bytes :=
  (a.metadata.drop offset.toNat).take (min chunkSize (a.metadata.length - offset.toNat))

/-- A packet that speaks for the record. -/
structure Sends (a : Advert) (p : Packet) : Prop where
  host : p.host = a.host
  bootId : p.bootId = a.bootId
  sessionId : p.sessionId = a.sessionId
  silent : p.kind ≠ .announce → p.profile = {}
  content : p.kind ≠ .metadataRequest →
    p.revision = a.revision ∧ p.metadataSize = UInt32.ofNat a.metadata.length
  count : p.kind = .announce → p.endpointCount = a.endpointCount
  chunk : p.kind = .metadataResponse → p.chunk = a.chunkAt p.offset

end Advert

/-! ## Start and updates -/

theorem advert_start {config : Config} {endpoints : List NetworkEndpointMetadata}
    {session : UInt64} {node : Node} (started : start config endpoints session = .ok node) :
    node.advert.Ok ∧ node.peers = [] ∧ node.config = config ∧ node.session = session := by
  unfold start at started
  split at started
  · cases started
  split at started
  · cases started
  next bytes encoded =>
    split at started
    · cases started
    rw [← Except.ok.inj started]
    refine ⟨⟨?_, ?_⟩, rfl, rfl, rfl⟩
    · simpa [Node.advert] using encoded
    · simp [Node.advert]

theorem Node.Publishes.advances {node next : Node} (publishes : node.Publishes next) :
    node.advert.Advances next.advert := by
  rcases publishes with rfl | ⟨base, consumers, bytes, encoded, room, rfl⟩
  · exact .inl rfl
  · exact .inr ⟨_, _, encoded, room, rfl⟩

/-! ## Tick and Receive -/

theorem Node.beginMetadata_advert (node : Node) (e : Entry) :
    (node.beginMetadata e).1.advert = node.advert := by
  unfold Node.beginMetadata
  split <;> rfl

theorem Node.announce_advert (node : Node) (p : Packet) (address : Address) (now : Int) :
    (node.announce p address now).1.advert = node.advert := by
  unfold Node.announce
  split
  · rfl
  next peers index _ =>
    cases verdict : ((peers.getD index {}).announce node.config p address now).2 with
    | rejected =>
      simp only [verdict]
      rfl
    | accepted refresh =>
      simp only [verdict]
      cases refresh with
      | false => rfl
      | true => exact node.beginMetadata_advert _

theorem Node.takeResponse_advert (node : Node) (index : Nat) (e : Entry) (p : Packet) (now : Int) :
    (node.takeResponse index e p now).advert = node.advert := by
  have restarted : ∀ e, (node.restartMetadata index e now).advert = node.advert :=
    fun e => node.beginMetadata_advert e
  unfold Node.takeResponse
  split
  · rfl
  dsimp only
  split
  · split
    · split
      · exact restarted _
      · rfl
    · exact restarted _
  · rfl

/-- Every packet speaks for the record. -/
def Advert.SendsAll (a : Advert) (sent : List Outgoing) : Prop := ∀ o ∈ sent, a.Sends o.1

theorem Advert.sendsAll_nil (a : Advert) : a.SendsAll [] := List.forall_mem_nil _

theorem Node.requestMetadata_sends (node : Node) (now : Int) (e : Entry) :
    node.advert.SendsAll (node.requestMetadata now e).2 := by
  unfold Node.requestMetadata
  split
  · refine List.forall_mem_singleton.mpr ?_
    exact ⟨rfl, rfl, rfl, fun _ => rfl, fun other => absurd rfl other, nofun, nofun⟩
  · exact Advert.sendsAll_nil _

theorem Node.tickPeers_sends (node : Node) (now : Int) :
    (node.tickPeers now).1.advert = node.advert ∧
      node.advert.SendsAll (node.tickPeers now).2 := by
  refine ⟨rfl, fun o member => ?_⟩
  obtain ⟨visited, inside, sent⟩ := List.mem_flatMap.mp member
  obtain ⟨e, _, rfl⟩ := List.mem_map.mp inside
  exact node.requestMetadata_sends now _ o sent

theorem Node.tick_sends (node : Node) (now : Int) :
    (node.tick now).1.advert = node.advert ∧ node.advert.SendsAll (node.tick now).2 := by
  unfold Node.tick
  split
  · split
    · exact ⟨rfl, Advert.sendsAll_nil _⟩
    have peers := Node.tickPeers_sends { node with
      sequence := node.sequence + 1
      dirty := false
      nextAnnounce := now + node.config.announceInterval * millisecond } now
    refine ⟨peers.1, List.forall_mem_cons.mpr ⟨?_, peers.2⟩⟩
    exact ⟨rfl, rfl, rfl, fun other => absurd rfl other, fun _ => ⟨rfl, rfl⟩, fun _ => rfl, nofun⟩
  · exact node.tickPeers_sends now

theorem Node.answerRequest_sends (node : Node) (index : Nat) (e : Entry) (p : Packet)
    (address : Address) (now : Int) :
    (node.answerRequest index e p address now).1.advert = node.advert ∧
      node.advert.SendsAll (node.answerRequest index e p address now).2 := by
  unfold Node.answerRequest
  split
  · exact ⟨rfl, Advert.sendsAll_nil _⟩
  · refine ⟨rfl, List.forall_mem_singleton.mpr ?_⟩
    exact ⟨rfl, rfl, rfl, fun _ => rfl, fun _ => ⟨rfl, rfl⟩, nofun, fun _ => rfl⟩

theorem Node.receive_sends (node : Node) (p : Packet) (address : Address) (multicast : Bool)
    (now : Int) :
    (node.receive p address multicast now).1.advert = node.advert ∧
      node.advert.SendsAll (node.receive p address multicast now).2 := by
  unfold Node.receive
  split
  · exact ⟨rfl, Advert.sendsAll_nil _⟩
  split
  · split
    · exact ⟨node.announce_advert p address now, Advert.sendsAll_nil _⟩
    · exact ⟨rfl, Advert.sendsAll_nil _⟩
  split
  · exact ⟨rfl, Advert.sendsAll_nil _⟩
  next index _ =>
    dsimp only
    split
    · exact ⟨rfl, Advert.sendsAll_nil _⟩
    split
    · exact node.answerRequest_sends index _ p address now
    · exact ⟨node.takeResponse_advert index _ p now, Advert.sendsAll_nil _⟩
    · exact ⟨rfl, Advert.sendsAll_nil _⟩

/-- One event: the record stays or is revised, and what is sent speaks for it. -/
theorem Node.handle_sends (node : Node) (event : Event) :
    node.advert.Advances (node.handle event).1.advert ∧
      node.advert.SendsAll (node.handle event).2 := by
  unfold Node.handle
  split
  · cases event with
    | tick now =>
      obtain ⟨same, sends⟩ := node.tick_sends now
      exact ⟨.inl same, sends⟩
    | datagram bytes address multicast now =>
      simp only [Node.drain]
      split
      · exact ⟨.inl rfl, Advert.sendsAll_nil _⟩
      split
      · exact ⟨.inl rfl, Advert.sendsAll_nil _⟩
      next p _ =>
        obtain ⟨same, sends⟩ := node.receive_sends p address multicast now
        exact ⟨.inl same, sends⟩
    | updateMetadata endpoints =>
      exact ⟨(node.updateMetadata_publishes endpoints).advances, Advert.sendsAll_nil _⟩
    | registerConsumer session endpoint =>
      exact ⟨(node.registerConsumer_publishes session endpoint).advances, Advert.sendsAll_nil _⟩
    | unregisterConsumer session endpoint =>
      exact ⟨(node.unregisterConsumer_publishes session endpoint).advances, Advert.sendsAll_nil _⟩
  · exact ⟨.inl rfl, Advert.sendsAll_nil _⟩

end Kcf.Network.Discovery
