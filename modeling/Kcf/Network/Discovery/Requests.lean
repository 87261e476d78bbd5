import Kcf.Network.Discovery.Stability

/-!
# The packets a node builds

`Tick` and `Receive` fill packets from the peer table and from the node's own
record and pass them to `Send`, which encodes them.  A request is cut from the
transfer of an entry, and the entry was filled by whatever a peer has sent.  The
invariant of this module says that no peer can bring an entry into a shape from
which an invalid request is built.
-/

namespace Kcf.Network.Discovery

open Kcf.Wire Kcf.Transition List

/-! ## Entries -/

/-- An entry has accepted an announce. -/
structure Entry.Announced (e : Entry) : Prop where
  sequence : e.sequence ≠ 0
  revision : e.info.metadataRevision ≠ 0
  nonempty : 0 < e.size.toNat
  bounded : e.size.toNat ≤ maxMetadata

/-- The transfer stands at the start of a chunk of the announced metadata. -/
structure Entry.Collecting (e : Entry) : Prop extends e.Announced where
  aligned : e.staging.length % chunkSize = 0
  unfinished : e.staging.length < e.size.toNat

/-- A request can be built from the entry. -/
structure Entry.Asking (e : Entry) : Prop extends e.Collecting where
  asked : e.requestId ≠ 0

/-- `BeginMetadata` has run out of request numbers, which stops the node. -/
def Node.Exhausted (node : Node) : Prop := node.running = false ∧ node.requestCounter = maxUInt64

/-- A request can be built from the entry, or none will be built any more. -/
structure Node.Serves (node : Node) (e : Entry) : Prop where
  collecting : e.Collecting
  asked : e.requestId ≠ 0 ∨ node.Exhausted

variable {e : Entry}

theorem Entry.Asking.serves (asking : e.Asking) (node : Node) : node.Serves e :=
  ⟨asking.toCollecting, .inl asking.asked⟩

def Node.AllAsk (node : Node) : Prop := ∀ e ∈ node.peers, e.Asking

def Node.ServesAll (node : Node) : Prop := ∀ e ∈ node.peers, node.Serves e

theorem Node.AllAsk.serves {node : Node} (asking : node.AllAsk) : node.ServesAll :=
  fun e member => (asking e member).serves node

theorem Node.Serves.asking {node : Node} (serves : node.Serves e)
    (running : node.running = true) : e.Asking := by
  refine ⟨serves.collecting, serves.asked.resolve_right fun exhausted => ?_⟩
  rw [exhausted.1] at running
  cases running

variable {p : Packet}

/-- The content of a valid announce is one that an entry may take over. -/
theorem Entry.announced_accept (config : Config) (e : Entry) (address : Address)
    (now : Int) (valid : p.Valid) (kind : p.kind = .announce) :
    (e.accept config p address now).Announced := by
  have body := valid.2.2.2.2
  rw [kind] at body
  obtain ⟨_, _, sequence, _, _, _, least, most, _⟩ := body
  exact ⟨sequence, valid.2.2.2.1, Nat.lt_of_lt_of_le Nat.zero_lt_two least, most⟩

theorem Entry.Announced.collecting (announced : e.Announced) (empty : e.staging = []) :
    e.Collecting := by
  refine ⟨announced, ?_, ?_⟩
  · rw [empty]
    rfl
  · rw [empty]
    exact announced.nonempty

/-- A response moves the transfer by a whole chunk or finishes it. -/
theorem Entry.Asking.stage (asking : e.Asking)
    (valid : p.BodyValid .metadataResponse) (size : p.metadataSize = e.size)
    (offset : p.offset.toNat = e.staging.length)
    (unfinished : (e.staging ++ p.chunk).length ≠ e.size.toNat) :
    ({ e with staging := e.staging ++ p.chunk, nextRequest := 0 } : Entry).Asking := by
  obtain ⟨_, _, _, _, _, inside, aligned, length⟩ := valid
  rw [size, offset] at inside length
  rw [offset] at aligned
  rw [length_append] at unfinished
  have whole : p.chunk.length = chunkSize := by omega
  have below : e.staging.length + p.chunk.length < e.size.toNat := by omega
  refine { asking with aligned := ?_, unfinished := ?_ }
  · rw [length_append, whole, Nat.add_mod_right]
    exact aligned
  · rw [length_append]
    exact below

/-- `BeginMetadata` gives the entry a request number or stops the node. -/
theorem Node.beginMetadata_serves (node : Node) (announced : e.Announced) :
    (node.beginMetadata e).1.Serves (node.beginMetadata e).2 := by
  unfold Node.beginMetadata
  dsimp only
  split
  next last =>
    exact ⟨Entry.Announced.collecting { announced with } rfl, .inr ⟨rfl, last⟩⟩
  next room =>
    refine ⟨Entry.Announced.collecting { announced with } rfl, .inl fun zero => ?_⟩
    have counted := Data.UInt64.toNat_add_one room
    dsimp only at zero
    rw [zero] at counted
    cases counted

/-! ## Events -/

section Events

variable (node : Node) (now : Int)

variable {e : Entry}

theorem Entry.Asking.expire (asking : e.Asking) (config : Config) :
    (e.expire config now).Asking := by
  unfold Entry.expire
  split
  · exact ⟨Entry.Announced.collecting { asking with } rfl, asking.asked⟩
  · exact asking

/-- The timers of an entry do not matter. -/
theorem Entry.Asking.retime (asking : e.Asking) (nextRequest nextResponse : Int) :
    ({ e with nextRequest := nextRequest, nextResponse := nextResponse } : Entry).Asking :=
  { asking with }

theorem Node.tickPeers_asking (before : node.AllAsk) :
    ∀ e ∈ (node.tickPeers now).1.peers, e.Asking := by
  intro e' member
  simp only [Node.tickPeers, map_map, mem_map] at member
  obtain ⟨e, old, rfl⟩ := member
  have expired := (before e old).expire now node.config
  simp only [Function.comp, Node.requestMetadata]
  split
  · exact expired.retime _ _
  · exact expired

theorem Node.tick_asking (before : node.AllAsk) :
    ∀ e ∈ (node.tick now).1.peers, e.Asking := by
  unfold Node.tick
  split
  · split
    · exact before
    · exact Node.tickPeers_asking _ now before
  · exact node.tickPeers_asking now before

theorem Node.refresh_serves (refresh : Bool) (announced : e.Announced)
    (quiet : refresh = false → e.Asking) :
    (node.refresh refresh e).1.Serves (node.refresh refresh e).2 := by
  cases refresh with
  | true => exact node.beginMetadata_serves announced
  | false => exact (quiet rfl).serves node

/-- An announce that does not ask for the metadata again leaves the size alone. -/
theorem Entry.Asking.accept {config : Config} {address : Address}
    {now : Int} (asking : e.Asking) (announced : (e.accept config p address now).Announced)
    (admits : e.Admits config p address now)
    (quiet : e.info.sessionId ≠ 0 ∧ ¬e.changed p ∧ e.info.state = .online ∧
      p.revision = e.info.metadataRevision) :
    (e.accept config p address now).Asking := by
  obtain ⟨known, same, _, revision⟩ := quiet
  have size := (admits.content known same asking.sequence revision).1
  refine ⟨⟨announced, asking.aligned, ?_⟩, asking.asked⟩
  have unfinished := asking.unfinished
  rw [size] at unfinished
  exact unfinished

theorem Node.announce_serves (address : Address) (valid : p.Valid)
    (kind : p.kind = .announce) (before : node.AllAsk) :
    (node.announce p address now).1.ServesAll := by
  have positive := Packet.sequence_ne_zero valid kind
  have announced := fun e => Entry.announced_accept node.config e address now valid kind
  unfold Node.announce
  split
  · exact before.serves
  next table index placed =>
    rcases placeFor_cases placed with ⟨rfl, bound, host⟩ | ⟨absent, room, roomOk, rfl, rfl⟩
    · have present : node.peers.getD index {} = node.peers[index] := by
        simp [getD, getElem?_eq_getElem bound]
      have asking := before _ (getElem_mem bound)
      rw [present]
      rcases Entry.announce_cases node.config node.peers[index] address now positive with rejected |
          ⟨refresh, accepted, admits, quiet⟩
      · rw [rejected]
        simp only [set_getElem_self]
        exact fun e member => (before e member).serves _
      · rw [accepted]
        have served := node.refresh_serves refresh (announced (node.peers[index].base p))
          fun still => by
            have base : node.peers[index].base p = node.peers[index] := if_neg (quiet still).2.1
            rw [base]
            exact asking.accept (announced _) admits (quiet still)
        intro e member
        rcases mem_or_eq_of_mem_set member with old | rfl
        · exact (before e old).serves _
        · exact ⟨served.collecting, served.asked⟩
    · have fresh : (room ++ [({} : Entry)]).getD room.length {} = {} := by simp [getD]
      rw [fresh]
      obtain ⟨refresh, accepted, quiet⟩ := Entry.announce_empty node.config address now positive
      rw [accepted]
      have served := node.refresh_serves refresh (announced (({} : Entry).base p))
        fun still => absurd rfl (quiet still).1
      intro e member
      simp only [set_append_right, Nat.le_refl, Nat.sub_self, set_cons_zero] at member
      rcases Data.mem_snoc member with old | rfl
      · exact (before e (roomOk.sublist.subset old)).serves _
      · exact ⟨served.collecting, served.asked⟩

theorem Node.setPeer_serves {next : Node} {index : Nat} {e' : Entry}
    (before : next.AllAsk) (served : next.Serves e') :
    (next.setPeer index e').ServesAll := by
  intro e member
  rcases mem_or_eq_of_mem_set member with old | rfl
  · exact (before e old).serves _
  · exact ⟨served.collecting, served.asked⟩

theorem Node.restartMetadata_serves (index : Nat) (announced : e.Announced)
    (before : node.AllAsk) : (node.restartMetadata index e now).ServesAll := by
  have served := node.beginMetadata_serves announced
  have asking : (node.beginMetadata e).1.AllAsk := by
    unfold Node.beginMetadata
    split <;> exact before
  refine Node.setPeer_serves asking ?_
  exact ⟨{ served.collecting with }, served.asked⟩

theorem Node.takeResponse_serves {index : Nat} (asking : e.Asking)
    (valid : p.Valid) (kind : p.kind = .metadataResponse) (before : node.AllAsk) :
    (node.takeResponse index e p now).ServesAll := by
  have body := valid.2.2.2.2
  rw [kind] at body
  have announced : ({ e with staging := e.staging ++ p.chunk } : Entry).Announced := { asking with }
  unfold Node.takeResponse
  split
  · exact before.serves
  next expected =>
    simp only [not_or, not_not, Bool.not_eq_true] at expected
    obtain ⟨_, _, _, size, offset⟩ := expected
    dsimp only
    split
    next full =>
      split
      next decoded decodes =>
        split
        · exact node.restartMetadata_serves now index announced before
        · refine Node.setPeer_serves before (Entry.Asking.serves ?_ node)
          exact ⟨Entry.Announced.collecting { asking with } rfl, asking.asked⟩
      · exact node.restartMetadata_serves now index announced before
    next more => exact Node.setPeer_serves before ((asking.stage body size offset more).serves node)

theorem Node.answerRequest_serves {index : Nat} (p : Packet) (address : Address)
    (asking : e.Asking) (before : node.AllAsk) :
    (node.answerRequest index e p address now).1.ServesAll := by
  unfold Node.answerRequest
  split
  · exact before.serves
  · exact Node.setPeer_serves before ((asking.retime _ _).serves node)

theorem Node.receive_serves (address : Address) (multicast : Bool) (valid : p.Valid)
    (before : node.AllAsk) :
    (node.receive p address multicast now).1.ServesAll := by
  unfold Node.receive
  split
  · exact before.serves
  split
  · split
    next kind => exact node.announce_serves now address valid kind before
    · exact before.serves
  · split
    · exact before.serves
    next index found =>
      obtain ⟨bound, _⟩ := findPeer_some found
      have asking : (node.peers.getD index {}).Asking := by
        rw [getD, getElem?_eq_getElem bound, Option.getD_some]
        exact before _ (getElem_mem bound)
      dsimp only
      split
      · exact before.serves
      split
      · exact node.answerRequest_serves now p address asking before
      next kind => exact node.takeResponse_serves now asking valid kind before
      · exact before.serves

theorem Node.handle_serves (event : Event) (before : node.ServesAll) :
    (node.handle event).1.ServesAll := by
  cases running : node.running with
  | false => simpa [Node.handle, running] using before
  | true =>
    have asking : node.AllAsk := fun e member => (before e member).asking running
    have owner : ∀ {next : Node}, node.Publishes next → next.ServesAll := by
      intro next publishes
      unfold Node.ServesAll
      rw [publishes.frame.1]
      exact fun e member => (asking e member).serves _
    simp only [Node.handle, running, if_true]
    cases event with
    | tick now => exact fun e member => (node.tick_asking now asking e member).serves _
    | datagram bytes address multicast now =>
      simp only [Node.drain]
      split
      · exact before
      split
      · exact before
      next p decoded =>
        exact node.receive_serves now address multicast (decodePacket_valid decoded) asking
    | updateMetadata endpoints => exact owner (node.updateMetadata_publishes endpoints)
    | registerConsumer session endpoint =>
      exact owner (node.registerConsumer_publishes session endpoint)
    | unregisterConsumer session endpoint =>
      exact owner (node.unregisterConsumer_publishes session endpoint)

end Events

/-! ## The node's own record -/

/-- What `Start` has checked, and what the node keeps of it. -/
structure Node.Proper (node : Node) : Prop where
  host : node.config.host.Valid
  bootId : node.config.bootId.Valid
  session : node.session ≠ 0
  profile : node.config.profile.Valid
  discovers : node.config.profile.capabilities &&& Capability.discovery ≠ 0
  revision : node.revision ≠ 0
  advert : node.advert.Ok

theorem compatible_valid {here there : PeerProfile} {policy : CompatibilityPolicy}
    (compatible : (checkPeerCompatibility here there policy).Compatible) : here.Valid := by
  unfold checkPeerCompatibility at compatible
  split at compatible
  · cases compatible
  next valid => exact not_not.mp (not_or.mp valid).1

theorem proper_start {config : Config} {endpoints : List NetworkEndpointMetadata}
    {session : UInt64} {node : Node} (started : start config endpoints session = .ok node) :
    node.Proper := by
  have advert := (advert_start started).1
  unfold start at started
  split at started
  · cases started
  next checked =>
    simp only [not_or, not_not] at checked
    obtain ⟨compatible, discovers, metadata, _⟩ := checked
    split at started
    · cases started
    next bytes encoded =>
      split at started
      · cases started
      next drawn =>
        cases started
        exact ⟨metadata.1, metadata.2.1, drawn, compatible_valid compatible, discovers, by simp,
          advert⟩

theorem Node.Proper.handle {node : Node} (proper : node.Proper) (event : Event) :
    (node.handle event).1.Proper := by
  have advances := (node.handle_sends event).1
  have config : (node.handle event).1.config = node.config := (node.handle_step 0 event).2
  have session : (node.handle event).1.session = node.session :=
    congrArg (fun key => key.2.2) advances.session
  have revision : (node.handle event).1.revision ≠ 0 := by
    rcases advances.revision with same | newer
    · rw [show (node.handle event).1.revision = node.revision from
        congrArg Advert.revision same]
      exact proper.revision
    · have newer : node.revision < (node.handle event).1.revision := newer
      intro zero
      rw [zero] at newer
      exact not_lt_zero _ newer
  refine ⟨?_, ?_, ?_, ?_, ?_, revision, advances.ok proper.advert⟩
  · rw [config]
    exact proper.host
  · rw [config]
    exact proper.bootId
  · rw [session]
    exact proper.session
  · rw [config]
    exact proper.profile
  · rw [config]
    exact proper.discovers

/-! ## Packets -/

section Packets

variable {node : Node} (proper : node.Proper)
include proper

/-- The bounds of `EncodeDiscoveryMetadata` are those of a packet. -/
theorem Node.Proper.sizes : 2 ≤ node.metadata.length ∧ node.metadata.length ≤ maxMetadata ∧
    (UInt32.ofNat node.metadata.length).toNat = node.metadata.length ∧
    node.endpointCount.toNat ≤ maxEndpoints := by
  obtain ⟨_, least, most, few⟩ := decodeMetadata_encodeMetadata proper.advert.encoded
  refine ⟨least, most, UInt32.toNat_ofNat_of_lt' (lt_of_le_of_lt most (by decide)), ?_⟩
  have count : node.endpointCount = UInt16.ofNat node.advert.endpoints.length := proper.advert.count
  rw [count, UInt16.toNat_ofNat_of_lt' (lt_of_le_of_lt few (by decide))]
  exact few

theorem Node.Proper.announcement_valid (room : node.sequence ≠ maxUInt64) :
    node.announcement.Valid := by
  obtain ⟨least, most, size, count⟩ := proper.sizes
  refine ⟨proper.host, proper.bootId, proper.session, proper.revision, proper.profile,
    proper.discovers, ?_, rfl, rfl, rfl, ?_, ?_, count⟩
  · intro zero
    have newer : node.sequence < node.announcement.sequence := Data.UInt64.lt_add_one room
    rw [zero] at newer
    exact not_lt_zero _ newer
  · exact size.symm ▸ least
  · exact size.symm ▸ most

theorem Node.Proper.requestTo_valid {e : Entry} (asking : e.Asking) : (node.requestTo e).Valid := by
  have below : e.staging.length < maxMetadata := Nat.lt_of_lt_of_le asking.unfinished asking.bounded
  have offset : (UInt32.ofNat e.staging.length).toNat = e.staging.length :=
    UInt32.toNat_ofNat_of_lt' (lt_trans below (by decide))
  refine ⟨proper.host, proper.bootId, proper.session, asking.revision, asking.asked, rfl, rfl, rfl,
    rfl, ?_, ?_⟩
  · exact offset.symm ▸ below
  · exact offset.symm ▸ asking.aligned

theorem Node.Proper.responseTo_valid (valid : p.BodyValid .metadataRequest)
    (inside : p.offset.toNat < node.metadata.length) : (node.responseTo p).Valid := by
  obtain ⟨request, _, _, _, _, _, aligned⟩ := valid
  obtain ⟨least, most, size, _⟩ := proper.sizes
  refine ⟨proper.host, proper.bootId, proper.session, proper.revision, request, rfl, rfl, ?_, ?_,
    ?_, aligned, ?_⟩
  · exact size.symm ▸ least
  · exact size.symm ▸ most
  · exact size.symm ▸ inside
  · simp only [Node.responseTo, size, length_take, length_drop]
    omega

theorem Node.Proper.tickPeers_valid (now : Int) (asking : node.AllAsk) :
    ∀ o ∈ (node.tickPeers now).2, o.1.Valid := by
  intro o member
  obtain ⟨visited, inside, due⟩ := mem_flatMap.mp member
  obtain ⟨e, old, rfl⟩ := mem_map.mp inside
  unfold Node.requestMetadata at due
  split at due
  · rw [mem_singleton.mp due]
    exact proper.requestTo_valid ((asking e old).expire now node.config)
  · cases due

theorem Node.Proper.tick_valid (now : Int) (asking : node.AllAsk) :
    ∀ o ∈ (node.tick now).2, o.1.Valid := by
  unfold Node.tick
  split
  · split
    · exact forall_mem_nil _
    next room =>
      refine forall_mem_cons.mpr ⟨proper.announcement_valid room, ?_⟩
      exact Node.Proper.tickPeers_valid { proper with } now asking
  · exact proper.tickPeers_valid now asking

theorem Node.Proper.receive_valid (valid : p.Valid) (address : Address)
    (multicast : Bool) (now : Int) :
    ∀ o ∈ (node.receive p address multicast now).2, o.1.Valid := by
  unfold Node.receive
  split
  · exact forall_mem_nil _
  split
  · split <;> exact forall_mem_nil _
  split
  · exact forall_mem_nil _
  dsimp only
  split
  · exact forall_mem_nil _
  split
  next kind =>
    have body := valid.2.2.2.2
    rw [kind] at body
    unfold Node.answerRequest
    split
    · exact forall_mem_nil _
    next asked =>
      simp only [not_or, Nat.not_le] at asked
      exact forall_mem_singleton.mpr (proper.responseTo_valid body asked.2.1)
  · exact forall_mem_nil _
  · exact forall_mem_nil _

theorem Node.Proper.handle_valid (serves : node.ServesAll) (event : Event) :
    ∀ o ∈ (node.handle event).2, o.1.Valid := by
  unfold Node.handle
  split
  next running =>
    have asking := fun e member => (serves e member).asking running
    cases event with
    | tick now => exact proper.tick_valid now asking
    | datagram bytes address multicast now =>
      simp only [Node.drain]
      split
      · exact forall_mem_nil _
      split
      · exact forall_mem_nil _
      next p decoded =>
        exact proper.receive_valid (decodePacket_valid decoded) address multicast now
    | _ => exact forall_mem_nil _
  · exact forall_mem_nil _

end Packets

/-! ## Whole runs -/

theorem Watch.proper_of_reachable {w : Watch} (reachable : watching.Reachable w) :
    w.node.Proper ∧ w.node.ServesAll := by
  have preserves : watching.Preserves fun w => w.node.Proper ∧ w.node.ServesAll := by
    rintro w event _ ⟨_, rfl⟩ ⟨proper, serves⟩
    exact ⟨proper.handle event, w.node.handle_serves event serves⟩
  refine reachable.invariant (fun w initial => ?_) preserves
  have peers := Watch.peers_initial initial
  obtain ⟨⟨config, endpoints, session, started⟩, _⟩ := initial
  refine ⟨proper_start started, ?_⟩
  unfold Node.ServesAll
  rw [peers]
  exact forall_mem_nil _

/-- A started node over every run: an `ONLINE` entry without metadata stands at a
chunk of the announced metadata and has a request number, unless the last number
has been used and the node has stopped; every packet that is passed to `Send` is
valid, so that its encoding never fails. -/
theorem discovery_packets_valid {w : Watch} (reachable : watching.Reachable w) :
    (∀ e ∈ w.node.peers, e.info.state = .online → e.info.metadataReady = false →
      e.staging.length % chunkSize = 0 ∧ e.staging.length < e.size.toNat ∧
      (e.requestId ≠ 0 ∨ w.node.running = false ∧ w.node.requestCounter = maxUInt64)) ∧
    ∀ event, ∀ o ∈ (w.node.handle event).2,
      o.1.Valid ∧ ∃ bytes, encodePacket o.1 = .ok bytes ∧ send o.1 o.2 = [⟨bytes, o.2⟩] := by
  obtain ⟨proper, serves⟩ := Watch.proper_of_reachable reachable
  refine ⟨fun e member _ _ => ?_, fun event o member => ?_⟩
  · have served := serves e member
    exact ⟨served.collecting.aligned, served.collecting.unfinished, served.asked⟩
  · have valid := proper.handle_valid serves event o member
    have encoded : encodePacket o.1 = .ok o.1.bytes := encodePacket_eq_ok.mpr ⟨valid, rfl⟩
    exact ⟨valid, o.1.bytes, encoded, by rw [send, encoded]⟩

theorem discovery_packets_valid_tick :
    (evictionWatch.node.handle (.tick (9000 * millisecond))).2 ≠ [] ∧
      ∀ o ∈ (evictionWatch.node.handle (.tick (9000 * millisecond))).2, o.1.Valid :=
  ⟨by decide +kernel, fun o member =>
    ((discovery_packets_valid evictionWatch_reachable).2 _ o member).1⟩

/-! ## The last request number -/

/-- A node that has just started. -/
def floodedNode : Node := { soloNode with config := { host := .ofByte 1, bootId := .ofByte 2 } }

/-- An announce with a new revision. -/
def revised (last : UInt8) (number : UInt64) : Packet :=
  { kind := .announce, host := .ofByte last, bootId := .ofByte 9, sessionId := 7
    sequence := number, revision := number, metadataSize := 2 }

def floodSource : Address := ⟨0x0a000001, 4000⟩

def revisedEvent (last : UInt8) (number : UInt64) : Event :=
  .datagram (revised last number).bytes floodSource true 0

theorem decodePacket_revised {last : UInt8} {number : UInt64}
    (host : (HostIdentity.ofByte last).Valid) (positive : number ≠ 0) :
    decodePacket (revised last number).bytes = .ok (revised last number) := by
  have valid : (revised last number).Valid := by
    refine ⟨host, ?_, ?_, positive, ?_, ?_, positive, rfl, rfl, rfl, ?_, ?_, ?_⟩ <;>
      dsimp only [revised] <;> decide
  exact decodePacket_encodePacket (encodePacket_eq_ok.mpr ⟨valid, rfl⟩)
    fun other => absurd rfl other

theorem Node.handle_revised {node : Node} {last : UInt8} {number : UInt64}
    (running : node.running = true) (host : (HostIdentity.ofByte last).Valid)
    (foreign : HostIdentity.ofByte last ≠ node.config.host) (positive : number ≠ 0) :
    (node.handle (revisedEvent last number)).1 =
      (node.announce (revised last number) floodSource 0).1 := by
  have usable : floodSource.Usable := by decide
  have foreign : (revised last number).host ≠ node.config.host := foreign
  simp only [Node.handle, running, if_true, revisedEvent, Node.drain, usable, not_true_eq_false,
    if_false, decodePacket_revised host positive, Node.receive, if_neg foreign]
  rfl

/-- The node after a number of announces of one host, each with a new revision. -/
structure Flooded (number : UInt64) (w : Watch) : Prop where
  clock : w.clock = 0
  running : w.node.running = true
  config : w.node.config = floodedNode.config
  counter : w.node.requestCounter = number
  peers : ∃ e, w.node.peers = [e] ∧ e.info.host = .ofByte 3 ∧ e.info.bootId = .ofByte 9 ∧
    e.info.sessionId = 7 ∧ e.info.profile = {} ∧ e.sequence = number ∧
    e.info.metadataRevision = number ∧ e.address = floodSource

/-- An announce of the same host from the same address with a newer revision. -/
theorem Entry.announce_revised (config : Config) {e : Entry} {address : Address}
    (now : Int) (same : ¬e.changed p) (profile : e.info.profile = p.profile)
    (sequence : e.sequence < p.sequence) (revision : e.info.metadataRevision < p.revision)
    (still : e.address = address) :
    e.announce config p address now = (e.accept config p address now, .accepted true) := by
  have other : p.revision ≠ e.info.metadataRevision := (UInt64.ne_of_lt revision).symm
  unfold Entry.announce
  rw [if_neg fun bad => bad.2.2 profile, if_neg same]
  unfold Entry.offer
  rw [if_neg, if_neg fun bad => other bad.2.1, if_neg fun bad => bad.1.2 still]
  · simp [other]
  · rintro (old | old)
    · exact UInt64.not_lt.mpr old sequence
    · exact UInt64.lt_asymm old revision

/-- `BeginMetadata` while there are numbers left. -/
theorem Node.beginMetadata_room {node : Node} (e : Entry) (room : node.requestCounter ≠ maxUInt64) :
    (node.beginMetadata e).1 = { node with requestCounter := node.requestCounter + 1 } := by
  rw [Node.beginMetadata, if_neg room]

/-- An announce of a host that is not in the table yet. -/
theorem Node.announce_new {node : Node} (address : Address) (now : Int)
    (absent : findPeer node.peers p.host = none) (room : node.peers.length ≠ node.config.maxPeers)
    (positive : p.sequence ≠ 0) :
    (node.announce p address now).1 =
      { (node.beginMetadata (({} : Entry).accept node.config p address now)).1 with
        peers := node.peers ++
          [(node.beginMetadata (({} : Entry).accept node.config p address now)).2] } := by
  have placed : placeFor node.config node.peers p.host =
      some (node.peers ++ [({} : Entry)], node.peers.length) := by
    simp only [placeFor, absent, if_neg room]
  have empty : (node.peers ++ [({} : Entry)]).getD node.peers.length {} = {} := by simp [getD]
  have base : ({} : Entry).base p = {} := if_neg (by simp [Entry.changed])
  obtain ⟨refresh, accepted, quiet⟩ := Entry.announce_empty node.config address now positive
  rw [base] at accepted
  rw [Node.announce, placed]
  simp only [empty, accepted]
  cases refresh with
  | false => exact absurd rfl (quiet rfl).1
  | true => simp [Node.refresh]

theorem Flooded.step {number : UInt64} {w : Watch} (flooded : Flooded number w)
    (room : number ≠ maxUInt64) : Flooded (number + 1) (w.next (revisedEvent 3 (number + 1))) := by
  obtain ⟨clock, running, config, counter, e, peers, host, bootId, session, profile, sequence,
    revision, address⟩ := flooded
  have newer := Data.UInt64.lt_add_one room
  have positive : number + 1 ≠ 0 := fun zero => not_lt_zero _ (zero ▸ newer)
  have foreign : HostIdentity.ofByte 3 ≠ w.node.config.host := by
    rw [config]
    decide
  have placed : placeFor w.node.config w.node.peers (revised 3 (number + 1)).host =
      some ([e], 0) := by
    simp [placeFor, findPeer, peers, host, revised]
  have same : ¬e.changed (revised 3 (number + 1)) := by
    simp [Entry.changed, session, bootId, revised]
  have accepted := e.announce_revised w.node.config 0 same profile (sequence.symm ▸ newer)
    (revision.symm ▸ newer) address
  have node : (w.next (revisedEvent 3 (number + 1))).node = { w.node with
      requestCounter := w.node.requestCounter + 1
      peers := [(w.node.beginMetadata
        (e.accept w.node.config (revised 3 (number + 1)) floodSource 0)).2] } := by
    rw [Watch.next, Node.handle_revised running (by decide) foreign positive, Node.announce, placed]
    simp only [getD_cons_zero, accepted, Node.refresh, if_true, set_cons_zero]
    rw [Node.beginMetadata_room _ (counter ▸ room)]
  refine ⟨rfl, ?_, ?_, ?_, ?_⟩
  · rw [node]
    exact running
  · rw [node]
    exact config
  · rw [node, ← counter]
  · rw [node]
    refine ⟨_, rfl, ?_⟩
    rw [Node.beginMetadata, if_neg (counter ▸ room)]
    exact ⟨rfl, rfl, rfl, rfl, rfl, rfl, rfl⟩

def floodedWatch : Watch := ⟨floodedNode, 0, fun _ => [], []⟩

theorem Flooded.first : Flooded 1 (floodedWatch.next (revisedEvent 3 1)) := by
  have node : (floodedWatch.next (revisedEvent 3 1)).node =
      { floodedNode with
        requestCounter := 1
        peers := [(floodedNode.beginMetadata
          (({} : Entry).accept floodedNode.config (revised 3 1) floodSource 0)).2] } := by
    rw [Watch.next, Node.handle_revised rfl (by decide) (by decide) (by decide),
      Node.announce_new floodSource 0 rfl (by decide) (by decide)]
    rfl
  refine ⟨rfl, ?_, ?_, ?_, ?_⟩
  · rw [node]
    rfl
  · rw [node]
  · rw [node]
  · rw [node]
    exact ⟨_, rfl, rfl, rfl, rfl, rfl, rfl, rfl, rfl⟩

/-- Every request number can be used up. -/
theorem flooded_reachable (count : Nat) (small : count + 1 < UInt64.size) :
    ∃ w, watching.Reachable w ∧ Flooded (UInt64.ofNat (count + 1)) w := by
  induction count with
  | zero =>
    have initial : floodedWatch.Initial := ⟨⟨floodedNode.config, [], 1, rfl⟩, fun _ => rfl, rfl⟩
    exact ⟨_, (System.Reachable.of_initial initial).step ⟨Int.le_refl 0, rfl⟩, Flooded.first⟩
  | succ count ih =>
    obtain ⟨w, reachable, flooded⟩ := ih (by omega)
    have room : UInt64.ofNat (count + 1) ≠ maxUInt64 := by
      intro last
      have equal := congrArg UInt64.toNat last
      rw [UInt64.toNat_ofNat_of_lt' (by omega)] at equal
      change count + 1 = 18446744073709551615 at equal
      simp only [UInt64.size] at small
      omega
    have counted : UInt64.ofNat (count + 1) + 1 = UInt64.ofNat (count + 1 + 1) := by simp
    refine ⟨_, reachable.step ⟨?_, rfl⟩, counted ▸ flooded.step room⟩
    rw [flooded.clock]
    exact Int.le_refl 0

/-- A new peer that comes when all numbers are used is left without one. -/
theorem request_numbers_end : ∃ w, watching.Reachable w ∧ ∃ e ∈ w.node.peers,
    e.info.state = .online ∧ e.info.metadataReady = false ∧ e.requestId = 0 := by
  obtain ⟨w, reachable, flooded⟩ := flooded_reachable (UInt64.size - 2) (by decide)
  obtain ⟨clock, running, config, counter, e, peers, host, _⟩ := flooded
  refine ⟨w.next (revisedEvent 4 1), reachable.step ⟨?_, rfl⟩, ?_⟩
  · rw [clock]
    exact Int.le_refl 0
  · have foreign : HostIdentity.ofByte 4 ≠ w.node.config.host := by
      rw [config]
      decide
    have absent : findPeer w.node.peers (revised 4 1).host = none := by
      rw [peers]
      simp [findPeer, host, revised]
      decide
    have few : w.node.peers.length ≠ w.node.config.maxPeers := by
      rw [peers, config]
      simp [floodedNode]
    have counter : w.node.requestCounter = maxUInt64 := counter
    rw [Watch.next, Node.handle_revised running (by decide) foreign (by decide),
      Node.announce_new floodSource 0 absent few (by decide), Node.beginMetadata, if_pos counter]
    exact ⟨_, mem_append_right _ (mem_singleton_self _), rfl, rfl, rfl⟩

end Kcf.Network.Discovery
