import Kcf.Network.Topic.Laws

/-!
# Route counters

Each counter of a route counts one way in which a packet can end.  Together they
account for every packet that the route has accepted or made, however packets are
lost, repeated and reordered.
-/

namespace Kcf.Network.Topic

open Kcf.Transition List
open Discovery (PeerInfo)

/-! ## Receiving -/

/-- One packet comes after another in both counts. -/
def Later (first second : UInt64 × UInt64) : Prop := first.1 < second.1 ∧ first.2 < second.2

/-- The counters of a receiving route. -/
structure Incoming.Accounted (r : Incoming) : Prop where
  ascending : r.accepted.Pairwise Later
  bounded : ∀ pair ∈ r.accepted, pair.1 ≤ r.packet.sequence ∧ pair.2 ≤ r.packet.sampleSequence
  last : r.accepted.getLast?.getD (0, 0) = (r.packet.sequence, r.packet.sampleSequence)
  sequences : r.stats.counters.packetsReceived.toNat + r.stats.counters.missedSequence.toNat =
    r.packet.sequence.toNat
  samples : r.stats.counters.packetsReceived.toNat =
    r.stats.counters.samplesPublished.toNat + r.stats.counters.dropped.toNat +
      if r.latest.isSome then 1 else 0

namespace Incoming

variable {r : Incoming}

theorem Accounted.of_new (new : r.New) : r.Accounted := by
  constructor
  · rw [new.accepted]
    exact .nil
  · rw [new.accepted]
    exact nofun
  · rw [new.accepted, new.sequence, new.sampleSequence]
    rfl
  · rw [new.counters, new.sequence]
    rfl
  · rw [new.counters, new.latest]
    rfl

theorem Accounted.count {counters : RouteCounters → RouteCounters} (accounted : r.Accounted)
    (other : Unaccounted counters) : (r.count counters).Accounted := by
  obtain ⟨received, missed, published, dropped⟩ := other r.stats.counters
  refine { accounted with sequences := ?_, samples := ?_ }
  · simp only [Incoming.count, received, missed]
    exact accounted.sequences
  · simp only [Incoming.count, received, published, dropped]
    exact accounted.samples

theorem Accounted.accept {packet : Packet} (accounted : r.Accounted)
    (newer : r.packet.sequence < packet.sequence)
    (sampled : r.packet.sampleSequence < packet.sampleSequence) : (r.accept packet).Accounted := by
  have sequences := accounted.sequences
  have samples := accounted.samples
  have before := UInt64.lt_iff_toNat_lt.mp newer
  have limit := packet.sequence.toNat_lt
  have one : (1 : UInt64).toNat = 1 := rfl
  have gap := Data.UInt64.toNat_gap newer
  have received : (r.stats.counters.packetsReceived + 1).toNat =
      r.stats.counters.packetsReceived.toNat + 1 := by
    rw [UInt64.toNat_add, one]
    omega
  refine ⟨?_, ?_, ?_, ?_, ?_⟩
  · simp only [Incoming.accept, Incoming.count]
    refine Data.pairwise_snoc accounted.ascending fun pair old => ?_
    obtain ⟨first, second⟩ := accounted.bounded pair old
    exact ⟨UInt64.lt_of_le_of_lt first newer, UInt64.lt_of_le_of_lt second sampled⟩
  · simp only [Incoming.accept, Incoming.count]
    refine Data.forall_snoc (fun pair old => ?_) ⟨UInt64.le_refl _, UInt64.le_refl _⟩
    obtain ⟨first, second⟩ := accounted.bounded pair old
    exact ⟨UInt64.le_of_lt (UInt64.lt_of_le_of_lt first newer),
      UInt64.le_of_lt (UInt64.lt_of_le_of_lt second sampled)⟩
  · simp [Incoming.accept, Incoming.count]
  · simp only [Incoming.accept, Incoming.count]
    rw [received, UInt64.toNat_add, gap]
    omega
  · simp only [Incoming.accept, Incoming.count, received, samples]
    cases held : r.latest with
    | none => simp
    | some old =>
      have dropped : (r.stats.counters.dropped + 1).toNat = r.stats.counters.dropped.toNat + 1 := by
        rw [UInt64.toNat_add, one]
        simp only [held, Option.isSome_some, if_true] at samples
        omega
      simp only [Option.isSome_some, if_true, dropped]
      omega

theorem Accounted.data (discovery : Discovery.Config) (little : Bool) (packet : Packet)
    (peer : PeerInfo) (accounted : r.Accounted) :
    (r.data discovery little packet peer).1.Accounted := by
  rcases r.data_cases discovery little packet peer with ⟨counters, other, changed⟩ |
      ⟨newer, sampled, changed⟩
  · rw [changed]
    exact accounted.count other
  · rw [changed]
    exact accounted.accept newer sampled

theorem Accounted.deliver (little : Bool) (answer : DeliverAnswer) (accounted : r.Accounted) :
    (r.deliver little answer).Accounted := by
  have sequences := accounted.sequences
  have samples := accounted.samples
  have limit := r.packet.sequence.toNat_lt
  have one : (1 : UInt64).toNat = 1 := rfl
  rcases r.deliver_cases little answer with ⟨_, same⟩ |
      ⟨packet, held, error, state, counters, changed, counted⟩
  · rw [same]
    exact accounted
  · rw [held, Option.isSome_some, if_pos rfl] at samples
    rw [changed]
    rcases counted with dropped | published
    · refine { accounted with sequences := ?_, samples := ?_ }
      · rw [dropped]
        exact sequences
      · simp only [dropped, Option.isSome_none, Bool.false_eq_true, if_false, UInt64.toNat_add, one]
        omega
    · refine { accounted with sequences := ?_, samples := ?_ }
      · rw [published]
        exact sequences
      · simp only [published, Option.isSome_none, Bool.false_eq_true, if_false, UInt64.toNat_add,
          one]
        omega

theorem Accounted.request (discovery : Discovery.Config) (peers : List PeerInfo) (now : Int)
    (sent : Int32) (accounted : r.Accounted) :
    (r.request discovery peers now sent).Accounted := by
  rcases r.request_cases discovery peers now sent with same | ⟨interest, error, changed⟩
  · rw [same]
    exact accounted
  · rw [changed]
    exact { accounted with }

theorem rule_accounted : Rule Accounted where
  retarget _ _ accounted := { accounted with }
  data discovery little packet peer _ accounted := accounted.data discovery little packet peer
  deliver little answer _ accounted := accounted.deliver little answer
  request discovery peers now sent _ accounted := accounted.request discovery peers now sent

end Incoming

/-! ## Sending -/

/-- The counters of a sending route.  The two sums are bounded by the last sample, so
they cannot overflow. -/
structure SendRoute.Accounted (r : SendRoute) : Prop where
  packets : r.route.stats.packetsSent.toNat + r.route.stats.dropped.toNat =
    r.route.packet.sequence.toNat
  untouched : r.taken = [] → r.route.packet.sequence = 0 ∧ r.route.packet.sampleSequence = 0 ∧
    r.route.stats.localSamplesSkipped = 0
  last : r.taken ≠ [] → r.taken.getLast? = some r.route.packet.sampleSequence
  samples : ∀ first ∈ r.taken.head?, first ≠ 0 ∧ first ≤ r.route.packet.sampleSequence ∧
    r.route.packet.sequence.toNat + r.route.stats.localSamplesSkipped.toNat + first.toNat =
      r.route.packet.sampleSequence.toNat + 1

namespace SendRoute

variable {r : SendRoute}

theorem Accounted.of_new (new : r.New) : r.Accounted := by
  obtain ⟨p, valid, kind, packet⟩ := new.packet
  have body := valid.2.2.2.2.2.2.2.2.2.2
  rw [kind] at body
  refine ⟨?_, fun _ => ⟨?_, ?_, ?_⟩, fun some => absurd new.taken some, ?_⟩
  · rw [new.stats, packet]
    exact (congrArg UInt64.toNat body.1).symm
  · rw [packet]
    exact body.1
  · rw [packet]
    exact body.2.1
  · rw [new.stats]
  · rw [new.taken]
    exact nofun

/-- The sums over the samples after one more has been taken. -/
theorem Accounted.samples_append {sampleSequence skipped : UInt64} (accounted : r.Accounted)
    (newer : r.route.packet.sampleSequence < sampleSequence)
    (counted : skipped = if r.route.packet.sampleSequence ≠ 0 then
        r.route.stats.localSamplesSkipped + (sampleSequence - r.route.packet.sampleSequence - 1)
      else r.route.stats.localSamplesSkipped) :
    ∀ first ∈ (r.taken ++ [sampleSequence]).head?, first ≠ 0 ∧ first ≤ sampleSequence ∧
      r.route.packet.sequence.toNat + 1 + skipped.toNat + first.toNat =
        sampleSequence.toNat + 1 := by
  intro first found
  have before := UInt64.lt_iff_toNat_lt.mp newer
  cases old : r.taken with
  | nil =>
    obtain ⟨none, unsampled, unskipped⟩ := accounted.untouched old
    rw [old] at found
    cases found
    rw [unsampled] at newer counted
    rw [if_neg (not_not.mpr rfl), unskipped] at counted
    refine ⟨fun zero => ?_, UInt64.le_refl _, ?_⟩
    · rw [zero] at newer
      exact absurd newer (UInt64.lt_irrefl 0)
    · rw [none, counted]
      change 0 + 1 + 0 + _ = _
      omega
  | cons oldest rest =>
    rw [old] at found
    cases found
    obtain ⟨positive, bound, total⟩ := accounted.samples first (by rw [old]; rfl)
    have least := UInt64.le_iff_toNat_le.mp bound
    have sampled : r.route.packet.sampleSequence ≠ 0 := by
      intro zero
      rw [zero] at bound
      exact positive (UInt64.le_antisymm bound (UInt64.zero_le))
    rw [if_pos sampled] at counted
    refine ⟨positive, UInt64.le_trans bound (UInt64.le_of_lt newer), ?_⟩
    rw [counted, UInt64.toNat_add, Data.UInt64.toNat_gap newer]
    have limit := sampleSequence.toNat_lt
    omega

theorem Accounted.transmit (config : Config) (attempt : Attempt) (accounted : r.Accounted) :
    (r.transmit config attempt).Accounted := by
  have packets := accounted.packets
  have counts := r.route.transmit_counts config attempt
  have one : (1 : UInt64).toNat = 1 := rfl
  unfold SendRoute.transmit
  generalize (r.route.transmit config attempt).1 = next at counts
  dsimp only
  cases counts with
  | quiet packet sent dropped skipped =>
    rw [if_pos (by rw [packet])]
    refine ⟨?_, ?_, ?_, ?_⟩
    · simpa only [sent, dropped, packet] using packets
    · simpa only [packet, skipped] using accounted.untouched
    · simpa only [packet] using accounted.last
    · simpa only [packet, skipped] using accounted.samples
  | takes sampleSequence payload room newer packet skipped counted =>
    have raised := Data.UInt64.toNat_add_one room
    have changed : next.packet.sequence ≠ r.route.packet.sequence := by
      intro same
      have equal := congrArg UInt64.toNat same
      rw [packet, raised] at equal
      omega
    have limit := (r.route.packet.sequence + 1).toNat_lt
    rw [if_neg changed, packet]
    refine ⟨?_, ?_, ?_, ?_⟩
    · simp only [packet]
      rcases counted with ⟨sent, dropped⟩ | ⟨sent, dropped⟩
      · rw [sent, dropped, UInt64.toNat_add, one]
        omega
      · rw [sent, dropped, UInt64.toNat_add, one]
        omega
    · intro empty
      simp at empty
    · intro _
      simp [packet]
    · simp only [packet, raised]
      exact accounted.samples_append newer skipped

theorem rule_accounted : Rule Accounted where
  lapse now r accounted := by
    unfold Outgoing.lapse
    split <;> exact { accounted with }
  renew now r accounted := { accounted with }
  transmit config attempt r accounted := accounted.transmit config attempt

end SendRoute

/-! ## Whole runs -/

/-- The counters of all routes of a data plane. -/
structure Worker.Accounted (w : Worker) : Prop where
  incoming : ∀ r ∈ w.incoming, r.Accounted
  outgoing : ∀ r ∈ w.outgoing, r.Accounted

theorem Worker.Accounted.handle {w : Worker} (event : Event) (accounted : w.Accounted) :
    (w.handle event).Accounted := by
  refine ⟨?_, ?_⟩
  · refine Incoming.rule_accounted.handle accounted.incoming fun r added => ?_
    exact .of_new added.new
  · exact SendRoute.rule_accounted.handle accounted.outgoing fun r new => .of_new new

theorem accounted_of_reachable {w : Worker} (reachable : working.Reachable w) : w.Accounted := by
  refine reachable.invariant ?_ ?_
  · rintro _ ⟨setup, rfl⟩
    exact ⟨forall_mem_nil _, forall_mem_nil _⟩
  · rintro w event _ ⟨_, rfl⟩ accounted
    exact accounted.handle event

/-- In every run, with any datagrams and any results of delivering and sending, the
counters of a receiving route account for every packet it has accepted, and those of a
sending route for every sample it has taken. -/
theorem route_counters_account {w : Worker} (reachable : working.Reachable w) :
    (∀ r ∈ w.incoming,
      (r.accepted.Pairwise fun p q => p.1 < q.1 ∧ p.2 < q.2) ∧
      r.stats.counters.packetsReceived.toNat + r.stats.counters.missedSequence.toNat =
        (r.accepted.getLast?.getD (0, 0)).1.toNat ∧
      r.stats.counters.packetsReceived.toNat =
        r.stats.counters.samplesPublished.toNat + r.stats.counters.dropped.toNat +
          if r.latest.isSome then 1 else 0) ∧
    (∀ r ∈ w.outgoing,
      r.route.info.counters.packetsSent.toNat + r.route.info.counters.dropped.toNat =
        r.route.packet.sequence.toNat ∧
      ∀ first ∈ r.taken.head?,
        r.route.packet.sequence.toNat + r.route.info.counters.localSamplesSkipped.toNat =
          r.route.packet.sampleSequence.toNat - first.toNat + 1) := by
  have accounted := accounted_of_reachable reachable
  refine ⟨fun r member => ?_, fun r member => ?_⟩
  · have here := accounted.incoming r member
    refine ⟨here.ascending, ?_, here.samples⟩
    rw [here.last]
    exact here.sequences
  · have here := accounted.outgoing r member
    refine ⟨here.packets, fun first found => ?_⟩
    obtain ⟨_, bound, total⟩ := here.samples first found
    have least := UInt64.le_iff_toNat_le.mp bound
    change r.route.packet.sequence.toNat + r.route.stats.localSamplesSkipped.toNat = _
    omega

/-! ## A pump and its remote pressure -/

namespace Pump

def profile : PeerProfile :=
  { capabilities := Capability.discovery ||| Capability.remoteTopic ||| Capability.targetEndpoint }

/-- A type with one byte. -/
def descriptor : TypeDescriptor where
  typeId := stableTypeId ⟨[116], by decide⟩
  typeName := ⟨[116], by decide⟩
  payloadSize := 1
  payloadAlignment := 1
  fields := [{ name := ⟨[118], by decide⟩, kind := .uint8, elementSize := 1 }]

def type : TypeIdentity := (parameterWireType descriptor).toOption.getD {}

def runtime (host : UInt8) : RemoteRuntimeIdentity := ⟨.ofByte host, .ofByte 9, 100, 1⟩

/-- An endpoint of the speed `/v` or of the pressure `/p`. -/
def endpoint (host : UInt8) (name : UInt8) (role : EndpointRole) : NetworkEndpointMetadata where
  identity := ⟨runtime host, name.toUInt64⟩
  elementName := [101]
  name := [47, name]
  role := role
  scope := .remote
  valueType := type

/-- The first host publishes the speed and reads the pressure. -/
def entries : List LocalEndpoint :=
  [{ metadata := endpoint 1 118 .provider, descriptor },
    { metadata := endpoint 1 112 .consumer, descriptor }]

def peer : PeerInfo where
  host := .ofByte 2
  bootId := .ofByte 9
  sessionId := 6
  address := ⟨0x0a000002, 37651⟩
  metadataRevision := 1
  profile
  compatibility := checkPeerCompatibility profile profile .networkProtocol
  metadataReady := true
  endpoints := [endpoint 2 118 .consumer, endpoint 2 112 .provider]

def setup : Setup where
  remoteTopics := [[47, 112]]
  discovery := { host := .ofByte 1, bootId := .ofByte 9, profile }
  self := runtime 1

def interest : Packet where
  source := (endpoint 1 118 .provider).identity
  destination := (endpoint 2 118 .consumer).identity
  sourceSession := 5
  destinationSession := 6
  routeId := 1
  type := type
  name := [47, 118]

def pressure (sequence sampleSequence : UInt64) : Packet where
  kind := .data
  source := (endpoint 2 112 .provider).identity
  destination := (endpoint 1 112 .consumer).identity
  sourceSession := 6
  destinationSession := 5
  routeId := 1
  sequence := sequence
  sampleSequence := sampleSequence
  type := type
  name := [47, 112]
  payload := [7]

def arrives (packet : Packet) : Event :=
  .receive ((encodePacket packet).toOption.getD []) 0x0a000002 37652 {} 0

def publishes (sampleSequence : UInt64) (now : Int) : Event :=
  .transmit now (fun _ => 0) fun _ => ⟨now, now, 0, .ok sampleSequence, .ok [8], 0⟩

/-- The third packet of the pressure is lost, the second one is overwritten, and the
first two samples of the speed come before its route. -/
def events : List Event :=
  [.start setup 0, .join 5, .refresh [peer] entries 5 {}, arrives interest, publishes 3 1,
    arrives (pressure 1 4), .deliver fun _ => {}, arrives (pressure 2 5), arrives (pressure 4 9),
    publishes 6 30000000]

def step (w : Worker) (event : Event) : Option Worker :=
  if w.Enabled event then some (w.handle event) else none

theorem run_of_foldlM {events : List Event} {start finish : Worker}
    (computed : events.foldlM step start = some finish) : working.Run start events finish := by
  refine System.Run.of_foldlM ?_ computed
  intro w event next stepped
  obtain ⟨enabled, equal⟩ := Option.ite_none_right_eq_some.mp stepped
  exact ⟨enabled, (Option.some.inj equal).symm⟩

end Pump

open Pump in
/-- Three packets of the pressure and two samples of the speed. -/
theorem route_counters_account_pump : ∃ w : Worker, working.Reachable w ∧
    (w.incoming.map fun r => (r.accepted, r.latest.isSome)) = [([(1, 4), (2, 5), (4, 9)], true)] ∧
    (w.outgoing.map fun r => (r.taken, r.route.packet.sequence)) = [([3, 6], 2)] ∧
    (∀ r ∈ w.incoming,
      r.stats.counters.packetsReceived.toNat + r.stats.counters.missedSequence.toNat =
        (r.accepted.getLast?.getD (0, 0)).1.toNat) := by
  have computed : (events.foldlM step { setup }).map (fun w =>
      (w.incoming.map fun r => (r.accepted, r.latest.isSome),
        w.outgoing.map fun r => (r.taken, r.route.packet.sequence))) =
      some ([([(1, 4), (2, 5), (4, 9)], true)], [([3, 6], 2)]) := by
    decide +kernel
  obtain ⟨w, run, equal⟩ := Option.map_eq_some_iff.mp computed
  obtain ⟨received, sent⟩ := Prod.mk.inj equal
  have reachable : working.Reachable w := ⟨{ setup }, events, ⟨setup, rfl⟩, run_of_foldlM run⟩
  exact ⟨w, reachable, received, sent, fun r member =>
    ((route_counters_account reachable).1 r member).2.1⟩

end Kcf.Network.Topic
