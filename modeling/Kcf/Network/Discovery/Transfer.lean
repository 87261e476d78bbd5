import Kcf.Network.Discovery.Advert
import Kcf.Transition.System

/-!
# Metadata transfer over a network

Nodes exchange datagrams over a network that may lose, duplicate, delay, reorder
and misdirect what was sent, but not invent anything.  The records that the nodes
have ever held are kept on the side.  Every entry of every table mirrors one of
them: the staged bytes are a prefix of its encoding, put together from responses
of one session, revision and request, and a finished transfer has its endpoints.
-/

namespace Kcf.Network.Discovery

open Kcf.Wire Kcf.Transition List Function

/-- Nodes and the network between them. -/
structure Net (ι : Type*) where
  nodes : ι → Node
  /-- every datagram that was ever sent -/
  sent : List Bytes
  /-- every record that a node has ever held -/
  held : List Advert

/-- An event of one node, or its restart. -/
inductive NetEvent (ι : Type*) where
  | event (i : ι) (event : Event)
  | restart (i : ι) (config : Config) (endpoints : List NetworkEndpointMetadata)
      (session : UInt64)

/-- Only what was sent can arrive. -/
def Event.Carried (sent : List Bytes) : Event → Prop
  | .datagram bytes _ _ _ => bytes ∈ sent
  | _ => True

instance (sent : List Bytes) : (event : Event) → Decidable (event.Carried sent)
  | .tick _ => isTrue trivial
  | .datagram bytes _ _ _ => inferInstanceAs (Decidable (bytes ∈ sent))
  | .updateMetadata _ => isTrue trivial
  | .registerConsumer _ _ => isTrue trivial
  | .unregisterConsumer _ _ => isTrue trivial

section Net

variable {ι : Type*} [DecidableEq ι]

/-- Replace one node; what it sends is on the network, and its record is noted. -/
def Net.set (net : Net ι) (i : ι) (node : Node) (sent : List Outgoing) : Net ι where
  nodes := update net.nodes i node
  sent := net.sent ++ (sendAll sent).map (·.bytes)
  held := net.held ++ [node.advert]

/-- A host that starts again draws a session it has not used before. -/
def Net.step (net : Net ι) : NetEvent ι → Option (Net ι)
  | .event i event =>
    if event.Carried net.sent then
      some (net.set i ((net.nodes i).handle event).1 ((net.nodes i).handle event).2)
    else none
  | .restart i config endpoints session =>
    match start config endpoints session with
    | .ok node =>
      if config.host = (net.nodes i).config.host ∧
          ∀ a ∈ net.held, a.session ≠ node.advert.session then
        some (net.set i node [])
      else none
    | .error _ => none

/-- Freshly started nodes of different hosts, and an empty network. -/
structure Net.Initial (net : Net ι) : Prop where
  started : ∀ i, ∃ config endpoints session, start config endpoints session = .ok (net.nodes i)
  hosts : Injective fun i => (net.nodes i).config.host
  sent : net.sent = []
  held : ∀ a, a ∈ net.held ↔ ∃ i, a = (net.nodes i).advert

/-- Nodes under every interleaving of their events and of the network's deliveries. -/
def network (ι : Type*) [DecidableEq ι] : System (Net ι) (NetEvent ι) where
  initial := Net.Initial
  step net event next := net.step event = some next

end Net

/-! ## Entries -/

/-- The bytes that responses bring together. -/
def chunks (responses : List Packet) : Bytes := responses.flatMap (·.chunk)

/-- A response on the network that belongs to the present request of an entry. -/
structure Entry.Answer (sent : List Bytes) (e : Entry) (p : Packet) : Prop where
  sent : ∃ bytes ∈ sent, decodePacket bytes = .ok p
  kind : p.kind = .metadataResponse
  host : p.host = e.info.host
  bootId : p.bootId = e.info.bootId
  sessionId : p.sessionId = e.info.sessionId
  revision : p.revision = e.info.metadataRevision
  request : p.requestId = e.requestId

/-- The incarnation, the revision and the size are those of the record. -/
structure Entry.Names (e : Entry) (a : Advert) : Prop where
  session : a.session = (e.info.host, e.info.bootId, e.info.sessionId)
  revision : a.revision = e.info.metadataRevision
  size : e.size = UInt32.ofNat a.metadata.length

/-- The entry follows one record of the sender. -/
structure Entry.Mirrors (sent : List Bytes) (e : Entry) (a : Advert) : Prop extends e.Names a where
  transfer : ∃ responses, (∀ p ∈ responses, e.Answer sent p) ∧
    chunks responses <+: a.metadata ∧
    (e.info.metadataReady = false → e.staging = chunks responses) ∧
    (e.info.metadataReady = true → decodeMetadata (chunks responses) = .ok e.info.endpoints ∧
      e.info.endpoints = a.endpoints)

variable {p : Packet}

section Entries

variable {sent : List Bytes} {e e' : Entry} {a : Advert}

theorem Entry.Answer.mono {more : List Bytes} (answer : e.Answer sent p)
    (grows : sent ⊆ more) : e.Answer more p := by
  obtain ⟨bytes, member, decoded⟩ := answer.sent
  exact { answer with sent := ⟨bytes, grows member, decoded⟩ }

theorem Entry.Mirrors.mono {more : List Bytes} (mirrors : e.Mirrors sent a)
    (grows : sent ⊆ more) : e.Mirrors more a := by
  obtain ⟨responses, answers, rest⟩ := mirrors.transfer
  exact { mirrors with
    transfer := ⟨responses, fun p member => (answers p member).mono grows, rest⟩ }

theorem Entry.Names.kept {config : Config} {now : Int} {delivered : Packet → Prop}
    (names : e.Names a) (kept : e.Kept config now delivered e') : e'.Names a := by
  constructor
  · rw [kept.host, kept.bootId, kept.sessionId]
    exact names.session
  · rw [kept.revision]
    exact names.revision
  · rw [kept.size]
    exact names.size

/-- A transfer that begins mirrors anything. -/
theorem Entry.Names.fresh (names : e.Names a) (fresh : e.transfer.Fresh) : e.Mirrors sent a := by
  refine { names with transfer := ⟨[], nofun, nil_prefix, ?_, ?_⟩ }
  · exact fun _ => fresh.2
  · intro ready
    have pending : e.info.metadataReady = false := fresh.1
    rw [pending] at ready
    cases ready

/-- Answers stay answers while the entry keeps its incarnation, revision and request. -/
theorem Entry.Answer.same (answer : e.Answer sent p)
    (mirrors : e.Names a) (names : e'.Names a) (request : e'.requestId = e.requestId) :
    e'.Answer sent p := by
  have sessions := names.session.symm.trans mirrors.session
  simp only [Prod.mk.injEq] at sessions
  obtain ⟨host, bootId, sessionId⟩ := sessions
  have revision := names.revision.symm.trans mirrors.revision
  exact ⟨answer.sent, answer.kind, by rw [host, answer.host], by rw [bootId, answer.bootId],
    by rw [sessionId, answer.sessionId], by rw [revision, answer.revision],
    by rw [request, answer.request]⟩

/-- A transfer that rests. -/
theorem Entry.Mirrors.same (mirrors : e.Mirrors sent a) (names : e'.Names a)
    (transfer : e'.transfer = e.transfer) : e'.Mirrors sent a := by
  obtain ⟨responses, answers, part, pending, finished⟩ := mirrors.transfer
  simp only [Entry.transfer, Transfer.mk.injEq] at transfer
  obtain ⟨request, ready, staging, endpoints⟩ := transfer
  refine { names with transfer := ⟨responses, ?_, part, ?_, ?_⟩ }
  · exact fun p member => (answers p member).same mirrors.toNames names request
  · rw [ready, staging]
    exact pending
  · rw [ready, endpoints]
    exact finished

/-- The chunk at the end of a prefix extends the prefix. -/
theorem prefix_chunkAt {a : Advert} {staging : Bytes} {offset : UInt32}
    (part : staging <+: a.metadata) (here : offset.toNat = staging.length) :
    staging ++ a.chunkAt offset <+: a.metadata := by
  obtain ⟨rest, whole⟩ := part
  rw [Advert.chunkAt, here, ← whole, drop_left]
  exact (prefix_append_right_inj staging).mpr (List.take_prefix _ rest)

/-- The announced size is the length of the metadata. -/
theorem toNat_metadataSize (ok : a.Ok) :
    (UInt32.ofNat a.metadata.length).toNat = a.metadata.length := by
  obtain ⟨_, _, small, _⟩ := decodeMetadata_encodeMetadata ok.encoded
  refine UInt32.toNat_ofNat_of_lt' (lt_of_le_of_lt small ?_)
  decide

/-- A response of the same record moves the transfer on. -/
theorem Entry.Mirrors.stage (mirrors : e.Mirrors sent a) (ok : a.Ok)
    (stages : e.Stages p e'.transfer) (names : e'.Names a)
    (arrived : ∃ bytes ∈ sent, decodePacket bytes = .ok p) (sends : a.Sends p) :
    e'.Mirrors sent a := by
  obtain ⟨responses, answers, part, pending, _⟩ := mirrors.transfer
  have staged : e.staging = chunks responses := pending stages.pending
  have answered : ∀ q ∈ responses ++ [p], e.Answer sent q := Data.forall_snoc answers
    ⟨arrived, stages.kind, stages.host, stages.bootId, stages.sessionId, stages.revision,
      stages.request⟩
  have together : chunks (responses ++ [p]) = e.staging ++ p.chunk := by
    rw [chunks, flatMap_append, flatMap_singleton, staged, chunks]
  have longer : e.staging ++ p.chunk <+: a.metadata := by
    rw [sends.chunk stages.kind]
    exact prefix_chunkAt (staged ▸ part) stages.offset
  refine { names with transfer := ⟨responses ++ [p], ?_, ?_, ?_, ?_⟩ }
  · exact fun q member => (answered q member).same mirrors.toNames names stages.same
  · rw [together]
    exact longer
  · intro open_
    rw [together]
    rcases stages.result with ⟨_, staging⟩ | ⟨ready, _⟩
    · exact staging
    · cases open_.symm.trans ready
  · intro done
    rw [together]
    rcases stages.result with ⟨ready, _⟩ | ⟨_, full, decoded⟩
    · cases done.symm.trans ready
    · refine ⟨decoded, ?_⟩
      have length : (e.staging ++ p.chunk).length = a.metadata.length := by
        rw [full, mirrors.size, toNat_metadataSize ok]
      have complete : e.staging ++ p.chunk = a.metadata := longer.eq_of_length length
      have trip := (decodeMetadata_encodeMetadata ok.encoded).1
      rw [complete, trip] at decoded
      exact (Except.ok.inj decoded).symm

end Entries

/-! ## The invariant -/

/-- A packet on the network speaks for a record that was held. -/
def Honest (held : List Advert) (p : Packet) : Prop := ∃ a ∈ held, a.Sends p

/-- The session and the revision determine what was held. -/
def Unique (held : List Advert) : Prop :=
  ∀ a ∈ held, ∀ b ∈ held, a.session = b.session → a.revision = b.revision → a = b

theorem Advert.Sends.session {a : Advert} (sends : a.Sends p) :
    a.session = (p.host, p.bootId, p.sessionId) := by
  rw [Advert.session, sends.host, sends.bootId, sends.sessionId]

section Mirror

variable {held : List Advert} {sent : List Bytes} {config : Config} {now : Int}
  {delivered : Packet → Prop}

/-- Without an accepted announce an entry goes on mirroring its record. -/
theorem Entry.Mirrors.kept {e e' : Entry} {a : Advert} (unique : Unique held)
    (honest : ∀ p, delivered p → (∃ bytes ∈ sent, decodePacket bytes = .ok p) ∧ Honest held p)
    (mirrors : e.Mirrors sent a) (member : a ∈ held) (ok : a.Ok)
    (kept : e.Kept config now delivered e') : e'.Mirrors sent a := by
  have names := mirrors.toNames.kept kept
  rcases kept.transfer with fresh | same | ⟨p, arrived, stages⟩
  · exact names.fresh fresh
  · exact mirrors.same names same
  · obtain ⟨onNetwork, b, inside, sends⟩ := honest p arrived
    have content := sends.content (by rw [stages.kind]; decide)
    have equal : b = a := by
      apply unique b inside a member
      · rw [sends.session, mirrors.session, stages.host, stages.bootId, stages.sessionId]
      · rw [← content.1, stages.revision, mirrors.revision]
    exact mirrors.stage ok stages names onNetwork (equal ▸ sends)

/-- An accepted announce makes the entry mirror the record it speaks for. -/
theorem Entry.Mirrors.took {e e' : Entry} {address : Address} {b : Advert}
    (unique : Unique held) (took : e.Took e' p address now)
    (origin : (∃ a ∈ held, e.Mirrors sent a ∧ e.info.host = p.host) ∨ e.info.sessionId = 0)
    (kind : p.kind = .announce) (member : b ∈ held) (sends : b.Sends p) : e'.Mirrors sent b := by
  have content := sends.content (by rw [kind]; decide)
  have names : e'.Names b := by
    constructor
    · rw [sends.session, took.host, took.bootId, took.sessionId]
    · rw [took.revision, content.1]
    · rw [took.size, content.2]
  rcases took.transfer with fresh | ⟨known, same, revision, transfer⟩
  · exact names.fresh fresh
  · rcases origin with ⟨a, inside, mirrors, host⟩ | new
    · have incarnation : e.info.sessionId = p.sessionId ∧ e.info.bootId = p.bootId := by
        simp only [Entry.changed, not_and, not_or, not_not] at same
        exact same known
      have equal : a = b := by
        apply unique a inside b member
        · rw [sends.session, mirrors.session, host, incarnation.1, incarnation.2]
        · rw [← content.1, revision, mirrors.revision]
      exact (equal ▸ mirrors).same names transfer
    · exact absurd new known

/-- One step of a table whose packets are honest. -/
theorem TableStep.mirrors {peers table : List Entry} {accepted : Option Acceptance}
    (unique : Unique held) (ok : ∀ a ∈ held, a.Ok)
    (honest : ∀ p, delivered p → (∃ bytes ∈ sent, decodePacket bytes = .ok p) ∧ Honest held p)
    (announces : ∀ a, accepted = some a → a.packet.kind = .announce)
    (stepped : TableStep config now delivered peers table accepted)
    (mirrors : ∀ e ∈ peers, ∃ a ∈ held, e.Mirrors sent a) :
    ∀ e ∈ table, ∃ a ∈ held, e.Mirrors sent a := by
  intro e' member
  rcases stepped.origin member with ⟨e, old, kept⟩ | ⟨e, a, accepted, arrived, took, origin⟩
  · obtain ⟨a, inside, mirrored⟩ := mirrors e old
    exact ⟨a, inside, mirrored.kept unique honest inside (ok a inside) kept⟩
  · obtain ⟨_, b, inside, sends⟩ := honest a.packet arrived
    refine ⟨b, inside, Entry.Mirrors.took unique took ?_ (announces a accepted) inside sends⟩
    rcases origin with ⟨old, host⟩ | new
    · obtain ⟨record, known, mirrored⟩ := mirrors e old
      exact .inl ⟨record, known, mirrored, host⟩
    · exact .inr new

end Mirror

section Invariant

variable {ι : Type*} [DecidableEq ι]

structure Net.Invariant (net : Net ι) : Prop where
  hosts : Injective fun i => (net.nodes i).config.host
  current : ∀ i, (net.nodes i).advert ∈ net.held
  ok : ∀ a ∈ net.held, a.Ok
  newest : ∀ i, ∀ a ∈ net.held, a.session = (net.nodes i).advert.session →
    a.revision ≤ (net.nodes i).revision
  unique : Unique net.held
  honest : ∀ bytes ∈ net.sent, ∃ p, decodePacket bytes = .ok p ∧ Honest net.held p
  entries : ∀ i, ∀ e ∈ (net.nodes i).peers, ∃ a ∈ net.held, e.Mirrors net.sent a

variable {net : Net ι}

omit [DecidableEq ι] in
theorem Net.Invariant.initial (initial : net.Initial) : net.Invariant := by
  have own : ∀ {a i}, a ∈ net.held → a.session = (net.nodes i).advert.session →
      a = (net.nodes i).advert := by
    intro a i member session
    obtain ⟨j, rfl⟩ := (initial.held a).mp member
    have host : (net.nodes j).config.host = (net.nodes i).config.host := congrArg Prod.fst session
    rw [initial.hosts host]
  constructor
  · exact initial.hosts
  · exact fun i => (initial.held _).mpr ⟨i, rfl⟩
  · intro a member
    obtain ⟨i, rfl⟩ := (initial.held a).mp member
    obtain ⟨config, endpoints, session, started⟩ := initial.started i
    exact (advert_start started).1
  · intro i a member session
    rw [own member session]
    exact UInt64.le_refl _
  · intro a first b second session _
    obtain ⟨i, rfl⟩ := (initial.held b).mp second
    exact own first session
  · rw [initial.sent]
    exact nofun
  · intro i e member
    obtain ⟨config, endpoints, session, started⟩ := initial.started i
    rw [(advert_start started).2.1] at member
    cases member

theorem encodePacket_of_mem_send {p : Packet} {destination : Address} {d : Datagram}
    (handed : d ∈ send p destination) : encodePacket p = .ok d.bytes := by
  unfold send at handed
  split at handed
  next bytes encoded =>
    rw [mem_singleton.mp handed]
    exact encoded
  · cases handed

/-- Replacing one node by one of the same host whose record is new or the old one. -/
theorem Net.Invariant.set (invariant : net.Invariant) (i : ι) {node : Node}
    {sent : List Outgoing} (host : node.config.host = (net.nodes i).config.host)
    (ok : node.advert.Ok) (newest : ∀ a ∈ net.held, a.session = node.advert.session →
      a = node.advert ∨ a.revision < node.revision) (sends : (net.nodes i).advert.SendsAll sent)
    (entries : ∀ e ∈ node.peers, ∃ a ∈ net.held, e.Mirrors net.sent a) :
    (net.set i node sent).Invariant := by
  have self : (net.set i node sent).nodes i = node := update_self _ _ _
  have others : ∀ {j}, j ≠ i → (net.set i node sent).nodes j = net.nodes j :=
    fun different => update_of_ne different _ _
  have kept : ∀ a ∈ net.held, a ∈ net.held ++ [node.advert] :=
    fun a member => mem_append_left _ member
  have sameHosts : (fun j => ((net.set i node sent).nodes j).config.host) =
      fun j => (net.nodes j).config.host := by
    funext j
    by_cases here : j = i
    · rw [here, self, host]
    · rw [others here]
  constructor
  · rw [sameHosts]
    exact invariant.hosts
  · intro j
    by_cases here : j = i
    · rw [here, self]
      exact mem_append_right _ mem_cons_self
    · rw [others here]
      exact kept _ (invariant.current j)
  · exact Data.forall_snoc invariant.ok ok
  · intro j a member session
    by_cases here : j = i
    · rw [here, self] at session ⊢
      rcases Data.mem_snoc member with old | rfl
      · rcases newest a old session with rfl | older
        · exact UInt64.le_refl _
        · exact UInt64.le_of_lt older
      · exact UInt64.le_refl _
    · rw [others here] at session ⊢
      rcases Data.mem_snoc member with old | rfl
      · exact invariant.newest j a old session
      · -- the new record belongs to another host
        have hosts : node.config.host = (net.nodes j).config.host := congrArg Prod.fst session
        exact absurd (invariant.hosts (host.symm.trans hosts)).symm here
  · have distinct : ∀ a ∈ net.held, a.session = node.advert.session →
        a.revision = node.advert.revision → a = node.advert := by
      intro a member session revision
      rcases newest a member session with equal | older
      · exact equal
      · have equal : a.revision = node.revision := revision
        rw [equal] at older
        exact absurd older (UInt64.lt_irrefl _)
    intro a first b second session revision
    rcases Data.mem_snoc first with left | rfl <;> rcases Data.mem_snoc second with right | rfl
    · exact invariant.unique a left b right session revision
    · exact distinct a left session revision
    · exact (distinct b right session.symm revision.symm).symm
    · rfl
  · intro bytes member
    rcases mem_append.mp member with old | new
    · obtain ⟨p, decoded, a, inside, speaks⟩ := invariant.honest bytes old
      exact ⟨p, decoded, a, kept a inside, speaks⟩
    · obtain ⟨d, inside, rfl⟩ := mem_map.mp new
      obtain ⟨o, passed, handed⟩ := mem_flatMap.mp inside
      have speaks := sends o passed
      exact ⟨o.1, decodePacket_encodePacket (encodePacket_of_mem_send handed) speaks.silent, _,
        kept _ (invariant.current i), speaks⟩
  · intro j e member
    have old : ∃ a ∈ net.held, e.Mirrors net.sent a := by
      by_cases here : j = i
      · rw [here, self] at member
        exact entries e member
      · rw [others here] at member
        exact invariant.entries j e member
    obtain ⟨a, inside, mirrors⟩ := old
    exact ⟨a, kept a inside, mirrors.mono (subset_append_left _ _)⟩

theorem Net.Invariant.event (invariant : net.Invariant) (i : ι) {event : Event}
    (carried : event.Carried net.sent) :
    (net.set i ((net.nodes i).handle event).1 ((net.nodes i).handle event).2).Invariant := by
  obtain ⟨advances, sends⟩ := (net.nodes i).handle_sends event
  obtain ⟨stepped, config⟩ := (net.nodes i).handle_step 0 event
  have honest : ∀ p, event.Delivers p →
      (∃ bytes ∈ net.sent, decodePacket bytes = .ok p) ∧ Honest net.held p := by
    intro p delivers
    cases event with
    | datagram bytes address multicast now =>
      have decoded : decodePacket bytes = .ok p := delivers
      obtain ⟨q, decodes, speaks⟩ := invariant.honest bytes carried
      rw [decoded] at decodes
      cases decodes
      exact ⟨⟨bytes, carried, decoded⟩, speaks⟩
    | _ => exact absurd delivers id
  apply invariant.set i
  · rw [config]
  · exact advances.ok (invariant.ok _ (invariant.current i))
  · intro a member session
    have bound := invariant.newest i a member (session.trans advances.session)
    rcases advances.revision with same | newer
    · rw [same] at session ⊢
      rcases UInt64.le_iff_lt_or_eq.mp bound with older | equal
      · right
        have revision : ((net.nodes i).handle event).1.revision = (net.nodes i).revision :=
          congrArg Advert.revision same
        rw [revision]
        exact older
      · exact .inl (invariant.unique a member _ (invariant.current i) session equal)
    · exact .inr (UInt64.lt_of_le_of_lt bound newer)
  · exact sends
  · refine stepped.mirrors invariant.unique invariant.ok honest ?_ (invariant.entries i)
    exact fun a accepted => (Node.accepts_some 0 accepted).2.1

theorem Net.Invariant.step {net next : Net ι} {event : NetEvent ι} (invariant : net.Invariant)
    (stepped : net.step event = some next) : next.Invariant := by
  cases event with
  | event i event =>
    simp only [Net.step] at stepped
    split at stepped
    next carried =>
      rw [← Option.some.inj stepped]
      exact invariant.event i carried
    · cases stepped
  | restart i config endpoints session =>
    simp only [Net.step] at stepped
    split at stepped
    next node started =>
      split at stepped
      next allowed =>
        obtain ⟨host, unused⟩ := allowed
        obtain ⟨ok, empty, same, _⟩ := advert_start started
        rw [← Option.some.inj stepped]
        apply invariant.set i
        · rw [same, host]
        · exact ok
        · exact fun a member session => absurd session (unused a member)
        · exact Advert.sendsAll_nil _
        · rw [empty]
          exact fun e member => absurd member not_mem_nil
      · cases stepped
    · cases stepped

theorem Net.Invariant.of_reachable (reachable : (network ι).Reachable net) : net.Invariant :=
  reachable.invariant (fun _ initial => .initial initial)
    fun _ _ _ stepped invariant => invariant.step stepped

end Invariant

/-! ## The theorem -/

/-- In every reachable state of the network, for every entry of every table: a
finished transfer has exactly the endpoints that the sender held under that session
and revision, and the bytes of a transfer, finished or not, are put together from
responses of one session, one revision and one request. -/
theorem metadata_transfer_agrees {ι : Type*} [DecidableEq ι] {net : Net ι}
    (reachable : (network ι).Reachable net) (i : ι) {e : Entry} (member : e ∈ (net.nodes i).peers) :
    (e.info.metadataReady = true →
      (∃ a ∈ net.held, a.session = (e.info.host, e.info.bootId, e.info.sessionId) ∧
        a.revision = e.info.metadataRevision) ∧
      ∀ a ∈ net.held, a.session = (e.info.host, e.info.bootId, e.info.sessionId) →
        a.revision = e.info.metadataRevision → e.info.endpoints = a.endpoints) ∧
    ∃ responses, (∀ p ∈ responses, e.Answer net.sent p) ∧
      (e.info.metadataReady = false → e.staging = chunks responses) ∧
      (e.info.metadataReady = true →
        decodeMetadata (chunks responses) = .ok e.info.endpoints) := by
  have invariant := Net.Invariant.of_reachable reachable
  obtain ⟨a, held, mirrors⟩ := invariant.entries i e member
  obtain ⟨responses, answers, _, pending, finished⟩ := mirrors.transfer
  constructor
  · intro ready
    refine ⟨⟨a, held, mirrors.session, mirrors.revision⟩, ?_⟩
    intro b other session revision
    have equal : a = b := by
      apply invariant.unique a held b other
      · rw [mirrors.session, session]
      · rw [mirrors.revision, revision]
    rw [(finished ready).2, equal]
  · exact ⟨responses, answers, pending, fun ready => (finished ready).1⟩

/-! ## Two nodes -/

/-- A topic of the first node. -/
def speedTopic : NetworkEndpointMetadata where
  identity := ⟨⟨.ofByte 1, .ofByte 9, 100, 1⟩, 1⟩
  elementName := [101]
  name := [47, 118]
  valueType := ⟨1, 1, 1, 8⟩

/-- A node that was started with the given host, endpoints and session. -/
def launched (host : UInt8) (endpoints : List NetworkEndpointMetadata) (session : UInt64) :
    Option Node :=
  (start { host := .ofByte host, bootId := .ofByte 9 } endpoints session).toOption

/-- Two nodes right after their start. -/
def pairNet : Option (Net Bool) :=
  (launched 1 [speedTopic] 5).bind fun first =>
    (launched 2 [] 6).map fun second =>
      ⟨fun i => if i then first else second, [], [first.advert, second.advert]⟩

/-- A datagram of the network arrives. -/
def arrives (i : Bool) (index : Nat) (port : UInt16) (multicast : Bool) (net : Net Bool) :
    NetEvent Bool :=
  .event i (.datagram (net.sent.getD index []) ⟨0x0a000001, port⟩ multicast 0)

/-- The first node announces itself, and the second one asks for the metadata. -/
def pairScript : List (Net Bool → NetEvent Bool) :=
  [fun _ => .event true (.tick 0), arrives false 0 1001 true, fun _ => .event false (.tick 0),
    arrives true 1 1002 true, arrives true 2 1002 false, arrives false 3 1001 false]

def pairFinish : Option (Net Bool) :=
  pairNet.bind fun net => pairScript.foldlM (fun net next => net.step (next net)) net

theorem launched_start {host : UInt8} {endpoints : List NetworkEndpointMetadata}
    {session : UInt64} {node : Node} (ready : launched host endpoints session = some node) :
    start { host := .ofByte host, bootId := .ofByte 9 } endpoints session = .ok node := by
  unfold launched at ready
  cases started : start { host := .ofByte host, bootId := .ofByte 9 } endpoints session with
  | error error =>
    rw [started] at ready
    cases ready
  | ok other =>
    rw [started] at ready
    rw [Option.some.inj ready]

theorem pairNet_initial {net : Net Bool} (ready : pairNet = some net) : net.Initial := by
  unfold pairNet at ready
  obtain ⟨first, firstReady, ready⟩ := Option.bind_eq_some_iff.mp ready
  obtain ⟨second, secondReady, rfl⟩ := Option.map_eq_some_iff.mp ready
  have firstStart := launched_start firstReady
  have secondStart := launched_start secondReady
  constructor
  · intro i
    cases i
    · exact ⟨_, _, _, secondStart⟩
    · exact ⟨_, _, _, firstStart⟩
  · have different : first.config.host ≠ second.config.host := by
      rw [(advert_start firstStart).2.2.1, (advert_start secondStart).2.2.1]
      decide
    intro i j same
    cases i <;> cases j
    · rfl
    · exact absurd same.symm different
    · exact absurd same different
    · rfl
  · rfl
  · intro a
    simp [or_comm]

theorem pairFinish_reachable {net : Net Bool} (finished : pairFinish = some net) :
    (network Bool).Reachable net := by
  unfold pairFinish at finished
  obtain ⟨start, ready, computed⟩ := Option.bind_eq_some_iff.mp finished
  have reached : ∀ (script : List (Net Bool → NetEvent Bool)) (from_ : Net Bool),
      (network Bool).Reachable from_ →
      script.foldlM (fun net next => net.step (next net)) from_ = some net →
      (network Bool).Reachable net := by
    intro script
    induction script with
    | nil =>
      intro from_ reachable computed
      cases computed
      exact reachable
    | cons next rest ih =>
      intro from_ reachable computed
      obtain ⟨middle, stepped, computed⟩ := Option.bind_eq_some_iff.mp computed
      exact ih middle (reachable.step stepped) computed
  exact reached pairScript start (.of_initial (pairNet_initial ready)) computed

theorem metadata_transfer_agrees_pair : ∃ (net : Net Bool) (e : Entry),
    (network Bool).Reachable net ∧ e ∈ (net.nodes false).peers ∧ e.info.metadataReady = true ∧
      ∃ a ∈ net.held, e.info.endpoints = a.endpoints := by
  have computed : (pairFinish.map fun net =>
      (net.nodes false).peers.any (·.info.metadataReady)) = some true := by decide +kernel
  obtain ⟨net, finished, some_ready⟩ := Option.map_eq_some_iff.mp computed
  obtain ⟨e, member, ready⟩ := any_eq_true.mp some_ready
  have reachable := pairFinish_reachable finished
  obtain ⟨⟨a, held, session, revision⟩, agrees⟩ :=
    (metadata_transfer_agrees reachable false member).1 ready
  exact ⟨net, e, reachable, member, ready, a, held, agrees a held session revision⟩

end Kcf.Network.Discovery
