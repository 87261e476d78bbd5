import Mathlib.Data.List.Forall2
import Kcf.Data.Snoc
import Kcf.Network.Discovery.Exact
import Kcf.Network.Discovery.Node

/-!
# Steps of the peer table

Every event of a node changes its peer table in one of three ways: no entry
changes its incarnation, the entry of one host takes over an accepted announce,
or a new entry is added, possibly in the place of a lost one.  The invariants of
the table are derived from this classification.
-/

namespace Kcf.Network.Discovery

open Kcf.Wire List

variable {p : Packet}

theorem Packet.sequence_ne_zero (valid : p.Valid) (kind : p.kind = .announce) : p.sequence ≠ 0 := by
  have body := valid.2.2.2.2
  rw [kind] at body
  exact body.2.2.1

/-! ## One entry -/

/-- The incarnation of the host that an entry belongs to. -/
def Entry.key (e : Entry) : HostIdentity × UInt64 := (e.info.bootId, e.info.sessionId)

/-- The metadata transfer of an entry: a request and the bytes it has brought so
far, or the decoded endpoints. -/
structure Transfer where
  requestId : UInt64
  ready : Bool
  staging : Bytes
  endpoints : List NetworkEndpointMetadata

def Entry.transfer (e : Entry) : Transfer :=
  ⟨e.requestId, e.info.metadataReady, e.staging, e.info.endpoints⟩

/-- Nothing has been received yet. -/
def Transfer.Fresh (t : Transfer) : Prop := t.ready = false ∧ t.staging = []

/-- The response `p` moves the transfer of the entry on to `t`. -/
structure Entry.Stages (e : Entry) (p : Packet) (t : Transfer) : Prop where
  kind : p.kind = .metadataResponse
  host : p.host = e.info.host
  bootId : p.bootId = e.info.bootId
  sessionId : p.sessionId = e.info.sessionId
  request : p.requestId = e.requestId
  revision : p.revision = e.info.metadataRevision
  size : p.metadataSize = e.size
  offset : p.offset.toNat = e.staging.length
  pending : e.info.metadataReady = false
  same : t.requestId = e.requestId
  result : (t.ready = false ∧ t.staging = e.staging ++ p.chunk) ∨
    (t.ready = true ∧ (e.staging ++ p.chunk).length = e.size.toNat ∧
      decodeMetadata (e.staging ++ p.chunk) = .ok t.endpoints)

section Kept

variable {config : Config} {now : Int} {delivered : Packet → Prop}

/-- What an event other than an accepted announce leaves alone in an entry.  The
state may only go from `ONLINE` to `LOST`, and only after the timeout; the transfer
goes on only with a response that was delivered. -/
structure Entry.Kept (config : Config) (now : Int) (delivered : Packet → Prop) (e e' : Entry) :
    Prop where
  host : e'.info.host = e.info.host
  bootId : e'.info.bootId = e.info.bootId
  sessionId : e'.info.sessionId = e.info.sessionId
  lastSeen : e'.info.lastSeen = e.info.lastSeen
  revision : e'.info.metadataRevision = e.info.metadataRevision
  profile : e'.info.profile = e.info.profile
  address : e'.address = e.address
  sequence : e'.sequence = e.sequence
  size : e'.size = e.size
  count : e'.count = e.count
  retired : e'.retired = e.retired
  state : e'.info.state = e.info.state ∨
    (e'.info.state = .lost ∧ now - e.info.lastSeen ≥ config.timeout)
  transfer : e'.transfer.Fresh ∨ e'.transfer = e.transfer ∨
    ∃ p, delivered p ∧ e.Stages p e'.transfer

theorem Entry.Kept.refl (e : Entry) : e.Kept config now delivered e :=
  ⟨rfl, rfl, rfl, rfl, rfl, rfl, rfl, rfl, rfl, rfl, rfl, .inl rfl, .inr (.inl rfl)⟩

theorem Entry.Kept.key {e e' : Entry} (kept : e.Kept config now delivered e') : e'.key = e.key := by
  rw [Entry.key, Entry.key, kept.bootId, kept.sessionId]

/-- Changing the timers of an entry is not noticed. -/
theorem Entry.Kept.retime {e e' : Entry} (kept : e.Kept config now delivered e')
    (nextRequest nextResponse : Int) : e.Kept config now delivered
      { e' with nextRequest := nextRequest, nextResponse := nextResponse } :=
  { kept with }

end Kept

/-- The entry that an accepted announce is written into. -/
def Entry.base (e : Entry) (p : Packet) : Entry := if e.changed p then e.retire else e

/-- Why an entry may accept an announce. -/
structure Entry.Admits (config : Config) (e : Entry) (p : Packet) (address : Address) (now : Int) :
    Prop where
  other : e.changed p → ¬now - e.info.lastSeen < config.timeout ∧
    (p.bootId, p.sessionId) ∉ e.retired
  same : e.info.sessionId ≠ 0 → ¬e.changed p →
    e.info.profile = p.profile ∧ e.sequence < p.sequence ∧ e.info.metadataRevision ≤ p.revision
  still : e.info.sessionId ≠ 0 → ¬e.changed p → e.sequence ≠ 0 →
    now - e.info.lastSeen < config.timeout → e.address = address
  content : e.info.sessionId ≠ 0 → ¬e.changed p → e.sequence ≠ 0 →
    p.revision = e.info.metadataRevision → e.size = p.metadataSize ∧ e.count = p.endpointCount

theorem not_le_zero_of_ne_zero {value : UInt64} (nonzero : value ≠ 0) : ¬value ≤ 0 := by
  intro small
  rw [UInt64.le_iff_toNat_le] at small
  apply nonzero
  apply UInt64.toNat_inj.mp
  simpa using small

theorem not_lt_zero (value : UInt64) : ¬value < 0 := by
  intro small
  rw [UInt64.lt_iff_toNat_lt] at small
  simp at small

theorem Entry.offer_cases (config : Config) (e : Entry) (changed : Prop) [Decidable changed]
    (p : Packet) (address : Address) (now : Int) :
    e.offer config changed p address now = (e, .rejected) ∨
    (¬(p.sequence ≤ e.sequence ∨ p.revision < e.info.metadataRevision) ∧
      ¬(e.sequence ≠ 0 ∧ p.revision = e.info.metadataRevision ∧
        (e.size ≠ p.metadataSize ∨ e.count ≠ p.endpointCount)) ∧
      ¬((e.sequence ≠ 0 ∧ e.address ≠ address) ∧ now - e.info.lastSeen < config.timeout) ∧
      e.offer config changed p address now = (e.accept config p address now,
        .accepted (e.info.sessionId = 0 ∨ changed ∨ (e.sequence ≠ 0 ∧ e.address ≠ address) ∨
          e.info.state = .lost ∨ p.revision ≠ e.info.metadataRevision))) := by
  unfold Entry.offer
  split
  · exact .inl rfl
  split
  · exact .inl rfl
  · split
    · exact .inl rfl
    · exact .inr ⟨by assumption, by assumption, by assumption, rfl⟩

/-- An announce is rejected without a trace, or accepted for a reason.  An accepted
announce asks for the metadata again unless session and revision stay. -/
theorem Entry.announce_cases (config : Config) (e : Entry) (address : Address)
    (now : Int) (positive : p.sequence ≠ 0) :
    e.announce config p address now = (e, .rejected) ∨
    ∃ refresh, e.announce config p address now =
        ((e.base p).accept config p address now, .accepted refresh) ∧
      e.Admits config p address now ∧
      (refresh = false → e.info.sessionId ≠ 0 ∧ ¬e.changed p ∧ e.info.state = .online ∧
        p.revision = e.info.metadataRevision) := by
  unfold Entry.announce
  split
  · exact .inl rfl
  next profile =>
    split
    next changed =>
      split
      · exact .inl rfl
      next old =>
        split
        · exact .inl rfl
        next unknown =>
          have base : e.base p = e.retire := if_pos changed
          rw [base]
          rcases e.retire.offer_cases config True p address now with rejected | ⟨_, _, _, accepted⟩
          · -- nothing can reject once the sequence has been reset
            exfalso
            unfold Entry.offer at rejected
            rw [if_neg, if_neg, if_neg] at rejected
            · exact absurd (congrArg Prod.snd rejected) (by simp)
            · simp [Entry.retire]
            · simp [Entry.retire]
            · simp only [Entry.retire, not_or]
              exact ⟨not_le_zero_of_ne_zero positive, not_lt_zero _⟩
          · refine .inr ⟨_, accepted, ⟨fun _ => ⟨old, unknown⟩, ?_, ?_, ?_⟩, by simp⟩
            · exact fun _ same => absurd changed same
            · exact fun _ same => absurd changed same
            · exact fun _ same => absurd changed same
    next same =>
      have base : e.base p = e := if_neg same
      rw [base]
      rcases e.offer_cases config False p address now with rejected |
          ⟨newer, content, still, accepted⟩
      · exact .inl rejected
      · refine .inr ⟨_, accepted, ⟨fun changed => absurd changed same, ?_, ?_, ?_⟩, ?_⟩
        · intro known _
          refine ⟨?_, ?_, ?_⟩
          · by_contra different
            exact profile ⟨known, same, different⟩
          · exact UInt64.not_le.mp (fun small => newer (.inl small))
          · exact UInt64.not_lt.mp (fun small => newer (.inr small))
        · intro _ _ nonzero young
          by_contra moved
          exact still ⟨⟨nonzero, moved⟩, young⟩
        · intro _ _ nonzero revision
          by_contra different
          exact content ⟨nonzero, revision, by
            rcases not_and_or.mp different with size | count
            · exact .inl size
            · exact .inr count⟩
        · intro quiet
          simp only [decide_eq_false_iff_not, not_or, false_or] at quiet
          obtain ⟨known, _, online, revision⟩ := quiet
          refine ⟨known, same, ?_, not_not.mp revision⟩
          cases state : e.info.state with
          | online => rfl
          | lost => exact absurd state online

/-- The fields of an entry right after it has accepted an announce.  The transfer
starts anew, or session, revision and the transfer itself go on. -/
structure Entry.Took (e e' : Entry) (p : Packet) (address : Address) (now : Int) : Prop where
  host : e'.info.host = p.host
  bootId : e'.info.bootId = p.bootId
  sessionId : e'.info.sessionId = p.sessionId
  lastSeen : e'.info.lastSeen = now
  revision : e'.info.metadataRevision = p.revision
  profile : e'.info.profile = p.profile
  address : e'.address = address
  sequence : e'.sequence = p.sequence
  size : e'.size = p.metadataSize
  count : e'.count = p.endpointCount
  state : e'.info.state = .online
  retired : e'.retired = (e.base p).retired
  transfer : e'.transfer.Fresh ∨
    (e.info.sessionId ≠ 0 ∧ ¬e.changed p ∧ p.revision = e.info.metadataRevision ∧
      e'.transfer = e.transfer)

theorem Entry.took_refresh (node : Node) (e : Entry) (address : Address) (now : Int)
    {refresh : Bool}
    (quiet : refresh = false → e.info.sessionId ≠ 0 ∧ ¬e.changed p ∧ e.info.state = .online ∧
      p.revision = e.info.metadataRevision) :
    e.Took (node.refresh refresh ((e.base p).accept node.config p address now)).2
      p address now := by
  cases refresh with
  | true =>
    simp only [Node.refresh, if_true, Node.beginMetadata]
    split <;>
      exact ⟨rfl, rfl, rfl, rfl, rfl, rfl, rfl, rfl, rfl, rfl, rfl, rfl, .inl ⟨rfl, rfl⟩⟩
  | false =>
    obtain ⟨known, same, _, revision⟩ := quiet rfl
    have base : e.base p = e := if_neg same
    refine ⟨rfl, rfl, rfl, rfl, rfl, rfl, rfl, rfl, rfl, rfl, rfl, rfl, .inr ?_⟩
    rw [base]
    exact ⟨known, same, revision, rfl⟩

/-- `BeginMetadata` touches only the request counter and the running flag. -/
theorem Node.refresh_peers (node : Node) (refresh : Bool) (e : Entry) :
    (node.refresh refresh e).1.peers = node.peers ∧
      (node.refresh refresh e).1.config = node.config := by
  cases refresh
  · exact ⟨rfl, rfl⟩
  · simp only [Node.refresh, if_true, Node.beginMetadata]
    split <;> exact ⟨rfl, rfl⟩

/-! ## The place of a host -/

variable {peers : List Entry} {index : Nat}

theorem oldestLost_lost (found : oldestLost peers = some index) :
    ∃ e, peers[index]? = some e ∧ e.info.state = .lost := by
  have fold : ∀ (candidates : List (Entry × Nat)) (best : Option (Entry × Nat)),
      (∀ candidate ∈ candidates, peers[candidate.2]? = some candidate.1) →
      (∀ candidate, best = some candidate → peers[candidate.2]? = some candidate.1 ∧
        candidate.1.info.state = .lost) →
      ∀ candidate, candidates.foldl olderLost best = some candidate →
        peers[candidate.2]? = some candidate.1 ∧ candidate.1.info.state = .lost := by
    intro candidates
    induction candidates with
    | nil => exact fun best _ good candidate equal => good candidate equal
    | cons first rest ih =>
      intro best members good
      refine ih _ (fun candidate membership => members candidate (.tail _ membership)) ?_
      intro candidate chosen
      unfold olderLost at chosen
      split at chosen
      next lost =>
        cases chosen
        exact ⟨members first mem_cons_self, lost.1⟩
      · exact good candidate chosen
  obtain ⟨candidate, folded, rfl⟩ := Option.map_eq_some_iff.mp found
  have members : ∀ candidate ∈ peers.zipIdx, peers[candidate.2]? = some candidate.1 :=
    fun candidate membership => mem_zipIdx_iff_getElem?.mp membership
  exact ⟨candidate.1, fold peers.zipIdx none members (by simp) candidate folded⟩

theorem findPeer_some {host : HostIdentity}
    (found : findPeer peers host = some index) :
    ∃ bound : index < peers.length, peers[index].info.host = host := by
  obtain ⟨bound, here, _⟩ := findIdx?_eq_some_iff_getElem.mp found
  exact ⟨bound, by simpa using here⟩

theorem findPeer_none {host : HostIdentity}
    (missing : findPeer peers host = none) : ∀ e ∈ peers, e.info.host ≠ host := by
  intro e membership
  simpa using findIdx?_eq_none_iff.mp missing e membership

/-- The entries that stay when a new host is added. -/
def MakesRoom (config : Config) (peers room : List Entry) : Prop :=
  (room = peers ∧ peers.length ≠ config.maxPeers) ∨
    ∃ index e, room = peers.eraseIdx index ∧ peers[index]? = some e ∧ e.info.state = .lost ∧
      peers.length = config.maxPeers

theorem MakesRoom.sublist {config : Config} {room : List Entry}
    (makesRoom : MakesRoom config peers room) : room.Sublist peers := by
  rcases makesRoom with ⟨rfl, _⟩ | ⟨index, _, rfl, _⟩
  · exact Sublist.refl _
  · exact eraseIdx_sublist _ _

theorem placeFor_cases {config : Config} {table : List Entry} {host : HostIdentity}
    (placed : placeFor config peers host = some (table, index)) :
    (table = peers ∧ ∃ bound : index < peers.length, peers[index].info.host = host) ∨
    ((∀ e ∈ peers, e.info.host ≠ host) ∧
      ∃ room, MakesRoom config peers room ∧
        table = room ++ [({} : Entry)] ∧ index = room.length) := by
  unfold placeFor at placed
  split at placed
  next found =>
    cases placed
    exact .inl ⟨rfl, findPeer_some found⟩
  next missing =>
    refine .inr ⟨findPeer_none missing, ?_⟩
    split at placed
    next full =>
      obtain ⟨oldest, chosen, equal⟩ := Option.map_eq_some_iff.mp placed
      cases equal
      obtain ⟨e, here, lost⟩ := oldestLost_lost chosen
      exact ⟨_, .inr ⟨oldest, e, rfl, here, lost, full⟩, rfl, rfl⟩
    next notFull =>
      cases placed
      exact ⟨peers, .inl ⟨rfl, notFull⟩, rfl, rfl⟩

/-! ## Steps of the table -/

/-- How one event at time `now` changes the table, and the announce it accepts. -/
inductive TableStep (config : Config) (now : Int) (delivered : Packet → Prop)
    (peers : List Entry) : List Entry → Option Acceptance → Prop where
  | kept {table : List Entry}
      (same : Forall₂ (Entry.Kept config now delivered) peers table) :
      TableStep config now delivered peers table none
  | took {index : Nat} {e e' : Entry} {p : Packet} {address : Address}
      (present : peers[index]? = some e) (host : e.info.host = p.host) (arrived : delivered p)
      (admits : e.Admits config p address now) (took : e.Took e' p address now) :
      TableStep config now delivered peers (peers.set index e') (some ⟨p, address, now⟩)
  | added {room : List Entry} {e' : Entry} {p : Packet} {address : Address}
      (absent : ∀ e ∈ peers, e.info.host ≠ p.host) (arrived : delivered p)
      (room_ok : MakesRoom config peers room) (took : ({} : Entry).Took e' p address now) :
      TableStep config now delivered peers (room ++ [e']) (some ⟨p, address, now⟩)

/-- The table makes one step, and the configuration stays. -/
structure Node.Steps (now : Int) (delivered : Packet → Prop) (node next : Node)
    (accepted : Option Acceptance) : Prop where
  table : TableStep node.config now delivered node.peers next.peers accepted
  config : next.config = node.config

theorem Node.Steps.quiet {now : Int} {delivered : Packet → Prop} {node next : Node}
    (peers : next.peers = node.peers) (config : next.config = node.config) :
    Steps now delivered node next none :=
  ⟨peers ▸ .kept (forall₂_same.mpr fun e _ => Entry.Kept.refl e), config⟩

/-- Where the entries after a step come from. -/
theorem TableStep.origin {config : Config} {now : Int} {delivered : Packet → Prop}
    {table : List Entry} {accepted : Option Acceptance} {e' : Entry}
    (stepped : TableStep config now delivered peers table accepted) (member : e' ∈ table) :
    (∃ e ∈ peers, e.Kept config now delivered e') ∨
    ∃ e a, accepted = some a ∧ delivered a.packet ∧ e.Took e' a.packet a.address now ∧
      ((e ∈ peers ∧ e.info.host = a.packet.host) ∨ e.info.sessionId = 0) := by
  cases stepped with
  | kept same =>
    obtain ⟨index, bound, rfl⟩ := getElem_of_mem member
    have bound' : index < peers.length := same.length_eq ▸ bound
    exact .inl ⟨peers[index], getElem_mem bound', same.get bound' bound⟩
  | @took index e _ p address present host arrived admits took =>
    rcases mem_or_eq_of_mem_set member with old | rfl
    · exact .inl ⟨e', old, Entry.Kept.refl e'⟩
    · exact .inr ⟨e, _, rfl, arrived, took, .inl ⟨mem_of_getElem? present, host⟩⟩
  | @added room _ p address absent arrived makesRoom took =>
    rcases Data.mem_snoc member with old | rfl
    · exact .inl ⟨e', makesRoom.sublist.subset old, Entry.Kept.refl e'⟩
    · exact .inr ⟨{}, _, rfl, arrived, took, .inr rfl⟩

/-- A fresh entry accepts every valid announce. -/
theorem Entry.announce_empty (config : Config) (address : Address) (now : Int)
    (positive : p.sequence ≠ 0) :
    ∃ refresh, ({} : Entry).announce config p address now =
        ((({} : Entry).base p).accept config p address now, .accepted refresh) ∧
      (refresh = false → ({} : Entry).info.sessionId ≠ 0 ∧ ¬({} : Entry).changed p ∧
        ({} : Entry).info.state = .online ∧
        p.revision = ({} : Entry).info.metadataRevision) := by
  rcases Entry.announce_cases config {} address now positive with rejected |
      ⟨refresh, accepted, _, quiet⟩
  · exfalso
    have same : ¬({} : Entry).changed p := by simp [Entry.changed]
    unfold Entry.announce at rejected
    rw [if_neg (by simp), if_neg same] at rejected
    unfold Entry.offer at rejected
    rw [if_neg, if_neg (by simp), if_neg (by simp)] at rejected
    · exact absurd (congrArg Prod.snd rejected) (by simp)
    · simp only [not_or]
      exact ⟨not_le_zero_of_ne_zero positive, not_lt_zero _⟩
  · exact ⟨refresh, accepted, quiet⟩

/-- `Announce` rejects without a trace or makes one step of the table. -/
theorem Node.announce_cases (node : Node) (address : Address) (now : Int)
    (delivered : Packet → Prop) (arrived : delivered p) (positive : p.sequence ≠ 0) :
    node.announce p address now = (node, false) ∨
    ∃ next, node.announce p address now = (next, true) ∧
      Steps now delivered node next (some ⟨p, address, now⟩) := by
  unfold Node.announce
  split
  · exact .inl rfl
  next table index placed =>
    rcases placeFor_cases placed with ⟨rfl, bound, host⟩ | ⟨absent, room, roomOk, rfl, rfl⟩
    · have present : node.peers.getD index {} = node.peers[index] := by
        simp [getD, getElem?_eq_getElem bound]
      rw [present]
      rcases Entry.announce_cases node.config node.peers[index] address now positive with rejected |
          ⟨refresh, accepted, admits, quiet⟩
      · left
        rw [rejected]
        simp only [set_getElem_self]
      · right
        rw [accepted]
        refine ⟨_, rfl, ?_, (node.refresh_peers _ _).2⟩
        exact .took (getElem?_eq_getElem bound) host arrived admits
          (Entry.took_refresh node _ address now quiet)
    · have fresh : (room ++ [({} : Entry)]).getD room.length {} = {} := by simp [getD]
      rw [fresh]
      obtain ⟨refresh, accepted, quiet⟩ := Entry.announce_empty node.config address now positive
      right
      rw [accepted]
      refine ⟨_, rfl, ?_, (node.refresh_peers _ _).2⟩
      have table : ∀ e, (room ++ [({} : Entry)]).set room.length e = room ++ [e] := by simp
      have stepped := TableStep.added absent arrived roomOk
        (Entry.took_refresh node ({} : Entry) address now quiet)
      rw [← table] at stepped
      exact stepped

/-! ## Events -/

section Events

variable (node : Node) {config : Config} {now : Int} {delivered : Packet → Prop}

theorem Entry.kept_expire (e : Entry) : e.Kept config now delivered (e.expire config now) := by
  unfold Entry.expire
  split
  next due =>
    exact ⟨rfl, rfl, rfl, rfl, rfl, rfl, rfl, rfl, rfl, rfl, rfl, .inr ⟨rfl, due.2⟩,
      .inl ⟨rfl, rfl⟩⟩
  · exact Entry.Kept.refl e

theorem Entry.kept_requestMetadata {e e' : Entry} (kept : e.Kept config now delivered e') :
    e.Kept config now delivered (node.requestMetadata now e').1 := by
  unfold Node.requestMetadata
  split
  · exact kept.retime _ _
  · exact kept

theorem Node.tickPeers_step :
    TableStep node.config now delivered node.peers (node.tickPeers now).1.peers none := by
  refine .kept ?_
  simp only [Node.tickPeers, map_map]
  refine forall₂_map_right_iff.mpr (forall₂_same.mpr fun e _ => ?_)
  exact Entry.kept_requestMetadata node e.kept_expire

theorem Node.tick_step : Steps now delivered node (node.tick now).1 none := by
  unfold Node.tick
  split
  · split
    · exact .quiet rfl rfl
    exact ⟨Node.tickPeers_step { node with
      sequence := node.sequence + 1
      dirty := false
      nextAnnounce := now + node.config.announceInterval * millisecond }, rfl⟩
  · exact ⟨node.tickPeers_step, rfl⟩

/-- Rewriting one entry without touching its incarnation. -/
theorem TableStep.set {e e' : Entry}
    (present : peers[index]? = some e) (kept : e.Kept config now delivered e') :
    TableStep config now delivered peers (peers.set index e') none := by
  refine .kept ?_
  induction peers generalizing index with
  | nil => simp at present
  | cons first rest ih =>
    cases index with
    | zero =>
      cases present
      exact .cons kept (forall₂_same.mpr fun e _ => Entry.Kept.refl e)
    | succ index => exact .cons (Entry.Kept.refl first) (ih present)

theorem Node.beginMetadata_kept (e : Entry) (staging : Bytes) :
    e.Kept config now delivered (node.beginMetadata { e with staging }).2 := by
  unfold Node.beginMetadata
  split <;>
    exact ⟨rfl, rfl, rfl, rfl, rfl, rfl, rfl, rfl, rfl, rfl, rfl, .inl rfl, .inl ⟨rfl, rfl⟩⟩

theorem Node.restartMetadata_step {e : Entry} (staging : Bytes)
    (present : node.peers[index]? = some e) :
    Steps now delivered node (node.restartMetadata index { e with staging } now) none := by
  have same : (node.beginMetadata { e with staging }).1.peers = node.peers ∧
      (node.beginMetadata { e with staging }).1.config = node.config := by
    unfold Node.beginMetadata
    split <;> exact ⟨rfl, rfl⟩
  refine ⟨?_, same.2⟩
  simp only [Node.restartMetadata, Node.setPeer, same.1]
  exact TableStep.set present ((node.beginMetadata_kept e staging).retime _ _)

theorem Node.takeResponse_step {e : Entry}
    (present : node.peers[index]? = some e) (arrived : delivered p)
    (kind : p.kind = .metadataResponse) (host : p.host = e.info.host)
    (bootId : p.bootId = e.info.bootId) (sessionId : p.sessionId = e.info.sessionId) :
    Steps now delivered node (node.takeResponse index e p now) none := by
  unfold Node.takeResponse
  split
  · exact .quiet rfl rfl
  next expected =>
    simp only [not_or, not_not, Bool.not_eq_true] at expected
    obtain ⟨pending, request, revision, size, offset⟩ := expected
    have stages : ∀ {t : Transfer}, t.requestId = e.requestId →
        ((t.ready = false ∧ t.staging = e.staging ++ p.chunk) ∨
          (t.ready = true ∧ (e.staging ++ p.chunk).length = e.size.toNat ∧
            decodeMetadata (e.staging ++ p.chunk) = .ok t.endpoints)) →
        ∃ q, delivered q ∧ e.Stages q t := fun same result =>
      ⟨p, arrived, kind, host, bootId, sessionId, request, revision, size, offset, pending, same,
        result⟩
    dsimp only
    split
    next full =>
      split
      next decoded decodes =>
        split
        · exact node.restartMetadata_step _ present
        · exact ⟨TableStep.set present ⟨rfl, rfl, rfl, rfl, rfl, rfl, rfl, rfl, rfl, rfl, rfl,
            .inl rfl, .inr (.inr (stages rfl (.inr ⟨rfl, full, decodes⟩)))⟩, rfl⟩
      · exact node.restartMetadata_step _ present
    · exact ⟨TableStep.set present ⟨rfl, rfl, rfl, rfl, rfl, rfl, rfl, rfl, rfl, rfl, rfl,
        .inl rfl, .inr (.inr (stages rfl (.inl ⟨pending, rfl⟩)))⟩, rfl⟩

theorem Node.answerRequest_step {e : Entry} (p : Packet) (address : Address)
    (present : node.peers[index]? = some e) :
    Steps now delivered node (node.answerRequest index e p address now).1 none := by
  unfold Node.answerRequest
  split
  · exact .quiet rfl rfl
  · exact ⟨TableStep.set present ((Entry.Kept.refl e).retime _ _), rfl⟩

end Events

/-- What a call of the node's owner does: nothing, or new metadata under a new
revision. -/
def Node.Publishes (node next : Node) : Prop :=
  next = node ∨ ∃ base consumers bytes, encodeMetadata (base ++ consumers) = .ok bytes ∧
    node.revision ≠ maxUInt64 ∧ next = node.publish base consumers bytes

theorem Node.Publishes.frame {node next : Node} (publishes : node.Publishes next) :
    next.peers = node.peers ∧ next.config = node.config := by
  rcases publishes with rfl | ⟨base, consumers, bytes, _, _, rfl⟩
  · exact ⟨rfl, rfl⟩
  · exact ⟨rfl, rfl⟩

theorem Node.updateMetadata_publishes (node : Node) (endpoints : List NetworkEndpointMetadata) :
    node.Publishes (node.updateMetadata endpoints).1 := by
  unfold Node.updateMetadata
  split
  · exact .inl rfl
  split
  · exact .inl rfl
  split
  · exact .inl rfl
  next encoded =>
    split
    · exact .inl rfl
    · split
      · exact .inl rfl
      next room => exact .inr ⟨_, _, _, encoded, room, rfl⟩

theorem Node.registerConsumer_publishes (node : Node) (session : UInt64)
    (endpoint : NetworkEndpointMetadata) :
    node.Publishes (node.registerConsumer session endpoint).1 := by
  unfold Node.registerConsumer
  split
  · exact .inl rfl
  split
  · exact .inl rfl
  split
  · exact .inl rfl
  split
  · exact .inl rfl
  split
  · exact .inl rfl
  next encoded =>
    split
    · exact .inl rfl
    next room =>
      rw [append_assoc] at encoded
      exact .inr ⟨_, _, _, encoded, room, rfl⟩

theorem Node.unregisterConsumer_publishes (node : Node) (session : UInt64)
    (endpoint : RemoteEndpointIdentity) :
    node.Publishes (node.unregisterConsumer session endpoint).1 := by
  unfold Node.unregisterConsumer
  split
  · exact .inl rfl
  split
  · exact .inl rfl
  split
  · exact .inl rfl
  next encoded =>
    split
    · exact .inl rfl
    next room => exact .inr ⟨_, _, _, encoded, room, rfl⟩

/-- Unicast packets rewrite at most one entry. -/
theorem Node.receive_unicast_step (node : Node) (address : Address) (now : Int)
    {delivered : Packet → Prop} (arrived : delivered p) :
    Steps now delivered node (node.receive p address false now).1 none := by
  unfold Node.receive
  split
  · exact .quiet rfl rfl
  rw [if_neg (by decide)]
  split
  · exact .quiet rfl rfl
  next index found =>
    obtain ⟨bound, host⟩ := findPeer_some found
    have present : node.peers[index]? = some (node.peers.getD index {}) := by
      simp [getD, getElem?_eq_getElem bound]
    have here : node.peers.getD index {} = node.peers[index] := by
      simp [getD, getElem?_eq_getElem bound]
    dsimp only
    split
    · exact .quiet rfl rfl
    next known =>
      simp only [not_or, not_not] at known
      obtain ⟨_, bootId, sessionId, _⟩ := known
      split
      · exact node.answerRequest_step p address present
      next kind =>
        exact node.takeResponse_step present arrived kind (here ▸ host.symm) bootId.symm
          sessionId.symm
      · exact .quiet rfl rfl

/-- An announce is accepted, and then it is handled by `Announce`, or it changes
nothing at all. -/
theorem Node.handle_announce (node : Node) {bytes : Bytes} (address : Address) (multicast : Bool)
    (now : Int) (delivered : Packet → Prop) (arrived : delivered p)
    (decoded : decodePacket bytes = .ok p) (kind : p.kind = .announce) :
    (node.accepts (.datagram bytes address multicast now) = none ∧
      node.handle (.datagram bytes address multicast now) = (node, [])) ∨
    (p.host ≠ node.config.host ∧
      node.accepts (.datagram bytes address multicast now) = some ⟨p, address, now⟩ ∧
      node.handle (.datagram bytes address multicast now) =
        ((node.announce p address now).1, []) ∧
      Steps now delivered node (node.announce p address now).1 (some ⟨p, address, now⟩)) := by
  have positive : p.sequence ≠ 0 := Packet.sequence_ne_zero (decodePacket_valid decoded) kind
  unfold Node.handle
  cases running : node.running with
  | false => exact .inl ⟨by cases multicast <;> simp [Node.accepts, running], rfl⟩
  | true =>
    simp only [if_true, Node.drain]
    by_cases usable : address.Usable
    · rw [if_neg (not_not.mpr usable), decoded]
      cases multicast with
      | false =>
        refine .inl ⟨rfl, ?_⟩
        simp only [Node.receive, kind]
        grind
      | true =>
        simp only [Node.accepts, Node.receive, running, usable, decoded, kind, true_and,
          and_self, if_true]
        by_cases own : p.host = node.config.host
        · exact .inl ⟨by simp [own], by simp [own]⟩
        · rcases node.announce_cases address now delivered arrived positive with rejected |
              ⟨next, accepted, stepped⟩
          · exact .inl ⟨by simp [rejected], by simp [own, rejected]⟩
          · refine .inr ⟨own, by simp [own, accepted], by simp [own, accepted], ?_⟩
            rw [accepted]
            exact stepped
    · refine .inl ⟨by cases multicast <;> simp [Node.accepts, usable], ?_⟩
      rw [if_pos usable]

/-- The packet a datagram carries. -/
def Event.Delivers : Event → Packet → Prop
  | .datagram bytes _ _ _, p => decodePacket bytes = .ok p
  | _, _ => False

/-- Every event makes one step of the table. -/
theorem Node.handle_step (node : Node) (clock : Int) (event : Event) :
    Steps (event.time clock) event.Delivers node (node.handle event).1 (node.accepts event) := by
  have owner : ∀ {next : Node} {delivered : Packet → Prop}, node.Publishes next →
      Steps clock delivered node next none :=
    fun publishes => .quiet publishes.frame.1 publishes.frame.2
  cases event with
  | tick now =>
    unfold Node.handle
    split
    · exact node.tick_step
    · exact .quiet rfl rfl
  | datagram bytes address multicast now =>
    cases decoded : decodePacket bytes with
    | error error =>
      have ignored : node.handle (.datagram bytes address multicast now) = (node, []) := by
        simp [Node.handle, Node.drain, decoded]
      have nothing : node.accepts (.datagram bytes address multicast now) = none := by
        cases multicast <;> simp [Node.accepts, decoded]
      rw [ignored, nothing]
      exact .quiet rfl rfl
    | ok p =>
      by_cases kind : p.kind = .announce
      · rcases node.handle_announce address multicast now
            (Event.datagram bytes address multicast now).Delivers decoded decoded kind with
            ⟨nothing, ignored⟩ | ⟨_, accepted, handled, stepped⟩
        · rw [ignored, nothing]
          exact .quiet rfl rfl
        · rw [handled, accepted]
          exact stepped
      · have nothing : node.accepts (.datagram bytes address multicast now) = none := by
          cases multicast <;> simp [Node.accepts, decoded, kind]
        rw [nothing]
        unfold Node.handle
        split
        · simp only [Node.drain, decoded]
          split
          · exact .quiet rfl rfl
          cases multicast with
          | false => exact node.receive_unicast_step address now decoded
          | true =>
            have ignored : node.receive p address true now = (node, []) := by
              simp [Node.receive, kind]
            rw [ignored]
            exact .quiet rfl rfl
        · exact .quiet rfl rfl
  | updateMetadata endpoints =>
    unfold Node.handle
    split
    · exact owner (node.updateMetadata_publishes endpoints)
    · exact owner (.inl rfl)
  | registerConsumer session endpoint =>
    unfold Node.handle
    split
    · exact owner (node.registerConsumer_publishes session endpoint)
    · exact owner (.inl rfl)
  | unregisterConsumer session endpoint =>
    unfold Node.handle
    split
    · exact owner (node.unregisterConsumer_publishes session endpoint)
    · exact owner (.inl rfl)

/-- Only announces of other hosts are accepted, at the time of the event. -/
theorem Node.accepts_some {node : Node} {event : Event} {a : Acceptance} (clock : Int)
    (accepted : node.accepts event = some a) :
    a.packet.Valid ∧ a.packet.kind = .announce ∧ a.packet.host ≠ node.config.host ∧
      event.time clock = a.time := by
  unfold Node.accepts at accepted
  split at accepted
  next bytes address now =>
    split at accepted
    · split at accepted
      next p decoded =>
        split at accepted
        next admitted =>
          cases accepted
          exact ⟨decodePacket_valid decoded, admitted.2.1, admitted.1, rfl⟩
        · cases accepted
      · cases accepted
    · cases accepted
  · cases accepted

end Kcf.Network.Discovery
