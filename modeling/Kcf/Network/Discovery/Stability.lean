import Mathlib.Data.List.Chain
import Mathlib.Data.List.DropRight
import Kcf.Data.Keyed
import Kcf.Network.Discovery.Advert
import Kcf.Transition.System

/-!
# Stability of the peer table

A node is watched over a whole run with nondecreasing times.  For each host the
watch keeps the announces that the present entry of the host has accepted, and it
keeps all announces the node has accepted.  What the table may contain, which
announces can touch a young entry, and how the announces of one session follow
each other are invariants of this system.
-/

namespace Kcf.Network.Discovery

open Kcf.Wire Kcf.Transition List Function

/-- The incarnation of the host that an announce speaks for. -/
def Acceptance.key (a : Acceptance) : HostIdentity × UInt64 := (a.packet.bootId, a.packet.sessionId)

/-- A node under observation. -/
structure Watch where
  node : Node
  clock : Int
  /-- what the present entry of a host has accepted since it was made, oldest first -/
  history : HostIdentity → List Acceptance
  /-- everything the node has accepted, oldest first -/
  accepted : List Acceptance

/-- The table has an entry for the host. -/
def Known (peers : List Entry) (host : HostIdentity) : Prop := ∃ e ∈ peers, e.info.host = host
  deriving Decidable

/-- The histories after an event; a host without an entry begins a new one. -/
def record (peers : List Entry) (history : HostIdentity → List Acceptance) :
    Option Acceptance → HostIdentity → List Acceptance
  | none => history
  | some a => update history a.packet.host
      ((if Known peers a.packet.host then history a.packet.host else []) ++ [a])

/-- The watched node after an event. -/
def Watch.next (w : Watch) (event : Event) : Watch where
  node := (w.node.handle event).1
  clock := event.time w.clock
  history := record w.node.peers w.history (w.node.accepts event)
  accepted := w.accepted ++ (w.node.accepts event).toList

/-- A freshly started node. -/
def Watch.Initial (w : Watch) : Prop :=
  (∃ config endpoints session, start config endpoints session = .ok w.node) ∧
    (∀ host, w.history host = []) ∧ w.accepted = []

/-- A node under every sequence of events with nondecreasing times. -/
def watching : System Watch Event where
  initial := Watch.Initial
  step w event next := w.clock ≤ event.time w.clock ∧ next = w.next event

/-- The incarnations a host was replaced from, oldest first. -/
def replacedFrom : List Acceptance → List (HostIdentity × UInt64)
  | a :: b :: rest =>
    if a.key = b.key then replacedFrom (b :: rest) else a.key :: replacedFrom (b :: rest)
  | _ => []

/-- How one accepted announce may follow another of the same session. -/
structure Acceptance.Follows (a b : Acceptance) : Prop where
  sequence : a.packet.sequence < b.packet.sequence
  revision : a.packet.revision ≤ b.packet.revision
  profile : a.packet.profile = b.packet.profile

/-- How one accepted announce of an entry may come after another. -/
def Acceptance.Successive (a b : Acceptance) : Prop := a.key = b.key → a.Follows b

/-! ## The invariant -/

/-- What the table knows about a host after a history of accepted announces. -/
structure Entry.Reflects (e : Entry) (history : List Acceptance) : Prop where
  last : ∃ a, history.getLast? = some a ∧ e.key = a.key ∧ e.info.lastSeen = a.time ∧
    e.address = a.address ∧ e.sequence = a.packet.sequence ∧
    e.info.metadataRevision = a.packet.revision ∧ e.info.profile = a.packet.profile
  retired : e.retired = (replacedFrom history).rtake 8
  unretired : e.key ∉ e.retired
  session : e.info.sessionId ≠ 0
  sequence : e.sequence ≠ 0

/-- An entry of a table at a time: nothing was seen in the future, and a `LOST`
entry has been silent for the timeout. -/
structure Entry.Timed (config : Config) (clock : Int) (e : Entry) : Prop where
  seen : e.info.lastSeen ≤ clock
  lost : e.info.state = .lost → clock - e.info.lastSeen ≥ config.timeout

/-- The invariant of the watched table. -/
structure Stable (config : Config) (peers : List Entry) (clock : Int)
    (history : HostIdentity → List Acceptance) : Prop where
  hosts : (peers.map (·.info.host)).Nodup
  others : ∀ e ∈ peers, e.info.host ≠ config.host
  bounded : peers.length ≤ config.maxPeers
  timed : ∀ e ∈ peers, e.Timed config clock
  reflects : ∀ e ∈ peers, e.Reflects (history e.info.host)
  chained : ∀ host, (history host).IsChain Acceptance.Successive

/-! ## Histories -/

theorem replacedFrom_snoc (earlier : List Acceptance) (a b : Acceptance) :
    replacedFrom (earlier ++ [a] ++ [b]) =
      replacedFrom (earlier ++ [a]) ++ if a.key = b.key then [] else [a.key] := by
  induction earlier with
  | nil => simp [replacedFrom]
  | cons first rest ih =>
    -- both sides first compare `first` with the element behind it
    cases rest with
    | nil =>
      simp only [nil_append, cons_append, replacedFrom]
      split <;> simp
    | cons second rest =>
      simp only [cons_append, replacedFrom] at ih ⊢
      split
      · exact ih
      · rw [ih, cons_append]

theorem rtake_append_singleton {α : Type*} (l : List α) (n : Nat) (x : α) :
    (l ++ [x]).rtake (n + 1) = l.rtake n ++ [x] := by
  simp [rtake_concat_succ]

/-- Forgetting all but the newest `n` can be done one by one. -/
theorem rtake_rtake_append {α : Type*} (l : List α) (n : Nat) (x : α) :
    (l.rtake n ++ [x]).rtake n = (l ++ [x]).rtake n := by
  cases n with
  | zero => simp
  | succ n =>
    rw [rtake_append_singleton, rtake_append_singleton]
    congr 1
    simp only [rtake_eq_reverse_take_reverse, reverse_reverse, take_take]
    congr 2
    omega

/-- The retired list is the history's own, cut to its newest eight. -/
theorem Entry.retire_retired (e : Entry) (small : e.retired.length ≤ 8) :
    e.retire.retired = (e.retired ++ [e.key]).rtake 8 := by
  simp only [Entry.retire, Entry.key, rtake, length_append, length_singleton]
  split
  next long =>
    have full : e.retired.length = 8 := by omega
    rw [full]
  next short =>
    have cut : e.retired.length + 1 - 8 = 0 := by omega
    rw [cut, drop_zero]

/-! ## Tables -/

/-- In a table with distinct hosts a rewritten entry hides no other. -/
theorem mem_set_cases {peers : List Entry} {index : Nat} {e e' other : Entry}
    (hosts : (peers.map (·.info.host)).Nodup) (present : peers[index]? = some e)
    (member : other ∈ peers.set index e') :
    other = e' ∨ (other ∈ peers ∧ other.info.host ≠ e.info.host) := by
  obtain ⟨position, found⟩ := mem_iff_getElem?.mp member
  rw [getElem?_set] at found
  split at found
  next here =>
    split at found
    · cases found
      exact .inl rfl
    · cases found
  next elsewhere =>
    refine .inr ⟨mem_iff_getElem?.mpr ⟨position, found⟩, fun same => elsewhere ?_⟩
    have first : (peers.map (·.info.host))[index]? = some e.info.host := by simp [present]
    have second : (peers.map (·.info.host))[position]? = some other.info.host := by simp [found]
    obtain ⟨bound, _⟩ := List.getElem?_eq_some_iff.mp first
    exact (List.getElem?_inj bound hosts).mp (by rw [first, second, same])

theorem eq_of_host {peers : List Entry} {first second : Entry}
    (hosts : (peers.map (·.info.host)).Nodup) (here : first ∈ peers) (there : second ∈ peers)
    (same : first.info.host = second.info.host) : first = second :=
  inj_on_of_nodup_map hosts here there same

variable {e e' : Entry} {config : Config} {now : Int} {delivered : Packet → Prop} {p : Packet}
  {address : Address} {history : List Acceptance}

theorem map_host_set {peers : List Entry} {index : Nat}
    (present : peers[index]? = some e) (same : e'.info.host = e.info.host) :
    (peers.set index e').map (·.info.host) = peers.map (·.info.host) :=
  Keyed.map_set present same

theorem map_host_kept {peers table : List Entry}
    (same : Forall₂ (Entry.Kept config now delivered) peers table) :
    table.map (·.info.host) = peers.map (·.info.host) := by
  induction same with
  | nil => rfl
  | cons kept _ ih => rw [map_cons, map_cons, kept.host, ih]

theorem MakesRoom.length_lt {peers room : List Entry}
    (makesRoom : MakesRoom config peers room) (bounded : peers.length ≤ config.maxPeers) :
    room.length < config.maxPeers := by
  rcases makesRoom with ⟨rfl, notFull⟩ | ⟨index, e, rfl, present, _, full⟩
  · omega
  · obtain ⟨bound, _⟩ := List.getElem?_eq_some_iff.mp present
    rw [List.length_eraseIdx_of_lt bound]
    omega

/-! ## One step -/

theorem Entry.Timed.kept {clock now : Int}
    (timed : e.Timed config clock) (later : clock ≤ now) (kept : e.Kept config now delivered e') :
    e'.Timed config now := by
  refine ⟨?_, ?_⟩
  · rw [kept.lastSeen]
    exact le_trans timed.seen later
  · intro lost
    rw [kept.lastSeen]
    rcases kept.state with same | ⟨_, old⟩
    · have before := timed.lost (same ▸ lost)
      omega
    · exact old

theorem Entry.Timed.later {clock now : Int} {e : Entry}
    (timed : e.Timed config clock) (later : clock ≤ now) : e.Timed config now :=
  timed.kept later (Entry.Kept.refl e : e.Kept config now (fun _ => False) e)

theorem Entry.Timed.took (took : e.Took e' p address now) : e'.Timed config now :=
  ⟨le_of_eq took.lastSeen, fun lost => by rw [took.state] at lost; cases lost⟩

theorem Entry.Reflects.kept (reflects : e.Reflects history)
    (kept : e.Kept config now delivered e') :
    e'.Reflects history := by
  obtain ⟨a, last, key, seen, address, sequence, revision, profile⟩ := reflects.last
  refine ⟨⟨a, last, ?_, ?_, ?_, ?_, ?_, ?_⟩, ?_, ?_, ?_, ?_⟩
  · rw [kept.key, key]
  · rw [kept.lastSeen, seen]
  · rw [kept.address, address]
  · rw [kept.sequence, sequence]
  · rw [kept.revision, revision]
  · rw [kept.profile, profile]
  · rw [kept.retired, reflects.retired]
  · rw [kept.key, kept.retired]
    exact reflects.unretired
  · rw [kept.sessionId]
    exact reflects.session
  · rw [kept.sequence]
    exact reflects.sequence

/-- The key of an entry changes exactly when the source says `changed`. -/
theorem Entry.changed_iff {e : Entry} (known : e.info.sessionId ≠ 0) :
    e.changed p ↔ e.key ≠ (p.bootId, p.sessionId) := by
  simp only [Entry.changed, Entry.key, ne_eq, Prod.mk.injEq, not_and_or]
  constructor
  · rintro ⟨_, session | boot⟩
    · exact .inr session
    · exact .inl boot
  · rintro (boot | session)
    · exact ⟨known, .inr boot⟩
    · exact ⟨known, .inl session⟩

/-- The announce was accepted by an entry, whose own history it extends. -/
theorem Entry.Reflects.took (reflects : e.Reflects history)
    (admits : e.Admits config p address now) (took : e.Took e' p address now)
    (session : p.sessionId ≠ 0) (sequence : p.sequence ≠ 0) :
    e'.Reflects (history ++ [⟨p, address, now⟩]) := by
  obtain ⟨a, last, key, _⟩ := reflects.last
  obtain ⟨earlier, rfl⟩ := getLast?_eq_some_iff.mp last
  have small : e.retired.length ≤ 8 := by
    rw [reflects.retired]
    simp only [rtake, length_drop]
    omega
  have newKey : e'.key = (p.bootId, p.sessionId) := by rw [Entry.key, took.bootId, took.sessionId]
  have retired : e'.retired = (replacedFrom (earlier ++ [a] ++ [⟨p, address, now⟩])).rtake 8 := by
    rw [took.retired, replacedFrom_snoc, ← key, Acceptance.key, Entry.base]
    split
    next changed =>
      rw [if_neg ((Entry.changed_iff reflects.session).mp changed), e.retire_retired small,
        reflects.retired, rtake_rtake_append]
    next same =>
      have keys : e.key = (p.bootId, p.sessionId) :=
        not_not.mp fun other => same ((Entry.changed_iff reflects.session).mpr other)
      rw [if_pos keys, append_nil, reflects.retired]
  refine ⟨⟨_, getLast?_concat, newKey, took.lastSeen, took.address, took.sequence,
    took.revision, took.profile⟩, retired, ?_, ?_, ?_⟩
  · rw [took.retired, Entry.base, newKey]
    split
    next changed =>
      rw [e.retire_retired small]
      intro member
      rcases Data.mem_snoc (mem_of_mem_drop member) with old | new
      · exact (admits.other changed).2 old
      · exact (Entry.changed_iff reflects.session).mp changed new.symm
    next same =>
      have keys : e.key = (p.bootId, p.sessionId) :=
        not_not.mp fun other => same ((Entry.changed_iff reflects.session).mpr other)
      rw [← keys]
      exact reflects.unretired
  · rw [took.sessionId]
    exact session
  · rw [took.sequence]
    exact sequence

/-- A new entry begins a history. -/
theorem Entry.Reflects.first {e' : Entry}
    (took : ({} : Entry).Took e' p address now) (session : p.sessionId ≠ 0)
    (sequence : p.sequence ≠ 0) : e'.Reflects [⟨p, address, now⟩] := by
  have base : ({} : Entry).base p = {} := if_neg fun changed => changed.1 rfl
  have retired : e'.retired = [] := by rw [took.retired, base]
  refine ⟨⟨⟨p, address, now⟩, rfl, ?_, took.lastSeen, took.address, took.sequence, took.revision,
    took.profile⟩,
    ?_, ?_, ?_, ?_⟩
  · rw [Entry.key, took.bootId, took.sessionId, Acceptance.key]
  · rw [retired]
    rfl
  · rw [retired]
    exact not_mem_nil
  · rw [took.sessionId]
    exact session
  · rw [took.sequence]
    exact sequence

/-- An entry extends the chain of its history. -/
theorem Entry.Reflects.chain {e : Entry} (reflects : e.Reflects history)
    (admits : e.Admits config p address now) (chained : history.IsChain Acceptance.Successive) :
    (history ++ [(⟨p, address, now⟩ : Acceptance)]).IsChain Acceptance.Successive := by
  obtain ⟨a, last, key, _, _, sequence, revision, profile⟩ := reflects.last
  refine isChain_append.mpr ⟨chained, isChain_singleton _, ?_⟩
  intro before isLast after isFirst keys
  rw [last] at isLast
  cases isLast
  cases isFirst
  have same : ¬e.changed p := by
    rw [Entry.changed_iff reflects.session, not_not, key]
    exact keys
  obtain ⟨profiles, newer, grown⟩ := admits.same reflects.session same
  exact ⟨sequence ▸ newer, revision ▸ grown, profile ▸ profiles⟩

section Step

variable {config : Config} {peers : List Entry} {clock now : Int} {delivered : Packet → Prop}
  {history : HostIdentity → List Acceptance}

variable {a : Acceptance} {table : List Entry}

theorem record_other {host : HostIdentity} (other : host ≠ a.packet.host) :
    record peers history (some a) host = history host :=
  update_of_ne other _ _

theorem record_known (known : Known peers a.packet.host) :
    record peers history (some a) a.packet.host = history a.packet.host ++ [a] := by
  rw [record, update_self, if_pos known]

theorem record_new (unknown : ¬Known peers a.packet.host) :
    record peers history (some a) a.packet.host = [a] := by
  rw [record, update_self, if_neg unknown, nil_append]

section

variable (stable : Stable config peers clock history)
include stable

section

variable (later : clock ≤ now)
include later

theorem Stable.kept (same : Forall₂ (Entry.Kept config now delivered) peers table) :
    Stable config table now history := by
  have origin : ∀ e' ∈ table, ∃ e ∈ peers, e.Kept config now delivered e' := by
    intro e' member
    obtain ⟨index, bound, rfl⟩ := getElem_of_mem member
    have bound' : index < peers.length := same.length_eq ▸ bound
    exact ⟨peers[index], getElem_mem bound', same.get bound' bound⟩
  refine ⟨?_, ?_, ?_, ?_, ?_, stable.chained⟩
  · rw [map_host_kept same]
    exact stable.hosts
  · intro e' member
    obtain ⟨e, before, kept⟩ := origin e' member
    rw [kept.host]
    exact stable.others e before
  · rw [← same.length_eq]
    exact stable.bounded
  · intro e' member
    obtain ⟨e, before, kept⟩ := origin e' member
    exact (stable.timed e before).kept later kept
  · intro e' member
    obtain ⟨e, before, kept⟩ := origin e' member
    rw [kept.host]
    exact (stable.reflects e before).kept kept

theorem Stable.took {index : Nat} {e e' : Entry} {p : Packet} {address : Address}
    (present : peers[index]? = some e) (host : e.info.host = p.host)
    (admits : e.Admits config p address now) (took : e.Took e' p address now)
    (session : p.sessionId ≠ 0) (sequence : p.sequence ≠ 0) :
    Stable config (peers.set index e') now (record peers history (some ⟨p, address, now⟩)) := by
  have member : e ∈ peers := mem_of_getElem? present
  have known : Known peers p.host := ⟨e, member, host⟩
  have reflects : e.Reflects (history p.host) := host ▸ stable.reflects e member
  have extended : record peers history (some ⟨p, address, now⟩) p.host =
      history p.host ++ [⟨p, address, now⟩] := record_known (a := ⟨p, address, now⟩) known
  refine ⟨?_, ?_, ?_, ?_, ?_, ?_⟩
  · rw [map_host_set present (took.host.trans host.symm)]
    exact stable.hosts
  · intro other inside
    rcases mem_set_cases stable.hosts present inside with rfl | ⟨before, _⟩
    · rw [took.host, ← host]
      exact stable.others e member
    · exact stable.others other before
  · rw [length_set]
    exact stable.bounded
  · intro other inside
    rcases mem_set_cases stable.hosts present inside with rfl | ⟨before, _⟩
    · exact Entry.Timed.took took
    · exact (stable.timed other before).later later
  · intro other inside
    rcases mem_set_cases stable.hosts present inside with rfl | ⟨before, apart⟩
    · rw [took.host, extended]
      exact reflects.took admits took session sequence
    · rw [record_other (by rwa [host] at apart)]
      exact stable.reflects other before
  · intro h
    by_cases here : h = p.host
    · rw [here, extended]
      exact reflects.chain admits (stable.chained p.host)
    · rw [record_other here]
      exact stable.chained h

theorem Stable.added {room : List Entry} {e' : Entry} {p : Packet} {address : Address}
    (absent : ∀ e ∈ peers, e.info.host ≠ p.host) (makesRoom : MakesRoom config peers room)
    (took : ({} : Entry).Took e' p address now)
    (session : p.sessionId ≠ 0) (sequence : p.sequence ≠ 0) (foreign : p.host ≠ config.host) :
    Stable config (room ++ [e']) now (record peers history (some ⟨p, address, now⟩)) := by
  have unknown : ¬Known peers p.host := fun ⟨e, member, host⟩ => absent e member host
  have inside : ∀ e ∈ room, e ∈ peers := fun e member => makesRoom.sublist.subset member
  have begun : record peers history (some ⟨p, address, now⟩) p.host = [⟨p, address, now⟩] :=
    record_new (a := ⟨p, address, now⟩) unknown
  refine ⟨?_, ?_, ?_, ?_, ?_, ?_⟩
  · rw [map_append, map_singleton]
    refine Data.nodup_snoc ((makesRoom.sublist.map _).nodup stable.hosts) fun repeated => ?_
    obtain ⟨e, member, host⟩ := mem_map.mp repeated
    exact absent e (inside e member) (host.trans took.host)
  · exact Data.forall_snoc (fun e old => stable.others e (inside e old)) (took.host ▸ foreign)
  · have small := makesRoom.length_lt stable.bounded
    rw [length_append, length_singleton]
    omega
  · exact Data.forall_snoc (fun e old => (stable.timed e (inside e old)).later later)
      (Entry.Timed.took took)
  · refine Data.forall_snoc (fun e old => ?_) ?_
    · rw [record_other (absent e (inside e old))]
      exact stable.reflects e (inside e old)
    · rw [took.host, begun]
      exact Entry.Reflects.first took session sequence
  · intro h
    by_cases here : h = p.host
    · rw [here, begun]
      exact isChain_singleton _
    · rw [record_other here]
      exact stable.chained h

/-- Every step of the table keeps the invariant. -/
theorem Stable.step {accepted : Option Acceptance}
    (stepped : TableStep config now delivered peers table accepted)
    (sound : ∀ a, accepted = some a → a.packet.sessionId ≠ 0 ∧ a.packet.sequence ≠ 0 ∧
      a.packet.host ≠ config.host) :
    Stable config table now (record peers history accepted) := by
  cases stepped with
  | kept same => exact stable.kept later same
  | took present host arrived admits took =>
    obtain ⟨session, sequence, _⟩ := sound _ rfl
    exact stable.took later present host admits took session sequence
  | added absent arrived makesRoom took =>
    obtain ⟨session, sequence, foreign⟩ := sound _ rfl
    exact stable.added later absent makesRoom took session sequence foreign

/-- An entry that was heard of within the timeout survives every announce that is
not its own: of another host, another incarnation, another address or profile. -/
theorem Stable.young {e : Entry} {p : Packet} {address : Address}
    (stepped : TableStep config now delivered peers table (some ⟨p, address, now⟩))
    (member : e ∈ peers) (young : now - e.info.lastSeen < config.timeout)
    (other : p.host ≠ e.info.host ∨ (p.bootId, p.sessionId) ≠ e.key ∨ address ≠ e.address ∨
      p.profile ≠ e.info.profile) : e ∈ table := by
  cases stepped with
  | @took index e₀ e' _ _ present host arrived admits took =>
    by_cases own : p.host = e.info.host
    · -- the entry itself was asked, and it admits no such announce
      exfalso
      obtain rfl : e₀ = e :=
        eq_of_host stable.hosts (mem_of_getElem? present) member (host.trans own)
      have reflects := stable.reflects e₀ member
      by_cases changed : e₀.changed p
      · exact (admits.other changed).1 young
      · have key : (p.bootId, p.sessionId) = e₀.key := by
          by_contra different
          exact changed ((Entry.changed_iff reflects.session).mpr (Ne.symm different))
        rcases other with host | incarnation | moved | profile
        · exact host own
        · exact incarnation key
        · exact moved (admits.still reflects.session changed reflects.sequence young).symm
        · exact profile (admits.same reflects.session changed).1.symm
    · obtain ⟨position, found⟩ := mem_iff_getElem?.mp member
      refine mem_iff_getElem?.mpr ⟨position, ?_⟩
      rw [getElem?_set_ne ?_, found]
      rintro rfl
      rw [present] at found
      cases found
      exact own host.symm
  | added absent arrived makesRoom took =>
    refine mem_append_left _ ?_
    rcases makesRoom with ⟨rfl, _⟩ | ⟨index, evicted, rfl, present, lost, _⟩
    · exact member
    · obtain ⟨position, found⟩ := mem_iff_getElem?.mp member
      refine mem_eraseIdx_iff_getElem?.mpr ⟨position, ?_, found⟩
      rintro rfl
      rw [present] at found
      cases found
      have old := (stable.timed e member).lost lost
      omega

end

/-- An entry never goes back to an incarnation it remembers. -/
theorem Stable.not_retired {e : Entry}
    (stepped : TableStep config now delivered peers table (some a)) (member : e ∈ peers)
    (host : a.packet.host = e.info.host) :
    a.key ∉ (replacedFrom (history e.info.host)).rtake 8 := by
  have reflects := stable.reflects e member
  rw [← reflects.retired]
  cases stepped with
  | @took index e₀ e' p address present here arrived admits took =>
    obtain rfl : e₀ = e :=
      eq_of_host stable.hosts (mem_of_getElem? present) member (here.trans host)
    by_cases changed : e₀.changed p
    · exact (admits.other changed).2
    · have key : e₀.key = (p.bootId, p.sessionId) :=
        not_not.mp fun different => changed ((Entry.changed_iff reflects.session).mpr different)
      rw [Acceptance.key, ← key]
      exact reflects.unretired
  | added absent arrived makesRoom took => exact absurd host.symm (absent e member)

end

end Step

/-! ## Whole runs -/

variable {w : Watch}

theorem Watch.peers_initial (initial : w.Initial) : w.node.peers = [] := by
  obtain ⟨⟨config, endpoints, session, started⟩, _⟩ := initial
  exact (advert_start started).2.1

theorem Watch.stable_initial (initial : w.Initial) :
    Stable w.node.config w.node.peers w.clock w.history := by
  have histories := initial.2.1
  rw [Watch.peers_initial initial]
  refine ⟨nodup_nil, by simp, by simp, by simp, by simp, fun host => ?_⟩
  rw [histories host]
  exact isChain_nil

theorem Watch.stable_next {event : Event} (later : w.clock ≤ event.time w.clock)
    (stable : Stable w.node.config w.node.peers w.clock w.history) :
    Stable (w.next event).node.config (w.next event).node.peers (w.next event).clock
      (w.next event).history := by
  obtain ⟨stepped, config⟩ := w.node.handle_step w.clock event
  simp only [Watch.next, config]
  refine stable.step later stepped fun a accepted => ?_
  obtain ⟨valid, kind, foreign, _⟩ := Node.accepts_some w.clock accepted
  exact ⟨valid.2.2.1, Packet.sequence_ne_zero valid kind, foreign⟩

theorem Watch.stable_of_reachable (reachable : watching.Reachable w) :
    Stable w.node.config w.node.peers w.clock w.history := by
  have preserves : watching.Preserves
      fun w => Stable w.node.config w.node.peers w.clock w.history := by
    rintro w event _ ⟨later, rfl⟩ stable
    exact Watch.stable_next later stable
  exact reachable.invariant (fun _ initial => Watch.stable_initial initial) preserves

/-- The configuration is that of the start. -/
theorem Watch.config_of_run {start finish : Watch} {events : List Event}
    (run : watching.Run start events finish) : finish.node.config = start.node.config := by
  have preserves : watching.Preserves fun w => w.node.config = start.node.config := by
    rintro w event _ ⟨_, rfl⟩ same
    exact (w.node.handle_step w.clock event).2.trans same
  exact run.invariant preserves rfl

/-- What other parts of the program may rely on in an entry of `GetPeers`. -/
structure PeerInfo.Genuine (config : Config) (info : PeerInfo) : Prop where
  other : info.host ≠ config.host
  session : info.sessionId ≠ 0
  endpoints : info.metadataReady = true → ∀ m ∈ info.endpoints, m.Valid

/-- The endpoints of an entry are those of a transfer that was decoded. -/
def Transfer.Decoded (t : Transfer) : Prop := t.ready = true → ∀ m ∈ t.endpoints, m.Valid

theorem Transfer.Fresh.decoded {t : Transfer} (fresh : t.Fresh) : t.Decoded := by
  intro ready
  rw [fresh.1] at ready
  cases ready

theorem Entry.Stages.decoded {e : Entry} {p : Packet} {t : Transfer} (stages : e.Stages p t) :
    t.Decoded := by
  intro ready
  rcases stages.result with ⟨pending, _⟩ | ⟨_, _, decoded⟩
  · rw [pending] at ready
    cases ready
  · exact decodeMetadata_valid decoded

theorem TableStep.decoded {config : Config} {now : Int} {delivered : Packet → Prop}
    {peers table : List Entry} {accepted : Option Acceptance}
    (stepped : TableStep config now delivered peers table accepted)
    (before : ∀ e ∈ peers, e.transfer.Decoded) : ∀ e ∈ table, e.transfer.Decoded := by
  intro e' member
  rcases stepped.origin member with ⟨e, old, kept⟩ | ⟨e, a, _, _, took, origin⟩
  · rcases kept.transfer with fresh | same | ⟨p, _, stages⟩
    · exact fresh.decoded
    · rw [same]
      exact before e old
    · exact stages.decoded
  · rcases took.transfer with fresh | ⟨known, _, _, same⟩
    · exact fresh.decoded
    · rw [same]
      rcases origin with ⟨old, _⟩ | unknown
      · exact before e old
      · exact absurd unknown known

theorem Watch.genuine_of_reachable (reachable : watching.Reachable w) :
    ∀ e ∈ w.node.peers, e.info.Genuine w.node.config := by
  have stable := Watch.stable_of_reachable reachable
  have preserves : watching.Preserves fun w => ∀ e ∈ w.node.peers, e.transfer.Decoded := by
    rintro w event _ ⟨_, rfl⟩ before
    exact (w.node.handle_step w.clock event).1.decoded before
  have decoded : ∀ e ∈ w.node.peers, e.transfer.Decoded := by
    refine System.Reachable.invariant (fun w fresh => ?_) preserves reachable
    rw [Watch.peers_initial fresh]
    exact forall_mem_nil _
  intro e member
  exact ⟨stable.others e member, (stable.reflects e member).session, decoded e member⟩

instance : Trans Acceptance.Follows Acceptance.Follows Acceptance.Follows where
  trans first second :=
    ⟨UInt64.lt_trans first.sequence second.sequence,
      UInt64.le_trans first.revision second.revision, first.profile.trans second.profile⟩

/-- The announces an entry accepted while it belonged to one incarnation. -/
theorem Stable.session {config : Config} {peers : List Entry} {clock : Int}
    {history : HostIdentity → List Acceptance} (stable : Stable config peers clock history)
    {host : HostIdentity} {segment : List Acceptance} {key : HostIdentity × UInt64}
    (part : segment <:+: history host) (same : ∀ a ∈ segment, a.key = key) :
    segment.Pairwise Acceptance.Follows := by
  refine isChain_iff_pairwise.mp ?_
  have part := IsChain.infix (stable.chained host) part
  refine part.imp_of_mem_imp fun a b first second successive => ?_
  exact successive ((same a first).trans (same b second).symm)

/-! ## A table with one place -/

/-- A node that has room for one peer. -/
def soloNode : Node where
  config := { host := .ofByte 1, bootId := .ofByte 2, maxPeers := 1 }
  metadata := [0, 0]
  baseMetadata := []
  endpointCount := 0
  session := 1

def soloWatch : Watch := ⟨soloNode, 0, fun _ => [], []⟩

/-- The announce of a host whose session never changes, heard after some seconds. -/
def heardFrom (last : UInt8) (sequence : UInt64) (seconds : Int) : Event :=
  let bytes := encodePacket
    { kind := .announce, host := .ofByte last, bootId := .ofByte 9, sessionId := 7,
      sequence, revision := 1, metadataSize := 2 }
  .datagram (bytes.toOption.getD []) ⟨0x0a000001, 4000⟩ true (seconds * 1000 * millisecond)

/-- A host is lost, evicted by another one, and heard of again through an old announce. -/
def evictionEvents : List Event :=
  [heardFrom 3 5 0, .tick (4000 * millisecond), heardFrom 4 1 4, .tick (8000 * millisecond),
    heardFrom 3 3 8]

/-- `watching` as a partial function. -/
def watchStep (w : Watch) (event : Event) : Option Watch :=
  if w.clock ≤ event.time w.clock then some (w.next event) else none

theorem run_of_watchStep {events : List Event} {start finish : Watch}
    (computed : events.foldlM watchStep start = some finish) :
    watching.Run start events finish := by
  refine System.Run.of_foldlM (fun w event next stepped => ?_) computed
  obtain ⟨later, equal⟩ := Option.ite_none_right_eq_some.mp stepped
  exact ⟨later, (Option.some.inj equal).symm⟩

def evictionWatch : Watch := (evictionEvents.foldlM watchStep soloWatch).getD soloWatch

theorem evictionWatch_reachable : watching.Reachable evictionWatch := by
  have initial : soloWatch.Initial := ⟨⟨soloNode.config, [], 1, rfl⟩, fun _ => rfl, rfl⟩
  obtain ⟨w, computed⟩ : ∃ w, evictionEvents.foldlM watchStep soloWatch = some w :=
    Option.isSome_iff_exists.mp (by decide +kernel)
  have equal : evictionWatch = w := by rw [evictionWatch, computed, Option.getD_some]
  exact ⟨soloWatch, evictionEvents, initial, equal ▸ run_of_watchStep computed⟩

/-- Once its entry has been evicted, a session can start over with a lower sequence. -/
theorem evicted_session_restarts : ∃ w, watching.Reachable w ∧
    ¬w.accepted.Pairwise fun a b => a.packet.host = b.packet.host → a.key = b.key →
      a.packet.sequence < b.packet.sequence :=
  ⟨evictionWatch, evictionWatch_reachable, by decide +kernel⟩

/-! ## The theorem -/

/-- The peer table over every run with nondecreasing times: which entries it can
hold, what cannot touch a young entry, how the announces of one session follow
each other while the entry is neither evicted nor replaced, that a rejected
announce changes nothing, and that the newest eight incarnations an entry was
replaced from stay shut out. -/
theorem peer_table_stable {w : Watch} (reachable : watching.Reachable w) :
    (w.node.peers.map (·.info.host)).Nodup ∧
    (∀ e ∈ w.node.peers, e.info.host ≠ w.node.config.host) ∧
    w.node.peers.length ≤ w.node.config.maxPeers ∧
    (∀ e ∈ w.node.peers, ∃ a, (w.history e.info.host).getLast? = some a ∧ e.key = a.key ∧
      e.address = a.address ∧ e.sequence = a.packet.sequence ∧
      e.info.metadataRevision = a.packet.revision ∧ e.info.profile = a.packet.profile ∧
      ∀ bytes address multicast now p, decodePacket bytes = .ok p → p.kind = .announce →
        w.clock ≤ now → now - a.time < w.node.config.timeout →
        (p.host ≠ e.info.host ∨ (p.bootId, p.sessionId) ≠ e.key ∨ address ≠ e.address ∨
          p.profile ≠ e.info.profile) →
        e ∈ (w.next (.datagram bytes address multicast now)).node.peers) ∧
    (∀ host key segment, segment <:+: w.history host → (∀ a ∈ segment, a.key = key) →
      segment.Pairwise Acceptance.Follows) ∧
    (∀ bytes address multicast now p, decodePacket bytes = .ok p → p.kind = .announce →
      w.node.accepts (.datagram bytes address multicast now) = none →
      (w.next (.datagram bytes address multicast now)).node.peers = w.node.peers) ∧
    (∀ e ∈ w.node.peers, ∀ event a, w.node.accepts event = some a →
      a.packet.host = e.info.host →
      a.key ∉ (replacedFrom (w.history e.info.host)).rtake 8) := by
  have stable := Watch.stable_of_reachable reachable
  refine ⟨stable.hosts, stable.others, stable.bounded, ?_, ?_, ?_, ?_⟩
  · intro e member
    obtain ⟨a, last, key, seen, address, sequence, revision, profile⟩ :=
      (stable.reflects e member).last
    refine ⟨a, last, key, address, sequence, revision, profile, ?_⟩
    intro bytes source multicast now p decoded kind later young other
    rcases w.node.handle_announce source multicast now (· = p) rfl decoded kind with
        ⟨_, ignored⟩ | ⟨_, _, handled, stepped, _⟩
    · rw [Watch.next, ignored]
      exact member
    · rw [Watch.next, handled]
      exact stable.young later stepped member (seen ▸ young) other
  · exact fun host key segment part same => stable.session part same
  · intro bytes address multicast now p decoded kind nothing
    rcases w.node.handle_announce address multicast now (· = p) rfl decoded kind with
        ⟨_, ignored⟩ | ⟨_, accepted, _⟩
    · rw [Watch.next, ignored]
    · rw [nothing] at accepted
      cases accepted
  · intro e member event a accepted host
    have stepped := (w.node.handle_step w.clock event).1
    rw [accepted] at stepped
    exact stable.not_retired stepped member host

/-- The host that was evicted with one sequence is back with a lower one, which is the last
that its new entry accepted; the host that took its place is evicted in turn. -/
theorem peer_table_stable_eviction :
    evictionWatch.accepted.map (fun a => (a.packet.host, a.packet.sequence)) =
      [(.ofByte 3, 5), (.ofByte 4, 1), (.ofByte 3, 3)] ∧
    evictionWatch.node.peers.map (fun e => (e.info.host, e.sequence)) = [(.ofByte 3, 3)] ∧
    evictionWatch.node.peers.length ≤ evictionWatch.node.config.maxPeers ∧
    ∀ e ∈ evictionWatch.node.peers, ∃ a,
      (evictionWatch.history e.info.host).getLast? = some a ∧ e.sequence = a.packet.sequence := by
  obtain ⟨_, _, bounded, last, _⟩ := peer_table_stable evictionWatch_reachable
  refine ⟨by decide +kernel, by decide +kernel, bounded, fun e member => ?_⟩
  obtain ⟨a, newest, _, _, sequence, _⟩ := last e member
  exact ⟨a, newest, sequence⟩

end Kcf.Network.Discovery
