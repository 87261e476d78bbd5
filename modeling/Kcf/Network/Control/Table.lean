import Kcf.Data.Counter
import Kcf.Data.Keyed
import Kcf.Network.Control.Acts
import Kcf.Network.Control.Replay

/-!
# The connection table

Identifiers of connections are not reused before their counter wraps, a connection
keeps the host and the session that its `HELLO` bound it to, and two connections of
one host belong to one observer.  A node has at most 64 connections and at most 8 limited ones, the
byte counter of a connection is what waits in its output, and a connection is
marked as waiting for diagnostics exactly while one job of it is queued.  Most of
these facts are kept in two places that different handlers write, some of them on
the way to a `Drop`.  Every step is a sequence of seven kinds of acts on the table.
-/

namespace Kcf.Network.Control

open Kcf.Wire Kcf.Transition List
open Kcf.Network.Discovery (PeerInfo millisecond)

/-- What a connection is bound to. -/
structure Binding where
  id : UInt64
  ready : Bool
  host : HostIdentity
  session : UInt64
  diagnosticsOnly : Bool
  observerSource : RemoteRuntimeIdentity

def Connection.binding (c : Connection) : Binding :=
  ⟨c.id, c.ready, c.host, c.session, c.diagnosticsOnly, c.observerSource⟩

/-- Two connections of one observer. -/
def Binding.Kin (b other : Binding) : Prop :=
  b.diagnosticsOnly = true ∧ other.diagnosticsOnly = true ∧ other.session = b.session ∧
    other.observerSource = b.observerSource

theorem Binding.Kin.symm {b other : Binding} (kin : b.Kin other) : other.Kin b :=
  ⟨kin.2.1, kin.1, kin.2.2.1.symm, kin.2.2.2.symm⟩

/-- The part of a connection that is booked elsewhere, and its output. -/
structure Slot extends Binding where
  pending : Bool
  output : List Bytes
  offset : Nat
  queued : Nat

def Connection.slot (c : Connection) : Slot :=
  ⟨c.binding, c.diagnosticsPending, c.output, c.offset, c.queued⟩

namespace Slot

/-- The bytes of the output. -/
def bytes (slot : Slot) : Nat := (slot.output.map length).sum

/-- `queued` counts what is left of the output, and `offset` lies within its first frame. -/
structure Metered (slot : Slot) : Prop where
  left : slot.queued + slot.offset = slot.bytes
  inside : slot.offset = 0 ∨ ∃ front rest, slot.output = front :: rest ∧ slot.offset < front.length

/-- Only the output has changed, and its counter with it. -/
structure Follows (slot after : Slot) : Prop where
  binding : after.toBinding = slot.toBinding
  pending : after.pending = slot.pending
  metered : slot.Metered → after.Metered

/-- A connection that waits for diagnostics, or does not. -/
def mark (slot : Slot) (pending : Bool) : Slot := { slot with pending }

theorem Metered.mark {slot : Slot} (metered : slot.Metered) (pending : Bool) :
    (slot.mark pending).Metered :=
  ⟨metered.left, metered.inside⟩

theorem Follows.refl (slot : Slot) : slot.Follows slot := ⟨rfl, rfl, fun metered => metered⟩

theorem Follows.id {slot after : Slot} (follows : slot.Follows after) : after.id = slot.id :=
  congrArg Binding.id follows.binding

/-- A `HELLO` binds a connection: to what it was opened for, or to a host none of whose other
connections stands against it. -/
structure Greets (slot after : Slot) (slots : List Slot) : Prop where
  idle : slot.ready = false
  id : after.id = slot.id
  ready : after.ready = true
  valid : after.host.Valid
  joins : after.toBinding = ⟨slot.id, true, slot.host, slot.session, slot.diagnosticsOnly,
      slot.observerSource⟩ ∨
    ∀ other ∈ slots, other.id ≠ slot.id → other.host = after.host →
      after.toBinding.Kin other.toBinding
  pending : after.pending = slot.pending
  metered : slot.Metered → after.Metered
  room : after.diagnosticsOnly = true → slot.diagnosticsOnly = true ∨
    slots.countP (fun slot => slot.diagnosticsOnly) < maxDiagnosticsConnections

end Slot

/-- Connections with what refers to them: the identifiers that the backend sees, and the
diagnostics jobs. -/
structure Table where
  slots : List Slot
  live : List UInt64
  nextConnection : UInt64
  opened : Nat
  jobs : List Job

def Node.table (node : Node) : Table :=
  ⟨node.connections.map Connection.slot, node.liveConnections, node.nextConnection,
    node.opened, node.diagnosticsJobs⟩

theorem Node.table_of_rest {node next : Node} (same : next.rest = node.rest) :
    next.table = node.table := by
  change next.rest.table = node.rest.table
  rw [same]

namespace Table

/-- How many jobs a connection has. -/
def asked (table : Table) (id : UInt64) : Nat := table.jobs.countP fun job => job.connection = id

/-- How many connections are limited. -/
def limited (table : Table) : Nat := table.slots.countP fun slot => slot.diagnosticsOnly

/-- One act on the table. -/
inductive Act (table : Table) : Table → Prop where
  | transfer {index : Nat} {slot after : Slot} (present : table.slots[index]? = some slot)
      (follows : slot.Follows after) :
      Act table { table with slots := table.slots.set index after }
  | arrive (slot : Slot) (fresh : slot.id = table.nextConnection + 1) (idle : slot.ready = false)
      (apart : slot.host.Valid → ∀ other ∈ table.slots, other.host ≠ slot.host)
      (room : table.slots.length < maxConnections) (general : slot.diagnosticsOnly = false)
      (quiet : slot.pending = false) (metered : slot.Metered) :
      Act table
        { table with
          slots := table.slots ++ [slot], nextConnection := table.nextConnection + 1
          opened := table.opened + 1 }
  | drop {index : Nat} {slot : Slot} (present : table.slots[index]? = some slot) :
      Act table
        { table with
          slots := table.slots.eraseIdx index
          live := table.live.filter fun id => id ≠ slot.id
          jobs := table.jobs.filter fun job => job.connection ≠ slot.id }
  | greet {index : Nat} {slot after : Slot} (present : table.slots[index]? = some slot)
      (greets : slot.Greets after table.slots) :
      Act table
        { table with
          slots := table.slots.set index after, live := table.live.insert slot.id }
  | ask {index : Nat} {slot : Slot} (present : table.slots[index]? = some slot)
      (quiet : slot.pending = false) (job : Job) (own : job.connection = slot.id) :
      Act table
        { table with
          slots := table.slots.set index (slot.mark true), jobs := table.jobs ++ [job] }
  | answer {index : Nat} {slot : Slot} (present : table.slots[index]? = some slot) {job : Job}
      {rest : List Job} (first : table.jobs = job :: rest) (own : job.connection = slot.id) :
      Act table { table with slots := table.slots.set index (slot.mark false), jobs := rest }
  | orphan {job : Job} {rest : List Job} (first : table.jobs = job :: rest)
      (absent : ∀ slot ∈ table.slots, slot.id ≠ job.connection) :
      Act table { table with jobs := rest }

/-- A sequence of acts. -/
def Acts : Table → Table → Prop := Relation.ReflTransGen Act

variable {table middle next : Table}

theorem Acts.of_eq (same : next = table) : Acts table next := same ▸ .refl

/-! ## The invariant -/

/-- The limits are kept, and every connection counts its output. -/
structure Bounded (table : Table) : Prop where
  few : table.slots.length ≤ maxConnections
  limited : table.limited ≤ maxDiagnosticsConnections
  metered : ∀ slot ∈ table.slots, slot.Metered

/-- Identifiers are distinct, those of ready connections are live, connections of one host
belong to one observer, and the jobs agree with the connections.  A connection of some age
has the number that was the last one when it was opened. -/
structure Sound (table : Table) : Prop where
  distinct : (table.slots.map (·.id)).Nodup
  known : ∀ slot ∈ table.slots,
    ∃ age < table.opened, slot.id + UInt64.ofNat age = table.nextConnection
  live_iff : ∀ id, id ∈ table.live ↔ ∃ slot ∈ table.slots, slot.id = id ∧ slot.ready = true
  kin : ∀ slot ∈ table.slots, ∀ other ∈ table.slots, other.id ≠ slot.id →
    other.host = slot.host → slot.host.Valid → slot.toBinding.Kin other.toBinding
  asked : ∀ slot ∈ table.slots, table.asked slot.id = slot.pending.toNat
  owned : ∀ job ∈ table.jobs, ∃ slot ∈ table.slots, slot.id = job.connection

section

variable {index : Nat} {slot after : Slot}

/-- The number of limited connections when one of them changes. -/
theorem limited_set (present : table.slots[index]? = some slot) :
    (table.slots.set index after).countP (fun slot => slot.diagnosticsOnly) +
        slot.diagnosticsOnly.toNat =
      table.limited + after.diagnosticsOnly.toNat := by
  obtain ⟨bound, here⟩ := List.getElem?_eq_some_iff.mp present
  have counted : slot.diagnosticsOnly.toNat ≤ table.limited := by
    cases limits : slot.diagnosticsOnly with
    | false => exact Nat.zero_le _
    | true => exact countP_pos_iff.mpr ⟨slot, mem_of_getElem? present, limits⟩
  have weight (b : Bool) : (if b = true then 1 else 0) = b.toNat := by cases b <;> rfl
  rw [countP_set bound, here, weight, weight]
  unfold Table.limited at counted ⊢
  omega

theorem Bounded.set (bounded : table.Bounded) (present : table.slots[index]? = some slot)
    (metered : slot.Metered → after.Metered)
    (limited : table.limited + after.diagnosticsOnly.toNat ≤
      maxDiagnosticsConnections + slot.diagnosticsOnly.toNat)
    {jobs : List Job} {live : List UInt64} :
    Bounded { table with slots := table.slots.set index after, live, jobs } := by
  refine ⟨?_, ?_, fun other inside => ?_⟩
  · rw [length_set]
    exact bounded.few
  · have counted : _ = table.limited + after.diagnosticsOnly.toNat := limited_set present
    change (table.slots.set index after).countP (fun slot => slot.diagnosticsOnly) ≤ _
    omega
  · rcases mem_or_eq_of_mem_set inside with old | rfl
    · exact bounded.metered other old
    · exact metered (bounded.metered slot (mem_of_getElem? present))

theorem Act.bounded (act : Act table next) (bounded : table.Bounded) : next.Bounded := by
  have before := bounded.limited
  cases act with
  | transfer present follows =>
    refine bounded.set present follows.metered ?_
    rw [follows.binding]
    exact Nat.add_le_add_right before _
  | arrive slot fresh idle apart room general quiet metered =>
    refine ⟨?_, ?_, Data.forall_snoc bounded.metered metered⟩
    · rw [length_append]
      exact room
    · unfold Table.limited
      rw [countP_append, countP_singleton, general]
      exact before
  | @drop index _ present =>
    have fewer := eraseIdx_sublist table.slots index
    exact ⟨fewer.length_le.trans bounded.few, fewer.countP_le.trans before,
      fun other inside => bounded.metered other (fewer.subset inside)⟩
  | @greet _ _ after present greets =>
    refine bounded.set present greets.metered ?_
    cases limits : after.diagnosticsOnly with
    | false => exact Nat.le_add_right_of_le before
    | true =>
      rcases greets.room limits with old | room
      · rw [old]
        exact Nat.add_le_add_right before 1
      · exact Nat.le_add_right_of_le room
  | ask present =>
    exact bounded.set present (fun metered => metered.mark true) (Nat.add_le_add_right before _)
  | answer present =>
    exact bounded.set present (fun metered => metered.mark false) (Nat.add_le_add_right before _)
  | orphan => exact ⟨bounded.few, before, bounded.metered⟩

section Jobs

variable (sound : table.Sound) (present : table.slots[index]? = some slot) {jobs : List Job}
  (own : jobs.countP (fun job => job.connection = slot.id) = after.pending.toNat)
  (others : ∀ id, id ≠ slot.id → jobs.countP (fun job => job.connection = id) = table.asked id)
  (owned : ∀ job ∈ jobs, job.connection = slot.id ∨ job ∈ table.jobs)
include sound present own others owned

/-- A connection changes, together with its own jobs. -/
theorem Sound.set (same : after.id = slot.id) {live : List UInt64}
    (live_iff : ∀ id, id ∈ live ↔ if id = slot.id then after.ready = true else id ∈ table.live)
    (joins : ∀ other ∈ table.slots, other.id ≠ slot.id → other.host = after.host →
      after.host.Valid → after.toBinding.Kin other.toBinding) :
    Sound { table with slots := table.slots.set index after, live, jobs } := by
  have member (other : Slot) : other ∈ table.slots.set index after ↔
      other = after ∨ other ∈ table.slots ∧ other.id ≠ slot.id :=
    Keyed.mem_set_iff sound.distinct present
  have here := mem_of_getElem? present
  constructor
  case distinct =>
    rw [Keyed.map_set present same]
    exact sound.distinct
  case known =>
    intro other inside
    rcases (member other).mp inside with rfl | ⟨old, _⟩
    · exact same ▸ sound.known slot here
    · exact sound.known other old
  case live_iff =>
    intro id
    rw [live_iff id]
    split
    next equal =>
      constructor
      · exact fun ready => ⟨after, (member after).mpr (.inl rfl), same.trans equal.symm, ready⟩
      · rintro ⟨other, inside, named, ready⟩
        rcases (member other).mp inside with rfl | ⟨_, different⟩
        · exact ready
        · exact absurd (named.trans equal) different
    next different =>
      rw [sound.live_iff id]
      constructor
      · rintro ⟨other, old, named, ready⟩
        exact ⟨other, (member other).mpr (.inr ⟨old, named ▸ different⟩), named, ready⟩
      · rintro ⟨other, inside, named, ready⟩
        rcases (member other).mp inside with rfl | ⟨old, _⟩
        · exact absurd (named.symm.trans same) different
        · exact ⟨other, old, named, ready⟩
  case kin =>
    intro first inside second other different host valid
    rcases (member first).mp inside with rfl | ⟨old, apart⟩ <;>
      rcases (member second).mp other with rfl | ⟨older, apart'⟩
    · exact absurd rfl different
    · exact joins second older apart' host valid
    · exact (joins first old apart host.symm (host ▸ valid)).symm
    · exact sound.kin first old second older different host valid
  case asked =>
    intro other inside
    rcases (member other).mp inside with rfl | ⟨old, different⟩
    · rw [same]
      exact own
    · exact (others _ different).trans (sound.asked other old)
  case owned =>
    intro job inside
    by_cases mine : job.connection = slot.id
    · exact ⟨after, (member after).mpr (.inl rfl), same.trans mine.symm⟩
    · obtain ⟨other, old, equal⟩ := sound.owned job ((owned job inside).resolve_left mine)
      exact ⟨other, (member other).mpr (.inr ⟨old, equal ▸ mine⟩), equal⟩

/-- The same, if the connection stays bound to what it was. -/
theorem Sound.set_bound (bound : after.toBinding = slot.toBinding) :
    Sound { table with slots := table.slots.set index after, jobs } := by
  have here := mem_of_getElem? present
  refine sound.set present own others owned (congrArg Binding.id bound) ?_ ?_
  · intro id
    split
    next equal =>
      rw [sound.live_iff id, bound]
      constructor
      · rintro ⟨other, inside, named, ready⟩
        rwa [inj_on_of_nodup_map sound.distinct inside here (named.trans equal)] at ready
      · exact fun ready => ⟨slot, here, equal.symm, ready⟩
    · rfl
  · rw [bound]
    exact fun other inside different host => sound.kin slot here other inside different host

end Jobs

variable {job : Job} {rest : List Job}

theorem Sound.transfer (sound : table.Sound) (present : table.slots[index]? = some slot)
    (follows : slot.Follows after) :
    Sound { table with slots := table.slots.set index after } := by
  refine sound.set_bound present ?_ (fun _ _ => rfl) (fun _ => .inr) follows.binding
  rw [follows.pending]
  exact sound.asked slot (mem_of_getElem? present)

theorem Sound.arrive (sound : table.Sound) (few : table.opened < 2 ^ 64)
    (fresh : slot.id = table.nextConnection + 1) (idle : slot.ready = false)
    (apart : slot.host.Valid → ∀ other ∈ table.slots, other.host ≠ slot.host)
    (quiet : slot.pending = false) :
    Sound
      { table with
        slots := table.slots ++ [slot], nextConnection := table.nextConnection + 1
        opened := table.opened + 1 } := by
  have young : ∀ other ∈ table.slots, other.id ≠ slot.id := by
    intro other inside same
    obtain ⟨age, within, counted⟩ := sound.known other inside
    -- the counter would have gone round once since the other connection was opened
    rw [same, fresh, add_assoc, add_eq_left] at counted
    have round : UInt64.ofNat (1 + age) = UInt64.ofNat 0 := by rwa [UInt64.ofNat_add]
    have none : 1 + age = 0 := Data.UInt64.ofNat_inj (by omega) (by decide) round
    omega
  constructor
  case distinct =>
    rw [map_append]
    refine Data.nodup_snoc sound.distinct fun inside => ?_
    obtain ⟨old, member, same⟩ := mem_map.mp inside
    exact young old member same
  case known =>
    refine Data.forall_snoc (fun other old => ?_) ⟨0, Nat.succ_pos _, (add_zero _).trans fresh⟩
    obtain ⟨age, within, counted⟩ := sound.known other old
    refine ⟨age + 1, Nat.succ_lt_succ within, ?_⟩
    rw [UInt64.ofNat_add, ← add_assoc, counted]
    rfl
  case live_iff =>
    intro id
    rw [sound.live_iff id]
    constructor
    · rintro ⟨old, member, same, ready⟩
      exact ⟨old, mem_append_left _ member, same, ready⟩
    · rintro ⟨old, member, same, ready⟩
      rcases Data.mem_snoc member with inside | rfl
      · exact ⟨old, inside, same, ready⟩
      · cases idle.symm.trans ready
  case kin =>
    intro first member second other different host valid
    rcases Data.mem_snoc member with old | rfl <;> rcases Data.mem_snoc other with older | rfl
    · exact sound.kin first old second older different host valid
    · exact absurd host.symm (apart (host ▸ valid) first old)
    · exact absurd host (apart valid second older)
    · exact absurd rfl different
  case asked =>
    refine Data.forall_snoc sound.asked ?_
    rw [quiet]
    refine countP_eq_zero.mpr fun job inside => ?_
    obtain ⟨owner, member, same⟩ := sound.owned job inside
    simpa [← same] using young owner member
  case owned =>
    intro job inside
    obtain ⟨owner, member, same⟩ := sound.owned job inside
    exact ⟨owner, mem_append_left _ member, same⟩

section

variable (sound : table.Sound) (present : table.slots[index]? = some slot)
include sound present

theorem Sound.drop :
    Sound
      { table with
        slots := table.slots.eraseIdx index
        live := table.live.filter fun id => id ≠ slot.id
        jobs := table.jobs.filter fun job => job.connection ≠ slot.id } := by
  have member (other : Slot) : other ∈ table.slots.eraseIdx index ↔
      other ∈ table.slots ∧ other.id ≠ slot.id :=
    Keyed.mem_eraseIdx_iff sound.distinct present
  constructor
  case distinct => exact sound.distinct.sublist ((eraseIdx_sublist table.slots index).map _)
  case known => exact fun other inside => sound.known other ((member other).mp inside).1
  case live_iff =>
    intro id
    rw [mem_filter, sound.live_iff id, decide_eq_true_eq]
    constructor
    · rintro ⟨⟨old, inside, rfl, ready⟩, different⟩
      exact ⟨old, (member old).mpr ⟨inside, different⟩, rfl, ready⟩
    · rintro ⟨old, inside, rfl, ready⟩
      obtain ⟨older, different⟩ := (member old).mp inside
      exact ⟨⟨old, older, rfl, ready⟩, different⟩
  case kin =>
    intro first inside second other
    exact sound.kin first ((member first).mp inside).1 second ((member second).mp other).1
  case asked =>
    intro other inside
    obtain ⟨old, different⟩ := (member other).mp inside
    rw [← sound.asked other old, Table.asked, Table.asked, countP_filter]
    refine countP_congr fun job _ => ?_
    simp only [ne_eq, decide_not, Bool.and_eq_true, decide_eq_true_eq, Bool.not_eq_true',
      decide_eq_false_iff_not, and_iff_left_iff_imp]
    exact fun same => same ▸ different
  case owned =>
    intro job inside
    obtain ⟨old, different⟩ := mem_filter.mp inside
    obtain ⟨owner, present, same⟩ := sound.owned job old
    exact ⟨owner, (member owner).mpr ⟨present, by simpa [same] using different⟩, same⟩

theorem Sound.greet
    (greets : slot.Greets after table.slots) :
    Sound
      { table with
        slots := table.slots.set index after, live := table.live.insert slot.id } := by
  have inside := mem_of_getElem? present
  refine sound.set present ?_ (fun _ _ => rfl) (fun _ => .inr) greets.id ?_ ?_
  · rw [greets.pending]
    exact sound.asked slot inside
  · intro id
    rw [mem_insert_iff]
    split
    next equal => exact iff_of_true (.inl equal) greets.ready
    next different => exact or_iff_right different
  · intro other old different host valid
    rcases greets.joins with bound | joins
    · have hosts : after.host = slot.host := by rw [bound]
      rw [bound]
      exact sound.kin slot inside other old different (host.trans hosts) (hosts ▸ valid)
    · exact joins other old different host

theorem Sound.ask
    (quiet : slot.pending = false) (own : job.connection = slot.id) :
    Sound
      { table with
        slots := table.slots.set index (slot.mark true), jobs := table.jobs ++ [job] } := by
  have none := sound.asked slot (mem_of_getElem? present)
  rw [quiet] at none
  have bound : (slot.mark true).toBinding = slot.toBinding := rfl
  refine sound.set_bound present ?_ ?_ ?_ bound
  · rw [countP_append]
    change table.asked slot.id + _ = 1
    rw [none]
    simp [own]
  · intro id different
    rw [countP_append]
    change table.asked id + _ = table.asked id
    simp [own, different.symm]
  · intro other member
    rcases Data.mem_snoc member with old | rfl
    · exact .inr old
    · exact .inl own

theorem Sound.answer
    (first : table.jobs = job :: rest) (own : job.connection = slot.id) :
    Sound { table with slots := table.slots.set index (slot.mark false), jobs := rest } := by
  have asked := sound.asked slot (mem_of_getElem? present)
  have split (id : UInt64) : table.asked id =
      rest.countP (fun job => job.connection = id) + if slot.id = id then 1 else 0 := by
    rw [Table.asked, first, countP_cons]
    simp [own]
  have bound : (slot.mark false).toBinding = slot.toBinding := rfl
  refine sound.set_bound present ?_ ?_ ?_ bound
  · rw [split, if_pos rfl] at asked
    have one : slot.pending.toNat ≤ 1 := Bool.toNat_le _
    change _ = 0
    omega
  · intro id different
    rw [split, if_neg different.symm, Nat.add_zero]
  · intro other member
    rw [first]
    exact .inr (mem_cons_of_mem _ member)

end

end

theorem Act.opened_le (act : Act table next) : table.opened ≤ next.opened := by
  cases act with
  | arrive => exact Nat.le_succ _
  | _ => exact Nat.le_refl _

/-- An act keeps the invariant while no identifier was used twice. -/
theorem Act.sound (act : Act table next) (sound : table.opened ≤ 2 ^ 64 → table.Sound)
    (few : next.opened ≤ 2 ^ 64) : next.Sound := by
  replace sound := sound (act.opened_le.trans few)
  cases act with
  | transfer present follows => exact sound.transfer present follows
  | arrive slot fresh idle apart _ _ quiet _ => exact sound.arrive few fresh idle apart quiet
  | drop present => exact sound.drop present
  | greet present greets => exact sound.greet present greets
  | ask present quiet job own => exact sound.ask present quiet own
  | answer present first own => exact sound.answer present first own
  | orphan first absent =>
    -- every job has its connection
    obtain ⟨slot, inside, same⟩ := sound.owned _ (first ▸ mem_cons_self)
    exact absurd same (absent slot inside)

theorem Acts.sound (acts : Acts table next) (sound : table.opened ≤ 2 ^ 64 → table.Sound) :
    next.opened ≤ 2 ^ 64 → next.Sound := by
  induction acts with
  | refl => exact sound
  | tail _ act ih => exact act.sound ih

theorem Acts.bounded (acts : Acts table next) (bounded : table.Bounded) : next.Bounded := by
  induction acts with
  | refl => exact bounded
  | tail _ act ih => exact act.bounded ih

end Table

/-! ## Outputs -/

theorem Connection.push_follows (c : Connection) (bytes : Bytes) :
    c.slot.Follows (c.push bytes).slot := by
  refine ⟨rfl, rfl, fun metered => ⟨?_, ?_⟩⟩
  · have left := metered.left
    simp only [Slot.bytes, Connection.slot, Connection.push, map_append, sum_append,
      map_cons, map_nil, sum_singleton] at left ⊢
    omega
  · rcases metered.inside with zero | ⟨front, rest, output, within⟩
    · exact .inl zero
    · have longer : c.output ++ [bytes] = front :: (rest ++ [bytes]) :=
        congrArg (· ++ [bytes]) output
      exact .inr ⟨front, rest ++ [bytes], longer, within⟩

theorem Gateway.queue_follows {gateway : Gateway} {c queued : Connection} {f : Frame}
    (done : gateway.queue c f = some queued) : c.slot.Follows queued.slot := by
  unfold Gateway.queue at done
  split at done
  · cases done
  next bytes _ =>
    obtain ⟨_, equal⟩ := Option.ite_none_right_eq_some.mp done
    rw [← Option.some.inj equal]
    exact c.push_follows bytes

theorem Connection.write_follows (c : Connection) (count : Nat) :
    c.slot.Follows (c.write count).slot := by
  unfold Connection.write
  split
  · exact .refl _
  next front rest output =>
    have total (slot : Slot) (metered : slot.Metered) (same : slot.output = front :: rest) :
        slot.queued + slot.offset = front.length + (rest.map length).sum := by
      rw [metered.left, Slot.bytes, same]
      rfl
    have within (slot : Slot) (metered : slot.Metered) (same : slot.output = front :: rest) :
        slot.offset ≤ front.length := by
      rcases metered.inside with zero | ⟨first, others, here, inside⟩
      · omega
      · rw [same] at here
        cases here
        exact inside.le
    split
    next short =>
      refine ⟨rfl, rfl, fun metered => ⟨?_, .inr ⟨front, rest, output, short⟩⟩⟩
      have left := total _ metered output
      simp only [Connection.slot, Slot.bytes, output, map_cons, sum_cons] at left ⊢
      omega
    next done =>
      refine ⟨rfl, rfl, fun metered => ⟨?_, .inl rfl⟩⟩
      have left := total _ metered output
      have inside := within _ metered output
      simp only [Connection.slot, Slot.bytes] at left inside ⊢
      omega

/-! ## Handlers -/

/-- What a handler does to the table: it writes to the output of its connection, it fails, it
takes a diagnostics request, or it binds the connection. -/
inductive Handled.Works (handled : Handled) (node : Node) (c : Connection) : Prop where
  | kept (same : handled.node.table = node.table) (follows : c.slot.Follows handled.connection.slot)
  | failed (same : handled.node.table = node.table) (bad : handled.good = false)
      (id : handled.connection.id = c.id)
  | asks (job : Job) (own : job.connection = c.id)
      (jobs : handled.node.table = { node.table with jobs := node.diagnosticsJobs ++ [job] })
      (good : handled.good = true) (quiet : c.diagnosticsPending = false)
      (marked : handled.connection.slot = c.slot.mark true)
  | greets (live : handled.node.table =
        { node.table with live := node.liveConnections.insert c.id })
      (good : handled.good = true)
      (greets : c.slot.Greets handled.connection.slot node.table.slots)

section Handlers

variable {gateway : Gateway} {node : Node} {c : Connection} {f : Frame}

theorem Handled.Works.quiet {handled : Handled} (same : handled.node.table = node.table)
    (untouched : handled.connection = c) : handled.Works node c := by
  refine .kept same ?_
  rw [untouched]
  exact .refl _

/-- The input of a connection is not booked. -/
theorem Handled.Works.input {handled : Handled} (works : handled.Works node c) (rest : Bytes) :
    Handled.Works { handled with connection := { handled.connection with input := rest } } node
      c := by
  cases works with
  | kept same follows => exact .kept same follows
  | failed same bad id => exact .failed same bad id
  | asks job own jobs good quiet marked => exact .asks job own jobs good quiet marked
  | greets live good greets => exact .greets live good greets

theorem Gateway.answer_works {middle : Node} (response : Frame)
    (same : middle.table = node.table) : (gateway.answer middle c response).Works node c := by
  unfold Gateway.answer
  split
  next queued => exact .kept same (Gateway.queue_follows queued)
  · exact .quiet same rfl

theorem Gateway.dispatch_works (now : Int) : (gateway.dispatch node c f now).Works node c := by
  let Done (handled : Handled) : Prop := handled.Works node c
  unfold Gateway.dispatch
  split_ifs
  · exact admitDiagnostics_rule (motive := Done) (fun _ _ _ response => answer_works response rfl)
      fun _ _ _ quiet => .asks _ rfl rfl rfl quiet rfl
  · unfold Node.receiveEvent
    split
    · exact .quiet rfl rfl
    · split_ifs <;> exact .quiet rfl rfl
  · exact admitRequest_rule (motive := Done) (fun _ _ _ _ _ => .quiet rfl rfl)
      fun _ _ response => answer_works response rfl
  · exact Node.receiveResponse_rule (motive := Done) (fun _ _ => .quiet rfl rfl)
      fun index _ completion _ _ _ =>
        .quiet (Node.table_of_rest (node.finish_rest index completion) :) rfl

/-- A `HELLO` fails, or it binds the connection to the host of its sender; an observer finds
room among the limited connections. -/
theorem Gateway.receiveHello_works (valid : f.source.host.Valid) (observer : Bool) :
    (gateway.receiveHello node c f observer).Works node c := by
  unfold Gateway.receiveHello
  split
  · exact .quiet rfl rfl
  next idle =>
    have idle := Bool.eq_false_iff.mpr idle
    split
    · split
      · exact .quiet rfl rfl
      next same =>
        have host : c.host.Valid := not_not.mp same ▸ valid
        exact .greets rfl rfl ⟨idle, rfl, rfl, host, .inl rfl, rfl,
          fun metered => ⟨metered.left, metered.inside⟩, .inl⟩
    split_ifs with lower full
    · exact .quiet rfl rfl
    · exact .quiet rfl rfl
    · unfold Gateway.greetInbound
      dsimp only
      split
      · exact .failed rfl rfl rfl
      next free =>
        split
        next greeted queued =>
          have follows := Gateway.queue_follows queued
          have bound := follows.binding
          have id : greeted.id = c.id := congrArg Binding.id bound
          have host : greeted.host = f.source.host := congrArg Binding.host bound
          have limited : greeted.diagnosticsOnly = observer :=
            congrArg Binding.diagnosticsOnly bound
          have session : greeted.session = f.sessionId := congrArg Binding.session bound
          have source : greeted.observerSource = f.source := congrArg Binding.observerSource bound
          have known : greeted.host.Valid := host ▸ valid
          refine .greets ?_ rfl ⟨idle, id, rfl, known, .inr ?_, follows.pending, ?_, ?_⟩
          · simp only [Node.greet, Node.table, id]
          · intro slot inside different same
            obtain ⟨other, member, rfl⟩ := mem_map.mp inside
            have joins : ¬(observer = false ∨ other.diagnosticsOnly = false ∨
                other.session ≠ f.sessionId ∨ other.observerSource ≠ f.source) := fun clash =>
              free ⟨other, member, different, same.trans host, clash⟩
            simp only [not_or, Bool.not_eq_false, ne_eq, not_not] at joins
            exact ⟨limited.trans joins.1, joins.2.1, joins.2.2.1.trans session.symm,
              joins.2.2.2.trans source.symm⟩
          · intro metered
            have kept := follows.metered ⟨metered.left, metered.inside⟩
            exact ⟨kept.left, kept.inside⟩
          · intro marked
            have here : observer = true := limited.symm.trans marked
            have count : node.table.slots.countP (fun slot => slot.diagnosticsOnly) =
                (node.connections.filter Connection.diagnosticsOnly).length := by
              rw [Node.table, countP_map, countP_eq_length_filter]
              rfl
            rw [count]
            exact .inr (Nat.lt_of_not_le fun many => full ⟨here, many⟩)
        · exact .failed rfl rfl rfl

theorem Gateway.receive_works (valid : f.source.host.Valid) (peers : List PeerInfo) (now : Int) :
    (gateway.receive node c f peers now).Works node c :=
  receive_rule (motive := fun handled => handled.Works node c) (.quiet rfl rfl)
    (fun response => answer_works response rfl) (receiveHello_works valid)
    fun _ _ _ _ _ _ _ => dispatch_works now

end Handlers

/-! ## Acts of the node -/

namespace Node

variable {gateway : Gateway} {node : Node} {index : Nat} {c : Connection}

section

variable (present : node.connections[index]? = some c)
include present

theorem slot_present : node.table.slots[index]? = some c.slot := by
  simp [Node.table, present]

theorem set_tableActs {after : Connection}
    (follows : c.slot.Follows after.slot) :
    Table.Acts node.table { node with connections := node.connections.set index after }.table := by
  have act : Table.Act node.table _ := .transfer (slot_present present) follows
  refine .head act (Table.Acts.of_eq ?_)
  simp [Node.table, map_set]

theorem drop_table :
    (node.drop index).table =
      { node.table with
        slots := node.table.slots.eraseIdx index
        live := node.liveConnections.filter fun id => id ≠ c.id
        jobs := node.diagnosticsJobs.filter fun job => job.connection ≠ c.id } := by
  unfold Node.drop
  rw [present]
  change { (node.abandon c.id).table with
    slots := (node.connections.eraseIdx index).map Connection.slot } = _
  rw [table_of_rest (node.abandon_rest c.id)]
  simp only [Node.table, eraseIdx_map]
  rfl

end

theorem drop_tableActs (node : Node) (index : Nat) :
    Table.Acts node.table (node.drop index).table := by
  cases found : node.connections[index]? with
  | none =>
    refine .of_eq ?_
    unfold Node.drop
    rw [found]
  | some c =>
    rw [drop_table found]
    exact .single (.drop (slot_present found))

/-- A handler that is through. -/
theorem settle_tableActs {handled : Handled} (present : node.connections[index]? = some c)
    (works : handled.Works node c) : Table.Acts node.table (handled.settle index).table := by
  have slot := slot_present present
  have dropped (bad : handled.good = false) (id : handled.connection.id = c.id)
      (same : handled.node.table = node.table) :
      Table.Acts node.table (handled.settle index).table := by
    have length := congrArg (fun table => table.slots.length) same
    simp only [Node.table, List.length_map] at length
    have bound := (List.getElem?_eq_some_iff.mp present).1
    let broken : Node :=
      { handled.node with
        connections := handled.node.connections.set index handled.connection
        rejected := handled.node.rejected + 1 }
    have found : broken.connections[index]? = some handled.connection :=
      getElem?_set_self (length ▸ bound)
    have settled : (handled.settle index).table = (broken.drop index).table := by
      rw [Handled.settle, bad]
      rfl
    rw [settled, drop_table found]
    refine .head (.drop slot) (Table.Acts.of_eq ?_)
    rw [← same]
    simp only [Node.table, broken, map_set, eraseIdx_set_eq, id]
    rfl
  have kept (good : handled.good = true) : (handled.settle index).table =
      { handled.node.table with
        slots := handled.node.table.slots.set index handled.connection.slot } := by
    rw [Handled.settle, good]
    simp only [Node.table, map_set, if_true]
  cases works with
  | kept same follows =>
    cases good : handled.good with
    | true =>
      rw [kept good, same]
      exact .single (.transfer slot follows)
    | false => exact dropped good follows.id same
  | failed same bad id => exact dropped bad id same
  | asks job own jobs good quiet marked =>
    rw [kept good, jobs, marked]
    exact .single (.ask slot quiet job own)
  | greets live good greets =>
    rw [kept good, live]
    exact .single (.greet slot greets)

/-! ### Steps -/

theorem read_tableActs (index : Nat) (peers : List PeerInfo) (now : Int) :
    Table.Acts node.table (node.read gateway index peers now).table := by
  unfold Node.read
  split
  · exact .refl
  next c present =>
    split
    · split
      · exact settle_tableActs present (.quiet rfl rfl)
      · exact .refl
    · exact settle_tableActs present (.quiet rfl rfl)
    next f rest taken =>
      have works : (gateway.receive node c f peers now).Works node c :=
        Gateway.receive_works (nextFrame_valid taken).1.1 peers now
      exact settle_tableActs present (works.input rest)

theorem write_tableActs (index count : Nat) :
    Table.Acts node.table (node.write index count).table := by
  cases found : node.connections[index]? with
  | none =>
    refine .of_eq ?_
    have same : node.connections.modify index (fun c => c.write count) = node.connections := by
      rw [modify_eq_set_getElem?, found]
      rfl
    rw [Node.write, same]
  | some c =>
    have same : node.connections.modify index (fun c => c.write count) =
        node.connections.set index (c.write count) := by
      rw [modify_eq_set_getElem?, found]
      rfl
    rw [Node.write, same]
    exact set_tableActs found (c.write_follows count)

theorem Effect.tableActs {next : Node} (effect : node.Effect gateway next) :
    Table.Acts node.table next.table := by
  cases effect with
  | submit submission now => exact .of_eq (table_of_rest (node.submit_rest submission now))
  | admitPeers peers => exact .of_eq (table_of_rest (admitPeers_rest gateway node peers))
  | finish => exact .of_eq (table_of_rest (node.finish_rest _ _))
  | queue present done => exact set_tableActs present (Gateway.queue_follows done)
  | drop index => exact node.drop_tableActs index
  | join outbound connecting host session address deadline room apart =>
    have small : node.table.slots.length < maxConnections := by rwa [Node.table, length_map]
    have away : host.Valid → ∀ other ∈ node.table.slots, other.host ≠ host := by
      intro valid other inside
      obtain ⟨old, member, rfl⟩ := mem_map.mp inside
      exact apart valid old member
    let c : Connection :=
      { id := node.nextConnection + 1, outbound, connecting, host, session, address, deadline }
    have act : Table.Act node.table _ := .arrive c.slot rfl rfl away small rfl rfl ⟨rfl, .inl rfl⟩
    refine .head act (Table.Acts.of_eq ?_)
    simp [Node.table, c]
  | settle present => exact set_tableActs present (.refl _)
  | arrive index chunk =>
    refine .of_eq ?_
    have same (c : Connection) :
        ({ c with input := c.input ++ chunk } : Connection).slot = c.slot := rfl
    exact congrArg ({ node.table with slots := · }) (Keyed.map_modify same node.connections index)
  | write index count => exact write_tableActs index count
  | answer present first own =>
    refine .head (.answer (slot_present present) first own) (Table.Acts.of_eq ?_)
    simp only [Node.table, map_set]
    rfl
  | orphan first absent =>
    refine .single (.orphan first fun slot inside => ?_)
    obtain ⟨c, member, rfl⟩ := mem_map.mp inside
    exact absent c member
  | send | other => exact .refl

/-- Every step is a sequence of acts on the table. -/
theorem step_tableActs (event : Event) : Table.Acts node.table (node.step gateway event).table := by
  rcases step_effects gateway node event with ⟨index, peers, now, rfl⟩ | rfl | effects
  · exact read_tableActs index peers now
  · exact .refl
  · exact Relation.ReflTransGen.lift' Node.table (fun _ _ => Effect.tableActs) _ _ effects

theorem table_of_reachable {node : Node} (reachable : (running gateway).Reachable node) :
    node.table.Bounded ∧ (node.opened ≤ 2 ^ 64 → node.table.Sound) := by
  have preserves : (running gateway).Preserves fun node =>
      node.table.Bounded ∧ (node.opened ≤ 2 ^ 64 → node.table.Sound) := by
    rintro node event _ rfl ⟨bounded, sound⟩
    exact ⟨(step_tableActs event).bounded bounded, (step_tableActs event).sound sound⟩
  refine reachable.invariant (fun node started => ?_) preserves
  obtain ⟨nextRequest, nextGoal, nextConnection, now, batches, sessions, rfl⟩ := started
  exact ⟨⟨Nat.zero_le _, Nat.zero_le _, forall_mem_nil _⟩, fun _ => ⟨nodup_nil, forall_mem_nil _,
    fun id => ⟨nofun, nofun⟩, forall_mem_nil _, forall_mem_nil _, forall_mem_nil _⟩⟩

end Node

/-- The connections that are established with a host. -/
def Node.linesWith (node : Node) (host : HostIdentity) : List Connection :=
  node.connections.filter fun c => c.host = host

theorem Table.Sound.connections {node : Node} (sound : node.table.Sound) :
    (node.connections.map Connection.id).Nodup := by
  have distinct : ((node.connections.map Connection.slot).map (·.id)).Nodup := sound.distinct
  rwa [map_map] at distinct

/-- Several connections of one host belong to one observer. -/
theorem Table.Sound.linesWith {node : Node} (sound : node.table.Sound) {host : HostIdentity}
    (valid : host.Valid) : (node.linesWith host).length ≤ 1 ∨
      ∀ c ∈ node.linesWith host, ∀ other ∈ node.linesWith host, c.diagnosticsOnly = true ∧
        other.session = c.session ∧ other.observerSource = c.observerSource := by
  have kin : ∀ c ∈ node.linesWith host, ∀ other ∈ node.linesWith host, other.id ≠ c.id →
      c.binding.Kin other.binding := by
    intro c inside other member different
    obtain ⟨here, bound⟩ := mem_filter.mp inside
    obtain ⟨there, alike⟩ := mem_filter.mp member
    have bound : c.host = host := by simpa using bound
    have alike : other.host = host := by simpa using alike
    exact sound.kin c.slot (mem_map_of_mem here) other.slot (mem_map_of_mem there)
      different (alike.trans bound.symm) (show c.host.Valid from bound ▸ valid)
  have distinct : ((node.linesWith host).map Connection.id).Nodup :=
    sound.connections.sublist (filter_sublist.map _)
  by_cases single : (node.linesWith host).length ≤ 1
  · exact .inl single
  refine .inr fun c inside other member => ?_
  -- with two connections at least, there is one besides `c`
  obtain ⟨second, joined, apart⟩ : ∃ second ∈ node.linesWith host, second.id ≠ c.id := by
    by_contra alone
    push Not at alone
    have equal : (node.linesWith host).map Connection.id =
        replicate (node.linesWith host).length c.id := by
      refine eq_replicate_iff.mpr ⟨length_map _, ?_⟩
      intro id named
      obtain ⟨d, known, rfl⟩ := mem_map.mp named
      exact alone d known
    rw [equal] at distinct
    exact single (nodup_replicate.mp distinct)
  have limited : c.diagnosticsOnly = true := (kin c inside second joined apart).1
  by_cases same : other.id = c.id
  · have equal : other = c := inj_on_of_nodup_map sound.connections
      (mem_of_mem_filter member) (mem_of_mem_filter inside) same
    rw [equal]
    exact ⟨limited, rfl, rfl⟩
  · obtain ⟨_, _, session, source⟩ := kin c inside other member same
    exact ⟨limited, session, source⟩

/-- The connection table of a node in every state of its I/O loop.  What rests on identifiers
holds while no more than 2^64 connections were opened. -/
theorem connection_table_sound {gateway : Gateway} {node : Node}
    (reachable : (running gateway).Reachable node) :
    node.connections.length ≤ 64 ∧
    (node.connections.filter Connection.diagnosticsOnly).length ≤ 8 ∧
    (∀ c ∈ node.connections,
      c.offset ≤ (c.output.map length).sum ∧
      c.queued = (c.output.map length).sum - c.offset ∧
      (c.offset = 0 ∨ ∃ front rest, c.output = front :: rest ∧ c.offset < front.length)) ∧
    (node.opened ≤ 2 ^ 64 →
      (∀ host, host.Valid → (node.linesWith host).length ≤ 1 ∨
        ∀ c ∈ node.linesWith host, ∀ other ∈ node.linesWith host, c.diagnosticsOnly = true ∧
          other.session = c.session ∧ other.observerSource = c.observerSource) ∧
      (node.connections.map Connection.id).Nodup ∧
      (∀ c ∈ node.connections,
        (c.diagnosticsPending = true ↔ ∃ job ∈ node.diagnosticsJobs, job.connection = c.id) ∧
        (c.diagnosticsPending = true →
          (node.diagnosticsJobs.filter fun job => job.connection = c.id).length = 1)) ∧
      (∀ job ∈ node.diagnosticsJobs, ∃ c ∈ node.connections, c.id = job.connection) ∧
      ∀ id, id ∈ node.liveConnections ↔ ∃ c ∈ node.connections, c.id = id ∧ c.ready = true) := by
  obtain ⟨bounded, sound⟩ := Node.table_of_reachable reachable
  have slots {c : Connection} (inside : c ∈ node.connections) : c.slot ∈ node.table.slots :=
    mem_map_of_mem inside
  refine ⟨?_, ?_, ?_, fun few => ?_⟩
  · have few := bounded.few
    rwa [Node.table, length_map] at few
  · have limited := bounded.limited
    rwa [Table.limited, Node.table, countP_map, countP_eq_length_filter] at limited
  · intro c inside
    have metered := bounded.metered c.slot (slots inside)
    have left : c.queued + c.offset = (c.output.map length).sum := metered.left
    exact ⟨by omega, by omega, metered.inside⟩
  replace sound := sound few
  refine ⟨fun _ => sound.linesWith, sound.connections, ?_, ?_, ?_⟩
  · intro c inside
    have asked : (node.diagnosticsJobs.countP fun job => job.connection = c.id) =
        c.diagnosticsPending.toNat := sound.asked c.slot (slots inside)
    refine ⟨?_, fun pending => ?_⟩
    · have positive : 0 < (node.diagnosticsJobs.countP fun job => job.connection = c.id) ↔
          ∃ job ∈ node.diagnosticsJobs, job.connection = c.id := by
        simp [countP_pos_iff]
      rw [← positive, asked]
      cases c.diagnosticsPending <;> decide
    · rw [← countP_eq_length_filter, asked, pending]
      rfl
  · intro job inside
    obtain ⟨slot, member, same⟩ := sound.owned job inside
    obtain ⟨c, here, rfl⟩ := mem_map.mp member
    exact ⟨c, here, same⟩
  · intro id
    rw [show node.liveConnections = node.table.live from rfl, sound.live_iff id]
    constructor
    · rintro ⟨slot, member, same, ready⟩
      obtain ⟨c, here, rfl⟩ := mem_map.mp member
      exact ⟨c, here, same, ready⟩
    · rintro ⟨c, here, same, ready⟩
      exact ⟨c.slot, slots here, same, ready⟩

/-- A client greets over two connections. -/
def toolLines : Node :=
  [Event.accept 0x0a000002 0, .arrive 0 (toolHello 8).bytes, .read 0 [toolPeer 8] 0,
    .accept 0x0a000002 0, .arrive 1 (toolHello 8).bytes, .read 1 [toolPeer 8] 0].foldl
    (Node.step toolGateway) {}

theorem toolLines_reachable : (running toolGateway).Reachable toolLines :=
  ⟨{}, _, ⟨_, _, _, _, _, _, rfl⟩, System.Run.foldl (fun _ _ => rfl) _ _⟩

theorem connection_table_sound_tools : toolLines.opened = 2 ∧
    (toolLines.linesWith (.ofByte 2)).length = 2 ∧
    (toolLines.connections.map Connection.id).Nodup ∧
    ∀ c ∈ toolLines.linesWith (.ofByte 2), c.diagnosticsOnly = true := by
  have opened : toolLines.opened = 2 := by decide +kernel
  have two : (toolLines.linesWith (.ofByte 2)).length = 2 := by decide +kernel
  obtain ⟨_, _, _, sound⟩ := connection_table_sound toolLines_reachable
  obtain ⟨lines, distinct, _⟩ := sound (by rw [opened]; decide)
  refine ⟨opened, two, distinct, fun c inside => ?_⟩
  rcases lines (.ofByte 2) (by decide) with single | alike
  · rw [two] at single
    exact absurd single (by decide)
  · exact (alike c inside c inside).1

/-- A node with one connection, after others have come and gone. -/
def Gateway.keeping (gateway : Gateway) (others : Nat) : Node :=
  { connections := [{ id := 1, address := 0,
                      deadline := 0 + gateway.config.connectTimeout * millisecond }]
    nextConnection := .ofNat (others + 1)
    opened := others + 1 }

theorem Gateway.keeping_reachable (gateway : Gateway) (others : Nat) :
    (running gateway).Reachable (gateway.keeping others) := by
  induction others with
  | zero =>
    have start : (running gateway).Reachable {} := .of_initial ⟨_, _, _, _, _, _, rfl⟩
    exact start.step (rfl : _ = Node.step gateway {} (.accept 0 0))
  | succ others ih =>
    have next : gateway.keeping (others + 1) =
        ((gateway.keeping others).step gateway (.accept 0 0)).step gateway (.hangUp 1 false) := by
      unfold Gateway.keeping
      rw [UInt64.ofNat_add (others + 1)]
      rfl
    rw [next]
    exact (ih.step rfl).step rfl

/-- The counter wraps while a connection stays, and the next one gets its identifier. -/
theorem connection_id_repeats : ∃ node, (running toolGateway).Reachable node ∧
    node.connections.map Connection.id = [1, 1] := by
  have last (others : Nat) : ((toolGateway.keeping others).step toolGateway
      (.accept 0 0)).connections.map Connection.id = [1, .ofNat (others + 1) + 1] := rfl
  refine ⟨_, (toolGateway.keeping_reachable (2 ^ 64 - 1)).step rfl, (last _).trans ?_⟩
  decide

end Kcf.Network.Control
