import Kcf.Data.Counter
import Kcf.Data.Trace
import Kcf.Introspection.ServiceRegistry

/-!
# Published snapshots of Services

Between two calls the snapshot lists exactly the entries with a registration id.  An
entry gets its id when it is committed; it loses it when it is unregistered, when the
registry ends, and whenever a snapshot cannot be published: `Abandon` then drops the
storage together with every listed Service, and the next `Commit` starts from an empty
snapshot.
-/

namespace Kcf.Introspection

open Kcf.Data List
open Kcf.Transition

/-! ## Histories -/

/-- The events that take a committed Service out of the snapshot. -/
def Mark.Drops (token : UInt64) : Mark → Prop
  | .failed | .ended => True
  | .unregistered other => other = token
  | .published _ | .committed _ | .returned _ => False

/-- The Service has been committed and not dropped since. -/
def Kept (trace : List Mark) (token : UInt64) : Prop :=
  Since (· = .committed token) (Mark.Drops token) trace

theorem kept_snoc {trace : List Mark} {mark : Mark} {token : UInt64} :
    Kept (trace ++ [mark]) token ↔
      mark = .committed token ∨ Kept trace token ∧ ¬mark.Drops token :=
  since_snoc

/-- A token is committed once, and a snapshot lists of the committed Services those
that have been kept. -/
def snapshotLaw (before : List Mark) : Mark → Prop
  | .committed token => .committed token ∉ before
  | .published snapshot => ∀ token, .committed token ∈ before →
      (token ∈ snapshot.ids ↔ Kept before token)
  | .failed | .returned _ | .unregistered _ | .ended => True

/-! ## Entries -/

variable {info : ServiceInfo}

namespace Entry

/-- The line of an entry in the snapshot. -/
def listed (e : Entry) : Option ServiceInfo :=
  if e.status.registrationId ≠ 0 then some e.info else none

/-- What holds of every entry between two calls. -/
structure Sound (e : Entry) : Prop where
  free : e.token = 0 → e.status.registrationId = 0 ∧ e.status.pending = false
  named : e.token ≠ 0 → e.info.registrationId = e.token
  listed : e.status.registrationId ≠ 0 → e.status.registrationId = e.token
  waiting : e.status.pending = true → e.status.registrationId = 0

/-- A change of an entry that the snapshot does not show. -/
structure Settles (e next : Entry) : Prop where
  token : next.token = e.token
  registrationId : next.status.registrationId = e.status.registrationId
  name : next.info.registrationId = e.info.registrationId

variable {e next : Entry}

theorem sound_empty : Sound {} := ⟨fun _ => ⟨rfl, rfl⟩, fun used => absurd rfl used,
  fun used => absurd rfl used, nofun⟩

theorem Sound.settles (sound : e.Sound) (settles : e.Settles next)
    (pending : next.status.pending = true → e.token ≠ 0 ∧ e.status.registrationId = 0) :
    next.Sound where
  free unused := by
    rw [settles.token] at unused
    refine ⟨settles.registrationId.trans (sound.free unused).1, ?_⟩
    exact Bool.eq_false_iff.mpr fun waiting => (pending waiting).1 unused
  named used := by
    rw [settles.token] at used ⊢
    exact settles.name.trans (sound.named used)
  listed := by
    rw [settles.token, settles.registrationId]
    exact sound.listed
  waiting waiting := settles.registrationId.trans (pending waiting).2

theorem listed_eq_none (unlisted : e.status.registrationId = 0) : e.listed = none :=
  if_neg (not_not_intro unlisted)

theorem listed_eq_some : e.listed = some info ↔ e.status.registrationId ≠ 0 ∧ e.info = info := by
  simp [Entry.listed]

theorem Sound.abandon (sound : e.Sound) (error : Int) :
    (e.abandon error).Sound ∧ (e.abandon error).token = e.token ∧
      (e.abandon error).status.registrationId = 0 ∧ (e.abandon error).status.pending = false := by
  unfold Entry.abandon
  split
  next used =>
    exact ⟨⟨fun unused => absurd unused used, sound.named, fun listed => absurd rfl listed, nofun⟩,
      rfl, rfl, rfl⟩
  next unused =>
    rw [not_not] at unused
    exact ⟨sound, rfl, sound.free unused⟩

theorem Settles.trans {last : Entry} (first : e.Settles next) (second : next.Settles last) :
    e.Settles last where
  token := second.token.trans first.token
  registrationId := second.registrationId.trans first.registrationId
  name := second.name.trans first.name

theorem settles_setFailure (e : Entry) (failure : ServiceRegistrationFailure) :
    e.Settles (e.setFailure failure) := ⟨rfl, rfl, rfl⟩

theorem settles_retried (e : Entry) (code : Option Int) : e.Settles (e.retried code) := by
  unfold Entry.retried
  dsimp only
  split <;> exact ⟨rfl, rfl, rfl⟩

theorem info_retried (e : Entry) (code : Option Int) : (e.retried code).info = e.info := by
  unfold Entry.retried
  dsimp only
  split <;> rfl

/-- An entry is tried again only if its storage could not be created. -/
theorem retried_pending {code : Option Int} (pending : (e.retried code).status.pending = true) :
    code.isSome ∧ code ≠ some 0 ∧ e.status.failure = .storageCreate := by
  have waiting : (e.attempted code).status.pending = true := by
    unfold Entry.retried at pending
    dsimp only at pending
    split at pending <;> exact pending
  obtain ⟨error, failure, -⟩ := of_decide_eq_true waiting
  cases code with
  | none => exact absurd failure nofun
  | some code =>
    refine ⟨rfl, ?_, failure⟩
    rintro ⟨rfl⟩
    exact absurd error (by decide)

theorem settles_exhausted (e : Entry) : e.Settles e.exhausted := by
  unfold Entry.exhausted
  dsimp only
  split <;> exact ⟨rfl, rfl, rfl⟩

theorem exhausted_spec (e : Entry) :
    e.exhausted.info = e.info ∧ e.exhausted.status.pending = false ∧
      (e.status.registrationId ≠ 0 → e.exhausted.status.error = e.status.error) := by
  unfold Entry.exhausted
  dsimp only
  split
  next unlisted => exact ⟨rfl, rfl, fun listed => absurd unlisted listed⟩
  · exact ⟨rfl, rfl, fun _ => rfl⟩

end Entry

/-! ## Registries -/

namespace Registry

variable {r : Registry} {slot : Nat} {e : Entry}

/-- What holds of the entries and the history, whatever the snapshot lists. -/
structure Tidy (r : Registry) : Prop where
  entries : ∀ e ∈ r.entries, e.Sound
  issued : ∀ e ∈ r.entries, e.token ≤ r.lastId
  distinct : ∀ (i j : Nat) (e f : Entry), r.entries[i]? = some e → r.entries[j]? = some f →
    e.token = f.token → e.token ≠ 0 → i = j
  old : ∀ token, .committed token ∈ r.trace → token ≤ r.lastId
  fresh : ∀ e ∈ r.entries, e.status.pending = true → .committed e.token ∉ r.trace
  lawful : Lawful snapshotLaw r.trace

/-- What holds between two calls. -/
structure Sound (r : Registry) : Prop extends r.Tidy where
  services : r.snapshot.services.Perm (r.entries.filterMap Entry.listed)
  storage : r.storage = false → r.snapshot.services = []
  active : ¬r.Active → r.snapshot.services = []
  kept : ∀ token, Kept r.trace token ↔
    token ≠ 0 ∧ ∃ e ∈ r.entries, e.status.registrationId = token

variable {token : UInt64} {change : Entry → Entry}

theorem Sound.mem_ids (sound : r.Sound) :
    token ∈ r.snapshot.ids ↔ token ≠ 0 ∧ ∃ e ∈ r.entries, e.status.registrationId = token := by
  have line : ∀ e ∈ r.entries, ∀ info, e.listed = some info →
      info.registrationId = e.status.registrationId := by
    intro e member info listed
    obtain ⟨filled, rfl⟩ := Entry.listed_eq_some.mp listed
    have entry := sound.entries e member
    rw [entry.listed filled]
    exact entry.named fun unused => filled (entry.free unused).1
  unfold ServiceRegistrySnapshot.ids
  rw [(sound.services.map _).mem_iff, mem_map]
  constructor
  · rintro ⟨info, member, rfl⟩
    obtain ⟨e, inside, listed⟩ := mem_filterMap.mp member
    rw [line e inside info listed]
    exact ⟨(Entry.listed_eq_some.mp listed).1, e, inside, rfl⟩
  · rintro ⟨filled, e, inside, rfl⟩
    have listed : e.listed = some e.info := Entry.listed_eq_some.mpr ⟨filled, rfl⟩
    exact ⟨e.info, mem_filterMap.mpr ⟨e, inside, listed⟩, line e inside e.info listed⟩

theorem Sound.mem_ids_iff_kept (sound : r.Sound) : token ∈ r.snapshot.ids ↔ Kept r.trace token := by
  rw [sound.mem_ids, sound.kept]

theorem Tidy.mark {m : Mark} (tidy : r.Tidy) (allowed : snapshotLaw r.trace m)
    (other : ∀ token, m ≠ .committed token) : (r.mark m).Tidy where
  __ := tidy
  old token committed := by
    rcases Data.mem_snoc committed with earlier | last
    · exact tidy.old token earlier
    · exact absurd last.symm (other token)
  fresh e member pending committed := by
    rcases Data.mem_snoc committed with earlier | last
    · exact tidy.fresh e member pending earlier
    · exact absurd last.symm (other e.token)
  lawful := tidy.lawful.snoc allowed

/-- Changing every entry, so that it keeps its token or loses it. -/
theorem Tidy.map {f : Entry → Entry} (tidy : r.Tidy)
    (changed : ∀ e ∈ r.entries, (f e).Sound ∧ ((f e).token = e.token ∨ (f e).token = 0) ∧
      ((f e).status.pending = true → f e = e)) :
    { r with entries := r.entries.map f }.Tidy := by
  refine ⟨?_, ?_, ?_, tidy.old, ?_, tidy.lawful⟩
  · intro next member
    obtain ⟨e, inside, rfl⟩ := mem_map.mp member
    exact (changed e inside).1
  · intro next member
    obtain ⟨e, inside, rfl⟩ := mem_map.mp member
    rcases (changed e inside).2.1 with same | cleared
    · rw [same]
      exact tidy.issued e inside
    · rw [cleared]
      exact UInt64.zero_le
  · intro i j next other first second same used
    obtain ⟨e, atFirst, rfl⟩ := getElem?_map .. ▸ first |> Option.map_eq_some_iff.mp
    obtain ⟨g, atSecond, rfl⟩ := getElem?_map .. ▸ second |> Option.map_eq_some_iff.mp
    rcases (changed e (mem_of_getElem? atFirst)).2.1 with left | cleared
    · rcases (changed g (mem_of_getElem? atSecond)).2.1 with right | cleared
      · rw [left] at same used
        rw [right] at same
        exact tidy.distinct i j e g atFirst atSecond same used
      · exact absurd (same.trans cleared) used
    · exact absurd cleared used
  · intro next member pending
    obtain ⟨e, inside, rfl⟩ := mem_map.mp member
    have same := (changed e inside).2.2 pending
    rw [same] at pending ⊢
    exact tidy.fresh e inside pending

/-! ## Publishing -/

/-- The registry after a `Publish` with an error. -/
def failed (r : Registry) (revision : UInt64) (error : Int) : Registry :=
  ({ r with snapshot := { r.snapshot with revision } }.mark .failed).abandon error

/-- The registry after a successful `Publish`. -/
def published (r : Registry) (revision : UInt64) : Registry :=
  { r with snapshot := { r.snapshot with revision } }.mark
    (.published { r.snapshot with revision })

theorem announce_cases (r : Registry) (answer : Int) :
    (∃ revision error, error ≠ 0 ∧ r.announce answer = (r.failed revision error, error)) ∨
      ∃ revision, r.announce answer = (r.published revision, 0) := by
  unfold announce publish
  by_cases full : r.snapshot.revision = 0xffffffffffffffff
  · rw [if_pos full]
    exact .inl ⟨r.snapshot.revision, -Errno.eoverflow, by decide, rfl⟩
  · rw [if_neg full]
    by_cases accepted : answer = 0
    · subst accepted
      exact .inr ⟨r.snapshot.revision + 1, rfl⟩
    · refine .inl ⟨r.snapshot.revision + 1, answer, accepted, ?_⟩
      dsimp only
      rw [if_neg accepted, if_pos accepted]
      rfl

theorem Tidy.failed (tidy : r.Tidy) (revision : UInt64) (error : Int) :
    (r.failed revision error).Sound := by
  have mapped := (tidy.mark (m := .failed) trivial nofun).map (f := Entry.abandon error) (by
    intro e inside
    obtain ⟨sound, token, -, idle⟩ := (tidy.entries e inside).abandon error
    refine ⟨sound, .inl token, fun pending => ?_⟩
    rw [idle] at pending
    cases pending)
  have unlisted : ∀ next ∈ (r.failed revision error).entries, next.status.registrationId = 0 := by
    intro next member
    obtain ⟨e, inside, rfl⟩ := mem_map.mp member
    exact ((tidy.entries e inside).abandon error).2.2.1
  refine ⟨{ mapped with }, ?_, fun _ => rfl, fun _ => rfl, ?_⟩
  · have empty : (r.failed revision error).entries.filterMap Entry.listed = [] :=
      filterMap_eq_nil_iff.mpr fun next member => Entry.listed_eq_none (unlisted next member)
    rw [empty]
    exact .refl []
  · intro token
    constructor
    · intro kept
      rcases kept_snoc.mp kept with committed | ⟨-, still⟩
      · cases committed
      · exact absurd trivial still
    · rintro ⟨filled, next, member, rfl⟩
      exact absurd (unlisted next member) filled

theorem kept_published {trace : List Mark} {snapshot : ServiceRegistrySnapshot} :
    Kept (trace ++ [.published snapshot]) token ↔ Kept trace token := by
  rw [kept_snoc]
  simp [Mark.Drops]

theorem Sound.published (sound : r.Sound) (revision : UInt64) : (r.published revision).Sound := by
  have marked : (r.mark (.published { r.snapshot with revision })).Tidy :=
    sound.toTidy.mark (fun token _ => sound.mem_ids_iff_kept) nofun
  exact { marked, sound with kept := fun token => kept_published.trans (sound.kept token) }

theorem Sound.announce (sound : r.Sound) (answer : Int) : (r.announce answer).1.Sound := by
  rcases r.announce_cases answer with ⟨revision, error, -, result⟩ | ⟨revision, result⟩
  · rw [result]
    exact sound.toTidy.failed revision error
  · rw [result]
    exact sound.published revision

/-! ## Changes of one entry -/

section

variable (present : r.entries[slot]? = some e)
include present

@[simp] theorem entry_eq : r.entry slot = e := by
  rw [entry, present, Option.getD_some]

theorem getElem?_update (change : Entry → Entry) :
    (r.update slot change).entries[slot]? = some (change e) := by
  unfold update
  rw [getElem?_modify_eq, present]
  rfl

theorem mem_update_iff
    {member : Entry} : member ∈ (r.update slot change).entries ↔
      member = change e ∨ member ∈ r.entries.eraseIdx slot :=
  (Keyed.modify_perm present change).mem_iff.trans mem_cons

theorem mem_entries_iff {member : Entry} :
    member ∈ r.entries ↔ member = e ∨ member ∈ r.entries.eraseIdx slot :=
  (Keyed.perm_cons_eraseIdx present).mem_iff.trans mem_cons

end

/-- Replacing an entry by one with the same token, without a token or with a new one. -/
theorem Tidy.replace {lastId : UInt64} (tidy : r.Tidy)
    (present : r.entries[slot]? = some e) (sound : (change e).Sound) (later : r.lastId ≤ lastId)
    (issued : (change e).token ≤ lastId)
    (token : (change e).token = e.token ∨ (change e).token = 0 ∨ r.lastId < (change e).token)
    (fresh : (change e).status.pending = true → .committed (change e).token ∉ r.trace) :
    ({ r with lastId }.update slot change).Tidy := by
  have members : ∀ member, member ∈ (r.update slot change).entries →
      member = change e ∨ member ∈ r.entries := by
    intro member inside
    rcases (mem_update_iff present).mp inside with rfl | other
    · exact .inl rfl
    · exact .inr (mem_of_mem_eraseIdx other)
  -- no other entry has the token of the new one
  have unique : ∀ (i : Nat) (f : Entry), i ≠ slot → r.entries[i]? = some f →
      f.token = (change e).token → f.token = 0 := by
    intro i f other found same
    rcases token with kept | cleared | beyond
    · by_contra used
      exact other (tidy.distinct i slot f e found present (same.trans kept) used)
    · exact same.trans cleared
    · have bound := tidy.issued f (mem_of_getElem? found)
      rw [same] at bound
      exact absurd bound (UInt64.not_le.mpr beyond)
  refine ⟨?_, ?_, ?_, fun token committed => UInt64.le_trans (tidy.old token committed) later, ?_,
    tidy.lawful⟩
  · intro member inside
    rcases members member inside with rfl | old
    · exact sound
    · exact tidy.entries member old
  · intro member inside
    rcases members member inside with rfl | old
    · exact issued
    · exact UInt64.le_trans (tidy.issued member old) later
  · intro i j f g first second same used
    have lookup : ∀ (i : Nat) (f : Entry),
        (r.update slot change).entries[i]? = some f → i ≠ slot → r.entries[i]? = some f := by
      intro i f found other
      unfold update at found
      rwa [getElem?_modify_ne _ _ (Ne.symm other)] at found
    have replaced : ∀ f, (r.update slot change).entries[slot]? = some f → f = change e := by
      intro f found
      rw [getElem?_update present] at found
      exact (Option.some.inj found).symm
    by_cases here : i = slot
    · by_cases there : j = slot
      · rw [here, there]
      · subst here
        cases replaced f first
        exact absurd (same.trans (unique j g there (lookup j g second there) same.symm)) used
    · by_cases there : j = slot
      · subst there
        cases replaced g second
        exact absurd (unique i f here (lookup i f first here) same) used
      · exact tidy.distinct i j f g (lookup i f first here) (lookup j g second there) same used
  · intro member inside pending
    rcases members member inside with rfl | old
    · exact fresh pending
    · exact tidy.fresh member old pending

theorem exists_listed_update (present : r.entries[slot]? = some e)
    (same : (change e).status.registrationId = e.status.registrationId) :
    (∃ member ∈ (r.update slot change).entries, member.status.registrationId = token) ↔
      ∃ member ∈ r.entries, member.status.registrationId = token := by
  constructor
  · rintro ⟨member, inside, filled⟩
    rcases (mem_update_iff present).mp inside with rfl | other
    · exact ⟨e, (mem_entries_iff present).mpr (.inl rfl), same.symm.trans filled⟩
    · exact ⟨member, (mem_entries_iff present).mpr (.inr other), filled⟩
  · rintro ⟨member, inside, filled⟩
    rcases (mem_entries_iff present).mp inside with rfl | other
    · exact ⟨change member, (mem_update_iff present).mpr (.inl rfl), same.trans filled⟩
    · exact ⟨member, (mem_update_iff present).mpr (.inr other), filled⟩

/-- Replacing an entry without a change in the snapshot. -/
theorem Sound.replace {lastId : UInt64} (sound : r.Sound)
    (present : r.entries[slot]? = some e) (tidy : ({ r with lastId }.update slot change).Tidy)
    (listed : (change e).listed = e.listed)
    (same : (change e).status.registrationId = e.status.registrationId) :
    ({ r with lastId }.update slot change).Sound := by
  have unchanged : ({ r with lastId }.update slot change).entries.filterMap Entry.listed =
      r.entries.filterMap Entry.listed := by
    refine Keyed.filterMap_modify fun item found => ?_
    rw [present] at found
    cases found
    exact listed
  refine ⟨tidy, ?_, sound.storage, sound.active, fun token => (sound.kept token).trans ?_⟩
  · rw [unchanged]
    exact sound.services
  · exact and_congr_right fun _ => (exists_listed_update present same).symm

/-- An entry that may wait for its storage. -/
structure Waitable (r : Registry) (e : Entry) : Prop where
  used : e.token ≠ 0
  unlisted : e.status.registrationId = 0
  uncommitted : .committed e.token ∉ r.trace

theorem Tidy.waitable (tidy : r.Tidy) (member : e ∈ r.entries) (pending : e.status.pending = true) :
    r.Waitable e where
  used unused := by
    rw [((tidy.entries e member).free unused).2] at pending
    cases pending
  unlisted := (tidy.entries e member).waiting pending
  uncommitted := tidy.fresh e member pending

theorem Waitable.update (waitable : r.Waitable e)
    (settles : e.Settles (change e)) : (r.update slot change).Waitable (change e) where
  used := settles.token ▸ waitable.used
  unlisted := settles.registrationId.trans waitable.unlisted
  uncommitted := settles.token ▸ waitable.uncommitted

theorem Tidy.settle (tidy : r.Tidy) (present : r.entries[slot]? = some e)
    (settles : e.Settles (change e))
    (pending : (change e).status.pending = true → r.Waitable e) : (r.update slot change).Tidy := by
  have member := mem_of_getElem? present
  refine tidy.replace present ?_ (UInt64.le_refl _) ?_ (.inl settles.token) ?_
  · exact (tidy.entries e member).settles settles fun waiting =>
      ⟨(pending waiting).used, (pending waiting).unlisted⟩
  · rw [settles.token]
    exact tidy.issued e member
  · intro waiting
    rw [settles.token]
    exact (pending waiting).uncommitted

section

variable (sound : r.Sound) (present : r.entries[slot]? = some e)
include sound present

theorem Sound.settle (settles : e.Settles (change e))
    (info : e.status.registrationId ≠ 0 → (change e).info = e.info)
    (pending : (change e).status.pending = true → r.Waitable e) :
    (r.update slot change).Sound := by
  refine sound.replace present (sound.toTidy.settle present settles pending) ?_
    settles.registrationId
  unfold Entry.listed
  rw [settles.registrationId]
  split
  next filled => rw [info filled]
  · rfl

/-- A free or failed entry is cleared. -/
theorem Sound.vacate
    (unlisted : e.status.registrationId = 0) : (r.update slot fun _ => {}).Sound := by
  refine sound.replace present ?_ ?_ unlisted.symm
  · exact sound.toTidy.replace present Entry.sound_empty (UInt64.le_refl _) UInt64.zero_le
      (.inr (.inl rfl)) nofun
  · rw [Entry.listed_eq_none unlisted]
    rfl

/-- A free entry gets a new token. -/
theorem Sound.occupy {new : Entry}
    (free : e.token = 0) (room : r.lastId ≠ 0xffffffffffffffff) (token : new.token = r.lastId + 1)
    (named : new.info.registrationId = new.token) (status : new.status.registrationId = 0)
    (idle : new.status.pending = false) :
    ({ r with lastId := r.lastId + 1 }.update slot fun _ => new).Sound := by
  have later := UInt64.lt_add_one room
  have used : new.token ≠ 0 := token ▸ UInt64.add_one_ne_zero room
  have unlisted := ((sound.entries e (mem_of_getElem? present)).free free).1
  refine sound.replace present ?_ ?_ (status.trans unlisted.symm)
  · refine sound.toTidy.replace present ?_ (UInt64.le_of_lt later) ?_ (.inr (.inr ?_)) ?_
    · exact ⟨fun unused => absurd unused used, fun _ => named, fun listed => absurd status listed,
        fun pending => status⟩
    · exact UInt64.le_of_eq token
    · rwa [token]
    · intro pending
      rw [idle] at pending
      cases pending
  · rw [Entry.listed_eq_none status, Entry.listed_eq_none unlisted]

end

/-! ## Commit -/

/-- The snapshot with one more line. -/
def listing (r : Registry) (e : Entry) (revision : UInt64) : ServiceRegistrySnapshot :=
  { r.snapshot with services := r.snapshot.services ++ [e.info], revision }

/-- The registry after a successful `Commit`. -/
def admitted (r : Registry) (slot : Nat) (e : Entry) (revision : UInt64)
    (change : Entry → Entry) : Registry :=
  { r with
    snapshot := r.listing e revision
    storage := true
    entries := r.entries.modify slot change
    trace := r.trace ++ [.published (r.listing e revision)] ++ [.committed e.token] }

theorem Tidy.admitted {revision : UInt64} (sound : r.Sound)
    (present : r.entries[slot]? = some e) (waitable : r.Waitable e)
    (token : (change e).token = e.token) (entry : (change e).Sound)
    (idle : (change e).status.pending = false) : (r.admitted slot e revision change).Tidy := by
  have member := mem_of_getElem? present
  have named := (sound.entries e member).named waitable.used
  have replaced : (r.update slot change).Tidy := by
    refine sound.toTidy.replace present entry (UInt64.le_refl _) ?_ (.inl token) ?_
    · rw [token]
      exact sound.issued e member
    · intro pending
      rw [idle] at pending
      cases pending
  have published : (({ r with snapshot := r.listing e revision }.update slot change).mark
      (.published (r.listing e revision))).Tidy := by
    refine Tidy.mark { replaced with } ?_ nofun
    intro other committed
    have different : other ≠ e.token := by
      rintro rfl
      exact waitable.uncommitted committed
    unfold ServiceRegistrySnapshot.ids listing
    rw [map_append, mem_append, map_singleton, mem_singleton, named, or_iff_left different]
    exact sound.mem_ids_iff_kept
  have new : .committed e.token ∉ r.trace ++ [.published (r.listing e revision)] := by
    simpa using waitable.uncommitted
  refine { published with old := ?_, fresh := ?_, lawful := published.lawful.snoc new }
  · intro other committed
    rcases Data.mem_snoc committed with earlier | last
    · exact published.old other earlier
    · cases last
      exact sound.issued e member
  · intro other inside pending committed
    rcases Data.mem_snoc committed with earlier | last
    · exact published.fresh other inside pending earlier
    · -- the only entry with this token does not wait any more
      obtain ⟨index, found⟩ := mem_iff_getElem?.mp inside
      have same : other.token = e.token := Mark.committed.inj last
      have used : other.token ≠ 0 := same ▸ waitable.used
      have here := published.distinct index slot other (change e) found
        (getElem?_update present change) (same.trans token.symm) used
      subst here
      have equal : other = change e :=
        Option.some.inj (found.symm.trans (getElem?_update present change))
      rw [equal, idle] at pending
      cases pending

theorem Sound.admitted {revision : UInt64} (sound : r.Sound)
    (active : r.Active) (present : r.entries[slot]? = some e) (waitable : r.Waitable e)
    (token : (change e).token = e.token) (info : (change e).info = e.info)
    (registrationId : (change e).status.registrationId = e.token)
    (idle : (change e).status.pending = false) : (r.admitted slot e revision change).Sound := by
  have entry : (change e).Sound := by
    refine ⟨fun unused => absurd (token.symm.trans unused) waitable.used,
      fun used => ?_, fun _ => ?_,
      fun pending => ?_⟩
    · rw [info, token]
      exact (sound.entries e (mem_of_getElem? present)).named waitable.used
    · rw [registrationId, token]
    · rw [idle] at pending
      cases pending
  have listed : (change e).listed = some e.info := by
    rw [← info]
    exact Entry.listed_eq_some.mpr ⟨fun zero => waitable.used (registrationId.symm.trans zero), rfl⟩
  refine ⟨Tidy.admitted sound present waitable token entry idle, ?_, nofun,
    fun inactive => absurd active inactive, ?_⟩
  · have before := (Keyed.perm_cons_eraseIdx present).filterMap Entry.listed
    rw [filterMap_cons_none (Entry.listed_eq_none waitable.unlisted)] at before
    have after := (Keyed.modify_perm present change).filterMap Entry.listed
    rw [filterMap_cons_some listed] at after
    calc
      (r.snapshot.services ++ [e.info]).Perm (e.info :: r.snapshot.services) :=
        perm_append_singleton _ _
      Perm _ (e.info :: (r.entries.eraseIdx slot).filterMap Entry.listed) :=
        (sound.services.trans before).cons e.info
      Perm _ ((r.entries.modify slot change).filterMap Entry.listed) := after.symm
  · intro other
    have kept : Kept (r.admitted slot e revision change).trace other ↔
        e.token = other ∨ Kept r.trace other := by
      refine kept_snoc.trans ?_
      rw [kept_published]
      simp [Mark.Drops]
    rw [kept, sound.kept]
    constructor
    · rintro (rfl | ⟨filled, member, inside, rfl⟩)
      · exact ⟨waitable.used, change e, (mem_update_iff present).mpr (.inl rfl), registrationId⟩
      · refine ⟨filled, member, (mem_update_iff present).mpr (.inr ?_), rfl⟩
        rcases (mem_entries_iff present).mp inside with rfl | rest
        · exact absurd waitable.unlisted filled
        · exact rest
    · rintro ⟨filled, member, inside, rfl⟩
      rcases (mem_update_iff present).mp inside with rfl | rest
      · exact .inl registrationId.symm
      · exact .inr ⟨filled, member, (mem_entries_iff present).mpr (.inr rest), rfl⟩

theorem append_cases (present : r.entries[slot]? = some e) (answer : Int) :
    (∃ revision error, error ≠ 0 ∧ r.append slot answer =
        ((r.failed revision error).update slot (Entry.setFailure .publish), error)) ∨
      ∃ revision, r.append slot answer =
        ({ r.admitted slot e revision Entry.committed with storage := r.storage }, 0) := by
  unfold append
  rw [entry_eq present]
  rcases announce_cases (r.setServices (r.snapshot.services ++ [e.info])) answer with
    ⟨revision, error, failed, result⟩ | ⟨revision, result⟩
  · rw [result]
    dsimp only
    rw [if_pos failed]
    exact .inl ⟨revision, error, failed, rfl⟩
  · have found : entry ((r.setServices (r.snapshot.services ++ [e.info])).published revision) slot =
        e := entry_eq present
    rw [result]
    dsimp only
    rw [if_neg (not_not_intro rfl), found]
    exact .inr ⟨revision, rfl⟩

/-- Everything that `Commit` can do. -/
theorem commit_cases (present : r.entries[slot]? = some e) (answers : Answers) :
    r.commit slot answers = (r, none) ∨
      (∃ error, error ≠ 0 ∧ r.commit slot answers =
        (r.update slot (Entry.setFailure .storageCreate), some error)) ∨
      (∃ revision error, error ≠ 0 ∧ r.commit slot answers =
        ((r.failed revision error).update slot (Entry.setFailure .publish), some error)) ∨
      ∃ revision, r.commit slot answers =
        (r.admitted slot e revision Entry.committed, some 0) := by
  unfold commit
  cases stored : r.storage with
  | true =>
    rw [if_pos rfl]
    rcases append_cases present answers.publish with
      ⟨revision, error, failed, result⟩ | ⟨revision, result⟩
    · rw [result]
      exact .inr (.inr (.inl ⟨revision, error, failed, rfl⟩))
    · rw [result, stored]
      exact .inr (.inr (.inr ⟨revision, rfl⟩))
  | false =>
    rw [if_neg Bool.false_ne_true]
    cases answers.create with
    | none => exact .inl rfl
    | some error =>
      dsimp only
      split
      next failed => exact .inr (.inl ⟨error, failed, rfl⟩)
      rcases append_cases (r := { r with storage := true }) present answers.publish with
        ⟨revision, error, failed, result⟩ | ⟨revision, result⟩
      · rw [result]
        exact .inr (.inr (.inl ⟨revision, error, failed, rfl⟩))
      · rw [result]
        exact .inr (.inr (.inr ⟨revision, rfl⟩))

/-! ## Rounds of the worker -/

@[simp] theorem update_update (r : Registry) (slot : Nat) (first second : Entry → Entry) :
    (r.update slot first).update slot second = r.update slot (second ∘ first) := by
  unfold update
  rw [modify_modify_eq]

theorem admitted_update (r : Registry) (slot : Nat) (e : Entry) (revision : UInt64)
    (first second : Entry → Entry) :
    (r.admitted slot e revision first).update slot second =
      r.admitted slot e revision (second ∘ first) := by
  unfold update admitted
  dsimp only
  rw [modify_modify_eq]

theorem getElem?_failed (present : r.entries[slot]? = some e) (revision : UInt64) (error : Int) :
    (r.failed revision error).entries[slot]? = some (e.abandon error) := by
  change (r.entries.map (Entry.abandon error))[slot]? = _
  rw [getElem?_map, present]
  rfl

theorem Sound.retry (sound : r.Sound) (active : r.Active) (present : r.entries[slot]? = some e)
    (waitable : r.Waitable e) (answers : Answers) : (r.retry slot answers).Sound := by
  unfold Registry.retry
  dsimp only
  generalize counted : (fun e : Entry => { e with status := { e.status with
    recoveryAttempts := e.status.recoveryAttempts + 1 } }) = count
  have settles : e.Settles (count e) := by
    subst counted
    exact ⟨rfl, rfl, rfl⟩
  have sound : (r.update slot count).Sound :=
    sound.settle present settles (fun listed => absurd waitable.unlisted listed) fun _ => waitable
  replace waitable : (r.update slot count).Waitable (count e) := waitable.update settles
  replace present := getElem?_update present count
  replace active : (r.update slot count).Active := active
  generalize r.update slot count = r at *
  generalize count e = e at *
  rcases commit_cases present answers with result | ⟨error, failed, result⟩ |
    ⟨revision, error, failed, result⟩ | ⟨revision, result⟩
  all_goals rw [result]
  · exact sound.settle present (Entry.settles_retried ..) (fun _ => Entry.info_retried ..)
      fun pending => absurd (Entry.retried_pending pending).1 nofun
  · rw [update_update]
    exact sound.settle present ((Entry.settles_setFailure ..).trans (Entry.settles_retried ..))
      (fun _ => Entry.info_retried ..) fun _ => waitable
  · rw [update_update]
    refine (sound.toTidy.failed revision error).settle (getElem?_failed present revision error)
      ((Entry.settles_setFailure ..).trans (Entry.settles_retried ..))
      (fun _ => Entry.info_retried ..) fun pending => ?_
    exact absurd (Entry.retried_pending pending).2.2 nofun
  · rw [admitted_update]
    refine sound.admitted active present waitable ?_ ?_ ?_ ?_
    · exact (Entry.settles_retried ..).token
    · exact Entry.info_retried ..
    · exact (Entry.settles_retried ..).registrationId
    · exact Bool.eq_false_iff.mpr fun pending => absurd rfl (Entry.retried_pending pending).2.1

section

variable (sound : r.Sound) (present : r.entries[slot]? = some e)
include sound present

/-- The line of the snapshot with the token of a listed entry is the line of this entry. -/
theorem Sound.line_eq (used : e.token ≠ 0)
    (inside : info ∈ r.snapshot.services)
    (same : info.registrationId = e.token) : info = e.info := by
  obtain ⟨f, member, listed⟩ := mem_filterMap.mp (sound.services.mem_iff.mp inside)
  obtain ⟨filled, rfl⟩ := Entry.listed_eq_some.mp listed
  have named := (sound.entries f member).named fun unused =>
    filled ((sound.entries f member).free unused).1
  obtain ⟨index, found⟩ := mem_iff_getElem?.mp member
  have token : f.token = e.token := named.symm.trans same
  have here := sound.distinct index slot f e found present token (token ▸ used)
  subst here
  rw [Option.some.inj (found.symm.trans present)]

/-- A listed entry is changed together with its line of the snapshot. -/
theorem Sound.reline {index : Nat} (listed : e.status.registrationId ≠ 0)
    (settles : e.Settles (change e)) (idle : (change e).status.pending = e.status.pending)
    (found : r.snapshot.services[index]? = some info) (same : info.registrationId = e.token) :
    ((r.update slot change).setServices
      (r.snapshot.services.set index (change e).info)).Sound := by
  have entry := sound.entries e (mem_of_getElem? present)
  have used : e.token ≠ 0 := fun unused => listed (entry.free unused).1
  have tidy : (r.update slot change).Tidy :=
    sound.toTidy.settle present settles fun pending =>
      absurd (entry.waiting (idle ▸ pending)) listed
  have line := sound.line_eq present used (mem_of_getElem? found) same
  subst line
  refine ⟨{ tidy with }, ?_, ?_, ?_, fun token => (sound.kept token).trans
    (and_congr_right fun _ => (exists_listed_update present settles.registrationId).symm)⟩
  · have lines := Keyed.perm_cons_eraseIdx found
    have before := (Keyed.perm_cons_eraseIdx present).filterMap Entry.listed
    rw [filterMap_cons_some (Entry.listed_eq_some.mpr ⟨listed, rfl⟩)] at before
    have after := (Keyed.modify_perm present change).filterMap Entry.listed
    rw [filterMap_cons_some
      (Entry.listed_eq_some.mpr ⟨settles.registrationId ▸ listed, rfl⟩)] at after
    have rest : (r.snapshot.services.eraseIdx index).Perm
        ((r.entries.eraseIdx slot).filterMap Entry.listed) :=
      (List.perm_cons e.info).mp (lines.symm.trans (sound.services.trans before))
    have bound := (List.getElem?_eq_some_iff.mp found).1
    exact (List.set_perm_cons_eraseIdx bound _).trans ((rest.cons _).trans after.symm)
  · intro absent
    change r.snapshot.services.set _ _ = []
    rw [sound.storage absent, set_nil]
  · intro inactive
    change r.snapshot.services.set _ _ = []
    rw [sound.active inactive, set_nil]

theorem Sound.republish (listed : e.status.registrationId ≠ 0)
    (settles : e.Settles (change e)) (idle : (change e).status.pending = e.status.pending)
    (answers : Answers) : ((r.update slot change).republish slot answers).Sound := by
  unfold Registry.republish
  rw [entry_eq (getElem?_update present change)]
  dsimp only
  cases search : (r.update slot change).snapshot.services.findIdx? fun info =>
      info.registrationId = (change e).token with
  | none =>
    -- the line of a listed entry is in the snapshot
    have entry := sound.entries e (mem_of_getElem? present)
    have used : e.token ≠ 0 := fun unused => listed (entry.free unused).1
    have inside : e.info ∈ r.snapshot.services := sound.services.mem_iff.mpr
      (mem_filterMap.mpr
        ⟨e, mem_of_getElem? present, Entry.listed_eq_some.mpr ⟨listed, rfl⟩⟩)
    have missing := findIdx?_eq_none_iff.mp search e.info inside
    rw [entry.named used, settles.token] at missing
    exact absurd rfl (of_decide_eq_false missing)
  | some index =>
    obtain ⟨bound, same, -⟩ := findIdx?_eq_some_iff_getElem.mp search
    have token := (of_decide_eq_true same).trans settles.token
    exact (sound.reline present listed settles idle (getElem?_eq_getElem bound)
      token).announce answers.publish

end

theorem recoverType_id {state : TypeState} {answer : TypeAnswer}
    (silent : ¬(state.recoverType answer).2) : (state.recoverType answer).1.id = state.id := by
  unfold TypeState.recoverType at silent ⊢
  split
  next pending =>
    rw [if_pos pending] at silent
    exact if_neg fun known => silent (decide_eq_true known)
  · rfl

theorem Sound.recoverEntry (sound : r.Sound) (slot : Nat) (answers : Answers) :
    (r.recoverEntry slot answers).Sound := by
  cases present : r.entries[slot]? with
  | none =>
    have free : r.entry slot = {} := by rw [entry, present, Option.getD_none]
    unfold Registry.recoverEntry
    rw [free]
    exact sound
  | some e =>
    unfold Registry.recoverEntry
    rw [entry_eq present]
    dsimp only
    split
    · exact sound
    split
    · refine sound.settle present ⟨rfl, rfl, rfl⟩ (fun _ => rfl) fun pending => ?_
      cases pending
    next active =>
      rw [not_not] at active
      have settles : e.Settles (e.setTypes (e.requestState.recoverType answers.request).1
        (e.responseState.recoverType answers.response).1) := ⟨rfl, rfl, rfl⟩
      have waitable := sound.toTidy.waitable (mem_of_getElem? present)
      split
      next pending =>
        have settled : (r.update slot fun e' => e'.setTypes
            (e.requestState.recoverType answers.request).1
            (e.responseState.recoverType answers.response).1).Sound :=
          sound.settle present settles
            (fun listed => absurd (waitable pending).unlisted listed) waitable
        exact settled.retry active (getElem?_update present _)
          ((waitable pending).update settles) answers
      next idle =>
        split
        next known => exact sound.republish present known.2 settles rfl answers
        next unknown =>
          refine sound.settle present settles (fun listed => ?_) waitable
          have silent := fun known => unknown ⟨known, listed⟩
          have request := recoverType_id fun known => silent (.inl known)
          have response := recoverType_id fun known => silent (.inr known)
          unfold Entry.setTypes
          rw [request, response]
          rfl

theorem Sound.recover (sound : r.Sound) (answers : Nat → Answers) : (r.recover answers).Sound := by
  unfold Registry.recover
  generalize range r.entries.length = slots
  induction slots generalizing r with
  | nil => exact sound
  | cons slot slots ih => exact ih (sound.recoverEntry slot (answers slot))

/-! ## Registration -/

theorem initializeTypes_spec (registration : Registration) (answers : Answers) (e : Entry) :
    e.Settles (registration.initializeTypes answers e) ∧
      (registration.initializeTypes answers e).status.pending = e.status.pending := by
  cases registration <;> exact ⟨⟨rfl, rfl, rfl⟩, rfl⟩

/-- What `Register` leaves before it looks at the error of the entry. -/
def Entered (r : Registry) (slot : Nat) : Prop :=
  r.Sound ∧ ∃ e, r.entries[slot]? = some e ∧
    (e.status.registrationId ≠ 0 → e.status.error = 0)

theorem Entered.exhaust (entered : r.Entered slot) :
    (r.update slot Entry.exhausted).Entered slot := by
  obtain ⟨sound, e, present, clean⟩ := entered
  obtain ⟨info, idle, error⟩ := e.exhausted_spec
  refine ⟨?_, e.exhausted, getElem?_update present _, fun listed => ?_⟩
  · refine sound.settle present e.settles_exhausted (fun _ => info) fun pending => ?_
    rw [idle] at pending
    cases pending
  · rw [e.settles_exhausted.registrationId] at listed
    exact (error listed).trans (clean listed)

theorem Entered.attend {failing : Prop} [Decidable failing] (entered : r.Entered slot) :
    (if failing then r.update slot Entry.exhausted else r).Entered slot := by
  split
  · exact entered.exhaust
  · exact entered

theorem Sound.enter (sound : r.Sound) (active : r.Active)
    (present : r.entries[slot]? = some e) (free : e.token = 0)
    (room : r.lastId ≠ 0xffffffffffffffff) (registration : Registration) (answers : Answers) :
    (r.enter slot info registration answers).Entered slot := by
  unfold Registry.enter
  dsimp only
  obtain ⟨settles, idle⟩ := initializeTypes_spec registration answers
    { token := r.lastId + 1, info := { info with registrationId := r.lastId + 1 } }
  generalize registration.initializeTypes answers
    { token := r.lastId + 1, info := { info with registrationId := r.lastId + 1 } } = new at *
  have token : new.token = r.lastId + 1 := settles.token
  have uncommitted : .committed new.token ∉ r.trace := by
    intro committed
    have bound := sound.old new.token committed
    rw [token] at bound
    exact absurd bound (UInt64.not_le.mpr (UInt64.lt_add_one room))
  have occupied := sound.occupy present free room token (settles.name.trans token.symm)
    settles.registrationId idle
  replace present := getElem?_update (r := { r with lastId := r.lastId + 1 }) present fun _ => new
  generalize made : update { r with lastId := r.lastId + 1 } slot (fun _ => new) = next at *
  have waitable : next.Waitable new := by
    subst made
    exact ⟨token ▸ UInt64.add_one_ne_zero room, settles.registrationId, uncommitted⟩
  replace active : next.Active := by
    subst made
    exact active
  rcases commit_cases present answers with result | ⟨error, failed, result⟩ |
    ⟨revision, error, failed, result⟩ | ⟨revision, result⟩
  all_goals rw [result]
  · exact Entered.exhaust ⟨occupied, new, present, fun listed => absurd waitable.unlisted listed⟩
  · refine Entered.attend ?_
    rw [update_update]
    refine ⟨occupied.settle present ⟨rfl, rfl, rfl⟩ (fun _ => rfl) fun _ => waitable, _,
      getElem?_update present _, fun listed => absurd waitable.unlisted listed⟩
  · refine Entered.attend ?_
    have sound := occupied.toTidy.failed revision error
    have entry := (occupied.entries new (mem_of_getElem? present)).abandon error
    rw [update_update]
    refine ⟨sound.settle (getElem?_failed present revision error) ⟨rfl, rfl, rfl⟩ (fun _ => rfl)
      fun pending => ?_, _, getElem?_update (getElem?_failed present revision error) _,
      fun listed => absurd entry.2.2.1 listed⟩
    -- the entry neither waited before nor could its storage not be created
    rcases Bool.or_eq_true _ _ |>.mp pending with waiting | created
    · exact absurd waiting (Bool.eq_false_iff.mp entry.2.2.2)
    · exact absurd (of_decide_eq_true created).2.2 nofun
  · refine Entered.attend ?_
    rw [admitted_update]
    refine ⟨occupied.admitted active present waitable rfl rfl rfl ?_, _,
      getElem?_update present _, fun _ => rfl⟩
    refine Bool.eq_false_iff.mpr fun pending => ?_
    rcases Bool.or_eq_true _ _ |>.mp pending with waiting | created
    · exact absurd waiting (Bool.eq_false_iff.mp idle)
    · exact absurd (of_decide_eq_true created).2.1 (by decide)

theorem Entered.leave (entered : r.Entered slot) : (r.leave slot).1.Sound := by
  obtain ⟨sound, e, present, clean⟩ := entered
  unfold Registry.leave
  rw [entry_eq present]
  dsimp only
  split
  next failed =>
    refine sound.vacate present ?_
    by_contra listed
    exact failed.1 (clean listed)
  · exact sound

theorem Sound.register (sound : r.Sound) (info : ServiceInfo) (registration : Registration)
    (answers : Answers) : (r.register info registration answers).1.Sound := by
  unfold Registry.register
  dsimp only
  split
  · exact sound
  split
  · exact sound
  next active =>
  split
  · exact sound
  split
  · exact sound
  split
  · exact sound
  next slot search =>
    split
    · exact sound
    next room =>
      obtain ⟨bound, free, -⟩ := findIdx?_eq_some_iff_getElem.mp search
      exact (sound.enter (not_not.mp active) (getElem?_eq_getElem bound)
        (of_decide_eq_true free) room registration answers).leave

theorem Sound.returned (sound : r.Sound) (token : UInt64) : (r.mark (.returned token)).Sound := by
  have marked : (r.mark (.returned token)).Tidy := sound.toTidy.mark trivial nofun
  refine { marked, sound with kept := fun other => Iff.trans ?_ (sound.kept other) }
  refine kept_snoc.trans ?_
  simp [Mark.Drops]

/-! ## Removal -/

theorem filterMap_clear {id : UInt64} {entries : List Entry}
    (sound : ∀ e ∈ entries, e.Sound) :
    (entries.map (Entry.clear id)).filterMap Entry.listed =
      (entries.filterMap Entry.listed).filter fun info => info.registrationId ≠ id := by
  induction entries with
  | nil => rfl
  | cons e entries ih =>
    rw [forall_mem_cons] at sound
    rw [map_cons, filterMap_cons, filterMap_cons, ih sound.2]
    by_cases listed : e.status.registrationId = 0
    · have cleared : (e.clear id).listed = none := by
        unfold Entry.clear
        split
        · rfl
        · exact Entry.listed_eq_none listed
      rw [cleared, Entry.listed_eq_none listed]
    · have named := sound.1.named fun unused => listed (sound.1.free unused).1
      rw [Entry.listed_eq_some.mpr ⟨listed, rfl⟩]
      by_cases here : e.token = id
      · have cleared : (e.clear id).listed = none := by
          rw [Entry.clear, if_pos here]
          rfl
        rw [cleared]
        exact (filter_cons_of_neg (by simp [named, here])).symm
      · rw [Entry.clear, if_neg here, Entry.listed_eq_some.mpr ⟨listed, rfl⟩]
        exact (filter_cons_of_pos (by simpa [named] using here)).symm

theorem Sound.nodup_ids (sound : r.Sound) : r.snapshot.ids.Nodup := by
  unfold ServiceRegistrySnapshot.ids
  rw [(sound.services.map _).nodup_iff]
  unfold Nodup
  rw [pairwise_map, pairwise_filterMap, pairwise_iff_getElem]
  intro i j first second order info listed other found same
  obtain ⟨filled, rfl⟩ := Entry.listed_eq_some.mp listed
  obtain ⟨present, rfl⟩ := Entry.listed_eq_some.mp found
  have left := sound.entries _ (getElem_mem first)
  have right := sound.entries _ (getElem_mem second)
  have used : r.entries[i].token ≠ 0 := fun unused => filled (left.free unused).1
  rw [left.named used, right.named fun unused => present (right.free unused).1] at same
  exact absurd (sound.distinct i j _ _ (getElem?_eq_getElem first)
    (getElem?_eq_getElem second) same used) (Nat.ne_of_lt order)

/-- An entry is cleared together with its line of the snapshot. -/
theorem Sound.clear (sound : r.Sound) (id : UInt64) (services : List ServiceInfo)
    (rest : services.Perm (r.snapshot.services.filter fun info => info.registrationId ≠ id))
    (empty : r.snapshot.services = [] → services = []) :
    (({ r with entries := r.entries.map (Entry.clear id) }.mark (.unregistered id)).setServices
      services).Sound := by
  have tidy := (sound.toTidy.mark (m := .unregistered id) trivial nofun).map
      (f := Entry.clear id) (by
    intro e inside
    unfold Entry.clear
    split
    · exact ⟨Entry.sound_empty, .inr rfl, nofun⟩
    · exact ⟨sound.entries e inside, .inl rfl, fun _ => rfl⟩)
  refine ⟨{ tidy with }, ?_, fun absent => empty (sound.storage absent),
    fun inactive => empty (sound.active inactive), ?_⟩
  · change services.Perm ((r.entries.map (Entry.clear id)).filterMap Entry.listed)
    rw [filterMap_clear sound.entries]
    exact rest.trans (sound.services.filter _)
  · intro token
    refine kept_snoc.trans ?_
    rw [or_iff_right nofun, sound.kept, and_assoc]
    refine and_congr_right fun used => ⟨?_, ?_⟩
    · rintro ⟨⟨e, inside, rfl⟩, other⟩
      have token := (sound.entries e inside).listed used
      refine ⟨e, mem_map.mpr ⟨e, inside, if_neg fun here => ?_⟩, rfl⟩
      exact other (here.symm.trans token.symm)
    · rintro ⟨next, member, rfl⟩
      obtain ⟨e, inside, rfl⟩ := mem_map.mp member
      have other : e.token ≠ id := by
        intro here
        rw [Entry.clear, if_pos here] at used
        exact used rfl
      rw [Entry.clear, if_neg other] at used ⊢
      have token := (sound.entries e inside).listed used
      exact ⟨⟨e, inside, rfl⟩, fun here => other (token.symm.trans here.symm)⟩

theorem Sound.unregister (sound : r.Sound) (id : UInt64) (answers : Answers) :
    (r.unregister id answers).Sound := by
  unfold Registry.unregister
  split
  · exact sound
  dsimp only
  split
  next idle =>
    have empty : r.snapshot.services = [] := by
      rcases idle with inactive | absent
      · exact sound.active inactive
      · exact sound.storage (Bool.eq_false_iff.mpr absent)
    refine sound.clear id r.snapshot.services ?_ fun empty => empty
    rw [empty]
    exact .refl []
  split
  next search =>
    have absent : r.snapshot.services.filter (fun info => info.registrationId ≠ id) =
        r.snapshot.services := by
      rw [filter_eq_self]
      intro info inside
      have other := of_decide_eq_false (findIdx?_eq_none_iff.mp search info inside)
      exact decide_eq_true other
    refine sound.clear id r.snapshot.services ?_ fun empty => empty
    rw [absent]
  next index search =>
    obtain ⟨bound, here, -⟩ := findIdx?_eq_some_iff_getElem.mp search
    refine Sound.announce (sound.clear id _ ?_ fun empty => ?_) answers.publish
    · have erased := Keyed.eraseIdx_eq_filter sound.nodup_ids (getElem?_eq_getElem bound)
      rw [of_decide_eq_true here] at erased
      rw [← erased]
      exact Keyed.swapRemove_perm bound
    · change index < r.snapshot.services.length at bound
      rw [empty] at bound
      cases bound

theorem Sound.begin (sound : r.Sound) (pid : Int32) (ticks : UInt64) :
    (r.begin pid ticks).Sound := by
  unfold Registry.begin
  split
  · exact sound
  next inactive =>
    have services := sound.services
    rw [sound.active inactive] at services
    exact { sound with services, storage := fun _ => rfl, active := fun _ => rfl }

theorem Sound.stop (sound : r.Sound) : r.stop.Sound := { sound with }

/-- A registry without a Service. -/
theorem sound_of_empty (entries : ∀ e ∈ r.entries, e = {}) (services : r.snapshot.services = [])
    (old : ∀ token, .committed token ∈ r.trace → token ≤ r.lastId)
    (lawful : Lawful snapshotLaw r.trace) (dropped : ∀ token, ¬Kept r.trace token) : r.Sound := by
  refine ⟨⟨?_, ?_, ?_, old, ?_, lawful⟩, ?_, fun _ => services, fun _ => services, ?_⟩
  · intro e inside
    rw [entries e inside]
    exact Entry.sound_empty
  · intro e inside
    rw [entries e inside]
    exact UInt64.zero_le
  · intro i j e f first second same used
    rw [entries e (mem_of_getElem? first)] at used
    exact absurd rfl used
  · intro e inside pending
    rw [entries e inside] at pending
    cases pending
  · have unlisted : r.entries.filterMap Entry.listed = [] := by
      rw [filterMap_eq_nil_iff]
      intro e inside
      rw [entries e inside]
      rfl
    rw [services, unlisted]
  · intro token
    refine iff_of_false (dropped token) ?_
    rintro ⟨filled, e, inside, rfl⟩
    rw [entries e inside] at filled
    exact filled rfl

theorem Sound.finish (sound : r.Sound) : r.finish.Sound := by
  have marked : (r.mark .ended).Tidy := sound.toTidy.mark trivial nofun
  refine sound_of_empty (fun _ inside => (mem_replicate.mp inside).2) rfl marked.old
    marked.lawful fun token kept => ?_
  rcases kept_snoc.mp kept with committed | ⟨-, still⟩
  · cases committed
  · exact still trivial

/-! ## Whole runs -/

theorem sound_initial (process : Int32) : Sound { process } :=
  sound_of_empty (fun _ inside => (mem_replicate.mp inside).2) rfl nofun .nil
    fun _ => not_since_nil

theorem preserves_sound : serviceRegistry.Preserves Sound := by
  rintro r event _ ⟨-, rfl⟩ sound
  cases event with
  | begin pid ticks => exact sound.begin pid ticks
  | register info registration answers =>
    exact (sound.register info registration answers).returned _
  | unregister id answers => exact sound.unregister id answers
  | recover answers => exact sound.recover answers
  | stop => exact sound.stop
  | finish => exact sound.finish

theorem sound_of_reachable (reachable : serviceRegistry.Reachable r) : r.Sound := by
  refine reachable.invariant ?_ preserves_sound
  intro r initial
  rw [initial]
  exact sound_initial r.process

end Registry

/-- A committed token stands once in a lawful history. -/
theorem not_mem_of_committed {earlier later : List Mark} {token : UInt64}
    (lawful : Lawful snapshotLaw (earlier ++ .committed token :: later)) :
    .committed token ∉ earlier ∧ .committed token ∉ later := by
  refine ⟨lawful earlier _ later rfl, fun again => ?_⟩
  obtain ⟨front, back, rfl⟩ := append_of_mem again
  have once := lawful (earlier ++ .committed token :: front) (.committed token) back (by simp)
  exact once (by simp)

/-- A committed Service that is still registered stands in exactly those published
snapshots before which no snapshot has failed since the commit. -/
theorem snapshot_complete_iff {r : Registry} (reachable : serviceRegistry.Reachable r)
    {earlier middle later : List Mark} {token : UInt64} {snapshot : ServiceRegistrySnapshot}
    (history : r.trace = earlier ++ .committed token :: (middle ++ .published snapshot :: later))
    (registered : .unregistered token ∉ middle) (period : .ended ∉ middle) :
    token ∈ snapshot.ids ↔ .failed ∉ middle := by
  have lawful := (Registry.sound_of_reachable reachable).lawful
  rw [history] at lawful
  have listed := lawful (earlier ++ .committed token :: middle) (.published snapshot) later
    (by simp) token (by simp)
  rw [listed]
  constructor
  · rintro ⟨front, start, back, split, rfl, quiet⟩ failed
    -- there is only one commit, so the history since then is `middle`
    have once := not_mem_of_committed lawful
    have absent : .committed token ∉ middle := fun again => once.2 (mem_append_left _ again)
    obtain ⟨-, -, rfl⟩ := (append_cons_inj_of_notMem once.1 absent).mp split
    exact quiet _ failed trivial
  · intro clean
    refine ⟨earlier, _, middle, rfl, rfl, ?_⟩
    intro mark inside drops
    cases mark with
    | failed => exact clean inside
    | ended => exact period inside
    | unregistered other =>
      cases drops
      exact registered inside
    | published _ | committed _ | returned _ => exact drops

/-! ## An abandoned snapshot -/

/-- A Service with some port. -/
def sampleInfo (port : UInt16) : ServiceInfo where
  name := ⟨⟨47 :: replicate 240 0⟩, rfl⟩
  port := port
  requestSize := 4
  responseSize := 4

/-- Three registrations, the second of which cannot publish its snapshot. -/
def abandonedRun : Registry :=
  (((Registry.handle { process := 7 } (.begin 7 1)).handle
    (.register (sampleInfo 1) .recoverable {})).handle
    (.register (sampleInfo 2) .recoverable { publish := -Errno.eagain })).handle
    (.register (sampleInfo 3) .recoverable {})

theorem reachable_handle {r : Registry} (reachable : serviceRegistry.Reachable r)
    {event : RegistryEvent} (enabled : r.Enabled event) :
    serviceRegistry.Reachable (r.handle event) :=
  reachable.step ⟨enabled, rfl⟩

theorem abandonedRun_reachable : serviceRegistry.Reachable abandonedRun := by
  unfold abandonedRun
  refine reachable_handle ?_ trivial
  refine reachable_handle ?_ trivial
  refine reachable_handle ?_ trivial
  refine reachable_handle ?_ trivial
  exact .of_initial rfl

/-- The snapshot that lists one sample. -/
def sampleSnapshot (token revision : UInt64) (port : UInt16) : ServiceRegistrySnapshot where
  pid := 7
  processStartTicks := 1
  revision := revision
  services := [{ sampleInfo port with registrationId := token }]

theorem abandonedRun_trace : abandonedRun.trace =
    [.published (sampleSnapshot 1 1 1)] ++ .committed 1 ::
      ([.returned 1, .failed, .returned 0] ++
        .published (sampleSnapshot 3 3 3) :: [.committed 3, .returned 3]) := by
  rfl

/-- After a snapshot has failed, the next one leaves out a Service that is still
registered. -/
theorem snapshot_leaves_out_registered : ∃ r, serviceRegistry.Reachable r ∧
    ∃ earlier middle later token snapshot, token ≠ 0 ∧
      r.trace = earlier ++ .committed token :: (middle ++ .published snapshot :: later) ∧
      .returned token ∈ middle ∧ .unregistered token ∉ middle ∧ .ended ∉ middle ∧
      token ∉ snapshot.ids := by
  refine ⟨abandonedRun, abandonedRun_reachable, _, _, _, _, _, by decide, abandonedRun_trace, ?_⟩
  decide

/-- The first Service of the sample run is missing because of the failed snapshot. -/
theorem snapshot_complete_iff_abandoned :
    (1 : UInt64) ∈ (sampleSnapshot 3 3 3).ids ↔
      Mark.failed ∉ [Mark.returned 1, .failed, .returned 0] :=
  snapshot_complete_iff abandonedRun_reachable abandonedRun_trace (by decide) (by decide)

end Kcf.Introspection
