import Kcf.Action.Server
import Kcf.Data.Counter
import Kcf.Data.Snoc

/-!
# Publication of the status

`Flush` lets one thread drain for all: it publishes without the lock and looks again for
a newer revision afterwards.  A snapshot is always the status after one change, and no
thread can publish an older one after a newer one.  The re-check compares 64-bit counters,
so it can miss changes, but only if there were 2^64 of them.
-/

namespace Kcf.Action

open List Function
open Kcf.Network (ActionState)
open Kcf.Transition

/-- The snapshot is the status after one change, with the revision of that change. -/
structure Snapshot.Captured {Feedback : Type} (held : List (Header × Feedback))
    (snapshot : Snapshot Feedback) : Prop where
  status : held[snapshot.change]? = some (snapshot.header, snapshot.feedback)
  revision : snapshot.revision = .ofNat snapshot.change

theorem Snapshot.Captured.mono {Feedback : Type} {held later : List (Header × Feedback)}
    {snapshot : Snapshot Feedback} (captured : snapshot.Captured held) (more : held <+: later) :
    snapshot.Captured later where
  status := by
    obtain ⟨rest, rfl⟩ := more
    obtain ⟨inside, _⟩ := List.getElem?_eq_some_iff.mp captured.status
    rw [getElem?_append_left inside, captured.status]
  revision := captured.revision

/-! ## Threads -/

namespace Thread

variable {Goal Feedback : Type}

/-- The number of the change that the thread has made. -/
def own : Thread Goal Feedback → Option Nat
  | idle | deciding _ _ => none
  | canceling _ own | flushing own | publishing own _ | checking own _ _ => some own

/-- The snapshot that the thread publishes. -/
def snapshot : Thread Goal Feedback → Option (Snapshot Feedback)
  | publishing _ snapshot | checking _ snapshot _ => some snapshot
  | idle | deciding _ _ | canceling _ _ | flushing _ => none

/-- The thread has made a change and has not been in `Flush` since. -/
def IsPending : Thread Goal Feedback → Bool
  | canceling _ _ | flushing _ => true
  | idle | deciding _ _ | publishing _ _ | checking _ _ _ => false

/-- What holds of a thread: its snapshot is the status after one change, not before its own
change and not before what was published. -/
structure Sound (held : List (Header × Feedback)) (published : List (Snapshot Feedback))
    (changes : Nat) (thread : Thread Goal Feedback) : Prop where
  own : ∀ own, thread.own = some own → own ≤ changes
  captured : ∀ snapshot, thread.snapshot = some snapshot → snapshot.Captured held
  covers : ∀ own snapshot, thread.own = some own → thread.snapshot = some snapshot →
    own ≤ snapshot.change
  newest : ∀ snapshot, thread.snapshot = some snapshot →
    ∀ old ∈ published, old.change ≤ snapshot.change
  success : ∀ own snapshot, thread = .checking own snapshot 0 →
    published.getLast? = some snapshot

variable {held later : List (Header × Feedback)} {published : List (Snapshot Feedback)}
variable {changes : Nat} {thread : Thread Goal Feedback}

theorem Sound.idle : (Thread.idle : Thread Goal Feedback).Sound held published changes :=
  ⟨nofun, nofun, nofun, nofun, nofun⟩

/-- A thread outside of the loop of `Flush`. -/
theorem Sound.of_own (outside : thread.snapshot = none)
    (bounded : ∀ own, thread.own = some own → own ≤ changes) :
    thread.Sound held published changes := by
  refine ⟨bounded, ?_, ?_, ?_, ?_⟩
  · intro snapshot inside
    cases outside.symm.trans inside
  · intro own snapshot _ inside
    cases outside.symm.trans inside
  · intro snapshot inside
    cases outside.symm.trans inside
  · rintro own snapshot rfl
    cases outside

theorem Sound.mono {changes' : Nat} (sound : thread.Sound held published changes)
    (more : held <+: later) (newer : changes ≤ changes') :
    thread.Sound later published changes' where
  own := fun own has => (sound.own own has).trans newer
  captured := fun snapshot has => (sound.captured snapshot has).mono more
  __ := sound

/-- The threads in the loop of `Flush` are this one, or none. -/
def DrainedBy {ι : Type} (threads : Option ι → Thread Goal Feedback)
    (drainer : Option (Option ι)) : Prop :=
  ∀ thread, (threads thread).snapshot.isSome = true ↔ drainer = some thread

section

variable {ι : Type} [DecidableEq ι]

variable {threads : Option ι → Thread Goal Feedback} {thread : Option ι}
  {place : Thread Goal Feedback}

theorem drainedBy_update {before after : Option (Option ι)} (drained : DrainedBy threads before)
    (here : place.snapshot.isSome = true ↔ after = some thread)
    (others : ∀ other, other ≠ thread → (after = some other ↔ before = some other)) :
    DrainedBy (update threads thread place) after := by
  intro other
  by_cases same : other = thread
  · rw [same, update_self, here]
  · rw [update_of_ne same, drained, others other same]

theorem sound_update {changes' : Nat}
    (sound : ∀ thread, (threads thread).Sound held published changes)
    (more : held <+: later) (newer : changes ≤ changes')
    (here : place.Sound later published changes') (other : Option ι) :
    (update threads thread place other).Sound later published changes' := by
  by_cases same : other = thread
  · rw [same, update_self]
    exact here
  · rw [update_of_ne same]
    exact (sound other).mono more newer

theorem pending_update (pending : ∃ other, (threads other).IsPending = true)
    (moved : (threads thread).IsPending = false) :
    ∃ other, (update threads thread place other).IsPending = true := by
  obtain ⟨other, waits⟩ := pending
  refine ⟨other, ?_⟩
  have different : other ≠ thread := by
    rintro rfl
    cases moved.symm.trans waits
  rw [update_of_ne different]
  exact waits

theorem snapshot_update {property : Snapshot Feedback → Prop}
    (here : ∀ snapshot, place.snapshot = some snapshot → property snapshot)
    (others : ∀ other ≠ thread, ∀ snapshot, (threads other).snapshot = some snapshot →
      property snapshot) :
    ∀ other snapshot, (update threads thread place other).snapshot = some snapshot →
      property snapshot :=
  (forall_update_iff threads fun _ moved => ∀ snapshot, moved.snapshot = some snapshot →
    property snapshot).mpr ⟨here, others⟩

theorem success_update
    (success : ∀ other own snapshot code, threads other = .checking own snapshot code → code = 0)
    (here : ∀ own snapshot code, place = .checking own snapshot code → code = 0)
    (other : Option ι) (own : Nat) (snapshot : Snapshot Feedback) (code : Int32)
    (checking : update threads thread place other = .checking own snapshot code) :
    code = 0 := by
  by_cases same : other = thread
  · rw [same, update_self] at checking
    exact here own snapshot code checking
  · rw [update_of_ne same] at checking
    exact success other own snapshot code checking

end

/-- A thread that has no change of its own is not on the way to publish one. -/
theorem at_rest (rest : thread.own = none) : thread.snapshot = none ∧ thread.IsPending = false := by
  cases thread with
  | idle | deciding => exact ⟨rfl, rfl⟩
  | canceling | flushing | publishing | checking => cases rest

end Thread

namespace Server

variable {ι Goal Feedback Result : Type} [Inhabited Feedback] [Inhabited Result]
variable {server next : Server ι Goal Feedback Result} {label : Label ι Goal Feedback Result}

/-- What holds between any two steps. -/
structure Tracked (server : Server ι Goal Feedback Result) : Prop where
  threads : ∀ thread,
    (server.threads thread).Sound server.held server.published server.changes
  drainer : ∃ drainer, Thread.DrainedBy server.threads drainer ∧
    server.core.publishing = drainer.isSome
  length_held : server.held.length = server.changes + 1
  current : server.snapshot.Captured server.held
  published : ∀ snapshot ∈ server.published, snapshot.Captured server.held
  ordered : server.published.Pairwise fun first second => first.change ≤ second.change
  returned : ∀ result ∈ server.returned, result.2.1 ≤ server.changes

variable {snapshot : Snapshot Feedback} {own : Nat} {thread : Option ι}
  {place : Thread Goal Feedback}

section

variable (tracked : server.Tracked)
include tracked

theorem Tracked.change_le (captured : snapshot.Captured server.held) :
    snapshot.change ≤ server.changes := by
  obtain ⟨inside, _⟩ := List.getElem?_eq_some_iff.mp captured.status
  rw [tracked.length_held] at inside
  exact Nat.le_of_lt_succ inside

/-- A snapshot with the current revision is the current status, unless the counter wraps. -/
theorem Tracked.change_eq (few : server.changes < 2 ^ 64)
    (captured : snapshot.Captured server.held)
    (same : snapshot.revision = server.core.revision) : snapshot.change = server.changes := by
  have current : server.core.revision = .ofNat server.changes := tracked.current.revision
  rw [captured.revision, current] at same
  exact Data.UInt64.ofNat_inj ((tracked.change_le captured).trans_lt few) few same

theorem Tracked.publishing_iff :
    server.core.publishing = true ↔ ∃ thread, (server.threads thread).snapshot.isSome = true := by
  obtain ⟨drainer, drained, flag⟩ := tracked.drainer
  rw [flag, Option.isSome_iff_exists]
  exact exists_congr fun thread => (drained thread).symm

/-- The invariant does not read the rest of the server. -/
theorem Tracked.congr
    (same : (next.threads, next.snapshot, next.core.publishing, next.held, next.published,
        next.returned) =
      (server.threads, server.snapshot, server.core.publishing, server.held, server.published,
        server.returned)) :
    next.Tracked := by
  simp only [Prod.mk.injEq] at same
  obtain ⟨threads, snapshot, publishing, held, published, returned⟩ := same
  have changes : next.changes = server.changes := congrArg Snapshot.change snapshot
  constructor
  case threads => rw [threads, changes, held, published]; exact tracked.threads
  case drainer => rw [threads, publishing]; exact tracked.drainer
  case length_held => rw [held, changes]; exact tracked.length_held
  case current => rw [held, snapshot]; exact tracked.current
  case published => rw [held, published]; exact tracked.published
  case ordered => rw [published]; exact tracked.ordered
  case returned => rw [returned, changes]; exact tracked.returned

/-- Nobody else is in the loop of `Flush`. -/
theorem Tracked.alone {thread other : Option ι}
    (inside : (server.threads thread).snapshot.isSome = true) (different : other ≠ thread) :
    (server.threads other).snapshot = none := by
  obtain ⟨drainer, drained, _⟩ := tracked.drainer
  by_contra also
  have first := (drained thread).mp inside
  have second := (drained other).mp (Option.isSome_iff_ne_none.mpr also)
  exact different (Option.some.inj (second.symm.trans first))

/-- The current status is a snapshot that may be published. -/
theorem Tracked.sound_snapshot (bounded : own ≤ server.changes) :
    (Thread.publishing own server.snapshot : Thread Goal Feedback).Sound server.held
      server.published server.changes where
  own := by
    rintro _ ⟨⟩
    exact bounded
  captured := by
    rintro _ ⟨⟩
    exact tracked.current
  covers := by
    rintro _ _ ⟨⟩ ⟨⟩
    exact bounded
  newest := by
    rintro _ ⟨⟩ old member
    exact tracked.change_le (tracked.published old member)
  success := nofun

end

/-- The change of every call that returned `0` is published. -/
def Covered (server : Server ι Goal Feedback Result) : Prop :=
  ∀ result ∈ server.returned, result.2.2 = 0 →
    ∃ last, server.published.getLast? = some last ∧ result.2.1 ≤ last.change

/-- A published status that is not older than the current one covers every call. -/
theorem Tracked.covered (tracked : server.Tracked)
    (last : server.published.getLast? = some snapshot)
    (newest : server.changes ≤ snapshot.change) : server.Covered := by
  intro result member _
  exact ⟨snapshot, last, (tracked.returned result member).trans newest⟩

/-- How often `Flush` had returned at `if (publishing) return 0` when the snapshot was
captured. -/
def joinedAt : Option (Snapshot Feedback) → Nat
  | none => 0
  | some snapshot => snapshot.joined

/-- The snapshot shows the change of every call that returned `0`, or there are calls that
left their change to another thread since it was captured. -/
structure Accounts (server : Server ι Goal Feedback Result) (mark : Option (Snapshot Feedback)) :
    Prop where
  joined : joinedAt mark ≤ server.joined
  returned : ∀ result ∈ server.returned, result.2.2 = 0 →
    (∃ snapshot, mark = some snapshot ∧ result.2.1 ≤ snapshot.change) ∨
      joinedAt mark < server.joined

theorem Tracked.accounts (tracked : server.Tracked) : server.Accounts (some server.snapshot) where
  joined := Nat.le_refl _
  returned := fun result member _ => .inl ⟨_, rfl, tracked.returned result member⟩

theorem Accounts.congr {mark : Option (Snapshot Feedback)} (accounts : server.Accounts mark)
    (joined : next.joined = server.joined) (returned : next.returned = server.returned) :
    next.Accounts mark where
  joined := by rw [joined]; exact accounts.joined
  returned := by rw [joined, returned]; exact accounts.returned

theorem Accounts.covered (accounts : server.Accounts server.published.getLast?)
    (undisturbed : server.joined = joinedAt server.published.getLast?) : server.Covered := by
  intro result member success
  rcases accounts.returned result member success with shown | later
  · exact shown
  · rw [undisturbed] at later
    exact absurd later (Nat.lt_irrefl _)

variable [DecidableEq ι]

section

variable (tracked : server.Tracked)
include tracked

/-- A thread stays outside, or inside, of the loop of `Flush`. -/
theorem Tracked.drainer_kept
    (same : (server.threads thread).snapshot.isSome = place.snapshot.isSome) :
    ∃ drainer, Thread.DrainedBy (update server.threads thread place) drainer ∧
      server.core.publishing = drainer.isSome := by
  obtain ⟨drainer, drained, flag⟩ := tracked.drainer
  refine ⟨drainer, Thread.drainedBy_update drained ?_ fun _ _ => Iff.rfl, flag⟩
  rw [← drained thread, same]

/-- A thread outside of the loop of `Flush` moves. -/
theorem Tracked.goto (before : (server.threads thread).snapshot = none)
    (after : place.snapshot = none)
    (bounded : ∀ own, place.own = some own → own ≤ server.changes) :
    (server.goto thread place).Tracked where
  threads := Thread.sound_update tracked.threads (prefix_refl _) (Nat.le_refl _)
    (.of_own after bounded)
  drainer := tracked.drainer_kept (by rw [before, after])
  __ := tracked

/-- A change of the status, by a thread that has to `Flush` it. -/
theorem Tracked.commit {core : Core Goal Feedback Result}
    (revision : core.revision = server.core.revision + 1)
    (publishing : core.publishing = server.core.publishing)
    (before : (server.threads thread).snapshot = none) (after : place.snapshot = none)
    (own : place.own = some (server.changes + 1)) :
    ((server.commit core).goto thread place).Tracked where
  threads := by
    refine Thread.sound_update tracked.threads (prefix_append _ _) (Nat.le_succ _)
      (.of_own after ?_)
    intro other same
    obtain rfl := Option.some.inj (own.symm.trans same)
    exact Nat.le_refl _
  drainer := by
    have same : (server.threads thread).snapshot.isSome = place.snapshot.isSome := by
      rw [before, after]
    obtain ⟨drainer, drained, flag⟩ := tracked.drainer_kept same
    exact ⟨drainer, drained, publishing.trans flag⟩
  length_held := by
    change (server.held ++ [_]).length = server.changes + 1 + 1
    rw [length_append, tracked.length_held]
    rfl
  current := by
    constructor
    · change (server.held ++ [_])[server.changes + 1]? = _
      rw [← tracked.length_held]
      exact getElem?_concat_length
    · change core.revision = .ofNat (server.changes + 1)
      rw [revision, UInt64.ofNat_add]
      exact congrArg (· + 1) tracked.current.revision
  published := fun snapshot member => (tracked.published snapshot member).mono (prefix_append _ _)
  ordered := tracked.ordered
  returned := fun result member => (tracked.returned result member).trans (Nat.le_succ _)

/-! ## `Flush` -/

theorem Tracked.returned_leave (bounded : own ≤ server.changes) (code : Int32) :
    ∀ result ∈ (server.leave thread own code).returned, result.2.1 ≤ server.changes := by
  intro result member
  rcases mem_append.mp member with old | new
  · exact tracked.returned result old
  · obtain ⟨caller, _, rfl⟩ := Option.map_eq_some_iff.mp (Option.mem_toList.mp new)
    exact bounded

/-- A call returns because another thread publishes. -/
theorem Tracked.join (before : (server.threads thread).snapshot = none)
    (bounded : own ≤ server.changes) :
    ({ server.leave thread own 0 with joined := server.joined + 1 } :
      Server ι Goal Feedback Result).Tracked where
  threads := Thread.sound_update tracked.threads (prefix_refl _) (Nat.le_refl _) .idle
  drainer := tracked.drainer_kept (by rw [before]; rfl)
  current := ⟨tracked.current.status, tracked.current.revision⟩
  returned := tracked.returned_leave bounded 0
  __ := tracked

theorem Tracked.drains (flushing : server.threads thread = .flushing own)
    (free : server.core.publishing = false) :
    ({ server.goto thread (.publishing own server.snapshot) with
        core := { server.core with publishing := true } } :
      Server ι Goal Feedback Result).Tracked where
  threads := by
    have bounded := (tracked.threads thread).own own (by rw [flushing]; rfl)
    exact Thread.sound_update tracked.threads (prefix_refl _) (Nat.le_refl _)
      (tracked.sound_snapshot bounded)
  drainer := by
    obtain ⟨drainer, drained, flag⟩ := tracked.drainer
    have nobody : drainer = none := Option.isSome_eq_false_iff.mp (flag.symm.trans free) |>
      Option.isNone_iff_eq_none.mp
    subst nobody
    refine ⟨some thread, Thread.drainedBy_update drained ⟨fun _ => rfl, fun _ => rfl⟩ ?_, rfl⟩
    intro other different
    exact ⟨fun same => absurd (Option.some.inj same).symm different, nofun⟩
  __ := tracked

/-- A thread in the loop of `Flush` goes on with a sound snapshot. -/
theorem Tracked.proceed (before : (server.threads thread).snapshot.isSome = true)
    (after : place.snapshot.isSome = true)
    (here : place.Sound server.held server.published server.changes) :
    (server.goto thread place).Tracked where
  threads := Thread.sound_update tracked.threads (prefix_refl _) (Nat.le_refl _) here
  drainer := tracked.drainer_kept (before.trans after.symm)
  __ := tracked

theorem Tracked.publish (publishing : server.threads thread = .publishing own snapshot) :
    ({ server.goto thread (.checking own snapshot 0) with
        published := server.published ++ [snapshot] } :
      Server ι Goal Feedback Result).Tracked := by
  have sound := tracked.threads thread
  rw [publishing] at sound
  have inside : (server.threads thread).snapshot.isSome = true := by rw [publishing]; rfl
  refine { tracked with
    threads := ?threads, drainer := tracked.drainer_kept inside
    published := ?published, ordered := ?ordered }
  case threads =>
    intro other
    change (update server.threads thread _ other).Sound _ _ _
    by_cases same : other = thread
    · rw [same, update_self]
      refine { sound with newest := ?_, success := ?_ }
      · rintro _ ⟨⟩ old member
        rcases Data.mem_snoc member with before | rfl
        · exact sound.newest snapshot rfl old before
        · exact Nat.le_refl _
      · rintro _ _ ⟨⟩
        exact getLast?_concat
    · rw [update_of_ne same]
      exact .of_own (tracked.alone inside same) (tracked.threads other).own
  case published =>
    exact Data.forall_snoc tracked.published (sound.captured snapshot rfl)
  case ordered =>
    exact Data.pairwise_snoc tracked.ordered (sound.newest snapshot rfl)

theorem Tracked.drained {code : Int32}
    (checking : server.threads thread = .checking own snapshot code) :
    ({ server.leave thread own code with
        core := { server.core with publishing := false } } :
      Server ι Goal Feedback Result).Tracked := by
  have inside : (server.threads thread).snapshot.isSome = true := by rw [checking]; rfl
  have bounded := (tracked.threads thread).own own (by rw [checking]; rfl)
  refine { tracked with
    threads := Thread.sound_update tracked.threads (prefix_refl _) (Nat.le_refl _) .idle
    drainer := ?_, returned := tracked.returned_leave bounded code }
  obtain ⟨drainer, drained, flag⟩ := tracked.drainer
  refine ⟨none, Thread.drainedBy_update drained ⟨nofun, nofun⟩ ?_, rfl⟩
  intro other different
  rw [(drained thread).mp inside]
  exact ⟨nofun, fun same => absurd (Option.some.inj same).symm different⟩

theorem Tracked.effect (effect : server.Effect label next) :
    next.Tracked := by
  cases effect with
  | answered | spared | looked | replied | refused => exact tracked.congr rfl
  | asked idle => exact tracked.goto (by rw [idle]; rfl) rfl nofun
  | @rejected id goal code deciding =>
    have moved : (server.goto none .idle).Tracked :=
      tracked.goto (by rw [deciding]; rfl) rfl (by nofun)
    exact moved.congr rfl
  | @accepted id goal deciding =>
    have moved : ((server.commit (server.core.accept id goal)).goto none
        (.flushing (server.changes + 1))).Tracked :=
      tracked.commit rfl rfl (by rw [deciding]; rfl) rfl rfl
    exact moved.congr rfl
  | canceling idle done =>
    obtain ⟨_, _, rfl⟩ := Core.cancelRequest_ok done
    exact tracked.commit rfl rfl (by rw [idle]; rfl) rfl rfl
  | @canceled id own threw canceling =>
    have moved : (server.goto none (.flushing own)).Tracked := by
      refine tracked.goto (by rw [canceling]; rfl) rfl ?_
      rintro _ ⟨⟩
      exact (tracked.threads none).own own (by rw [canceling]; rfl)
    exact moved.congr rfl
  | @performed thread operation core idle done =>
    obtain ⟨revision, publishing⟩ := (Core.performed done).revision
    have moved : ((server.commit core).goto (some thread)
        (.flushing (server.changes + 1))).Tracked :=
      tracked.commit revision publishing (by rw [idle]; rfl) rfl rfl
    exact moved.congr rfl
  | @joined thread own flushing =>
    refine tracked.join (by rw [flushing]; rfl) ?_
    exact (tracked.threads thread).own own (by rw [flushing]; rfl)
  | drains flushing free => exact tracked.drains flushing free
  | published publishing => exact tracked.publish publishing
  | @failed thread own snapshot code publishing failed =>
    have sound := tracked.threads thread
    rw [publishing] at sound
    refine tracked.proceed (by rw [publishing]; rfl) rfl ?_
    refine { sound with success := ?_ }
    rintro _ _ ⟨⟩
    exact absurd rfl failed
  | drained checking => exact tracked.drained checking
  | @outdated thread own snapshot checking =>
    refine tracked.proceed (by rw [checking]; rfl) rfl (tracked.sound_snapshot ?_)
    exact (tracked.threads thread).own own (by rw [checking]; rfl)

end

theorem Tracked.of_created (created : server.Created) : server.Tracked := by
  obtain ⟨creator, rfl⟩ := created
  have blank : ({} : Server ι Goal Feedback Result).Tracked := by
    refine ⟨fun _ => .idle, ⟨none, fun _ => ⟨nofun, nofun⟩, rfl⟩, rfl, ⟨rfl, rfl⟩, nofun, .nil,
      nofun⟩
  refine blank.goto rfl rfl ?_
  rintro _ ⟨⟩
  exact Nat.le_refl _

theorem Effect.changes_le (effect : server.Effect label next) :
    server.changes ≤ next.changes := by
  cases effect with
  | accepted | canceling | performed => exact Nat.le_succ _
  | _ => exact Nat.le_refl _

/-! ## If every `Publish` succeeds -/

/-- No `Publish` fails. -/
def Reliable (_ : Server ι Goal Feedback Result) (label : Label ι Goal Feedback Result) : Prop :=
  ∀ thread code, label = .publish thread code → code = 0

/-- Somebody publishes, or is going to, or the current status is published. -/
def Progress (server : Server ι Goal Feedback Result) : Prop :=
  server.core.publishing = true ∨ (∃ thread, (server.threads thread).IsPending = true) ∨
    ∃ last, server.published.getLast? = some last ∧ last.change = server.changes

/-- What holds between any two steps if every `Publish` succeeds. -/
structure Converging (server : Server ι Goal Feedback Result) : Prop where
  tracked : server.Tracked
  success : ∀ thread own snapshot code,
    server.threads thread = .checking own snapshot code → code = 0
  progress : server.changes < 2 ^ 64 → server.Progress

/-- A thread that is not waiting for `Flush` moves. -/
theorem Progress.goto (progress : server.Progress)
    (moved : (server.threads thread).IsPending = false) : (server.goto thread place).Progress := by
  rcases progress with busy | pending | done
  · exact .inl busy
  · exact .inr (.inl (Thread.pending_update pending moved))
  · exact .inr (.inr done)

theorem Converging.success_effect (converging : server.Converging)
    (reliable : server.Reliable label) (effect : server.Effect label next) :
    ∀ thread own snapshot code, next.threads thread = .checking own snapshot code → code = 0 := by
  cases effect with
  | answered | spared | looked | replied | refused => exact converging.success
  | published =>
    refine Thread.success_update converging.success ?_
    rintro _ _ _ ⟨⟩
    rfl
  | @failed thread own snapshot code _ failed => exact absurd (reliable thread code rfl) failed
  | _ => exact Thread.success_update converging.success nofun

theorem Converging.progress_effect (converging : server.Converging)
    (effect : server.Effect label next) (few : next.changes < 2 ^ 64) : next.Progress := by
  have tracked := converging.tracked
  have before := effect.changes_le.trans_lt few
  have progress := converging.progress before
  have here {threads : Option ι → Thread Goal Feedback} {thread : Option ι}
      {place : Thread Goal Feedback} (waits : place.IsPending = true) :
      ∃ other, (update threads thread place other).IsPending = true :=
    ⟨thread, by rw [update_self]; exact waits⟩
  cases effect with
  | answered | spared | looked | replied | refused => exact progress
  | asked idle => exact progress.goto (by rw [idle]; rfl)
  | @rejected id goal code deciding =>
    have moved : (server.goto none .idle).Progress := progress.goto (by rw [deciding]; rfl)
    exact moved
  | accepted | canceling | canceled | performed => exact .inr (.inl (here rfl))
  | joined _ busy => exact .inl busy
  | drains => exact .inl rfl
  | published publishing => exact .inl (tracked.publishing_iff.mpr ⟨_, by rw [publishing]; rfl⟩)
  | failed publishing => exact .inl (tracked.publishing_iff.mpr ⟨_, by rw [publishing]; rfl⟩)
  | outdated checking => exact .inl (tracked.publishing_iff.mpr ⟨_, by rw [checking]; rfl⟩)
  | @drained thread own snapshot code checking done =>
    obtain rfl := converging.success thread own snapshot code checking
    have same := done.resolve_left fun failed => failed rfl
    have sound := tracked.threads thread
    rw [checking] at sound
    have current := tracked.change_eq before (sound.captured snapshot rfl) same
    exact .inr (.inr ⟨snapshot, sound.success own snapshot rfl, current⟩)

theorem Converging.of_created (created : server.Created) : server.Converging := by
  obtain ⟨creator, rfl⟩ := created
  refine ⟨.of_created ⟨creator, rfl⟩, ?_, fun _ => .inr (.inl ⟨some creator, ?_⟩)⟩
  · intro thread own snapshot code checking
    refine Thread.success_update ?_ ?_ thread own snapshot code checking <;> nofun
  · change Thread.IsPending (update (fun _ => Thread.idle) (some creator)
      (Thread.flushing 0) (some creator)) = true
    rw [update_self]
    rfl

/-- The runs of a server whose `Publish` never fails. -/
def publishing (ι Goal Feedback Result : Type) [DecidableEq ι] [Inhabited Feedback]
    [Inhabited Result] :
    System (Server ι Goal Feedback Result) (Label ι Goal Feedback Result) :=
  (acting ι Goal Feedback Result).restrict Reliable

theorem Converging.of_reachable
    (reachable : (publishing ι Goal Feedback Result).Reachable server) : server.Converging := by
  refine reachable.invariant ?_ ?_
  · intro state created
    exact of_created created
  · rintro state label later ⟨reliable, step⟩ converging
    have effect := Effect.of_advance step
    exact ⟨converging.tracked.effect effect, converging.success_effect reliable effect,
      converging.progress_effect effect⟩

/-- If every `Publish` succeeds, one thread publishes at a time, every published status is
that after one change, and no older one is published after a newer one.  As long as there
were fewer than 2^64 changes, the revisions do not go back either, and the last status is
the current one as soon as nobody is changing or publishing it. -/
theorem status_converges (reachable : (publishing ι Goal Feedback Result).Reachable server) :
    (∀ first second, (server.threads first).snapshot.isSome = true →
        (server.threads second).snapshot.isSome = true → first = second) ∧
      server.snapshot.Captured server.held ∧
      (∀ snapshot ∈ server.published, snapshot.Captured server.held) ∧
      (server.published.Pairwise fun first second => first.change ≤ second.change) ∧
      (server.changes < 2 ^ 64 →
        (server.published.Pairwise fun first second => first.revision ≤ second.revision) ∧
        ((∀ thread, (server.threads thread).own = none) →
          ∃ last, server.published.getLast? = some last ∧
            last.header = server.core.header ∧ last.feedback = server.core.feedback)) := by
  have converging := Converging.of_reachable reachable
  have tracked := converging.tracked
  refine ⟨?_, tracked.current, tracked.published, tracked.ordered, fun few => ⟨?_, ?_⟩⟩
  · intro first second inside also
    by_contra different
    rw [tracked.alone also different] at inside
    cases inside
  · refine tracked.ordered.imp_of_mem ?_
    intro first second member also ordered
    have captured := tracked.published second also
    rw [(tracked.published first member).revision, captured.revision, UInt64.le_iff_toNat_le,
      Data.UInt64.toNat_ofNat_of_lt ((tracked.change_le captured).trans_lt few),
      Data.UInt64.toNat_ofNat_of_lt
        ((ordered.trans (tracked.change_le captured)).trans_lt few)]
    exact ordered
  · intro rest
    rcases converging.progress few with busy | ⟨thread, waits⟩ | ⟨last, found, same⟩
    · obtain ⟨thread, inside⟩ := tracked.publishing_iff.mp busy
      rw [(Thread.at_rest (rest thread)).1] at inside
      cases inside
    · cases (Thread.at_rest (rest thread)).2.symm.trans waits
    · have captured := (tracked.published last (mem_of_getLast? found)).status
      rw [same] at captured
      have equal := Option.some.inj (captured.symm.trans tracked.current.status)
      exact ⟨last, found, congrArg Prod.fst equal, congrArg Prod.snd equal⟩

/-- A change is made while another one is about to be published. -/
def joiningRun : List (Label Bool Nat Nat Nat) :=
  [.flush (some true), .publish (some true) 0, .recheck (some true), .goal 1 70, .decided 0,
    .flush none, .publish none 0, .recheck none, .replied, .operation true (.start 1),
    .flush (some true), .operation false (.publishFeedback 1 8), .flush (some false)]

/-- Both changes are published. -/
def pairRun : List (Label Bool Nat Nat Nat) :=
  joiningRun ++
    [.publish (some true) 0, .recheck (some true), .publish (some true) 0, .recheck (some true)]

/-- Not a `Publish` that fails. -/
def publishes (_ : Server Bool Nat Nat Nat) : Label Bool Nat Nat Nat → Bool
  | .publish _ code => code = 0
  | _ => true

theorem reliable_of_publishes (server : Server Bool Nat Nat Nat) (label : Label Bool Nat Nat Nat)
    (tested : server.publishes label = true) : server.Reliable label := by
  rintro thread code rfl
  exact of_decide_eq_true tested

theorem status_converges_pair : ∃ server : Server Bool Nat Nat Nat,
    (publishing Bool Nat Nat Nat).Reachable server ∧ server.changes = 3 ∧
      (server.core.header.state, server.core.feedback) = (.running, 8) ∧
      ∃ last, server.published.getLast? = some last ∧
        last.header = server.core.header ∧ last.feedback = server.core.feedback := by
  have computed : (pairRun.foldlM (advanceIf publishes) (create true)).map
        (fun server => (server.changes, (server.core.header.state, server.core.feedback),
          (server.threads none).own, (server.threads (some true)).own,
          (server.threads (some false)).own)) =
      some (3, (.running, 8), none, none, none) := by
    decide
  obtain ⟨server, run, fields⟩ := Option.map_eq_some_iff.mp computed
  simp only [Prod.mk.injEq] at fields
  obtain ⟨changes, status, service, first, second⟩ := fields
  have reachable := reachable_of_test reliable_of_publishes (.of_initial ⟨true, rfl⟩) run
  refine ⟨server, reachable, changes, Prod.ext status.1 status.2, ?_⟩
  have few : server.changes < 2 ^ 64 := by rw [changes]; decide
  apply ((status_converges reachable).2.2.2.2 few).2
  rintro (_ | _ | _)
  · exact service
  · exact second
  · exact first

/-- What the steps of a server read. -/
def view (server : Server Bool Nat Nat Nat) :=
  (server.core.header, server.core.revision, server.core.publishing, server.reply.isNone,
    server.threads none, server.threads (some true), server.threads (some false))

/-- One thread publishes the status after two changes; another one has added feedback
`count` times meanwhile. -/
def Crowded (count : Nat) (server : Server Bool Nat Nat Nat) : Prop :=
  server.view = ({ goalId := 1, state := .running, feedbackSequence := .ofNat count },
    .ofNat (count + 2), true, true, .idle,
    .publishing 2 ⟨2, 0, 2, { goalId := 1, state := .running }, 0⟩, .idle)

theorem Crowded.feed {count : Nat} {server : Server Bool Nat Nat Nat}
    (crowded : server.Crowded count) (room : count + 1 < 2 ^ 64) :
    ∃ next : Server Bool Nat Nat Nat, next.Crowded (count + 1) ∧
      [.operation false (.publishFeedback 1 0), .flush (some false)].foldlM
        (advanceIf publishes) server = some next := by
  have below : UInt64.ofNat count ≠ 0xffffffffffffffff := by
    intro full
    have same := congrArg UInt64.toNat full
    rw [Data.UInt64.toNat_ofNat_of_lt (Nat.lt_of_succ_lt room)] at same
    subst same
    exact absurd room (by decide)
  have revision : UInt64.ofNat (count + 2) + 1 = .ofNat (count + 1 + 2) :=
    (UInt64.ofNat_add (count + 2) 1).symm
  have sequence : UInt64.ofNat count + 1 = .ofNat (count + 1) := (UInt64.ofNat_add count 1).symm
  simp only [Crowded, view, Prod.mk.injEq, Option.isNone_iff_eq_none] at crowded
  simp [Crowded, view, -UInt64.ofNat_add, advanceIf, publishes, advance, mutate, Core.perform,
    Core.publishFeedback, below, Server.flush, leave, Server.goto, Server.commit, update, crowded,
    revision, sequence]

theorem crowded_reachable {count : Nat} (few : count < 2 ^ 64) :
    ∃ server : Server Bool Nat Nat Nat, server.Crowded count ∧
      (publishing Bool Nat Nat Nat).Reachable server := by
  induction count with
  | zero =>
    have computed : ((pairRun.take 11).foldlM (advanceIf publishes) (create true)).map view =
        some ({ goalId := 1, state := .running }, 2, true, true, .idle,
          .publishing 2 ⟨2, 0, 2, { goalId := 1, state := .running }, 0⟩, .idle) := by
      rfl
    obtain ⟨server, run, crowded⟩ := Option.map_eq_some_iff.mp computed
    exact ⟨server, crowded, reachable_of_test reliable_of_publishes (.of_initial ⟨true, rfl⟩) run⟩
  | succ count ih =>
    obtain ⟨server, crowded, reachable⟩ := ih (Nat.lt_of_succ_lt few)
    obtain ⟨next, more, run⟩ := crowded.feed few
    exact ⟨next, more, reachable_of_test reliable_of_publishes reachable run⟩

/-- While one thread publishes, the goal gets 2^64 - 1 feedbacks and a request to cancel it:
the revision is what it was, the thread takes its snapshot for the current status, and
nobody publishes the changes. -/
theorem status_stale : ∃ server : Server Bool Nat Nat Nat,
    (publishing Bool Nat Nat Nat).Reachable server ∧
      (∀ thread, (server.threads thread).own = none) ∧
      ∃ last, server.published.getLast? = some last ∧ last.header ≠ server.core.header := by
  obtain ⟨server, crowded, reachable⟩ :=
    crowded_reachable (show 18446744073709551615 < 2 ^ 64 by decide)
  simp only [Crowded, view, Prod.mk.injEq, Option.isNone_iff_eq_none] at crowded
  obtain ⟨next, run, rest, stale⟩ : ∃ next : Server Bool Nat Nat Nat,
      [.cancel 1, .canceled false, .flush none, .replied, .publish (some true) 0,
        .recheck (some true)].foldlM (advanceIf publishes) server = some next ∧
      (∀ thread, (next.threads thread).own = none) ∧
      ∃ last, next.published.getLast? = some last ∧ last.header ≠ next.core.header := by
    simp [advanceIf, publishes, advance, requestCancel, Core.cancelRequest, Header.IsActive,
      Server.goto, Server.commit, settleCancel, Server.flush, leave, update, Server.publish,
      recheck, crowded]
    rintro (_ | _ | _) <;> simp [crowded, Thread.own]
  exact ⟨next, reachable_of_test reliable_of_publishes reachable run, rest, stale⟩

/-! ## If `Publish` may fail -/

/-- `Flush` gives up after a `Publish` that failed. -/
def GivesUp (server : Server ι Goal Feedback Result) (label : Label ι Goal Feedback Result) :
    Prop :=
  ∃ thread own snapshot code, label = .recheck thread ∧
    server.threads thread = .checking own snapshot code ∧ code ≠ 0

/-- Whenever `Flush` gives up, no call has returned at `if (publishing) return 0` since the
last snapshot that was published was captured. -/
def Undisturbed (server : Server ι Goal Feedback Result) (label : Label ι Goal Feedback Result) :
    Prop :=
  server.GivesUp label → server.joined = joinedAt server.published.getLast?

/-- What holds between any two steps: every snapshot that is being published, and the last
one that was, accounts for the calls that returned `0`. -/
structure Reported (server : Server ι Goal Feedback Result) : Prop where
  tracked : server.Tracked
  threads : ∀ thread snapshot, (server.threads thread).snapshot = some snapshot →
    server.Accounts (some snapshot)
  last : server.Accounts server.published.getLast?
  covered : server.changes < 2 ^ 64 → server.core.publishing = false → server.Covered

theorem Accounts.join {mark : Option (Snapshot Feedback)} (accounts : server.Accounts mark) :
    ({ server.leave thread own 0 with joined := server.joined + 1 } :
      Server ι Goal Feedback Result).Accounts mark where
  joined := accounts.joined.trans (Nat.le_succ _)
  returned := fun _ _ _ => .inr (Nat.lt_succ_of_le accounts.joined)

/-- The thread that drains leaves, and its change is published or it reports the failure. -/
theorem Accounts.leave {mark : Option (Snapshot Feedback)} {code : Int32}
    (accounts : server.Accounts mark)
    (covers : code = 0 → ∃ snapshot, mark = some snapshot ∧ own ≤ snapshot.change) :
    (server.leave thread own code).Accounts mark where
  joined := accounts.joined
  returned := by
    intro result member success
    rcases mem_append.mp member with old | new
    · exact accounts.returned result old success
    · obtain ⟨caller, _, rfl⟩ := Option.map_eq_some_iff.mp (Option.mem_toList.mp new)
      exact .inl (covers success)

section

variable (reported : server.Reported)
include reported

/-- A thread moves while no call returns. -/
theorem Reported.threads_update (joined : next.joined = server.joined)
    (returned : next.returned = server.returned)
    (here : ∀ snapshot, place.snapshot = some snapshot → server.Accounts (some snapshot)) :
    ∀ other snapshot, (update server.threads thread place other).snapshot = some snapshot →
      next.Accounts (some snapshot) :=
  Thread.snapshot_update (fun snapshot has => (here snapshot has).congr joined returned)
    fun other _ snapshot has => (reported.threads other snapshot has).congr joined returned

theorem Reported.threads_effect (effect : server.Effect label next) :
    ∀ thread snapshot, (next.threads thread).snapshot = some snapshot →
      next.Accounts (some snapshot) := by
  have tracked := reported.tracked
  cases effect with
  | answered | spared | looked | replied | refused =>
    exact fun thread snapshot has => (reported.threads thread snapshot has).congr rfl rfl
  | asked | rejected | accepted | canceling | canceled | performed =>
    exact reported.threads_update rfl rfl nofun
  | joined =>
    exact Thread.snapshot_update nofun fun other _ snapshot has =>
      (reported.threads other snapshot has).join
  | drains | outdated =>
    refine reported.threads_update rfl rfl ?_
    rintro _ ⟨⟩
    exact tracked.accounts
  | @published thread own snapshot publishing | @failed thread own snapshot code publishing =>
    refine reported.threads_update rfl rfl ?_
    rintro _ ⟨⟩
    exact reported.threads thread snapshot (by rw [publishing]; rfl)
  | @drained thread own snapshot code checking =>
    -- nobody else is in the loop
    have inside : (server.threads thread).snapshot.isSome = true := by rw [checking]; rfl
    refine Thread.snapshot_update nofun ?_
    intro other different snapshot has
    cases (tracked.alone inside different).symm.trans has

theorem Reported.last_effect (effect : server.Effect label next) :
    next.Accounts next.published.getLast? := by
  have last := reported.last
  cases effect with
  | joined => exact last.join
  | @published thread own snapshot publishing =>
    have accounts := reported.threads thread snapshot (by rw [publishing]; rfl)
    change Accounts _ (server.published ++ [snapshot]).getLast?
    rw [getLast?_concat]
    exact accounts.congr rfl rfl
  | @drained thread own snapshot code checking =>
    have sound := reported.tracked.threads thread
    rw [checking] at sound
    have left : (server.leave thread own code).Accounts server.published.getLast? := by
      refine last.leave ?_
      rintro rfl
      exact ⟨snapshot, sound.success own snapshot rfl, sound.covers own snapshot rfl rfl⟩
    exact left.congr rfl rfl
  | _ => exact last.congr rfl rfl

theorem Reported.covered_effect (undisturbed : server.Undisturbed label)
    (effect : server.Effect label next) (few : next.changes < 2 ^ 64)
    (free : next.core.publishing = false) : next.Covered := by
  have tracked := reported.tracked
  have before := effect.changes_le.trans_lt few
  have covered := reported.covered before
  cases effect with
  | joined _ busy => cases busy.symm.trans free
  | drains => cases free
  | published publishing =>
    cases free.symm.trans (tracked.publishing_iff.mpr ⟨_, by rw [publishing]; rfl⟩)
  | @drained thread own snapshot code checking done =>
    by_cases failed : code ≠ 0
    · -- the call that gives up does not return `0`
      have old := reported.last.covered
        (undisturbed ⟨thread, own, snapshot, code, rfl, checking, failed⟩)
      intro result member success
      rcases mem_append.mp member with earlier | new
      · exact old result earlier success
      · obtain ⟨caller, _, rfl⟩ := Option.map_eq_some_iff.mp (Option.mem_toList.mp new)
        exact absurd success failed
    · obtain rfl := not_not.mp failed
      have sound := tracked.threads thread
      rw [checking] at sound
      have current := tracked.change_eq before (sound.captured snapshot rfl)
        (done.resolve_left failed)
      exact (tracked.drained checking).covered (sound.success own snapshot rfl)
        (Nat.le_of_eq current.symm)
  | performed _ done => exact covered ((Core.performed done).revision.2.symm.trans free)
  | canceling _ done =>
    obtain ⟨_, _, rfl⟩ := Core.cancelRequest_ok done
    exact covered free
  | _ => exact covered free

end

theorem Reported.of_created (created : server.Created) : server.Reported := by
  have tracked := Tracked.of_created created
  obtain ⟨creator, rfl⟩ := created
  refine ⟨tracked, ?_, ⟨Nat.le_refl _, nofun⟩, fun _ _ => nofun⟩
  exact Thread.snapshot_update nofun fun _ _ => nofun

/-- The runs of a server in which a `Flush` that gives up is undisturbed. -/
def reporting (ι Goal Feedback Result : Type) [DecidableEq ι] [Inhabited Feedback]
    [Inhabited Result] :
    System (Server ι Goal Feedback Result) (Label ι Goal Feedback Result) :=
  (acting ι Goal Feedback Result).restrict Undisturbed

theorem Reported.of_reachable
    (reachable : (reporting ι Goal Feedback Result).Reachable server) : server.Reported := by
  refine reachable.invariant ?_ ?_
  · intro state created
    exact of_created created
  · rintro state label later ⟨undisturbed, step⟩ reported
    have effect := Effect.of_advance step
    exact ⟨reported.tracked.effect effect, reported.threads_effect effect,
      reported.last_effect effect, reported.covered_effect undisturbed effect⟩

/-- If no call returns at `if (publishing) return 0` between the capture of the last
snapshot that is published and the end of a `Flush` that gives up, then the change of every
call that returned `0` is published as soon as nobody publishes: the last published snapshot
is the status after that change or after a later one. -/
theorem change_published (reachable : (reporting ι Goal Feedback Result).Reachable server)
    (few : server.changes < 2 ^ 64)
    (quiet : ∀ thread, (server.threads thread).snapshot = none) :
    ∀ result ∈ server.returned, result.2.2 = 0 →
      ∃ last, server.published.getLast? = some last ∧ result.2.1 ≤ last.change ∧
        last.Captured server.held := by
  have reported := Reported.of_reachable reachable
  have free : server.core.publishing = false := by
    rw [← Bool.not_eq_true, reported.tracked.publishing_iff]
    rintro ⟨thread, inside⟩
    rw [quiet thread] at inside
    cases inside
  intro result member success
  obtain ⟨last, found, shown⟩ := reported.covered few free result member success
  exact ⟨last, found, shown, reported.tracked.published last (mem_of_getLast? found)⟩

/-- A call returns `0` because another thread publishes; the `Publish` of that thread
fails, and the change stays unpublished although every thread is idle. -/
def lostRun : List (Label Bool Nat Nat Nat) :=
  joiningRun ++ [.publish (some true) (errorCode Errno.eagain), .recheck (some true)]

theorem change_lost : ∃ server : Server Bool Nat Nat Nat,
    (acting Bool Nat Nat Nat).Reachable server ∧
      (∀ thread, (server.threads thread).own = none) ∧
      (false, 3, 0) ∈ server.returned ∧ ∀ snapshot ∈ server.published, snapshot.change < 3 := by
  have computed : (lostRun.foldlM advance (create true)).map
      (fun server => (server.returned, server.published.map Snapshot.change,
        (server.threads none).own, (server.threads (some true)).own,
        (server.threads (some false)).own)) =
      some ([(true, 0, 0), (false, 3, 0), (true, 2, errorCode Errno.eagain)], [0, 1],
        none, none, none) := by
    decide
  obtain ⟨server, run, fields⟩ := Option.map_eq_some_iff.mp computed
  simp only [Prod.mk.injEq] at fields
  obtain ⟨returned, changes, service, first, second⟩ := fields
  refine ⟨server, reachable_of_advance run, ?_, ?_, ?_⟩
  · rintro (_ | _ | _)
    · exact service
    · exact second
    · exact first
  · rw [returned]
    decide
  · intro snapshot member
    have below : ∀ change ∈ ([0, 1] : List Nat), change < 3 := by decide
    apply below
    rw [← changes]
    exact mem_map_of_mem member

/-- Two changes are published by one thread; the next `Publish` of that thread fails while
nobody else makes a change. -/
def soleRun : List (Label Bool Nat Nat Nat) :=
  pairRun ++ [.operation true (.publishFeedback 1 9), .flush (some true),
    .publish (some true) (errorCode Errno.eagain), .recheck (some true)]

/-- The condition of `Undisturbed`, computed. -/
def undisturbed (server : Server Bool Nat Nat Nat) : Label Bool Nat Nat Nat → Bool
  | .recheck thread =>
    match server.threads thread with
    | .checking _ _ code => code = 0 ∨ server.joined = joinedAt server.published.getLast?
    | _ => true
  | _ => true

theorem undisturbed_of_test (server : Server Bool Nat Nat Nat) (label : Label Bool Nat Nat Nat)
    (tested : server.undisturbed label = true) : server.Undisturbed label := by
  rintro ⟨thread, own, snapshot, code, rfl, checking, failed⟩
  simp only [undisturbed, checking, decide_eq_true_eq] at tested
  exact tested.resolve_left failed

theorem change_published_sole : ∃ server : Server Bool Nat Nat Nat,
    (reporting Bool Nat Nat Nat).Reachable server ∧ server.changes = 4 ∧
      (true, 4, errorCode Errno.eagain) ∈ server.returned ∧ (false, 3, 0) ∈ server.returned ∧
      ∃ last, server.published.getLast? = some last ∧ 3 ≤ last.change ∧
        last.Captured server.held := by
  have computed : (soleRun.foldlM (advanceIf undisturbed) (create true)).map
      (fun server => (server.changes, server.returned,
        (server.threads none).snapshot, (server.threads (some true)).snapshot,
        (server.threads (some false)).snapshot)) =
      some (4, [(true, 0, 0), (false, 3, 0), (true, 2, 0), (true, 4, errorCode Errno.eagain)],
        none, none, none) := by
    rfl
  obtain ⟨server, run, fields⟩ := Option.map_eq_some_iff.mp computed
  simp only [Prod.mk.injEq] at fields
  obtain ⟨changes, returned, service, first, second⟩ := fields
  have reachable := reachable_of_test undisturbed_of_test (.of_initial ⟨true, rfl⟩) run
  have few : server.changes < 2 ^ 64 := by rw [changes]; decide
  have member : (false, 3, 0) ∈ server.returned := by rw [returned]; decide
  refine ⟨server, reachable, changes, by rw [returned]; decide, member, ?_⟩
  refine change_published reachable few ?_ _ member rfl
  rintro (_ | _ | _)
  · exact service
  · exact second
  · exact first

end Server

end Kcf.Action
