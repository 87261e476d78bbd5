import Kcf.Data.Snoc
import Kcf.Network.Control.Admission

/-!
# Requests are admitted at most once

The jobs that a node ever queued, over all connections between one `Start` and
the next.  A request is recorded in the replay record of its host before it is
queued; a record is replaced only when the host shows up as a new incarnation, a
(boot, session) pair, and a host does not return to an incarnation it has left.
-/

namespace Kcf.Network.Control

open Kcf.Transition List
open Kcf.Network.Discovery (PeerInfo)

/-! ## Replay records -/

namespace Window

/-- Some set of identifiers is what the window tracks. -/
def Sound (w : Window) : Prop := ∃ admitted, w.Tracks admitted

/-- The identifier is known to have been admitted. -/
def Knows (w : Window) (id : UInt64) : Prop := ∃ admitted, w.Tracks admitted ∧ admitted id

theorem sound_empty : Sound {} := ⟨_, tracks_empty⟩

variable {w : Window} {id other : UInt64}

theorem Sound.admitId (sound : w.Sound) (id : UInt64) : (w.admitId id).1.Sound := by
  obtain ⟨admitted, tracks⟩ := sound
  exact ⟨_, tracks.admitId id⟩

theorem Knows.admitId (knows : w.Knows other) (id : UInt64) : (w.admitId id).1.Knows other := by
  obtain ⟨admitted, tracks, known⟩ := knows
  exact ⟨_, tracks.admitId id, .inl known⟩

theorem Knows.refused (knows : w.Knows id) : (w.admitId id).2 ≠ true := by
  obtain ⟨admitted, tracks, known⟩ := knows
  intro accepted
  exact ((tracks.admitId_iff id).mp accepted).1 known

theorem Sound.knows_admitted (sound : w.Sound) (accepted : (w.admitId id).2 = true) :
    (w.admitId id).1.Knows id := by
  obtain ⟨admitted, tracks⟩ := sound
  exact ⟨_, tracks.admitId id, .inr ⟨accepted, rfl⟩⟩

end Window

/-- The high-water marks cover a frame. -/
def Seen.Covers (entry : Seen) (f : Frame) : Prop :=
  entry.session = f.sessionId ∧ f.requestId ≤ entry.last ∧
    (f.operation = .actionGoalRequest → f.goal.goalId ≤ entry.lastGoal)

/-- The windows cover a frame. -/
def ClientSeen.Covers (entry : ClientSeen) (f : Frame) : Prop :=
  entry.boot = f.source.bootId ∧ entry.session = f.sessionId ∧ entry.requests.Knows f.requestId ∧
    (f.operation = .actionGoalRequest → entry.goals.Knows f.goal.goalId)

def ClientSeen.Sound (entry : ClientSeen) : Prop := entry.requests.Sound ∧ entry.goals.Sound

/-- Two requests that no replay check lets through both. -/
def Frame.Distinct (first second : Frame) : Prop :=
  first.requestId ≠ second.requestId ∧
    (first.operation = .actionGoalRequest → second.operation = .actionGoalRequest →
      first.goal.goalId ≠ second.goal.goalId)

section

variable {entry : Seen} {f old : Frame}

theorem Seen.admitFrame_host : (entry.admitFrame f).1.host = entry.host := by
  unfold Seen.admitFrame
  split_ifs <;> rfl

theorem Seen.Covers.admitFrame (covers : entry.Covers old) : (entry.admitFrame f).1.Covers old := by
  obtain ⟨session, request, goal⟩ := covers
  unfold Seen.admitFrame
  split_ifs with low isGoal lowGoal
  · exact ⟨session, request, goal⟩
  · exact ⟨session, UInt64.le_trans request (UInt64.le_of_lt (UInt64.not_le.mp low)), goal⟩
  · exact ⟨session, UInt64.le_trans request (UInt64.le_of_lt (UInt64.not_le.mp low)),
      fun older => UInt64.le_trans (goal older) (UInt64.le_of_lt (UInt64.not_le.mp lowGoal))⟩
  · exact ⟨session, UInt64.le_trans request (UInt64.le_of_lt (UInt64.not_le.mp low)), goal⟩

/-- A frame that passes is covered afterwards. -/
theorem Seen.covers_admitted (session : entry.session = f.sessionId)
    (passed : (entry.admitFrame f).2 = true) : (entry.admitFrame f).1.Covers f := by
  unfold Seen.admitFrame at passed ⊢
  split_ifs at passed ⊢ with low isGoal lowGoal
  · exact ⟨session, UInt64.le_refl _, fun _ => UInt64.le_refl _⟩
  · exact ⟨session, UInt64.le_refl _, fun goal => absurd goal isGoal⟩

/-- A frame that passes was not covered before. -/
theorem Seen.Covers.distinct (covers : entry.Covers old) (passed : (entry.admitFrame f).2 = true) :
    old.Distinct f := by
  obtain ⟨_, request, goal⟩ := covers
  unfold Seen.admitFrame at passed
  split_ifs at passed with low isGoal lowGoal
  · refine ⟨fun same => low (same ▸ request), fun older _ same => lowGoal (same ▸ goal older)⟩
  · exact ⟨fun same => low (same ▸ request), fun _ newer => absurd newer isGoal⟩

end

section

variable {entry : ClientSeen} {f old : Frame}

theorem ClientSeen.admitFrame_host : (entry.admitFrame f).1.host = entry.host := by
  unfold ClientSeen.admitFrame
  dsimp only
  split_ifs <;> rfl

theorem ClientSeen.Sound.admitFrame (sound : entry.Sound) : (entry.admitFrame f).1.Sound := by
  unfold ClientSeen.admitFrame
  dsimp only
  split_ifs
  · exact ⟨sound.1.admitId _, sound.2⟩
  · exact ⟨sound.1.admitId _, sound.2.admitId _⟩
  · exact ⟨sound.1.admitId _, sound.2⟩

theorem ClientSeen.Covers.admitFrame (covers : entry.Covers old) :
    (entry.admitFrame f).1.Covers old := by
  obtain ⟨boot, session, request, goal⟩ := covers
  unfold ClientSeen.admitFrame
  dsimp only
  split_ifs
  · exact ⟨boot, session, request.admitId _, goal⟩
  · exact ⟨boot, session, request.admitId _, fun older => (goal older).admitId _⟩
  · exact ⟨boot, session, request.admitId _, goal⟩

theorem ClientSeen.covers_admitted (sound : entry.Sound) (boot : entry.boot = f.source.bootId)
    (session : entry.session = f.sessionId) (passed : (entry.admitFrame f).2 = true) :
    (entry.admitFrame f).1.Covers f := by
  unfold ClientSeen.admitFrame at passed ⊢
  dsimp only at passed ⊢
  split_ifs at passed ⊢ with refused isGoal
  · exact ⟨boot, session, sound.1.knows_admitted (Bool.not_eq_false _ ▸ refused),
      fun _ => sound.2.knows_admitted passed⟩
  · exact ⟨boot, session, sound.1.knows_admitted (Bool.not_eq_false _ ▸ refused),
      fun goal => absurd goal isGoal⟩

theorem ClientSeen.Covers.distinct (covers : entry.Covers old)
    (passed : (entry.admitFrame f).2 = true) : old.Distinct f := by
  obtain ⟨_, _, request, goal⟩ := covers
  unfold ClientSeen.admitFrame at passed
  dsimp only at passed
  split_ifs at passed with refused isGoal
  · exact ⟨fun same => refused (Bool.eq_false_iff.mpr (same ▸ request).refused),
      fun older _ same => (same ▸ goal older).refused passed⟩
  · exact ⟨fun same => refused (Bool.eq_false_iff.mpr (same ▸ request).refused),
      fun _ newer => absurd newer isGoal⟩

end

/-! ## Incarnations -/

/-- The snapshot of the peer table that `Receive` is handed. -/
def Event.snapshot : Event → Option (List PeerInfo)
  | .read _ peers _ => some peers
  | _ => none

/-- How a host appears in the snapshots of a run. -/
def sightings (host : HostIdentity) (events : List Event) : List PeerInfo :=
  events.filterMap fun event => event.snapshot.bind fun peers => findPeer peers host

/-- The (boot, session) pair of a peer. -/
def incarnation (peer : PeerInfo) : HostIdentity × UInt64 := (peer.bootId, peer.sessionId)

/-- The (boot, session) pair of the sender of a frame. -/
def Frame.incarnation (f : Frame) : HostIdentity × UInt64 := (f.source.bootId, f.sessionId)

/-- The incarnations of a host in the snapshots of a run. -/
def incarnations (host : HostIdentity) (events : List Event) : List (HostIdentity × UInt64) :=
  (sightings host events).map incarnation

/-- A sequence that does not come back to a value after it has changed. -/
def NeverReturns {α : Type} (values : List α) : Prop :=
  ∀ ⦃i j k : Nat⦄ ⦃value other : α⦄, i < j → j < k → values[i]? = some value →
    values[k]? = some value → values[j]? = some other → other = value

/-- Every host keeps its profile within an incarnation and does not return to an
incarnation that it has left. -/
def Steady (events : List Event) : Prop :=
  ∀ host, NeverReturns (incarnations host events) ∧
    ∀ first ∈ sightings host events, ∀ second ∈ sightings host events,
      incarnation first = incarnation second → first.profile = second.profile

variable {peer : PeerInfo}

section

variable {host : HostIdentity} {events : List Event} {key : HostIdentity × UInt64}

theorem sightings_append (host : HostIdentity) (events more : List Event) :
    sightings host (events ++ more) = sightings host events ++ sightings host more :=
  filterMap_append

theorem mem_sightings_append (seen : peer ∈ sightings host events)
    (more : List Event) : peer ∈ sightings host (events ++ more) := by
  rw [sightings_append]
  exact mem_append_left _ seen

theorem incarnations_append {index : Nat} (found : (incarnations host events)[index]? = some key)
    (more : List Event) : (incarnations host (events ++ more))[index]? = some key := by
  have inside := (List.getElem?_eq_some_iff.mp found).1
  unfold incarnations at *
  rwa [sightings_append, map_append, getElem?_append_left inside]

/-- The last incarnation of a run that ends with a snapshot of the host. -/
theorem incarnations_last {event : Event}
    (now : sightings host [event] = [peer]) :
    (incarnations host (events ++ [event]))[(incarnations host events).length]? =
      some (incarnation peer) := by
  unfold incarnations
  rw [sightings_append, now, map_append]
  simp

theorem Steady.of_append {more : List Event} (steady : Steady (events ++ more)) :
    Steady events := by
  intro host
  obtain ⟨returns, profiles⟩ := steady host
  constructor
  · intro i j k value other first second atI atK atJ
    exact returns first second (incarnations_append atI more) (incarnations_append atK more)
      (incarnations_append atJ more)
  · intro first inFirst second inSecond same
    exact profiles first (mem_sightings_append inFirst more) second
      (mem_sightings_append inSecond more) same

/-- The host was seen in an incarnation and later in another one. -/
def Departed (host : HostIdentity) (key : HostIdentity × UInt64) (events : List Event) : Prop :=
  ∃ (i j : Nat) (other : HostIdentity × UInt64), i < j ∧
    (incarnations host events)[i]? = some key ∧ (incarnations host events)[j]? = some other ∧
    other ≠ key

theorem Departed.append (departed : Departed host key events) (more : List Event) :
    Departed host key (events ++ more) := by
  obtain ⟨i, j, other, order, first, second, different⟩ := departed
  exact ⟨i, j, other, order, incarnations_append first more, incarnations_append second more,
    different⟩

/-- A host that is seen in another incarnation has left the earlier ones. -/
theorem departed_of_sighting {event : Event} {earlier : PeerInfo}
    (seen : earlier ∈ sightings host events) (now : sightings host [event] = [peer])
    (different : incarnation peer ≠ incarnation earlier) :
    Departed host (incarnation earlier) (events ++ [event]) := by
  obtain ⟨i, found⟩ := List.mem_iff_getElem?.mp (List.mem_map_of_mem (f := incarnation) seen)
  have inside := (List.getElem?_eq_some_iff.mp found).1
  exact ⟨i, (incarnations host events).length, incarnation peer, inside,
    incarnations_append found [event], incarnations_last now, different⟩

/-- A host that has left an incarnation is not seen in it again. -/
theorem Departed.not_seen {event : Event} (departed : Departed host key events)
    (steady : Steady (events ++ [event])) (now : sightings host [event] = [peer]) :
    incarnation peer ≠ key := by
  rintro rfl
  obtain ⟨i, j, other, order, first, second, different⟩ := departed
  have inside := (List.getElem?_eq_some_iff.mp second).1
  exact different ((steady host).1 order inside (incarnations_append first [event])
    (incarnations_last now) (incarnations_append second [event]))

end

/-! ## Histories -/

/-- A node and all jobs that it ever queued. -/
structure History where
  node : Node
  pushed : List Job := []

/-- The jobs that a step adds to the queue. -/
def Node.pushedBy (gateway : Gateway) (node : Node) (event : Event) : List Job :=
  (node.step gateway event).jobs.drop node.jobs.length

def History.step (gateway : Gateway) (history : History) (event : Event) : History where
  node := history.node.step gateway event
  pushed := history.pushed ++ history.node.pushedBy gateway event

/-- The runs of a node, with their jobs. -/
def recording (gateway : Gateway) : System History Event where
  initial history := history.node.Started ∧ history.pushed = []
  step history event next := history.step gateway event = next

/-- Requests of one sender: host, boot and session. -/
def Frame.SameSender (first second : Frame) : Prop :=
  first.source.host = second.source.host ∧ first.incarnation = second.incarnation

/-- Requests that meet the same replay record: the windows of an observer are those of one
boot. -/
def Frame.SameRecord (observer : Prop) (first second : Frame) : Prop :=
  first.source.host = second.source.host ∧ first.sessionId = second.sessionId ∧
    (observer → first.source.bootId = second.source.bootId)

theorem Frame.SameSender.record {first second : Frame} (same : first.SameSender second)
    (observer : Prop) : first.SameRecord observer second :=
  ⟨same.1, congrArg Prod.snd same.2, fun _ => congrArg Prod.fst same.2⟩

/-- A replay record covers a frame: the windows if its sender is an observer, the
high-water marks if not. -/
def Node.Remembers (node : Node) (f : Frame) (observer : Prop) : Prop :=
  (observer ∧ ∃ entry, Records.find ClientSeen.host node.clientSeen f.source.host = some entry ∧
    entry.Covers f) ∨
  (¬observer ∧ ∃ entry, Records.find Seen.host node.seen f.source.host = some entry ∧
    entry.Covers f)

/-! ## One replay check -/

/-- What a replay check of a frame does to the records of all frames. -/
structure Node.Registers (node next : Node) (f : Frame) (observer : Prop) (passed : Bool) :
    Prop where
  others : ∀ {g : Frame} {kind : Prop}, f.source.host ≠ g.source.host → node.Remembers g kind →
    next.Remembers g kind
  earlier : ∀ {g : Frame}, g.SameRecord observer f → node.Remembers g observer →
    next.Remembers g observer ∧ (passed = true → g.Distinct f)
  itself : passed = true → next.Remembers f observer

/-- The records of observers are sound. -/
def Node.SoundWindows (node : Node) : Prop :=
  ∀ host entry, Records.find ClientSeen.host node.clientSeen host = some entry → entry.Sound

section

variable {node next : Node} {c : Connection} {f : Frame}

theorem ClientSeen.renew_eq {entry : ClientSeen} (boot : entry.boot = f.source.bootId)
    (session : entry.session = c.session) : entry.renew c f = entry :=
  if_neg (by simp [boot, session])

/-- A looked-up record, brought to the incarnation of the frame. -/
theorem ClientSeen.renew_spec {found : ClientSeen} (sound : node.SoundWindows)
    (present : Records.lookup ClientSeen.host node.clientSeen 192
      { host := c.host, boot := f.source.bootId, session := c.session } = some found) :
    (found.renew c f).host = c.host ∧ (found.renew c f).boot = f.source.bootId ∧
      (found.renew c f).session = c.session ∧ (found.renew c f).Sound := by
  have host : found.host = c.host := Records.key_of_lookup present
  have kept : found.Sound := by
    rcases Records.lookup_cases present with old | ⟨_, rfl⟩
    · exact sound _ _ old
    · exact ⟨Window.sound_empty, Window.sound_empty⟩
  unfold ClientSeen.renew
  split
  · exact ⟨rfl, rfl, rfl, Window.sound_empty, Window.sound_empty⟩
  next same =>
    simp only [not_or, ne_eq, not_not] at same
    exact ⟨host, same.1, same.2, kept⟩

/-- A check against the windows registers a frame of an observer. -/
theorem Node.ChecksClient.registers (checks : node.ChecksClient next c f)
    (sound : node.SoundWindows) (host : c.host = f.source.host)
    (session : c.session = f.sessionId) :
    ∃ passed, node.Registers next f True passed ∧ node.Pushes next c f passed := by
  obtain ⟨found, present, seen, clientSeen, pushes⟩ := checks
  obtain ⟨owner, boot, renewed, kept⟩ := ClientSeen.renew_spec sound present
  have stored : ((found.renew c f).admitFrame f).1.host = f.source.host :=
    ClientSeen.admitFrame_host.trans (owner.trans host)
  have now : Records.find ClientSeen.host next.clientSeen f.source.host =
      some ((found.renew c f).admitFrame f).1 := by
    rw [clientSeen, ← stored]
    exact Records.find_store_self _ _
  refine ⟨_, ?_, pushes⟩
  constructor
  case others =>
    intro g kind other remembers
    rcases remembers with ⟨observer, entry, old, covers⟩ | ⟨general, entry, old, covers⟩
    · refine .inl ⟨observer, entry, ?_, covers⟩
      rwa [clientSeen, Records.find_store_ne _ _ (stored ▸ other)]
    · exact .inr ⟨general, entry, seen ▸ old, covers⟩
  case earlier =>
    rintro g ⟨sender, sameSession, boots⟩ (⟨_, entry, old, covers⟩ | ⟨general, _⟩)
    · have sameBoot := boots trivial
      have same : found = entry := by
        rcases Records.lookup_cases present with existing | ⟨absent, _⟩
        · rw [host, ← sender, old] at existing
          exact (Option.some.inj existing).symm
        · rw [host, ← sender, old] at absent
          cases absent
      have unchanged : found.renew c f = found := by
        apply ClientSeen.renew_eq
        · rw [same, covers.1, sameBoot]
        · rw [same, covers.2.1, sameSession, session]
      rw [unchanged, same] at now ⊢
      exact ⟨.inl ⟨trivial, _, sender ▸ now, covers.admitFrame⟩, fun passed =>
        covers.distinct passed⟩
    · exact absurd trivial general
  case itself =>
    intro passed
    exact .inl ⟨trivial, _, now,
      ClientSeen.covers_admitted kept boot (renewed.trans session) passed⟩

theorem Node.ChecksClient.sound (checks : node.ChecksClient next c f)
    (sound : node.SoundWindows) : next.SoundWindows := by
  obtain ⟨found, present, _, clientSeen, _⟩ := checks
  obtain ⟨_, _, _, kept⟩ := ClientSeen.renew_spec sound present
  intro host entry existing
  rw [clientSeen] at existing
  by_cases mine : ((found.renew c f).admitFrame f).1.host = host
  · rw [← mine, Records.find_store_self] at existing
    rw [← Option.some.inj existing]
    exact kept.admitFrame
  · rw [Records.find_store_ne _ _ mine] at existing
    exact sound host entry existing

/-- A check against the high-water marks registers a frame of a general gateway. -/
theorem Node.ChecksGeneral.registers (checks : node.ChecksGeneral next c f)
    (host : c.host = f.source.host) (session : c.session = f.sessionId) :
    ∃ passed, node.Registers next f False passed ∧ node.Pushes next c f passed := by
  obtain ⟨found, present, clientSeen, seen, pushes⟩ := checks
  have owner : (found.renew c).host = c.host := by
    unfold Seen.renew
    split <;> exact Records.key_of_lookup present
  have renewed : (found.renew c).session = c.session := by
    unfold Seen.renew
    split
    · rfl
    next same => exact not_not.mp same
  have stored : ((found.renew c).admitFrame f).1.host = f.source.host :=
    Seen.admitFrame_host.trans (owner.trans host)
  have now : Records.find Seen.host next.seen f.source.host =
      some ((found.renew c).admitFrame f).1 := by
    rw [seen, ← stored]
    exact Records.find_store_self _ _
  refine ⟨_, ?_, pushes⟩
  constructor
  case others =>
    intro g kind other remembers
    rcases remembers with ⟨observer, entry, old, covers⟩ | ⟨general, entry, old, covers⟩
    · exact .inl ⟨observer, entry, clientSeen ▸ old, covers⟩
    · refine .inr ⟨general, entry, ?_, covers⟩
      rwa [seen, Records.find_store_ne _ _ (stored ▸ other)]
  case earlier =>
    rintro g ⟨sender, sameSession, _⟩ (⟨observer, _⟩ | ⟨_, entry, old, covers⟩)
    · exact observer.elim
    · have same : found = entry := by
        rcases Records.lookup_cases present with existing | ⟨absent, _⟩
        · rw [host, ← sender, old] at existing
          exact (Option.some.inj existing).symm
        · rw [host, ← sender, old] at absent
          cases absent
      have unchanged : found.renew c = found := by
        refine if_neg (not_not.mpr ?_)
        rw [same, covers.1, sameSession, session]
      rw [unchanged, same] at now ⊢
      exact ⟨.inr ⟨not_false, _, sender ▸ now, covers.admitFrame⟩,
        fun passed => covers.distinct passed⟩
  case itself =>
    intro passed
    exact .inr ⟨not_false, _, now, Seen.covers_admitted (renewed.trans session) passed⟩

end

/-! ## Runs -/

/-- Nodes with the same replay records remember the same frames. -/
theorem Node.Remembers.of_eq {node next : Node} {f : Frame} {observer : Prop}
    (remembers : node.Remembers f observer) (seen : next.seen = node.seen)
    (clientSeen : next.clientSeen = node.clientSeen) : next.Remembers f observer := by
  unfold Node.Remembers
  rwa [seen, clientSeen]

/-- A job is remembered, or its sender has moved on. -/
def Node.Keeps (node : Node) (events : List Event) (f : Frame) : Prop :=
  Departed f.source.host f.incarnation events ∨
    ∃ peer ∈ sightings f.source.host events, incarnation peer = f.incarnation ∧
      node.Remembers f peer.profile.IsObserver

section

variable {events : List Event} {event : Event} {node next : Node} {f g : Frame}

theorem Node.Keeps.of_eq (keeps : node.Keeps events g) (seen : next.seen = node.seen)
    (clientSeen : next.clientSeen = node.clientSeen) : next.Keeps (events ++ [event]) g := by
  rcases keeps with departed | ⟨peer, sighted, same, remembers⟩
  · exact .inl (departed.append [event])
  · exact .inr ⟨peer, mem_sightings_append sighted [event], same, remembers.of_eq seen clientSeen⟩

/-- A check of `f` keeps what is known of an earlier job, and does not pass if the
two are not distinct. -/
theorem Node.Keeps.check (keeps : node.Keeps events g) (steady : Steady (events ++ [event]))
    (now : sightings f.source.host [event] = [peer])
    (same : incarnation peer = f.incarnation) {passed : Bool}
    (registers : node.Registers next f peer.profile.IsObserver passed) :
    next.Keeps (events ++ [event]) g ∧ (passed = true → g.SameSender f → g.Distinct f) := by
  by_cases sender : f.source.host = g.source.host
  · rw [sender] at now
    rcases keeps with departed | ⟨earlier, sighted, its, remembers⟩
    · refine ⟨.inl (departed.append [event]), fun _ both => ?_⟩
      exact absurd (same.trans both.2.symm) (departed.not_seen steady now)
    · by_cases moved : incarnation peer = incarnation earlier
      · have both : g.SameSender f := ⟨sender.symm, its.symm.trans (moved.symm.trans same)⟩
        have peerSighted : peer ∈ sightings g.source.host (events ++ [event]) := by
          rw [sightings_append, now]
          exact mem_append_right _ mem_cons_self
        have profile : earlier.profile = peer.profile :=
          (steady g.source.host).2 earlier (mem_sightings_append sighted [event]) peer
            peerSighted moved.symm
        rw [profile] at remembers
        obtain ⟨after, distinct⟩ := registers.earlier (both.record _) remembers
        exact ⟨.inr ⟨peer, peerSighted, moved.trans its, after⟩, fun passed _ => distinct passed⟩
      · refine ⟨.inl (its ▸ departed_of_sighting sighted now moved), fun _ both => ?_⟩
        exact absurd (same.trans (both.2.symm.trans its.symm)) moved
  · refine ⟨?_, fun _ both => absurd both.1.symm sender⟩
    rcases keeps with departed | ⟨earlier, sighted, its, remembers⟩
    · exact .inl (departed.append [event])
    · exact .inr ⟨earlier, mem_sightings_append sighted [event], its,
        registers.others sender remembers⟩

end

/-- What holds along a run: the jobs are pairwise distinct, and each one is still
remembered unless its sender has moved on. -/
structure History.Invariant (events : List Event) (history : History) : Prop where
  distinct : history.pushed.Pairwise fun first second =>
    first.frame.SameSender second.frame → first.frame.Distinct second.frame
  kept : ∀ job ∈ history.pushed, history.node.Keeps events job.frame
  sound : history.node.SoundWindows

variable {gateway : Gateway}

/-- The kind of a connection is that of its peer. -/
theorem Gateway.Admits.observer_iff {c : Connection} {f : Frame}
    {peers : List PeerInfo} (admits : gateway.Admits c f peers peer) :
    peer.profile.IsObserver ↔ c.diagnosticsOnly = true := by
  have serves := admits.serves
  cases limited : c.diagnosticsOnly with
  | true =>
    rw [limited] at serves
    exact iff_of_true (Config.LimitedAllowed.observer serves) rfl
  | false =>
    rw [limited] at serves
    exact iff_of_false (Config.Allowed.not_observer serves) Bool.false_ne_true

/-- The kind of a peer decides which replay check its requests meet. -/
theorem Gateway.Admits.registers {node next : Node} {c : Connection}
    {f : Frame} {peers : List PeerInfo} (admits : gateway.Admits c f peers peer)
    (checks : node.Checks next c f) (sound : node.SoundWindows) :
    ∃ passed, node.Registers next f peer.profile.IsObserver passed ∧
      node.Pushes next c f passed ∧ next.SoundWindows := by
  rcases checks with ⟨limited, client⟩ | ⟨general, marks⟩
  · obtain ⟨passed, registers, pushes⟩ := client.registers sound admits.host admits.session
    rw [eq_true (admits.observer_iff.mpr limited)]
    exact ⟨passed, registers, pushes, client.sound sound⟩
  · obtain ⟨passed, registers, pushes⟩ := marks.registers admits.host admits.session
    have observer : ¬peer.profile.IsObserver := fun observer => by
      rw [admits.observer_iff.mp observer] at general
      cases general
    rw [eq_false observer]
    refine ⟨passed, registers, pushes, ?_⟩
    obtain ⟨_, _, clientSeen, _⟩ := marks
    intro host entry existing
    exact sound host entry (clientSeen ▸ existing)

theorem History.Invariant.quiet {events : List Event} {event : Event} {history : History}
    {next : Node} (invariant : history.Invariant events) (seen : next.seen = history.node.seen)
    (clientSeen : next.clientSeen = history.node.clientSeen) :
    History.Invariant (events ++ [event]) ⟨next, history.pushed⟩ where
  distinct := invariant.distinct
  kept := fun job member => (invariant.kept job member).of_eq seen clientSeen
  sound := fun host entry existing => invariant.sound host entry (clientSeen ▸ existing)

/-- The step lemma. -/
theorem History.Invariant.step {events : List Event} {event : Event}
    {history : History} (invariant : history.Invariant events)
    (steady : Steady (events ++ [event])) :
    (history.step gateway event).Invariant (events ++ [event]) := by
  unfold History.step
  have silent {jobs : List Job} (left : (history.node.step gateway event).jobs = jobs)
      (fewer : jobs.length ≤ history.node.jobs.length) :
      history.pushed ++ history.node.pushedBy gateway event = history.pushed := by
    unfold Node.pushedBy
    rw [left, drop_eq_nil_of_le fewer, append_nil]
  have unchanged (same : (history.node.step gateway event).records = history.node.records) :
      History.Invariant (events ++ [event])
        ⟨history.node.step gateway event,
          history.pushed ++ history.node.pushedBy gateway event⟩ := by
    obtain ⟨seen, clientSeen, jobs⟩ := Node.records_eq.mp same
    rw [silent jobs (le_refl _)]
    exact invariant.quiet seen clientSeen
  rcases history.node.step_cases gateway event with (same | taken) | handed
  · exact unchanged same
  · obtain ⟨seen, clientSeen, jobs⟩ := Node.records_eq.mp taken
    rw [silent jobs (by simp)]
    exact invariant.quiet seen clientSeen
  · obtain ⟨index, peers, now, c, f, rfl, _, records⟩ := handed
    rcases gateway.receive_cases history.node c f peers now with same | ⟨peer, admits, checks⟩
    · exact unchanged (records.trans same)
    · have sighted : sightings f.source.host [.read index peers now] = [peer] := by
        simp [sightings, Event.snapshot, admits.found]
      have own : incarnation peer = f.incarnation := by
        rw [incarnation, admits.origin.1, admits.origin.2.1, Frame.incarnation]
      obtain ⟨passed, registers, pushes, sound⟩ :=
        admits.registers (checks.of_records records) invariant.sound
      have checked (job : Job) (member : job ∈ history.pushed) :=
        (invariant.kept job member).check steady sighted own registers
      rcases pushes with full | ⟨accepted, deadline, pushed⟩
      · rw [silent full (le_refl _)]
        exact ⟨invariant.distinct, fun job member => (checked job member).1, sound⟩
      · have added : history.node.pushedBy gateway (.read index peers now) =
            [⟨c.id, f, deadline⟩] := by
          unfold Node.pushedBy
          rw [pushed, drop_left]
        rw [added]
        constructor
        case distinct =>
          exact Data.pairwise_snoc invariant.distinct fun job member =>
            (checked job member).2 accepted
        case kept =>
          refine Data.forall_snoc (fun job old => (checked job old).1)
            (.inr ⟨peer, ?_, own, registers.itself accepted⟩)
          rw [sightings_append, sighted]
          exact mem_append_right _ mem_cons_self
        case sound => exact sound

/-- The run lemma. -/
theorem History.Invariant.run {events : List Event} {start finish : History}
    (initial : (recording gateway).initial start)
    (run : (recording gateway).Run start events finish) (steady : Steady events) :
    finish.Invariant events := by
  induction run with
  | nil =>
    obtain ⟨started, pushed⟩ := initial
    constructor
    case distinct =>
      rw [pushed]
      exact Pairwise.nil
    case kept =>
      rw [pushed]
      intro job member
      cases member
    case sound =>
      obtain ⟨_, _, _, _, _, _, fresh⟩ := started
      intro host entry existing
      rw [fresh] at existing
      cases existing
  | snoc _ step ih =>
    cases step
    exact (ih steady.of_append).step steady

/-- No two jobs of one sender (host, boot and session) have the same request, and
no two of its goals have the same goal, over how many connections they may come. -/
theorem requests_admitted_once {gateway : Gateway} {start finish : History} {events : List Event}
    (initial : (recording gateway).initial start)
    (run : (recording gateway).Run start events finish) (steady : Steady events) :
    finish.pushed.Pairwise fun first second =>
      first.frame.source.host = second.frame.source.host →
      first.frame.source.bootId = second.frame.source.bootId →
      first.frame.sessionId = second.frame.sessionId →
      first.frame.requestId ≠ second.frame.requestId ∧
      (first.frame.operation = .actionGoalRequest → second.frame.operation = .actionGoalRequest →
        first.frame.goal.goalId ≠ second.frame.goal.goalId) := by
  apply (History.Invariant.run initial run steady).distinct.imp
  intro first second distinct host boot session
  exact distinct ⟨host, Prod.ext boot session⟩

/-! ## A client that comes back -/

/-- A control client on the second host, in some boot. -/
def toolRuntime (boot : UInt8) : RemoteRuntimeIdentity := ⟨.ofByte 2, .ofByte boot, 100, 1⟩

def toolPeer (boot : UInt8) : PeerInfo where
  host := .ofByte 2
  bootId := .ofByte boot
  sessionId := 6
  address := ⟨0x0a000002, 37651⟩

/-- A gateway that lets the client write Parameters. -/
def toolGateway : Gateway where
  config :=
    { discovery := { host := .ofByte 1, bootId := .ofByte 9 }
      parameterSetClients := [.ofByte 2] }
  self := ⟨.ofByte 1, .ofByte 9, 200, 1⟩
  session := 5
  codec := ⟨fun _ _ => false, fun _ => none⟩

def toolHello (boot : UInt8) : Frame where
  source := toolRuntime boot
  sessionId := 6

def toolRequest (boot : UInt8) (requestId : UInt64) : Frame where
  operation := .paramSetRequest
  source := toolRuntime boot
  sessionId := 6
  requestId := requestId
  endpoint := ⟨toolGateway.self, 1⟩
  name := [47, 118]
  type := ⟨1, 1, 1, 1⟩
  timeoutMs := 1000
  payload := [7]

/-- The client connects, greets, sends one request and hangs up. -/
def toolVisit (boot : UInt8) (requestId : UInt64) : List Event :=
  [.accept 0x0a000002 0, .arrive 0 (toolHello boot).bytes, .read 0 [toolPeer boot] 0,
    .arrive 0 (toolRequest boot requestId).bytes, .read 0 [toolPeer boot] 0, .hangUp 0 false]

theorem sightings_toolVisit (host : HostIdentity) (boot : UInt8) (requestId : UInt64) :
    sightings host (toolVisit boot requestId) =
      if host = .ofByte 2 then replicate 2 (toolPeer boot) else [] := by
  have found : findPeer [toolPeer boot] host =
      if host = .ofByte 2 then some (toolPeer boot) else none := by
    unfold findPeer
    by_cases same : host = .ofByte 2
    · simp [same, toolPeer]
    · simp [same, toolPeer, Ne.symm same]
  have first : sightings host (toolVisit boot requestId) =
      [findPeer [toolPeer boot] host, findPeer [toolPeer boot] host].reduceOption := by
    simp only [sightings, toolVisit, filterMap_cons, Event.snapshot]
    rfl
  rw [first, found]
  split <;> rfl

/-- One change at most is no return. -/
theorem neverReturns_replicate {α : Type} (before after : α) (m n : Nat) :
    NeverReturns (replicate m before ++ replicate n after) := by
  have position {x : Nat} {value : α}
      (found : (replicate m before ++ replicate n after)[x]? = some value) :
      x < m ∧ value = before ∨ m ≤ x ∧ value = after := by
    rw [getElem?_append, length_replicate] at found
    split_ifs at found with inside
    · rw [getElem?_replicate_of_lt inside] at found
      exact .inl ⟨inside, (Option.some.inj found).symm⟩
    · rw [getElem?_replicate] at found
      split_ifs at found
      exact .inr ⟨not_lt.mp inside, (Option.some.inj found).symm⟩
  intro i j k value other first second atI atK atJ
  grind

/-- Visits in one boot and then in another one, within one session. -/
def toolVisits (before after : List UInt64) : List Event :=
  before.flatMap (toolVisit 8) ++ after.flatMap (toolVisit 7)

theorem sightings_flatMap_toolVisit (host : HostIdentity) (boot : UInt8) (ids : List UInt64) :
    sightings host (ids.flatMap (toolVisit boot)) =
      if host = .ofByte 2 then replicate (2 * ids.length) (toolPeer boot) else [] := by
  induction ids with
  | nil => split <;> rfl
  | cons id ids ih =>
    rw [flatMap_cons, sightings_append, sightings_toolVisit, ih]
    split
    · rw [← replicate_add, length_cons, Nat.mul_succ, Nat.add_comm]
    · rfl

theorem sightings_toolVisits (host : HostIdentity) (before after : List UInt64) :
    sightings host (toolVisits before after) =
      if host = .ofByte 2 then
        replicate (2 * before.length) (toolPeer 8) ++
          replicate (2 * after.length) (toolPeer 7)
      else [] := by
  unfold toolVisits
  rw [sightings_append, sightings_flatMap_toolVisit, sightings_flatMap_toolVisit]
  split <;> rfl

theorem profile_toolVisits {host : HostIdentity} {before after : List UInt64}
    (sighted : peer ∈ sightings host (toolVisits before after)) : peer.profile = {} := by
  rw [sightings_toolVisits] at sighted
  split at sighted
  · rcases mem_append.mp sighted with member | member <;>
      rw [eq_of_mem_replicate member] <;> rfl
  · cases sighted

theorem steady_toolVisits (before after : List UInt64) : Steady (toolVisits before after) := by
  intro host
  constructor
  · unfold incarnations
    rw [sightings_toolVisits]
    split
    · rw [map_append, map_replicate, map_replicate]
      exact neverReturns_replicate _ _ _ _
    · exact neverReturns_replicate (.zero, 0) (.zero, 0) 0 0
  · intro first inFirst second inSecond _
    rw [profile_toolVisits inFirst, profile_toolVisits inSecond]

/-- The history of these visits at the gateway. -/
def toolHistory (before after : List UInt64) : History :=
  (toolVisits before after).foldl (History.step toolGateway) ⟨{}, []⟩

theorem toolHistory_run (before after : List UInt64) :
    (recording toolGateway).Run ⟨{}, []⟩ (toolVisits before after) (toolHistory before after) :=
  System.Run.foldl (fun _ _ => rfl) _ _

theorem toolHistory_initial : (recording toolGateway).initial ⟨{}, []⟩ :=
  ⟨⟨_, _, _, _, _, _, rfl⟩, rfl⟩

/-- The client repeats its first request over a second connection; only the third
one brings another job. -/
theorem requests_admitted_once_reconnect : (toolHistory [1, 1, 2] []).pushed.length = 2 ∧
    (toolHistory [1, 1, 2] []).pushed.Pairwise fun first second =>
      first.frame.source.host = second.frame.source.host →
      first.frame.source.bootId = second.frame.source.bootId →
      first.frame.sessionId = second.frame.sessionId →
      first.frame.requestId ≠ second.frame.requestId ∧
      (first.frame.operation = .actionGoalRequest →
        second.frame.operation = .actionGoalRequest →
        first.frame.goal.goalId ≠ second.frame.goal.goalId) :=
  ⟨by decide +kernel,
    requests_admitted_once toolHistory_initial (toolHistory_run _ _) (steady_toolVisits _ _)⟩

/-- A new boot brings the same request in again, although the session is the same:
the windows are those of one boot and one session. -/
theorem reboot_repeats_request : ∃ start finish events,
    (recording toolGateway).initial start ∧ (recording toolGateway).Run start events finish ∧
      Steady events ∧
      (∀ host, ∀ first ∈ sightings host events, ∀ second ∈ sightings host events,
        first.sessionId = second.sessionId → first.profile = second.profile) ∧
      ¬finish.pushed.Pairwise fun first second =>
        first.frame.source.host = second.frame.source.host →
        first.frame.sessionId = second.frame.sessionId →
        first.frame.requestId ≠ second.frame.requestId := by
  refine ⟨_, _, _, toolHistory_initial, toolHistory_run [1] [1], steady_toolVisits _ _, ?_,
    by decide +kernel⟩
  intro host first inFirst second inSecond _
  rw [profile_toolVisits inFirst, profile_toolVisits inSecond]

end Kcf.Network.Control
