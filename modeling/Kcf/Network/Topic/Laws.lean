import Kcf.Data.Counter
import Kcf.Data.Snoc
import Kcf.Network.Topic.Worker

/-!
# What an event does to one route

Every event of the worker changes its routes one by one, takes some away, or adds
one.  The two rules of this module turn a property of single routes into a property
of all routes of the worker.
-/

namespace Kcf.Network.Topic

open Kcf.Wire List
open Discovery (PeerInfo)

/-- An element of a list in which one element was rewritten. -/
theorem mem_modify {α : Type} {f : α → α} {list : List α} {index : Nat} {x : α}
    (member : x ∈ list.modify index f) : x ∈ list ∨ ∃ y ∈ list, x = f y := by
  obtain ⟨position, found⟩ := mem_iff_getElem?.mp member
  rw [getElem?_modify] at found
  obtain ⟨y, before, rfl⟩ := Option.map_eq_some_iff.mp found
  split
  · exact .inr ⟨y, mem_of_getElem? before, rfl⟩
  · exact .inl (mem_of_getElem? before)

/-- An element of a list that was rewritten position by position. -/
theorem mem_mapIdx {α β : Type} {f : Nat → α → β} {list : List α} {x : β}
    (member : x ∈ list.mapIdx f) : ∃ index, ∃ y ∈ list, x = f index y := by
  obtain ⟨index, bound, rfl⟩ := List.mem_mapIdx.mp member
  exact ⟨index, _, List.getElem_mem bound, rfl⟩

/-- The two endpoints of a route. -/
def Packet.pair (p : Packet) : RemoteEndpointIdentity × RemoteEndpointIdentity :=
  (p.source, p.destination)

theorem samePair_iff {a b : Packet} : SamePair a b ↔ a.pair = b.pair := by
  rw [Packet.pair, Packet.pair, Prod.mk.injEq, SamePair]

theorem Outgoing.lapse_packet (now : Int) (r : Outgoing) : (r.lapse now).packet = r.packet := by
  unfold Outgoing.lapse
  split <;> rfl

/-! ## The search for sources and consumers -/

/-- A source and a consumer that `Refresh` connects. -/
structure Offer (w : Worker) (name : Bytes) (source : NetworkEndpointMetadata) (owner : PeerInfo)
    (consumer : LocalEndpoint) : Prop where
  owned : owner ∈ w.peers
  ready : owner.metadataReady = true
  listed : source ∈ owner.endpoints
  named : source.name = name
  here : consumer ∈ w.entries
  gate : Gate w.setup.discovery owner consumer.metadata source.identity

/-- What a search has found is an endpoint of one of the peers it went through. -/
structure Search.Sound (peers : List PeerInfo) (name : Bytes) (search : Search) : Prop where
  found : ∀ source owner, search.found = some (source, owner) →
    owner ∈ peers ∧ owner.metadataReady = true ∧ source ∈ owner.endpoints ∧ source.name = name

variable {name : Bytes}

theorem Search.Sound.visit {setup : Setup} {peers : List PeerInfo}
    {peer : PeerInfo} {search : Search} {endpoint : NetworkEndpointMetadata}
    (sound : search.Sound peers name) (known : peer ∈ peers) (listed : endpoint ∈ peer.endpoints) :
    (search.visit setup name peer endpoint).Sound peers name := by
  unfold Search.visit
  split
  · exact sound
  next candidate =>
    dsimp only
    split
    · exact ⟨sound.found⟩
    split
    · exact ⟨sound.found⟩
    refine ⟨fun source owner equal => ?_⟩
    cases equal
    simp only [not_or, not_not] at candidate
    exact ⟨known, candidate.2.2, listed, candidate.1⟩

theorem search_sound (setup : Setup) (peers : List PeerInfo) (name : Bytes)
    (notices : List TopicRouteInfo) : (search setup peers name notices).Sound peers name := by
  have begun : Search.Sound peers name { notices } := by
    refine ⟨fun source owner equal => ?_⟩
    simp at equal
  refine foldlRecOn peers _ begun fun found sound peer known => ?_
  refine foldlRecOn peer.endpoints _ sound fun found sound endpoint listed => ?_
  exact sound.visit known listed

/-- The chosen consumer is a local endpoint that passes the gate. -/
def Choice.Sound (setup : Setup) (entries : List LocalEndpoint) (source : NetworkEndpointMetadata)
    (owner : PeerInfo) (choice : Choice) : Prop :=
  ∀ consumer, choice.consumer = some consumer →
    consumer ∈ entries ∧ Gate setup.discovery owner consumer.metadata source.identity

variable {source : NetworkEndpointMetadata}

theorem Choice.Sound.visit {setup : Setup} {entries : List LocalEndpoint}
    {owner : PeerInfo} {descriptor : TypeDescriptor}
    {validated : Nat → Int32} {choice : Choice} {entry : LocalEndpoint × Nat}
    (sound : choice.Sound setup entries source owner) (known : entry.1 ∈ entries) :
    (choice.visit setup name source owner descriptor validated entry).Sound setup entries source
      owner := by
  unfold Choice.visit
  split
  · exact sound
  split
  · exact sound
  next gate =>
    have passes := not_not.mp gate
    have chosen : Choice.Sound setup entries source owner
        { choice with consumer := some entry.1 } := by
      intro consumer equal
      cases equal
      exact ⟨known, passes⟩
    split
    · exact sound
    split
    · exact sound
    split
    · exact chosen
    split
    · exact chosen
    · exact sound

theorem choice_sound (w : Worker) (name : Bytes) (source : NetworkEndpointMetadata)
    (owner : PeerInfo) (descriptor : TypeDescriptor) (validated : Nat → Int32)
    (notices : List TopicRouteInfo) :
    (w.entries.zipIdx.foldl (Choice.visit w.setup name source owner descriptor validated)
      { notices }).Sound w.setup w.entries source owner := by
  have begun : Choice.Sound w.setup w.entries source owner { notices } := by
    intro consumer equal
    simp at equal
  refine foldlRecOn w.entries.zipIdx _ begun fun choice sound entry listed => ?_
  exact sound.visit (mem_of_getElem? (mem_zipIdx_iff_getElem?.mp listed))

/-! ## Receiving routes -/

namespace Incoming

/-- A change of the counters that no account of packets takes part in. -/
def Unaccounted (counters : RouteCounters → RouteCounters) : Prop :=
  ∀ c, (counters c).packetsReceived = c.packetsReceived ∧
    (counters c).missedSequence = c.missedSequence ∧
    (counters c).samplesPublished = c.samplesPublished ∧ (counters c).dropped = c.dropped

/-- `Data` refuses a packet, or it accepts one that is newer in both counts. -/
theorem data_cases (discovery : Discovery.Config) (little : Bool) (packet : Packet)
    (peer : PeerInfo) (r : Incoming) :
    (∃ counters, Unaccounted counters ∧
      (r.data discovery little packet peer).1 = r.count counters) ∨
    (r.packet.sequence < packet.sequence ∧ r.packet.sampleSequence < packet.sampleSequence ∧
      (r.data discovery little packet peer).1 = r.accept packet) := by
  have malformed : Unaccounted fun c => { c with malformed := c.malformed + 1 } :=
    fun _ => ⟨rfl, rfl, rfl, rfl⟩
  have duplicate : Unaccounted fun c => { c with duplicate := c.duplicate + 1 } :=
    fun _ => ⟨rfl, rfl, rfl, rfl⟩
  have outOfOrder : Unaccounted fun c => { c with outOfOrder := c.outOfOrder + 1 } :=
    fun _ => ⟨rfl, rfl, rfl, rfl⟩
  unfold Incoming.data
  dsimp only
  split
  · exact .inl ⟨_, malformed, rfl⟩
  split
  · exact .inl ⟨_, duplicate, rfl⟩
  next other =>
    split
    · exact .inl ⟨_, outOfOrder, rfl⟩
    next ordered =>
      split
      · exact .inl ⟨_, malformed, rfl⟩
      · simp only [not_or, UInt64.not_lt, UInt64.not_le] at ordered
        exact .inr ⟨UInt64.lt_of_le_of_ne ordered.1 (Ne.symm other), ordered.2, rfl⟩

/-- `Deliver` empties `latest` and counts the packet as dropped or as published. -/
theorem deliver_cases (little : Bool) (answer : DeliverAnswer) (r : Incoming) :
    r.latest = none ∧ r.deliver little answer = r ∨
      ∃ packet, r.latest = some packet ∧ ∃ error state counters,
        r.deliver little answer =
          { r with latest := none, stats := { r.stats with error, state, counters } } ∧
        (counters = { r.stats.counters with dropped := r.stats.counters.dropped + 1 } ∨
          counters =
            { r.stats.counters with
              samplesPublished := r.stats.counters.samplesPublished + 1 }) := by
  unfold Incoming.deliver
  split
  next held => exact .inl ⟨held, rfl⟩
  next packet held =>
    dsimp only
    split
    · exact .inr ⟨packet, held, _, _, _, rfl, .inl rfl⟩
    · exact .inr ⟨packet, held, _, _, _, rfl, .inr rfl⟩

/-- `Transmit` changes the time of the next `INTEREST` and the error of the route. -/
theorem request_cases (discovery : Discovery.Config) (peers : List PeerInfo) (now : Int)
    (sent : Int32) (r : Incoming) :
    r.request discovery peers now sent = r ∨
      ∃ interest error,
        r.request discovery peers now sent =
          { r with interest, stats := { r.stats with error } } := by
  unfold Incoming.request
  split
  · exact .inl rfl
  dsimp only
  split
  · exact .inr ⟨_, _, rfl⟩
  · exact .inr ⟨_, r.stats.error, rfl⟩

end Incoming

/-- The route that `Refresh` adds. -/
def newRoute (w : Worker) (name : Bytes) (source : NetworkEndpointMetadata) (owner : PeerInfo)
    (consumer : LocalEndpoint) (proxy : Nat) (routeId : UInt64) : Incoming :=
  let packet := w.routePacket name source owner consumer routeId
  { packet, consumer, proxy, stats := packet.info false }

/-- A property of receiving routes that everything but their creation keeps. -/
structure Incoming.Rule (property : Incoming → Prop) : Prop where
  retarget : ∀ r consumer, property r → property { r with consumer }
  data : ∀ discovery little packet peer r, property r →
    property (Incoming.data discovery little packet peer r).1
  deliver : ∀ little answer r, property r → property (Incoming.deliver little answer r)
  request : ∀ discovery peers now sent r, property r →
    property (Incoming.request discovery peers now sent r)

section Draft

variable {property : Incoming → Prop} {w : Worker} {answers : Answers} {draft : Draft}

/-- All routes of a draft have the property. -/
def Draft.All (property : Incoming → Prop) (draft : Draft) : Prop :=
  ∀ r ∈ draft.incoming, property r.1

theorem Draft.All.enroll {owner : PeerInfo}
    {proxy : Nat} {consumer : LocalEndpoint} (rule : Incoming.Rule property)
    (all : draft.All property)
    (fresh : ∀ routeId, routeId ≠ 0 →
      property (newRoute w name source owner consumer proxy routeId)) :
    (draft.enroll w name source owner proxy consumer).All property := by
  unfold Draft.enroll
  dsimp only
  split
  · intro r member
    rcases mem_modify member with old | ⟨before, old, rfl⟩
    · exact all r old
    · exact rule.retarget _ consumer (all before old)
  split
  · exact all
  next free =>
    have positive : draft.nextRoute + 1 ≠ 0 := by
      have limit : draft.nextRoute ≠ 0xffffffffffffffff := fun full => free (.inr full)
      have counted := Data.UInt64.lt_add_one limit
      intro zero
      rw [zero] at counted
      exact absurd counted (UInt64.not_lt_zero)
    exact Data.forall_snoc all (fresh _ positive)

theorem Draft.All.attach {owner : PeerInfo}
    {descriptor : TypeDescriptor} (rule : Incoming.Rule property) (all : draft.All property)
    (owned : owner ∈ w.peers) (ready : owner.metadataReady = true)
    (listed : source ∈ owner.endpoints) (named : source.name = name)
    (fresh : ∀ consumer proxy routeId, Offer w name source owner consumer → routeId ≠ 0 →
      property (newRoute w name source owner consumer proxy routeId)) :
    (draft.attach w answers name source owner descriptor).All property := by
  unfold Draft.attach
  split
  · exact all
  next proxy proxies _ =>
    have sound := choice_sound w name source owner descriptor (answers.validated name) draft.notices
    dsimp only
    split
    · exact all
    next consumer chosen =>
      obtain ⟨here, gate⟩ := sound consumer chosen
      exact Draft.All.enroll rule all fun routeId =>
        fresh consumer proxy routeId ⟨owned, ready, listed, named, here, gate⟩

theorem Draft.All.visit (rule : Incoming.Rule property) (all : draft.All property)
    (fresh : ∀ source owner consumer proxy routeId, Offer w name source owner consumer →
      routeId ≠ 0 → property (newRoute w name source owner consumer proxy routeId)) :
    (draft.visit w answers name).All property := by
  have sound := search_sound w.setup w.peers name draft.notices
  unfold Draft.visit
  dsimp only
  split
  · exact all
  next source owner found =>
    obtain ⟨owned, ready, listed, named⟩ := sound.found source owner found
    split
    · exact all
    split
    · exact all
    split
    · split <;> exact all
    · exact Draft.All.attach rule all owned ready listed named (fresh source owner)

end Draft

/-! ## Frames -/

/-- What the events leave alone that only close subscriptions. -/
structure Worker.Closes (w next : Worker) : Prop where
  setup : next.setup = w.setup
  session : next.session = w.session
  running : next.running = w.running
  peers : next.peers = w.peers
  entries : next.entries = w.entries
  outgoing : next.outgoing = w.outgoing
  notices : next.notices = w.notices
  nextRoute : next.nextRoute = w.nextRoute
  published : next.published = w.published
  incoming : next.incoming.Sublist w.incoming
  history : ∃ closed, (∀ info ∈ closed, ∃ r ∈ w.incoming, info = r.stats) ∧
    next.history = archiveAll w.history closed

theorem Worker.Closes.refl (w : Worker) : w.Closes w :=
  ⟨rfl, rfl, rfl, rfl, rfl, rfl, rfl, rfl, rfl, .refl _, [], by simp, rfl⟩

theorem Worker.Closes.trans {first second third : Worker} (before : first.Closes second)
    (after : second.Closes third) : first.Closes third := by
  obtain ⟨early, known, history⟩ := before.history
  obtain ⟨late, later, ended⟩ := after.history
  refine ⟨after.setup.trans before.setup, after.session.trans before.session,
    after.running.trans before.running, after.peers.trans before.peers,
    after.entries.trans before.entries, after.outgoing.trans before.outgoing,
    after.notices.trans before.notices, after.nextRoute.trans before.nextRoute,
    after.published.trans before.published, after.incoming.trans before.incoming,
    early ++ late, fun info member => ?_, ?_⟩
  · rcases mem_append.mp member with first | second
    · exact known info first
    · obtain ⟨r, present, equal⟩ := later info second
      exact ⟨r, before.incoming.subset present, equal⟩
  · rw [ended, history, archiveAll, archiveAll, archiveAll, foldl_append]

theorem Worker.closes_closeSubscription (w : Worker) (id : UInt64) :
    w.Closes (w.closeSubscription id) := by
  refine ⟨rfl, rfl, rfl, rfl, rfl, rfl, rfl, rfl, rfl, filter_sublist, _, ?_, rfl⟩
  intro info member
  obtain ⟨r, present, rfl⟩ := mem_map.mp member
  exact ⟨r, (mem_filter.mp (mem_reverse.mp present)).1, rfl⟩

theorem Worker.closes_foldl (subscriptions : List Subscription) (w : Worker) :
    w.Closes (subscriptions.foldl (fun w s => w.closeSubscription s.id) w) := by
  induction subscriptions generalizing w with
  | nil => exact .refl w
  | cons s rest ih => exact (w.closes_closeSubscription s.id).trans (ih _)

theorem Worker.closes_checkSubscriptions (w : Worker) (session : UInt64) :
    w.Closes (w.checkSubscriptions session) :=
  w.closes_foldl _

/-! ## Interest -/

/-- The routes that `replace` goes through stay or are replaced. -/
theorem replace_subset (receiver : Bool) (packet : Packet) (routes : List SendRoute) :
    (replace receiver packet routes).1.Sublist routes ∧
      (replace receiver packet routes).2.1 ⊆ routes := by
  induction routes with
  | nil => exact ⟨.refl _, fun _ member => member⟩
  | cons r older ih =>
    unfold replace
    dsimp only
    split
    · split
      · exact ⟨.refl _, fun _ member => absurd member not_mem_nil⟩
      · exact ⟨ih.1.cons r, cons_subset_cons r ih.2⟩
    · exact ⟨ih.1.cons_cons r, fun _ member => mem_cons_of_mem r (ih.2 member)⟩

section Replace

variable {receiver : Bool} {packet : Packet} {routes : List SendRoute}

/-- An interest that is accepted leaves no other route between its endpoints, and none of
those it found there refuses it. -/
theorem replace_accepted (proceeds : (replace receiver packet routes).2.2 = true) :
    (∀ r ∈ (replace receiver packet routes).1, ¬SamePair r.route.packet packet) ∧
      ∀ r ∈ routes, SamePair r.route.packet packet → ¬r.route.Refuses receiver packet := by
  induction routes with
  | nil => exact ⟨forall_mem_nil _, forall_mem_nil _⟩
  | cons r older ih =>
    unfold replace at proceeds ⊢
    dsimp only at proceeds ⊢
    by_cases pair : SamePair r.route.packet packet
    · rw [if_pos pair] at proceeds ⊢
      split at proceeds
      · cases proceeds
      next accepts =>
        rw [if_neg accepts]
        exact ⟨(ih proceeds).1, forall_mem_cons.mpr ⟨fun _ => accepts, (ih proceeds).2⟩⟩
    · rw [if_neg pair] at proceeds ⊢
      exact ⟨forall_mem_cons.mpr ⟨pair, (ih proceeds).1⟩,
        forall_mem_cons.mpr ⟨fun same => absurd same pair, (ih proceeds).2⟩⟩

/-- Routes between other endpoints stay. -/
theorem mem_replace {r : SendRoute} (member : r ∈ routes)
    (apart : ¬SamePair r.route.packet packet) : r ∈ (replace receiver packet routes).1 := by
  induction routes with
  | nil => cases member
  | cons first older ih =>
    unfold replace
    dsimp only
    rcases mem_cons.mp member with rfl | later
    · rw [if_neg apart]
      exact mem_cons_self
    · split
      · split
        · exact member
        · exact ih later
      · exact mem_cons_of_mem _ (ih later)

theorem exists_samePair_of_refused (refused : (replace receiver packet routes).2.2 = false) :
    ∃ r ∈ routes, SamePair r.route.packet packet := by
  induction routes with
  | nil => cases refused
  | cons r older ih =>
    by_cases pair : SamePair r.route.packet packet
    · exact ⟨r, mem_cons_self, pair⟩
    · unfold replace at refused
      dsimp only at refused
      rw [if_neg pair] at refused
      obtain ⟨other, member, same⟩ := ih refused
      exact ⟨other, mem_cons_of_mem r member, same⟩

/-- With one route between two endpoints a refusal replaces nothing. -/
theorem replace_refused (distinct : (routes.map (·.route.packet.pair)).Nodup)
    (refused : (replace receiver packet routes).2.2 = false) :
    (replace receiver packet routes).1 = routes := by
  induction routes with
  | nil => rfl
  | cons r older ih =>
    rw [map_cons, nodup_cons] at distinct
    unfold replace at refused ⊢
    dsimp only at refused ⊢
    by_cases pair : SamePair r.route.packet packet
    · rw [if_pos pair] at refused ⊢
      split
      · rfl
      next accepts =>
        -- no older route is there to refuse the interest
        rw [if_neg accepts] at refused
        obtain ⟨other, member, same⟩ := exists_samePair_of_refused refused
        exact absurd (mem_map.mpr ⟨other, member,
          (samePair_iff.mp same).trans (samePair_iff.mp pair).symm⟩) distinct.1
    · rw [if_neg pair] at refused ⊢
      rw [ih distinct.2 refused]

end Replace

/-- The sending routes that an interest does not replace. -/
def Worker.staying (w : Worker) (receiver : Bool) (packet : Packet) : List SendRoute :=
  (replace receiver packet w.outgoing.reverse).1.reverse

/-- The sending routes that an interest replaces, newest first. -/
def Worker.replaced (w : Worker) (receiver : Bool) (packet : Packet) : List SendRoute :=
  (replace receiver packet w.outgoing.reverse).2.1

theorem Worker.staying_sublist (w : Worker) (receiver : Bool) (packet : Packet) :
    (w.staying receiver packet).Sublist w.outgoing := by
  have sublist := (replace_subset receiver packet w.outgoing.reverse).1.reverse
  rwa [reverse_reverse] at sublist

theorem Worker.mem_staying {w : Worker} {receiver : Bool} {packet : Packet} {r : SendRoute}
    (member : r ∈ w.outgoing) (apart : ¬SamePair r.route.packet packet) :
    r ∈ w.staying receiver packet :=
  mem_reverse.mpr (mem_replace (mem_reverse.mpr member) apart)

theorem Worker.replaced_subset (w : Worker) (receiver : Bool) (packet : Packet) :
    w.replaced receiver packet ⊆ w.outgoing := fun _ member =>
  mem_reverse.mp ((replace_subset receiver packet w.outgoing.reverse).2 member)

/-- Why an interest for a new route opens none: it is refused, there is no room, or the
reader does not open. -/
def Worker.Denies (w : Worker) (receiver : Bool) (packet : Packet) (result : OpenResult) : Prop :=
  (replace receiver packet w.outgoing.reverse).2.2 = false ∨
    w.setup.topic.maxRoutes ≤ w.incoming.length + (w.staying receiver packet).length ∨
    ¬result.Opens w.setup.topic packet.name

/-- What `Interest` can do. -/
inductive Worker.Interested (w : Worker) (packet : Packet) (peer : PeerInfo) (result : OpenResult)
    (now : Int) (next : Worker) : Prop where
  | refused (stale : UInt64) (equal : next = { w with stale })
  | renewed (index : Nat)
      (equal : next = { w with outgoing := w.outgoing.modify index (SendRoute.renew now) })
  | replaced (receiver : Bool) (notices : List TopicRouteInfo) (stale resourceDrops : UInt64)
      (equal : next = { w with
        outgoing := w.staying receiver packet
        history := archiveAll w.history ((w.replaced receiver packet).map (·.route.info))
        notices
        stale
        resourceDrops })
      (told : notices = w.notices ∨
        ∃ entry ∈ w.entries, ∃ code, notices = post w.notices (noticeOf entry.metadata code))
      (unknown : ∀ other ∈ w.outgoing, ¬SameRoute other.route.packet packet)
      (denies : w.Denies receiver packet result)
  | opened (receiver : Bool) (r : SendRoute) (same : r.route.packet = { packet with kind := .data })
      (stats : r.route.stats = {}) (taken : r.taken = [])
      (equal : next = { w with
        outgoing := w.staying receiver packet ++ [r]
        history := archiveAll w.history ((w.replaced receiver packet).map (·.route.info)) })
      (alone : ∀ other ∈ w.staying receiver packet, ¬SamePair other.route.packet packet)
      (session : packet.destinationSession = peer.sessionId)
      (accepted : ∀ other ∈ w.outgoing, SamePair other.route.packet packet →
        ¬other.route.Refuses receiver packet)
      (room : w.incoming.length + (w.staying receiver packet).length < w.setup.topic.maxRoutes)
      (sending : w.setup.topic.receiveOnly = false)

theorem Worker.openRoute_cases (w : Worker) (entry : NetworkEndpointMetadata) (packet : Packet)
    (peer : PeerInfo) (port : UInt16) (result : OpenResult) (now : Int) :
    (¬result.Opens w.setup.topic packet.name ∧
      ∃ code, w.openRoute entry packet peer port result now =
        { w with notices := post w.notices (noticeOf entry code) }) ∨
    ∃ r : SendRoute, r.route.packet = { packet with kind := .data } ∧ r.route.stats = {} ∧
      r.taken = [] ∧ w.openRoute entry packet peer port result now =
        { w with outgoing := w.outgoing ++ [r] } := by
  unfold Worker.openRoute
  dsimp only
  split
  next closed => exact .inl ⟨fun opens => closed opens.1, _, rfl⟩
  split
  next asked =>
    split
    · exact .inr ⟨_, rfl, rfl, rfl, rfl⟩
    next failed =>
      refine .inl ⟨fun opens => ?_, _, rfl⟩
      have found := opens.2 (of_decide_eq_true asked)
      rw [failed] at found
      cases found
  · exact .inr ⟨_, rfl, rfl, rfl, rfl⟩

theorem Worker.interest_cases (w : Worker) (packet : Packet) (peer : PeerInfo) (port : UInt16)
    (result : OpenResult) (now : Int) :
    w.Interested packet peer result now (w.interest packet peer port result now) := by
  unfold Worker.interest
  split
  · exact .refused w.stale rfl
  next sending =>
    split
    · exact .refused _ rfl
    next entry found =>
      split
      · exact .refused _ rfl
      next admitted =>
        simp only [not_or, not_not] at admitted
        split
        next index _ =>
          split
          · exact .renewed index rfl
          · exact .refused _ rfl
        next missing =>
          have unknown : ∀ other ∈ w.outgoing, ¬SameRoute other.route.packet packet :=
            fun other member => by simpa using findIdx?_eq_none_iff.mp missing other member
          obtain ⟨known, listed, equal⟩ := mem_map.mp (mem_of_find?_eq_some found)
          dsimp only
          split
          next refused =>
            exact .replaced (IsReceiver peer) w.notices _ _ rfl (.inl rfl) unknown
              (.inl (by simpa using refused))
          next proceeds =>
            obtain ⟨alone, accepted⟩ := replace_accepted (not_not.mp proceeds)
            split
            next full =>
              exact .replaced (IsReceiver peer) w.notices _ _ rfl (.inl rfl) unknown
                (.inr (.inl full))
            next room =>
              rcases Worker.openRoute_cases _ entry packet peer port result now with
                ⟨closed, code, told⟩ | ⟨r, same, stats, taken, added⟩
              · rw [told]
                exact .replaced (IsReceiver peer) _ _ _ rfl
                  (.inr ⟨known, listed, code, by rw [equal]⟩) unknown (.inr (.inr closed))
              · rw [added]
                exact .opened (IsReceiver peer) r same stats taken rfl
                  (fun other member => alone other (mem_reverse.mp member)) admitted.2.1
                  (fun other member => accepted other (mem_reverse.mpr member)) (not_le.mp room)
                  (by simpa using sending)

theorem Worker.interest_incoming (w : Worker) (packet : Packet) (peer : PeerInfo) (port : UInt16)
    (result : OpenResult) (now : Int) :
    (w.interest packet peer port result now).incoming = w.incoming := by
  cases w.interest_cases packet peer port result now with
  | refused stale equal => rw [equal]
  | renewed index equal => rw [equal]
  | replaced _ _ _ _ equal => rw [equal]
  | opened _ _ _ _ _ equal => rw [equal]

/-! ## All receiving routes -/

/-- A receiving route before its first packet. -/
structure Incoming.New (r : Incoming) : Prop where
  sequence : r.packet.sequence = 0
  sampleSequence : r.packet.sampleSequence = 0
  counters : r.stats.counters = {}
  latest : r.latest = none
  accepted : r.accepted = []

/-- The receiving routes that an event adds. -/
def Worker.Adds (w : Worker) : Event → Incoming → Prop
  | .refresh peers entries _ _, r => w.setup.topic.receiveOnly = false ∧
      ∃ name source owner consumer proxy routeId,
        Offer { w with peers, entries } name source owner consumer ∧ routeId ≠ 0 ∧
          r = newRoute w name source owner consumer proxy routeId
  | .subscribe _ _ _ _, r => w.running = true ∧ w.setup.topic.receiveOnly = true ∧ r.New
  | _, _ => False

theorem Worker.Adds.new {w : Worker} {event : Event} {r : Incoming} (added : w.Adds event r) :
    r.New := by
  cases event with
  | refresh peers entries session answers =>
    obtain ⟨_, name, source, owner, consumer, proxy, routeId, _, _, rfl⟩ := added
    exact ⟨rfl, rfl, rfl, rfl, rfl⟩
  | subscribe source expected descriptor answers => exact added.2.2
  | _ => exact added.elim

section Receiving

variable {property : Incoming → Prop} {w : Worker}

theorem Incoming.Rule.refresh (rule : Incoming.Rule property) {answers : Answers}
    (holds : ∀ r ∈ w.incoming, property r)
    (fresh : w.setup.topic.receiveOnly = false →
      ∀ name source owner consumer proxy routeId, Offer w name source owner consumer →
        routeId ≠ 0 → property (newRoute w name source owner consumer proxy routeId)) :
    ∀ r ∈ (w.refresh answers).incoming, property r := by
  have begun : w.draft.All property := by
    intro r member
    obtain ⟨old, present, rfl⟩ := mem_map.mp member
    exact holds old present
  have settled {draft : Draft} (all : draft.All property) :
      ∀ r ∈ (w.settle draft answers.now).incoming, property r := by
    intro r member
    obtain ⟨marked, present, rfl⟩ := mem_map.mp member
    exact all marked (mem_filter.mp present).1
  unfold Worker.refresh
  split
  · exact settled begun
  next sending =>
    refine settled (foldlRecOn _ _ begun fun draft all name _ => ?_)
    exact all.visit rule (fresh (by simpa using sending) name)

theorem Incoming.Rule.data_worker (rule : Incoming.Rule property) (packet : Packet)
    (peer : PeerInfo) (holds : ∀ r ∈ w.incoming, property r) :
    ∀ r ∈ (w.data packet peer).incoming, property r := by
  unfold Worker.data
  split
  · exact holds
  next index _ =>
    split
    · exact holds
    next r found =>
      intro other member
      rcases mem_or_eq_of_mem_set member with old | rfl
      · exact holds other old
      · exact rule.data _ _ _ _ _ (holds r (mem_of_getElem? found))

/-- What `Receive` does with a datagram: it counts it, or it hands the packet on. -/
theorem Worker.receive_rule {motive : Worker → Prop} {bytes : Bytes} {ip : UInt32}
    {port : UInt16} {result : OpenResult} {now : Int}
    (refused : ∀ malformed stale, motive { w with malformed, stale })
    (interest : ∀ packet peer, decodePacket bytes = .ok packet → packet.kind = .interest →
      findPeer w.peers packet.destination.runtime.host = some peer →
      motive (w.interest packet peer port result now))
    (data : ∀ packet peer, motive (w.data packet peer)) :
    motive (w.receive bytes ip port result now) := by
  unfold Worker.receive
  split
  · exact refused _ _
  next packet decoded =>
    dsimp only
    split
    · exact refused _ _
    next found =>
      split
      · exact refused _ _
      split
      next kind =>
        rw [if_pos kind] at found
        exact interest _ _ decoded kind found
      · exact data _ _

theorem Worker.subscribe_incoming (w : Worker) (source : NetworkEndpointMetadata)
    (expected : UInt64) (descriptor : TypeDescriptor) (answers : SubscribeAnswers) :
    (w.subscribe source expected descriptor answers).1 = w ∨
      w.running = true ∧ w.setup.topic.receiveOnly = true ∧ ∃ r subscription, r.New ∧
        (w.subscribe source expected descriptor answers).1 =
          { w with
            subscriptions := w.subscriptions ++ [subscription]
            incoming := w.incoming ++ [r] } := by
  unfold Worker.subscribe
  split
  · exact .inl rfl
  next type admitted =>
    have ready : w.running = true ∧ w.setup.topic.receiveOnly = true := by
      by_contra other
      rw [Worker.admitsSubscription, if_pos (not_and_or.mp other)] at admitted
      cases admitted
    exact .inr ⟨ready.1, ready.2, _, _, ⟨rfl, rfl, rfl, rfl, rfl⟩, rfl⟩

/-- Rule for receiving routes: what their own operations keep and new ones have, all
have. -/
theorem Incoming.Rule.handle (rule : Incoming.Rule property) {event : Event}
    (holds : ∀ r ∈ w.incoming, property r) (fresh : ∀ r, w.Adds event r → property r) :
    ∀ r ∈ (w.handle event).incoming, property r := by
  cases event with
  | start setup session => exact holds
  | join session => exact holds
  | refresh peers entries session answers =>
    have closes := Worker.closes_checkSubscriptions { w with peers, entries } session
    refine rule.refresh (fun r member => holds r (closes.incoming.subset member))
      fun sending name source owner consumer proxy routeId offer positive => ?_
    have offered : Offer { w with peers, entries } name source owner consumer := by
      refine { offer with
        owned := closes.peers ▸ offer.owned, here := closes.entries ▸ offer.here, gate := ?_ }
      have gate := offer.gate
      rw [closes.setup] at gate
      exact gate
    have same : newRoute (Worker.checkSubscriptions { w with peers, entries } session) name source
        owner consumer proxy routeId = newRoute w name source owner consumer proxy routeId := by
      unfold newRoute Worker.routePacket
      rw [closes.session]
    rw [closes.setup] at sending
    exact fresh _ ⟨sending, name, source, owner, consumer, proxy, routeId, offered, positive, same⟩
  | receive bytes ip port result now =>
    refine Worker.receive_rule (motive := fun w => ∀ r ∈ w.incoming, property r)
      (fun _ _ => holds) (fun packet peer _ _ _ => ?_)
      fun packet peer => rule.data_worker packet peer holds
    rw [w.interest_incoming]
    exact holds
  | deliver answers =>
    intro r member
    obtain ⟨index, old, present, rfl⟩ := mem_mapIdx member
    exact rule.deliver _ _ _ (holds old present)
  | transmit now sent attempts =>
    intro r member
    obtain ⟨index, old, present, rfl⟩ := mem_mapIdx member
    exact rule.request _ _ _ _ _ (holds old present)
  | subscribe source expected descriptor answers =>
    rcases w.subscribe_incoming source expected descriptor answers with same |
        ⟨running, receiveOnly, new, subscription, unused, changed⟩
    · simp only [Worker.handle, same]
      exact holds
    · simp only [Worker.handle, changed]
      exact Data.forall_snoc holds (fresh new ⟨running, receiveOnly, unused⟩)
  | unsubscribe id =>
    simp only [Worker.handle, Worker.unsubscribe]
    split
    · exact fun r member => holds r (mem_filter.mp member).1
    · exact holds
  | finish => exact fun r member => absurd member not_mem_nil

end Receiving

/-! ## All sending routes -/

/-- What one round of `Transmit` does to a route: nothing, or it takes one sample, and
the packet is sent or dropped. -/
inductive Outgoing.Counts (r next : Outgoing) : Prop where
  | quiet (packet : next.packet = r.packet) (sent : next.stats.packetsSent = r.stats.packetsSent)
      (dropped : next.stats.dropped = r.stats.dropped)
      (skipped : next.stats.localSamplesSkipped = r.stats.localSamplesSkipped)
  | takes (sampleSequence : UInt64) (payload : Bytes)
    (room : r.packet.sequence ≠ Discovery.maxUInt64)
      (newer : r.packet.sampleSequence < sampleSequence)
      (packet : next.packet =
        { r.packet with sequence := r.packet.sequence + 1, sampleSequence, payload })
      (skipped : next.stats.localSamplesSkipped =
        if r.packet.sampleSequence ≠ 0 then
          r.stats.localSamplesSkipped + (sampleSequence - r.packet.sampleSequence - 1)
        else r.stats.localSamplesSkipped)
      (counted : (next.stats.packetsSent = r.stats.packetsSent + 1 ∧
          next.stats.dropped = r.stats.dropped) ∨
        (next.stats.packetsSent = r.stats.packetsSent ∧
          next.stats.dropped = r.stats.dropped + 1))

theorem Outgoing.sample_counts (r : Outgoing) (sampleSequence : UInt64) (attempt : Attempt)
    (room : r.packet.sequence ≠ Discovery.maxUInt64)
    (newer : r.packet.sampleSequence < sampleSequence) :
    r.Counts (r.sample sampleSequence attempt).1 := by
  unfold Outgoing.sample
  dsimp only
  split
  · exact .takes _ r.packet.payload room newer rfl rfl (.inr ⟨rfl, rfl⟩)
  next payload _ =>
    split
    · exact .takes _ payload room newer rfl rfl (.inr ⟨rfl, rfl⟩)
    split
    · exact .takes _ payload room newer rfl rfl (.inr ⟨rfl, rfl⟩)
    · exact .takes _ payload room newer rfl rfl (.inl ⟨rfl, rfl⟩)

theorem Outgoing.transmit_counts (config : Config) (attempt : Attempt) (r : Outgoing) :
    r.Counts (r.transmit config attempt).1 := by
  unfold Outgoing.transmit
  split
  · exact .quiet rfl rfl rfl rfl
  dsimp only
  split
  · split <;> exact .quiet rfl rfl rfl rfl
  next sampleSequence _ =>
    split
    · exact .quiet rfl rfl rfl rfl
    split
    · exact .quiet rfl rfl rfl rfl
    next other =>
      split
      · exact .quiet rfl rfl rfl rfl
      next going =>
        simp only [not_or, UInt64.not_lt] at going
        have newer := UInt64.lt_of_le_of_ne going.1 (Ne.symm other)
        cases (r.reschedule config attempt).sample_counts sampleSequence attempt going.2 newer with
        | quiet a b c d => exact .quiet a b c d
        | takes a b c d e f g => exact .takes a b c d e f g

/-- A property of sending routes that everything but their creation keeps. -/
structure SendRoute.Rule (property : SendRoute → Prop) : Prop where
  lapse : ∀ now r, property r → property { r with route := Outgoing.lapse now r.route }
  renew : ∀ now r, property r → property (SendRoute.renew now r)
  transmit : ∀ config attempt r, property r → property (SendRoute.transmit config attempt r)

/-- A sending route as `Interest` opens it. -/
structure SendRoute.New (r : SendRoute) : Prop where
  packet : ∃ p : Packet, p.Valid ∧ p.kind = .interest ∧ r.route.packet = { p with kind := .data }
  stats : r.route.stats = {}
  taken : r.taken = []

section Sending

variable {property : SendRoute → Prop} {w : Worker}

theorem SendRoute.Rule.interest (rule : SendRoute.Rule property) {packet : Packet}
    {peer : PeerInfo} {port : UInt16} {result : OpenResult} {now : Int} (valid : packet.Valid)
    (kind : packet.kind = .interest) (holds : ∀ r ∈ w.outgoing, property r)
    (fresh : ∀ r : SendRoute, r.New → property r) :
    ∀ r ∈ (w.interest packet peer port result now).outgoing, property r := by
  have kept (receiver : Bool) : ∀ r ∈ w.staying receiver packet, property r :=
    fun r member => holds r ((w.staying_sublist receiver packet).subset member)
  cases w.interest_cases packet peer port result now with
  | refused stale equal =>
    rw [equal]
    exact holds
  | renewed index equal =>
    rw [equal]
    intro r member
    rcases mem_modify member with old | ⟨before, old, rfl⟩
    · exact holds r old
    · exact rule.renew now before (holds before old)
  | replaced receiver _ _ _ equal =>
    rw [equal]
    exact kept receiver
  | opened receiver r same stats taken equal =>
    rw [equal]
    exact Data.forall_snoc (kept receiver) (fresh r ⟨⟨packet, valid, kind, same⟩, stats, taken⟩)

theorem Worker.data_frame (w : Worker) (packet : Packet) (peer : PeerInfo) :
    (w.data packet peer).outgoing = w.outgoing ∧ (w.data packet peer).peers = w.peers := by
  unfold Worker.data
  split
  · exact ⟨rfl, rfl⟩
  · split <;> exact ⟨rfl, rfl⟩

/-- Rule for sending routes: what their own operations keep and new ones have, all
have. -/
theorem SendRoute.Rule.handle (rule : SendRoute.Rule property) {event : Event}
    (holds : ∀ r ∈ w.outgoing, property r) (fresh : ∀ r : SendRoute, r.New → property r) :
    ∀ r ∈ (w.handle event).outgoing, property r := by
  cases event with
  | start setup session => exact holds
  | join session => exact holds
  | refresh peers entries session answers =>
    have closes := Worker.closes_checkSubscriptions { w with peers, entries } session
    intro r member
    obtain ⟨old, present, rfl⟩ := mem_map.mp member
    have before := (mem_filter.mp present).1
    rw [closes.outgoing] at before
    exact rule.lapse _ _ (holds old before)
  | receive bytes ip port result now =>
    refine Worker.receive_rule (motive := fun w => ∀ r ∈ w.outgoing, property r)
      (fun _ _ => holds)
      (fun _ _ decoded kind _ => rule.interest (decodePacket_valid decoded) kind holds fresh)
      fun packet peer => ?_
    rw [(w.data_frame packet peer).1]
    exact holds
  | deliver answers => exact holds
  | transmit now sent attempts =>
    intro r member
    obtain ⟨index, old, present, rfl⟩ := mem_mapIdx member
    exact rule.transmit _ _ _ (holds old present)
  | subscribe source expected descriptor answers =>
    rcases w.subscribe_incoming source expected descriptor answers with same |
        ⟨_, _, _, _, _, changed⟩
    · simp only [Worker.handle, same]
      exact holds
    · simp only [Worker.handle, changed]
      exact holds
  | unsubscribe id =>
    simp only [Worker.handle, Worker.unsubscribe]
    split <;> exact holds
  | finish => exact fun r member => absurd member not_mem_nil

end Sending

end Kcf.Network.Topic
