import Kcf.Data.Snoc
import Kcf.Service.Server

/-!
# Duplicate suppression

The cache of a server against the history of the requests that it has processed.
-/

namespace Kcf.Service

open Kcf.Wire Kcf.Data Kcf.Transition List Errno

/-! ## What a datagram does -/

/-- A request that passes the checks and is not in the cache. -/
structure Server.Fresh (server : Server) (source : Endpoint) (p : Packet) : Prop where
  accepted : Server.Accepts source p
  sized : p.Sized
  unknown : server.duplicate source p = none

/-- Everything that can become of a datagram. -/
inductive Server.Receives (server : Server) (source : Endpoint) : Datagram → Server → Prop where
  | ignored {d : Datagram} : Receives server source d server
  | refused {p : Packet} {status : Int32} : status ≠ 0 →
      Receives server source (.packet p) (server.answer source (p.refuse status))
  | repeated {p : Packet} {entry : Cached} : entry ∈ server.cache.entries →
      entry.key = p.key source → entry.request.SameContent p →
      Receives server source (.packet p) (server.answer source entry.response)
  | processed {p response : Packet} : server.Fresh source p →
      response.header.frameworkStatus ≠ 0 →
      Receives server source (.packet p) (server.conclude source p response)
  | invoked {p : Packet} {handler : Handler} : server.Fresh source p →
      server.handlers p.header.serviceId = some handler →
      Receives server source (.packet p) (server.begin source p handler)

theorem Server.receives (server : Server) (source : Endpoint) (d : Datagram) :
    server.Receives source d (server.receive source d) := by
  cases d with
  | short => exact .ignored
  | packet p =>
    unfold receive react
    dsimp only
    by_cases accepted : Accepts source p
    case neg =>
      rw [if_pos accepted]
      exact .ignored
    rw [if_neg (not_not.mpr accepted)]
    by_cases sized : p.Sized
    case neg =>
      rw [if_pos sized]
      exact .refused (by decide)
    rw [if_neg (not_not.mpr sized)]
    cases known : server.duplicate source p with
    | some entry =>
      have member : entry ∈ server.cache.entries := mem_of_find?_eq_some known
      have same : entry.key = p.key source :=
        of_decide_eq_true (find?_some (p := fun e : Cached => e.key = p.key source) known)
      by_cases content : entry.request.SameContent p
      · simp only [content, if_true]
        exact .repeated member same content
      · simp only [content, if_false]
        exact .refused (by decide)
    | none =>
      have fresh : server.Fresh source p := ⟨accepted, sized, known⟩
      dsimp only
      unfold admitPacket
      have refused {response : Packet} (errno : Int) (failed : errorCode errno ≠ 0)
          (status : response.header.frameworkStatus = errorCode errno) :
          server.Receives source (.packet p) (server.conclude source p response) :=
        .processed fresh (status ▸ failed)
      cases found : server.handlers p.header.serviceId with
      | none => exact refused enoent (by decide) rfl
      | some handler =>
        dsimp only
        by_cases size : handler.requestSize ≠ p.header.payloadSize.toNat
        · rw [if_pos size]
          exact refused emsgsize (by decide) rfl
        rw [if_neg size]
        by_cases types :
            ¬p.header.Identifies handler.requestIdentity handler.responseIdentity
        · rw [if_pos types]
          exact refused eprototype (by decide) rfl
        rw [if_neg types]
        exact .invoked fresh found

/-! ## The cache and the history -/

/-- All processed requests with this key are too old for the cache. -/
def Server.Outlived (server : Server) (key : Key) : Prop :=
  ∀ (i : Nat) (entry : Cached), server.processed[i]? = some entry → entry.key = key →
    i + cacheSize < server.processed.length

/-- What holds between any two steps of the worker. -/
structure Server.Invariant (server : Server) : Prop where
  holds : server.cache.Holds server.processed
  spaced : ∀ (i j : Nat) (first second : Cached), i < j →
    server.processed[i]? = some first → server.processed[j]? = some second →
    first.key = second.key → i + cacheSize < j
  current : ∀ invocation, server.current = some invocation →
    invocation.position = server.processed.length ∧ server.Outlived invocation.key
  placed : ∀ invocation ∈ server.invoked, server.current = some invocation ∨
    ∃ entry, server.processed[invocation.position]? = some entry ∧ entry.key = invocation.key
  ordered : server.invoked.Pairwise fun first second => first.position < second.position

section

variable {server : Server} {source : Endpoint} {p response : Packet}

/-- A request that is not in the cache was not processed recently. -/
theorem Server.Fresh.outlived (fresh : server.Fresh source p)
    (holds : server.cache.Holds server.processed) : server.Outlived (p.key source) := by
  intro i entry found same
  by_contra recent
  obtain ⟨inside, rfl⟩ := List.getElem?_eq_some_iff.mp found
  have kept : server.processed[i] ∈ server.cache.entries := by
    rw [holds.mem_iff, mem_iff_getElem?]
    refine ⟨i - (server.processed.length - cacheSize), ?_⟩
    rw [getElem?_drop, ← found]
    congr 1
    omega
  have unmatched := find?_eq_none.mp fresh.unknown _ kept
  exact unmatched (decide_eq_true same)

theorem Server.Invariant.answer (invariant : server.Invariant) :
    (server.answer source response).Invariant :=
  { invariant with }

/-- A position before the end of the history keeps its entry. -/
theorem getElem?_append_some {α : Type} {values more : List α} {i : Nat} {value : α}
    (found : values[i]? = some value) : (values ++ more)[i]? = some value := by
  obtain ⟨inside, _⟩ := List.getElem?_eq_some_iff.mp found
  rw [List.getElem?_append_left inside, found]

section

variable (invariant : server.Invariant)
include invariant

/-- A processed request keeps its distance from the earlier ones with its key. -/
theorem Server.Invariant.spaced_conclude {entry : Cached}
    (outlived : server.Outlived entry.key) (i j : Nat) (first second : Cached) (before : i < j)
    (atFirst : (server.processed ++ [entry])[i]? = some first)
    (atSecond : (server.processed ++ [entry])[j]? = some second)
    (same : first.key = second.key) : i + cacheSize < j := by
  have bound := (List.getElem?_eq_some_iff.mp atSecond).1
  rw [List.length_append, List.length_singleton] at bound
  rw [getElem?_append_left (by omega)] at atFirst
  rcases Nat.lt_or_ge j server.processed.length with old | new
  · rw [getElem?_append_left old] at atSecond
    exact invariant.spaced i j first second before atFirst atSecond same
  · have last : j = server.processed.length := by omega
    rw [last, getElem?_concat_length] at atSecond
    rw [last]
    exact outlived i first atFirst
      (same.trans (congrArg Cached.key (Option.some.inj atSecond)).symm)

theorem Server.Invariant.conclude (idle : server.current = none)
    (outlived : server.Outlived (p.key source)) :
    (server.conclude source p response).Invariant where
  holds := invariant.holds.push _
  spaced := invariant.spaced_conclude outlived
  current := by
    intro invocation busy
    cases idle.symm.trans busy
  placed := by
    intro invocation member
    rcases invariant.placed invocation member with busy | ⟨entry, found, same⟩
    · cases idle.symm.trans busy
    · exact .inr ⟨entry, getElem?_append_some found, same⟩
  ordered := invariant.ordered

theorem Server.Invariant.begin (idle : server.current = none)
    {handler : Handler} (outlived : server.Outlived (p.key source)) :
    (server.begin source p handler).Invariant where
  __ := invariant
  current := by
    intro invocation busy
    cases busy
    exact ⟨rfl, outlived⟩
  placed := by
    intro invocation member
    rcases Data.mem_snoc member with old | rfl
    · rcases invariant.placed invocation old with busy | found
      · cases idle.symm.trans busy
      · exact .inr found
    · exact .inl rfl
  ordered := by
    refine Data.pairwise_snoc invariant.ordered fun first member => ?_
    rcases invariant.placed first member with busy | ⟨entry, found, _⟩
    · cases idle.symm.trans busy
    · exact (List.getElem?_eq_some_iff.mp found).1

theorem Server.Invariant.finish {invocation : Invocation}
    (busy : server.current = some invocation) (output : Option Bytes) :
    (server.finish invocation output).Invariant where
  holds := invariant.holds.push _
  spaced := invariant.spaced_conclude (invariant.current invocation busy).2
  current := by
    intro other still
    cases still
  placed := by
    intro other member
    right
    rcases invariant.placed other member with same | ⟨entry, found, same⟩
    · obtain rfl := Option.some.inj (busy.symm.trans same)
      refine ⟨⟨_, _, invocation.handler.respond invocation.request output⟩, ?_, rfl⟩
      rw [(invariant.current invocation busy).1]
      exact getElem?_concat_length
    · exact ⟨entry, getElem?_append_some found, same⟩
  ordered := invariant.ordered

end

end

/-- Every step of the worker keeps the invariant. -/
theorem Server.preserves_invariant : Server.serving.Preserves Server.Invariant := by
  intro server event next step invariant
  cases event with
  | datagram source d =>
    obtain ⟨idle, rfl⟩ := advance_datagram step
    have outcome := server.receives source d
    generalize server.receive source d = next at outcome ⊢
    cases outcome with
    | ignored => exact invariant
    | refused => exact invariant.answer
    | repeated => exact invariant.answer
    | processed fresh => exact invariant.conclude idle (fresh.outlived invariant.holds)
    | invoked fresh => exact invariant.begin idle (fresh.outlived invariant.holds)
  | finished output =>
    obtain ⟨invocation, busy, rfl⟩ := advance_finished step
    exact invariant.finish busy output

theorem Server.Invariant.of_started {server : Server} (started : server.Started) :
    server.Invariant := by
  obtain ⟨handlers, rfl⟩ := started
  constructor
  case holds => exact Ring.holds_empty _
  case spaced => intro i j first second _ found; cases found
  case current => intro invocation busy; cases busy
  case placed => intro invocation member; cases member
  case ordered => exact Pairwise.nil

theorem Server.Invariant.of_reachable {server : Server}
    (reachable : Server.serving.Reachable server) : server.Invariant :=
  reachable.invariant (fun _ started => of_started started) preserves_invariant

/-! ## Duplicate suppression -/

section

variable {server : Server}

section

variable (invariant : server.Invariant)
include invariant

theorem Server.Invariant.keys_nodup : (server.cache.entries.map Cached.key).Nodup := by
  rw [(invariant.holds.perm.map Cached.key).nodup_iff]
  apply pairwise_map.mpr
  apply pairwise_iff_getElem.mpr
  intro i j atFirst atSecond before same
  rw [length_drop] at atFirst atSecond
  rw [getElem_drop, getElem_drop] at same
  have apart := invariant.spaced _ _ _ _ (Nat.add_lt_add_left before _)
    (getElem?_eq_getElem (by omega)) (getElem?_eq_getElem (by omega)) same
  omega

/-- With different keys in the cache, the entry with a given key is found. -/
theorem Server.Invariant.duplicate_eq {source : Endpoint}
    {p : Packet} {entry : Cached} (member : entry ∈ server.cache.entries)
    (same : entry.key = p.key source) : server.duplicate source p = some entry := by
  cases known : server.duplicate source p with
  | none => exact absurd (decide_eq_true same) (find?_eq_none.mp known _ member)
  | some other =>
    have otherMember := mem_of_find?_eq_some known
    have otherSame : other.key = p.key source :=
      of_decide_eq_true (find?_some (p := fun e : Cached => e.key = p.key source) known)
    have equal := inj_on_of_nodup_map invariant.keys_nodup otherMember member
      (otherSame.trans same.symm)
    rw [equal]

/-- A request with a cached key is answered, and nothing else happens. -/
theorem Server.Invariant.receive_cached {source : Endpoint}
    {p : Packet} {entry : Cached} (accepted : Server.Accepts source p) (sized : p.Sized)
    (member : entry ∈ server.cache.entries) (same : entry.key = p.key source) :
    server.receive source (.packet p) =
      server.answer source
        (if entry.request.SameContent p then entry.response
          else p.refuse (errorCode einval)) := by
  unfold receive react
  dsimp only
  rw [if_neg (not_not.mpr accepted), if_neg (not_not.mpr sized), invariant.duplicate_eq member same]
  dsimp only
  by_cases content : entry.request.SameContent p
  · rw [if_pos content, if_pos content]
  · rw [if_neg content, if_neg content]

/-- Two invocations for one key are more than a cache apart. -/
theorem Server.Invariant.invoked_apart :
    server.invoked.Pairwise fun first second =>
      first.key = second.key → first.position + cacheSize < second.position := by
  apply invariant.ordered.imp_of_mem
  intro first second firstMember secondMember before same
  rcases invariant.placed first firstMember with busy | ⟨entry, found, key⟩
  · -- the handler at work is the last one
    have last := (invariant.current first busy).1
    rcases invariant.placed second secondMember with still | ⟨later, foundLater, _⟩
    · obtain rfl := Option.some.inj (busy.symm.trans still)
      exact absurd before (Nat.lt_irrefl _)
    · have inside := (List.getElem?_eq_some_iff.mp foundLater).1
      omega
  · rcases invariant.placed second secondMember with busy | ⟨later, foundLater, keyLater⟩
    · obtain ⟨last, outlived⟩ := invariant.current second busy
      rw [last]
      exact outlived _ entry found (key.trans same)
    · exact invariant.spaced _ _ _ _ before found foundLater (key.trans (same.trans keyLater.symm))

end

end

/-- The cache holds the last 64 processed requests under different keys; a request with
one of these keys gets the cached response, or `-EINVAL` if its content differs, and
neither reaches a handler nor the cache; between two invocations for one key at least
64 other requests are processed. -/
theorem Server.duplicates_suppressed {server : Server}
    (reachable : Server.serving.Reachable server) :
    server.cache.entries.Perm
        (server.processed.drop (server.processed.length - cacheSize)) ∧
      (server.cache.entries.map Cached.key).Nodup ∧
      (∀ (source : Endpoint) (p : Packet) (entry : Cached),
        Server.Accepts source p → p.Sized → entry ∈ server.cache.entries →
        entry.key = p.key source →
        let response := if entry.request.SameContent p then entry.response
          else p.refuse (errorCode einval)
        let next := server.receive source (.packet p)
        next = server.answer source response ∧
          next.sent = server.sent ++ [(source, response)] ∧
          next.invoked = server.invoked ∧ next.cache = server.cache) ∧
      server.invoked.Pairwise fun first second =>
        first.key = second.key → first.position + cacheSize < second.position := by
  have invariant := Server.Invariant.of_reachable reachable
  refine ⟨invariant.holds.perm, invariant.keys_nodup, ?_, invariant.invoked_apart⟩
  intro source p entry accepted sized member same response next
  have answered : next = server.answer source response :=
    invariant.receive_cached accepted sized member same
  rw [answered]
  exact ⟨rfl, rfl, rfl, rfl⟩

/-! A client repeats its request, and then reuses the id for another one. -/

def sumHandler : Handler where
  requestSize := 2
  responseSize := 1
  requestIdentity := {}
  responseIdentity := {}

def sumSource : Endpoint := ⟨loopback, 40000⟩

def sumRequest (first second : UInt8) : Packet where
  header := { serviceId := 7, payloadSize := 2, clientId := 11, requestId := 1 }
  payload := [first, second]

/-- The server before and after the invocation for `sumRequest 2 3`. -/
def sumStart : Server := { handlers := fun id => if id = 7 then some sumHandler else none }

def sumServer : Server :=
  (sumStart.receive sumSource (.packet (sumRequest 2 3))).finish
    ⟨sumSource, sumRequest 2 3, sumHandler, 0⟩ (some [5])

theorem sumServer_reachable : Server.serving.Reachable sumServer := by
  have computed : [.datagram sumSource (.packet (sumRequest 2 3)), .finished (some [5])].foldlM
      Server.advance sumStart = some sumServer := by
    rfl
  exact ⟨_, _, ⟨_, rfl⟩, .of_foldlM (fun _ _ _ => id) computed⟩

theorem Server.duplicates_suppressed_sum :
    let response := sumHandler.respond (sumRequest 2 3) (some [5])
    let repeated := sumServer.receive sumSource (.packet (sumRequest 2 3))
    let reused := sumServer.receive sumSource (.packet (sumRequest 2 4))
    sumServer.invoked.length = 1 ∧ response.payload = [5] ∧
      repeated.sent = [(sumSource, response), (sumSource, response)] ∧
      reused.sent =
        [(sumSource, response), (sumSource, (sumRequest 2 4).refuse (errorCode einval))] ∧
      repeated.invoked = sumServer.invoked ∧ reused.invoked = sumServer.invoked := by
  intro response repeated reused
  have cached := (Server.duplicates_suppressed sumServer_reachable).2.2.1 sumSource
  let entry : Cached := ⟨sumSource, sumRequest 2 3, response⟩
  have member : entry ∈ sumServer.cache.entries := by
    rw [(Server.duplicates_suppressed sumServer_reachable).1.mem_iff]
    exact mem_singleton.mpr rfl
  obtain ⟨_, again, quiet, _⟩ :=
    cached (sumRequest 2 3) entry (by decide) (by decide) member rfl
  obtain ⟨_, refused, still, _⟩ :=
    cached (sumRequest 2 4) entry (by decide) (by decide) member rfl
  exact ⟨rfl, rfl, again, refused, quiet, still⟩

end Kcf.Service
