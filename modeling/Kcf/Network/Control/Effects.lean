import Kcf.Network.Control.Node

/-!
# What a step can do

Every step of a node other than `Read` and the taking of a job is a sequence of a few
effects.  What a step does to the replay records, to the node's own requests and to
its connections is then said once for each effect.
-/

namespace Kcf.Network.Control

open Kcf.Wire List
open Kcf.Network.Discovery (PeerInfo)

/-- One effect on a node. -/
inductive Node.Effect (gateway : Gateway) (node : Node) : Node → Prop where
  | submit (submission : Submission) (now : Int) :
      Node.Effect gateway node (node.submit submission now)
  | admitPeers (peers : List PeerInfo) : Node.Effect gateway node (node.admitPeers gateway peers)
  | finish {index : Nat} {p : Pending} {completion : Completion}
      (present : node.pending[index]? = some p) (failed : completion.code ≠ 0) :
      Node.Effect gateway node (node.finish index completion)
  | send {index : Nat} {p : Pending} {batch : Batch} (timeoutMs : UInt32) (connection : UInt64)
      (present : node.pending[index]? = some p) (unsent : p.sent = false)
      (known : node.batches[p.batch]? = some batch) :
      Node.Effect gateway node
        (node.markSent index { p with frame := { p.frame with timeoutMs } } batch connection)
  | queue {index : Nat} {c queued : Connection} {f : Frame}
      (present : node.connections[index]? = some c) (done : gateway.queue c f = some queued) :
      Node.Effect gateway node { node with connections := node.connections.set index queued }
  | drop (index : Nat) : Node.Effect gateway node (node.drop index)
  | join (outbound connecting : Bool) (host : HostIdentity) (session : UInt64) (address : UInt32)
      (deadline : Int) (room : node.connections.length < maxConnections)
      (apart : host.Valid → ∀ other ∈ node.connections, other.host ≠ host) :
      Node.Effect gateway node
        { node with
          nextConnection := node.nextConnection + 1
          opened := node.opened + 1
          connections := node.connections ++
            [{ id := node.nextConnection + 1, outbound, connecting, host, session, address,
               deadline }] }
  | settle {index : Nat} {c : Connection} (present : node.connections[index]? = some c) :
      Node.Effect gateway node
        { node with connections := node.connections.set index { c with connecting := false } }
  | arrive (index : Nat) (chunk : Bytes) : Node.Effect gateway node (node.arrive index chunk)
  | write (index count : Nat) : Node.Effect gateway node (node.write index count)
  | answer {index : Nat} {c : Connection} {job : Job} {rest : List Job}
      (present : node.connections[index]? = some c) (first : node.diagnosticsJobs = job :: rest)
      (own : job.connection = c.id) :
      Node.Effect gateway node
        { node with
          diagnosticsJobs := rest
          connections := node.connections.set index { c with diagnosticsPending := false } }
  | orphan {job : Job} {rest : List Job} (first : node.diagnosticsJobs = job :: rest)
      (absent : ∀ c ∈ node.connections, c.id ≠ job.connection) :
      Node.Effect gateway node { node with diagnosticsJobs := rest }
  | other (replies : List Reply) (abortConnections : List UInt64) (nextDiagnostics : Int)
      (observerDiagnosticsSeen : List DiagnosticsSeen) (rejected : Nat) :
      Node.Effect gateway node
        { node with
          replies, abortConnections, nextDiagnostics, observerDiagnosticsSeen, rejected }

/-- A sequence of effects. -/
abbrev Node.Effects (gateway : Gateway) : Node → Node → Prop :=
  Relation.ReflTransGen (Node.Effect gateway)

namespace Node

variable {gateway : Gateway} {node middle next : Node}

theorem purge_effects (index : Nat) (peers : List PeerInfo) (now : Int) :
    node.Effects gateway (node.purge gateway index peers now) := by
  unfold Node.purge
  split
  · exact .refl
  split
  · exact .single (.drop index)
  · exact .refl

theorem obstacle_code {peers : List PeerInfo} {now deadline : Int} {p : Pending}
    {completion : Completion} (blocked : obstacle gateway peers now p deadline = some completion) :
    completion.code ≠ 0 := by
  have failed (reason : CompatibilityReason) : reasonError reason ≠ 0 := by
    unfold reasonError
    split_ifs <;> decide
  unfold obstacle at blocked
  split at blocked
  · cases blocked
    decide
  split at blocked
  · cases blocked
    decide
  dsimp only at blocked
  split at blocked
  · cases blocked
  · cases blocked
    exact failed _

theorem expire_effects (peers : List PeerInfo) (now : Int) (index : Nat) :
    node.Effects gateway (node.expire gateway peers now index) := by
  unfold Node.expire
  split
  · exact .refl
  next p present =>
    split
    · exact .refl
    split
    next completion blocked => exact .single (.finish present (obstacle_code blocked))
    · exact .refl

theorem sendOne_effects {now : Int} {index : Nat} {p : Pending} {batch : Batch}
    (present : node.pending[index]? = some p) (unsent : p.sent = false)
    (known : node.batches[p.batch]? = some batch) :
    node.Effects gateway (node.sendOne gateway now index p batch).1 := by
  unfold Node.sendOne
  split
  · exact .refl
  next position _ =>
    split
    · exact .refl
    next c here =>
      dsimp only
      split
      · have failed : errorCode Errno.eagain ≠ 0 := by decide
        exact .single (.finish present failed)
      next queued done =>
        let output := { node with connections := node.connections.set position queued }
        have waiting : output.pending[index]? = some p := present
        have submitted : output.batches[p.batch]? = some batch := known
        exact .head (.queue here done)
          (.single (.send (remaining batch.deadline now) c.id waiting unsent submitted))

theorem sendFrom_effects (now : Int) (fuel index : Nat) (node : Node) :
    node.Effects gateway (Node.sendFrom gateway now fuel index node) := by
  induction fuel generalizing index node with
  | zero => exact .refl
  | succ fuel ih =>
    unfold Node.sendFrom
    split
    · exact .refl
    next p present =>
      split
      · exact ih _ _
      next batch known =>
        split
        · exact ih _ _
        next unsent =>
          exact (sendOne_effects present (eq_false_of_ne_true unsent) known).trans (ih _ _)

theorem deliver_effects (reply : Reply) : node.Effects gateway (node.deliver gateway reply) := by
  unfold Node.deliver
  split
  · exact .refl
  next position _ =>
    split
    · exact .refl
    next c present =>
      split
      next queued done => exact .single (.queue present done)
      split
      · exact .refl
      · exact .single (.drop position)

/-- The fields that no invariant is about. -/
theorem Effects.other (effects : middle.Effects gateway next)
    {replies : List Reply} {abortConnections : List UInt64} {nextDiagnostics : Int}
    {observerDiagnosticsSeen : List DiagnosticsSeen} {rejected : Nat}
    (same : { node with
      replies, abortConnections, nextDiagnostics, observerDiagnosticsSeen, rejected } = middle) :
    node.Effects gateway next :=
  .head (same ▸ .other _ _ _ _ _) effects

theorem deliverReplies_effects : node.Effects gateway (node.deliverReplies gateway) := by
  have all (replies : List Reply) (node : Node) : node.Effects gateway
      (replies.foldl (fun node reply => node.deliver gateway reply) node) := by
    induction replies generalizing node with
    | nil => exact .refl
    | cons reply rest ih => exact (deliver_effects reply).trans (ih _)
  exact (all _ _).other rfl

/-- A connection that was opened is greeted at once, or dropped. -/
theorem connect_effects (peer : PeerInfo) (now : Int) (connecting : Bool) :
    node.Effects gateway (node.connect gateway peer now connecting) := by
  unfold Node.connect
  split
  · exact .refl
  next free =>
    simp only [not_or, not_exists, not_and] at free
    have opened : node.Effects gateway _ :=
      .single (.join true connecting peer.host peer.sessionId peer.address.ip
        (now + gateway.config.connectTimeout * Discovery.millisecond) (Nat.lt_of_not_le free.1)
        fun _ => free.2.2.2)
    dsimp only
    split
    · exact opened
    split
    next greeted done =>
      have joined := opened.tail (.queue getElem?_concat_length done)
      simpa using joined
    · exact opened.tail (.drop _)

theorem accept_effects (address : UInt32) (now : Int) :
    node.Effects gateway (node.accept gateway address now) := by
  unfold Node.accept
  split
  · exact .refl
  next free =>
    have nobody : ¬HostIdentity.zero.Valid := by decide
    exact .single (.join _ _ _ _ _ _ (Nat.lt_of_not_le free) fun valid => absurd valid nobody)

theorem establish_effects (index : Nat) (good : Bool) :
    node.Effects gateway (node.establish gateway index good) := by
  unfold Node.establish
  split
  · exact .refl
  next c present =>
    split
    · exact .refl
    have settled : node.Effects gateway _ := .single (.settle present)
    dsimp only
    split
    · unfold Node.greetOutbound
      split
      next greeted done =>
        have inside := (List.getElem?_eq_some_iff.mp present).1
        have sent := settled.tail (.queue (List.getElem?_set_self inside) done)
        simpa [Handled.settle] using sent
      · exact settled.trans (Effects.other (.single (.drop index)) rfl)
    · exact settled.trans (Effects.other (.single (.drop index)) rfl)

/-- The connection of a job does not wait any more. -/
theorem answerDiagnostics_effects {job : Job} {rest : List Job}
    (first : node.diagnosticsJobs = job :: rest) (peers : List PeerInfo) (finished : Int)
    (made : Except Int32 Bytes) :
    node.Effects gateway
      ({ node with diagnosticsJobs := rest }.answerDiagnostics gateway peers finished made
        job) := by
  unfold Node.answerDiagnostics Node.findConnection
  split
  next missing =>
    refine .single (.orphan first fun c member => ?_)
    simpa using findIdx?_eq_none_iff.mp missing c member
  next position found =>
    obtain ⟨inside, same, _⟩ := findIdx?_eq_some_iff_getElem.mp found
    split
    next absent => exact absurd inside (Nat.not_lt.mpr (getElem?_eq_none_iff.mp absent))
    next c present =>
      change node.connections[position]? = some c at present
      have own : job.connection = c.id := by
        rw [(List.getElem?_eq_some_iff.mp present).2] at same
        exact (of_decide_eq_true same).symm
      have answered : node.Effects gateway _ := .single (.answer present first own)
      dsimp only
      split
      · split
        next queued done =>
          have sent := answered.tail (.queue (getElem?_set_self inside) done)
          simpa using sent
        · exact answered.tail (.drop position)
      · exact answered.tail (.drop position)

theorem dispatchDiagnostics_effects (peers : List PeerInfo) (now finished : Int)
    (made : Except Int32 Bytes) :
    node.Effects gateway (node.dispatchDiagnostics gateway peers now finished made) := by
  unfold Node.dispatchDiagnostics
  split
  · exact .refl
  let next : Node := { node with nextDiagnostics := now + 20 * Discovery.millisecond }
  dsimp only
  split
  · exact .single (.other _ _ _ _ _)
  next job rest first =>
    have waiting : next.diagnosticsJobs = job :: rest := first
    exact (answerDiagnostics_effects waiting peers finished made).other rfl

/-- Every step reads, takes a job, or is a sequence of effects. -/
theorem step_effects (gateway : Gateway) (node : Node) (event : Event) :
    (∃ index peers now, event = .read index peers now) ∨ event = .takeJob ∨
      node.Effects gateway (node.step gateway event) := by
  cases event with
  | read index peers now => exact .inl ⟨_, _, _, rfl⟩
  | takeJob => exact .inr (.inl rfl)
  | submit submission now => exact .inr (.inr (.single (.submit submission now)))
  | admitPeers peers => exact .inr (.inr (.single (.admitPeers peers)))
  | purge index peers now => exact .inr (.inr (purge_effects index peers now))
  | dispatchDiagnostics peers now finished made =>
    exact .inr (.inr (dispatchDiagnostics_effects peers now finished made))
  | connect peer now connecting => exact .inr (.inr (connect_effects peer now connecting))
  | expire index peers now => exact .inr (.inr (expire_effects peers now index))
  | sendPass now => exact .inr (.inr (sendFrom_effects now _ 0 node))
  | deliverReplies => exact .inr (.inr deliverReplies_effects)
  | establish index good => exact .inr (.inr (establish_effects index good))
  | arrive index chunk => exact .inr (.inr (.single (.arrive index chunk)))
  | write index count => exact .inr (.inr (.single (.write index count)))
  | hangUp index failed => exact .inr (.inr (Effects.other (.single (.drop index)) rfl))
  | accept address now => exact .inr (.inr (accept_effects address now))
  | reply reply =>
    refine .inr (.inr ?_)
    unfold Node.step
    dsimp only
    split
    · exact .single (.other _ _ _ _ _)
    · exact .refl
  | reclaimDiagnostics peers => exact .inr (.inr (.single (.other _ _ _ _ _)))
  | abort connection => exact .inr (.inr (.single (.other _ _ _ _ _)))

end Node

end Kcf.Network.Control
