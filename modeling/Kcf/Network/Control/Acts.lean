import Kcf.Network.Control.Admission

/-!
# What a node does with its own requests

The part of a node that the requests of its own user live in, and the seven ways
in which a step can touch it.  Every step of the I/O thread is a sequence of such
acts, so that an invariant of the books is proved once for each act.
-/

namespace Kcf.Network.Control

open Kcf.Wire
open Kcf.Network.Discovery (PeerInfo)

/-- The requests of the node's own user. -/
structure Books where
  pending : List Pending
  outgoing : List Outgoing
  batches : List Batch
  sessions : List ActionSession
  submissions : List Nat
  nextRequest : UInt64
  nextGoal : UInt64

def Node.books (node : Node) : Books :=
  ⟨node.pending, node.outgoing, node.batches, node.sessions, node.submissions, node.nextRequest,
    node.nextGoal⟩

/-- The frame that the next `Read` of a connection hands to `Receive`. -/
def Node.frameAt (gateway : Gateway) (node : Node) (index : Nat) : Option Frame :=
  match node.connections[index]? with
  | none => none
  | some c =>
    match nextFrame gateway.codec c.input with
    | .frame f _ => some f
    | .more | .bad => none

/-- The frame that a step receives. -/
def Node.heard (gateway : Gateway) (node : Node) : Event → Option Frame
  | .read index _ _ => node.frameAt gateway index
  | _ => none

/-- One act on the books; `heard` is the frame that is being received, if there is one. -/
inductive Node.Act (gateway : Gateway) (heard : Option Frame) (node : Node) : Node → Prop where
  | quiet {next : Node} (same : next.books = node.books) : Node.Act gateway heard node next
  | submit (submission : Submission) (now : Int) :
      Node.Act gateway heard node (node.submit submission now)
  | admitPeers (peers : List PeerInfo) : Node.Act gateway heard node (node.admitPeers gateway peers)
  | finish {index : Nat} {p : Pending} (completion : Completion)
      (present : node.pending[index]? = some p) (success : completion.code = 0 → p.sent = true) :
      Node.Act gateway heard node (node.finish index completion)
  | send {index : Nat} {p : Pending} {batch : Batch} (timeoutMs : UInt32) (connection : UInt64)
      (present : node.pending[index]? = some p) (unsent : p.sent = false)
      (known : node.batches[p.batch]? = some batch) :
      Node.Act gateway heard node
        (node.markSent index { p with frame := { p.frame with timeoutMs } } batch connection)
  | event (c : Connection) {f : Frame} (here : heard = some f) :
      Node.Act gateway heard node (node.receiveEvent c f).node
  | abandon (connection : UInt64) : Node.Act gateway heard node (node.abandon connection)

/-- A sequence of acts. -/
def Node.Acts (gateway : Gateway) (heard : Option Frame) : Node → Node → Prop :=
  Relation.ReflTransGen (Node.Act gateway heard)

namespace Node

section

variable {gateway : Gateway} {heard : Option Frame} {node middle next : Node}

theorem Acts.quiet (same : next.books = node.books) : node.Acts gateway heard next :=
  .single (.quiet same)

theorem Acts.after (rest : middle.Acts gateway heard next) (same : middle.books = node.books) :
    node.Acts gateway heard next :=
  (Acts.quiet same).trans rest

end

/-! ## Handlers -/

section

variable {gateway : Gateway} {heard : Option Frame} {node : Node} {c : Connection} {f : Frame}

theorem drop_acts (index : Nat) : node.Acts gateway heard (node.drop index) := by
  unfold Node.drop
  split
  · exact .refl
  next c _ => exact .head (.abandon c.id) (.single (.quiet rfl))

theorem settle_acts {handled : Handled} (acts : node.Acts gateway heard handled.node)
    (index : Nat) :
    node.Acts gateway heard (handled.settle index) := by
  unfold Handled.settle
  dsimp only
  split
  · exact acts.tail (.quiet rfl)
  · exact acts.trans ((drop_acts index).after rfl)

theorem dispatch_acts (here : heard = some f) (now : Int) :
    node.Acts gateway heard (gateway.dispatch node c f now).node := by
  let Done (handled : Handled) : Prop := node.Acts gateway heard handled.node
  have answers {middle : Node} (same : middle.books = node.books) (response : Frame) :
      Done (gateway.answer middle c response) := .quiet (by rw [Gateway.answer_node, same])
  unfold Gateway.dispatch
  split_ifs
  · exact Gateway.admitDiagnostics_rule (motive := Done) (fun _ _ _ => answers rfl)
      fun _ _ _ _ => .quiet rfl
  · exact .single (.event c here)
  · exact Gateway.admitRequest_rule (motive := Done) (fun _ _ _ _ _ => .quiet rfl)
      fun _ _ => answers rfl
  · exact receiveResponse_rule (motive := Done) (fun _ _ => .quiet rfl)
      fun _ _ completion _ present sent =>
        .head (.finish completion present fun _ => sent) (.single (.quiet rfl))

theorem receive_acts (here : heard = some f) (peers : List PeerInfo) (now : Int) :
    node.Acts gateway heard (gateway.receive node c f peers now).node := by
  refine Gateway.receive_rule (motive := fun handled => node.Acts gateway heard handled.node) .refl
    (fun _ => .quiet (by rw [Gateway.answer_node])) (fun observer => ?_)
    fun _ _ _ _ _ _ _ => dispatch_acts here now
  obtain ⟨_, _, same⟩ := gateway.receiveHello_node node c f observer
  rw [same]
  exact .quiet rfl

theorem read_acts (index : Nat) (peers : List PeerInfo) (now : Int) :
    node.Acts gateway (node.frameAt gateway index) (node.read gateway index peers now) := by
  unfold Node.read
  split
  · exact .refl
  next c known =>
    have failed : node.Acts gateway (node.frameAt gateway index) (Handled.mk node c false).node :=
      .refl
    split
    · split
      · exact settle_acts failed index
      · exact .refl
    · exact settle_acts failed index
    next f rest taken =>
      have here : node.frameAt gateway index = some f := by
        unfold Node.frameAt
        rw [known]
        simp only [taken]
      dsimp only
      refine settle_acts ?_ index
      exact receive_acts here peers now

theorem Effect.acts {next : Node} (effect : node.Effect gateway next) :
    node.Acts gateway heard next := by
  cases effect with
  | submit submission now => exact .single (.submit submission now)
  | admitPeers peers => exact .single (.admitPeers peers)
  | finish present failed => exact .single (.finish _ present fun zero => absurd zero failed)
  | send timeoutMs connection present unsent known =>
    exact .single (.send timeoutMs connection present unsent known)
  | drop index => exact drop_acts index
  | queue | join | settle | arrive | write | answer | orphan | other => exact .quiet rfl

/-- Every step is a sequence of acts. -/
theorem step_acts (event : Event) :
    node.Acts gateway (node.heard gateway event) (node.step gateway event) := by
  rcases step_effects gateway node event with ⟨index, peers, now, rfl⟩ | rfl | effects
  · exact read_acts index peers now
  · exact .quiet rfl
  · exact Relation.ReflTransGen.lift' id (fun _ _ => Effect.acts) _ _ effects

end

end Node

end Kcf.Network.Control
