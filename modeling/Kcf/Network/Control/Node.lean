import Kcf.Network.Control.Loop
import Kcf.Transition.System

/-!
# Runs of a control node

Everything that happens to a node between `Start` and `Stop`, one atomic step at
a time.  The phases of the I/O thread may come in any order and at any time, so
the runs contain those of every schedule; the backend is left open here and acts
through `takeJob`, `reply` and `abort`.
-/

namespace Kcf.Network.Control

open Kcf.Wire Kcf.Transition
open Kcf.Network.Discovery (PeerInfo millisecond)

/-! ## Submission -/

/-- The arguments of `Submit`; the timeout is in milliseconds. -/
structure Submission where
  target : RemoteTarget
  name : Bytes
  type : TypeIdentity
  value : Bytes := []
  set : Bool := false
  timeout : Int := 1000
  responseType : TypeIdentity := {}
  feedbackType : TypeIdentity := {}
  cancel : Option Nat := none

namespace Submission

variable (submission : Submission)

/-- The batch of a submission. -/
def batch (now : Int) : Batch :=
  { target := submission.target
    name := submission.name
    type := submission.type
    responseType := submission.responseType
    feedbackType := submission.feedbackType
    cancel := submission.cancel
    value := submission.value
    set := submission.set
    service := submission.feedbackType = {} ∧ submission.responseType ≠ {}
    action := submission.feedbackType ≠ {}
    deadline := now + submission.timeout * millisecond }

/-- The argument checks of `Submit`. -/
def Valid : Prop :=
  (submission.responseType ≠ {} ∨ submission.feedbackType ≠ {} → submission.responseType.Fits) ∧
    submission.target.Valid ∧ Text submission.name 240 ∧ submission.name.head? = some 47 ∧
    submission.type.Fits ∧ 1 ≤ submission.timeout ∧ submission.timeout ≤ 60000 ∧
    submission.value.length =
      (if submission.set = true ∨ (submission.batch 0).service = true ∨
          (submission.batch 0).startsGoals = true then submission.type.payloadSize.toNat else 0) ∧
    (submission.feedbackType ≠ {} → submission.feedbackType.Fits)
  deriving Decidable

end Submission

/-- `Submit` on a running node. -/
def Node.submit (node : Node) (submission : Submission) (now : Int) : Node :=
  let batch := submission.batch now
  if ¬submission.Valid then
    { node with batches := node.batches ++ [batch.reject (errorCode Errno.einval)] }
  else if 64 ≤ node.submissions.length then
    { node with batches := node.batches ++ [batch.reject (errorCode Errno.eagain)] }
  else
    { node with
      batches := node.batches ++ [batch]
      submissions := node.submissions ++ [node.batches.length] }

/-! ## Steps -/

/-- One atomic step; snapshots of the peer table, clock readings and the results of
system calls are part of it. -/
inductive Event where
  | submit (submission : Submission) (now : Int)
  | admitPeers (peers : List PeerInfo)
  | purge (index : Nat) (peers : List PeerInfo) (now : Int)
  | reclaimDiagnostics (peers : List PeerInfo)
  | dispatchDiagnostics (peers : List PeerInfo) (now finished : Int) (made : Except Int32 Bytes)
  | connect (peer : PeerInfo) (now : Int) (connecting : Bool)
  | expire (index : Nat) (peers : List PeerInfo) (now : Int)
  | sendPass (now : Int)
  | deliverReplies
  | establish (index : Nat) (good : Bool)
  | arrive (index : Nat) (chunk : Bytes)
  | read (index : Nat) (peers : List PeerInfo) (now : Int)
  | write (index : Nat) (count : Nat)
  | hangUp (index : Nat) (failed : Bool)
  | accept (address : UInt32) (now : Int)
  | takeJob
  | reply (reply : Reply)
  | abort (connection : UInt64)

/-- A `recv` or `send` failed, or the socket reports an error. -/
def Node.hangUp (node : Node) (index : Nat) (failed : Bool) : Node :=
  { node with rejected := if failed then node.rejected + 1 else node.rejected }.drop index

/-- The backend gives up a connection. -/
def Node.abort (node : Node) (connection : UInt64) : Node :=
  { node with
    abortConnections :=
      if connection ∈ node.liveConnections then node.abortConnections.insert connection
      else node.abortConnections }

def Node.step (gateway : Gateway) (node : Node) : Event → Node
  | .submit submission now => node.submit submission now
  | .admitPeers peers => node.admitPeers gateway peers
  | .purge index peers now => node.purge gateway index peers now
  | .reclaimDiagnostics peers => node.reclaimDiagnostics peers
  | .dispatchDiagnostics peers now finished made =>
    node.dispatchDiagnostics gateway peers now finished made
  | .connect peer now connecting => node.connect gateway peer now connecting
  | .expire index peers now => node.expire gateway peers now index
  | .sendPass now => node.sendPass gateway now
  | .deliverReplies => node.deliverReplies gateway
  | .establish index good => node.establish gateway index good
  | .arrive index chunk => node.arrive index chunk
  | .read index peers now => node.read gateway index peers now
  | .write index count => node.write index count
  | .hangUp index failed => node.hangUp index failed
  | .accept address now => node.accept gateway address now
  | .takeJob => { node with jobs := node.jobs.tail }
  | .reply reply =>
    if node.replies.length < 64 then { node with replies := node.replies ++ [reply] } else node
  | .abort connection => node.abort connection

/-- A node right after `Start`; the counters are never reset. -/
def Node.Started (node : Node) : Prop :=
  ∃ nextRequest nextGoal nextConnection now batches sessions,
    node = { nextRequest, nextGoal, nextConnection, nextDiagnostics := now, batches, sessions }

/-- The runs of one node. -/
def running (gateway : Gateway) : System Node Event where
  initial := Node.Started
  step node event next := next = node.step gateway event

end Kcf.Network.Control
