import Kcf.Network.Control.Acts

/-!
# From `Start` to `Stop`

A control node over its whole lifetime: it is started and stopped any number of
times, and each time its I/O thread goes through its loop and then completes what
is left.
-/

namespace Kcf.Network.Control

open Kcf.Wire Kcf.Transition Errno
open Kcf.Network.Discovery (PeerInfo)

/-- Where the I/O thread is: in its loop, behind it, or not running. -/
inductive Phase where
  | looping
  | closing
  | ended
  deriving DecidableEq

/-- A node with what its last `Start` fixed and the flag `running`. -/
structure Period where
  gateway : Gateway
  node : Node := {}
  running : Bool := false
  phase : Phase := .ended

/-- Steps of the backend, which goes on until it is joined. -/
def Event.OfBackend : Event → Bool
  | .takeJob | .reply _ | .abort _ => true
  | _ => false

def Event.IsSubmit : Event → Bool
  | .submit _ _ => true
  | _ => false

inductive Occasion where
  | start (gateway : Gateway) (now : Int)
  | submit (submission : Submission) (now : Int)
  | work (event : Event)
  | stop
  | leave
  | cancel
  | close
  | withdraw

namespace Node

variable (node : Node)

/-- What the last `Stop` and this `Start` clear. -/
def restart (now : Int) : Node :=
  { node with
    jobs := []
    replies := []
    diagnosticsJobs := []
    diagnosticsSeen := []
    observerDiagnosticsSeen := []
    nextDiagnostics := now
    seen := []
    clientSeen := []
    liveConnections := []
    abortConnections := []
    opened := 0
    connected := 0
    sent := 0
    ignored := 0
    rejected := 0 }

/-- `Submit` on a node that does not run. -/
def refuse (submission : Submission) (now : Int) : Node :=
  let code := if submission.Valid then errorCode enotconn else errorCode einval
  { node with batches := node.batches ++ [(submission.batch now).reject code] }

/-- One turn of the loop that completes the requests that are left. -/
def cancelLast : Node := node.finish (node.pending.length - 1) { code := errorCode ecanceled }

/-- One turn of the loop that drops the connections that are left. -/
def dropLast : Node := node.drop (node.connections.length - 1)

/-- A batch that was submitted and not admitted. -/
def withdrawBatch (b : Nat) : Node :=
  { node with
    batches := node.batches.modify b fun batch => batch.reject (errorCode ecanceled) }

/-- The end of the I/O thread: what was not admitted is rejected. -/
def withdraw : Node := node.submissions.foldl withdrawBatch { node with submissions := [] }

end Node

/-- One step of the lifetime.  The loop may be left at any time: `running` is one
reason, errors of the loop are others. -/
def Period.advance (period : Period) : Occasion → Option Period
  | .start gateway now =>
    if period.phase = .ended then
      some { gateway, node := period.node.restart now, running := true, phase := .looping }
    else none
  | .submit submission now =>
    some { period with
      node :=
        if period.running then period.node.submit submission now
        else period.node.refuse submission now }
  | .work event =>
    if event.IsSubmit = false ∧ (period.phase = .looping ∨ event.OfBackend = true) then
      some { period with node := period.node.step period.gateway event }
    else none
  | .stop => some { period with running := false }
  | .leave =>
    if period.phase = .looping then some { period with running := false, phase := .closing }
    else none
  | .cancel =>
    if period.phase = .closing ∧ period.node.pending ≠ [] then
      some { period with node := period.node.cancelLast }
    else none
  | .close =>
    if period.phase = .closing ∧ period.node.pending = [] ∧ period.node.connections ≠ [] then
      some { period with node := period.node.dropLast }
    else none
  | .withdraw =>
    if period.phase = .closing ∧ period.node.pending = [] ∧ period.node.connections = [] then
      some { period with node := period.node.withdraw, phase := .ended }
    else none

/-- The lifetimes of a node, from its construction on. -/
def lifetime : System Period Occasion where
  initial period := ∃ gateway, period = { gateway }
  step period occasion next := period.advance occasion = some next

/-! ## What a step does to the books -/

/-- What one step of the lifetime does to the books: acts of the loop, a batch that is
refused, or the batches that are withdrawn at the end. -/
inductive Node.Move (heard : Option Frame) (node next : Node) : Prop where
  | acts (gateway : Gateway) (acts : node.Acts gateway heard next)
  | refuse (submission : Submission) (now : Int)
      (same : next.books = (node.refuse submission now).books)
  | withdraw (same : next.books = node.withdraw.books)

/-- The frame that a step of the lifetime receives. -/
def Period.heard (period : Period) : Occasion → Option Frame
  | .work event => period.node.heard period.gateway event
  | _ => none

/-- Every step of the lifetime is a move. -/
theorem Period.advance_move {period next : Period} {occasion : Occasion}
    (step : period.advance occasion = some next) :
    period.node.Move (period.heard occasion) next.node := by
  have quiet {node : Node} (same : node.books = period.node.books) :
      period.node.Move (period.heard occasion) node :=
    .acts period.gateway (.quiet same)
  cases occasion <;> simp only [Period.advance, Option.ite_none_right_eq_some,
    Option.some.injEq] at step
  case start =>
    obtain ⟨-, rfl⟩ := step
    exact quiet rfl
  case submit submission now =>
    obtain rfl := step
    dsimp only
    split
    · exact .acts period.gateway (.single (.submit submission now))
    · exact .refuse submission now rfl
  case work event =>
    obtain ⟨-, rfl⟩ := step
    exact .acts period.gateway (Node.step_acts event)
  case stop =>
    obtain rfl := step
    exact quiet rfl
  case leave =>
    obtain ⟨-, rfl⟩ := step
    exact quiet rfl
  case cancel =>
    obtain ⟨⟨-, some_⟩, rfl⟩ := step
    have inside : period.node.pending.length - 1 < period.node.pending.length := by
      have positive := List.length_pos_iff.mpr some_
      omega
    have failure : errorCode ecanceled ≠ 0 := by decide
    exact .acts period.gateway (.single (.finish { code := errorCode ecanceled }
      (List.getElem?_eq_getElem inside) fun success => absurd success failure))
  case close =>
    obtain ⟨-, rfl⟩ := step
    exact .acts period.gateway (Node.drop_acts _)
  case withdraw =>
    obtain ⟨-, rfl⟩ := step
    exact .withdraw rfl

/-! ## A goal on another host -/

namespace Crane

def profile : PeerProfile where
  capabilities := Capability.discovery ||| Capability.remoteAction ||| Capability.targetEndpoint

/-- The node that starts the goal, on the second host. -/
def gateway : Gateway where
  config := { discovery := { host := .ofByte 2, bootId := .ofByte 8, profile } }
  self := ⟨.ofByte 2, .ofByte 8, 100, 1⟩
  session := 5
  codec := ⟨fun _ _ => false, fun _ => none⟩

/-- The gateway of the Action, on the first host. -/
def runtime : RemoteRuntimeIdentity := ⟨.ofByte 1, .ofByte 9, 200, 1⟩

def endpoint : NetworkEndpointMetadata where
  identity := ⟨runtime, 1⟩
  elementName := [99]
  name := [47, 99]
  kind := .action
  role := .provider
  scope := .remote
  requestType := ⟨1, 1, 1, 1⟩
  responseType := ⟨2, 2, 1, 1⟩
  feedbackType := ⟨3, 3, 1, 1⟩

def peer : PeerInfo where
  host := .ofByte 1
  bootId := .ofByte 9
  sessionId := 6
  address := ⟨0x0a000001, 37651⟩
  profile := profile
  metadataReady := true
  endpoints := [endpoint]

def goal : Submission where
  target := { scope := .endpoint, endpoint := ⟨runtime, 1⟩ }
  name := [47, 99]
  type := ⟨1, 1, 1, 1⟩
  responseType := ⟨2, 2, 1, 1⟩
  feedbackType := ⟨3, 3, 1, 1⟩
  value := [7]

/-- A frame of the other gateway about the goal. -/
def answer (operation : Message) (actionState : ActionState) (requestId feedbackSequence : UInt64)
    (payload : Bytes) : Frame where
  operation := operation
  source := runtime
  sessionId := 6
  requestId := requestId
  endpoint := ⟨runtime, 1⟩
  name := [47, 99]
  type := ⟨1, 1, 1, 1⟩
  responseType := ⟨2, 2, 1, 1⟩
  feedbackType := ⟨3, 3, 1, 1⟩
  goal := ⟨gateway.self, 1, 5⟩
  actionState := actionState
  feedbackSequence := feedbackSequence
  payload := payload

def hear (f : Frame) : List Occasion := [.work (.arrive 0 f.bytes), .work (.read 0 [peer] 0)]

/-- The goal is sent to the other gateway. -/
def send : List Occasion :=
  [.start gateway 0, .submit goal 0, .work (.accept 0x0a000001 0)] ++
    hear { source := runtime, sessionId := 6 } ++
    [.work (.admitPeers [peer]), .work (.sendPass 0)]

/-- It is accepted, and there is feedback. -/
def progress : List Occasion :=
  hear (answer .actionGoalResponse .accepted 1 0 []) ++
    hear (answer .actionFeedback .running 0 3 [4])

/-- It succeeds, and the node is stopped. -/
def finish : List Occasion :=
  hear (answer .actionResult .succeeded 0 0 [5]) ++ [.stop, .leave, .close, .withdraw]

end Crane

/-- What is seen after these steps of a new node. -/
theorem lifetime_computed {γ : Type} {occasions : List Occasion} (observe : Period → γ) (seen : γ)
    (computed : (occasions.foldlM Period.advance { gateway := Crane.gateway }).map observe =
      some seen) : ∃ period, lifetime.Reachable period ∧ observe period = seen := by
  obtain ⟨period, run, same⟩ := Option.map_eq_some_iff.mp computed
  exact ⟨period, ⟨_, _, ⟨Crane.gateway, rfl⟩, .of_foldlM (fun _ _ _ done => done) run⟩, same⟩

end Kcf.Network.Control
