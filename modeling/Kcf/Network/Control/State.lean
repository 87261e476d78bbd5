import Kcf.Network.Control.Codec
import Kcf.Network.Control.Grants
import Kcf.Network.Control.Window
import Kcf.Network.Discovery.Route

/-!
# The state of a control node

`ControlNode::Impl` between `Start` and `Stop`, with the operations that its
handlers share.  Shared pointers to batches and Action sessions are indices into
tables; times are nanoseconds of the steady clock; `opened` is a ghost that counts the
connections since `Start`.
-/

namespace Kcf.Network.Control

open Kcf.Wire
open Kcf.Network.Discovery (PeerInfo millisecond)

def maxPending : Nat := 256
def maxConnections : Nat := 64
def maxQueueBytes : Nat := 256 * 1024
def maxDiagnosticsConnections : Nat := 8
def maxDiagnosticsJobs : Nat := 8
def maxDiagnosticsQueueBytes : Nat := 32 * 1024
def maxDiagnosticsFrames : Nat := 16

/-- `ReasonError`. -/
def reasonError (reason : CompatibilityReason) : Int32 :=
  if reason = .typeMismatch then errorCode Errno.eprototype
  else if reason = .peerLost then errorCode Errno.enotconn
  else errorCode Errno.eacces

/-- What `Start` fixes: the configuration with the node's own profile, its runtime
identity and session, the codecs of payloads and the byte order of the machine. -/
structure Gateway where
  config : Config
  self : RemoteRuntimeIdentity
  session : UInt64
  codec : PayloadCodec
  little : Bool := true

/-- `RemoteActionSnapshot`. -/
structure ActionSnapshot where
  goal : RemoteGoalIdentity := {}
  endpoint : RemoteEndpointIdentity := {}
  accepted : Bool := false
  terminal : Bool := false
  communicationLost : Bool := false
  executionUnknown : Bool := false
  cancelUnknown : Bool := false
  cancelAccepted : Bool := false
  error : Int32 := 0
  state : ActionState := .idle
  feedbackSequence : UInt64 := 0
  feedback : Bytes := []
  result : Bytes := []

/-- `RemoteActionSession`. -/
structure ActionSession where
  snapshot : ActionSnapshot := {}
  request : Frame := {}

/-- `ParameterEndpointResult`, for Parameter, Service and Action requests. -/
structure EndpointResult where
  endpoint : RemoteEndpointIdentity := {}
  error : Int32 := 0
  reason : CompatibilityReason := .compatible
  value : Bytes := []
  action : Option Nat := none
  cancelUnknown : Bool := false
  executionUnknown : Bool := false

/-- `ParameterBatchResult`. -/
structure BatchResult where
  error : Int32 := 0
  endpoints : List EndpointResult := []

/-- The arguments of `Finish`. -/
structure Completion where
  code : Int32
  reason : CompatibilityReason := .compatible
  value : Bytes := []
  confirmed : Bool := false
  unknown : Bool := false

/-- One call of `Finish`: the request's index in its batch, whether it was sent, and the
arguments. -/
structure FinishCall where
  index : Nat
  sent : Bool
  completion : Completion

/-- `Impl::Batch`; `promise` lists the values its promise was set to, and `finishes` the calls
of `Finish` for its requests. -/
structure Batch where
  target : RemoteTarget
  name : Bytes
  type : TypeIdentity
  responseType : TypeIdentity := {}
  feedbackType : TypeIdentity := {}
  cancel : Option Nat := none
  value : Bytes := []
  set : Bool := false
  service : Bool := false
  action : Bool := false
  deadline : Int
  result : BatchResult := {}
  left : Nat := 0
  promise : List BatchResult := []
  finishes : List FinishCall := []

/-- `Impl::Pending`. -/
structure Pending where
  batch : Nat
  index : Nat
  frame : Frame
  sent : Bool := false
  connection : UInt64 := 0

/-- `Impl::Connection`; an address is an IPv4 number. -/
structure Connection where
  id : UInt64
  connecting : Bool := false
  ready : Bool := false
  outbound : Bool := false
  host : HostIdentity := .zero
  session : UInt64 := 0
  address : UInt32
  deadline : Int
  diagnosticsOnly : Bool := false
  diagnosticsPending : Bool := false
  observerSource : RemoteRuntimeIdentity := {}
  input : Bytes := []
  output : List Bytes := []
  offset : Nat := 0
  queued : Nat := 0

/-- `Impl::Job`. -/
structure Job where
  connection : UInt64
  frame : Frame
  deadline : Int

/-- `Impl::Reply`. -/
structure Reply where
  connection : UInt64
  frame : Frame

/-- `Impl::Seen`: the high-water marks of a general gateway. -/
structure Seen where
  host : HostIdentity
  session : UInt64
  last : UInt64 := 0
  lastGoal : UInt64 := 0

/-- `Impl::ClientSeen`: the replay windows of an observer. -/
structure ClientSeen where
  host : HostIdentity
  boot : HostIdentity
  session : UInt64
  requests : Window := {}
  goals : Window := {}

/-- `Impl::DiagnosticsSeen`. -/
structure DiagnosticsSeen where
  host : HostIdentity
  boot : HostIdentity
  session : UInt64
  last : UInt64 := 0
  next : Int := 0

/-- `Impl::Outgoing`. -/
structure Outgoing where
  session : Nat
  connection : UInt64

/-- `ControlNode::Impl`, apart from what its backend threads own. -/
structure Node where
  connections : List Connection := []
  pending : List Pending := []
  outgoing : List Outgoing := []
  batches : List Batch := []
  sessions : List ActionSession := []
  submissions : List Nat := []
  jobs : List Job := []
  replies : List Reply := []
  diagnosticsJobs : List Job := []
  diagnosticsSeen : List DiagnosticsSeen := []
  observerDiagnosticsSeen : List DiagnosticsSeen := []
  nextDiagnostics : Int := 0
  seen : List Seen := []
  clientSeen : List ClientSeen := []
  liveConnections : List UInt64 := []
  abortConnections : List UInt64 := []
  nextRequest : UInt64 := 0
  nextGoal : UInt64 := 0
  nextConnection : UInt64 := 0
  opened : Nat := 0
  connected : Nat := 0
  sent : Nat := 0
  ignored : Nat := 0
  rejected : Nat := 0

/-! ## Output queues -/

/-- The limits of a connection's output leave room for these bytes. -/
def Connection.HasRoom (c : Connection) (bytes : Bytes) : Prop :=
  c.queued + bytes.length ≤
      (if c.diagnosticsOnly then maxDiagnosticsQueueBytes else maxQueueBytes) ∧
    ¬(c.diagnosticsOnly = true ∧ maxDiagnosticsFrames ≤ c.output.length)
  deriving Decidable

/-- Append to a connection's output. -/
def Connection.push (c : Connection) (bytes : Bytes) : Connection :=
  { c with queued := c.queued + bytes.length, output := c.output ++ [bytes] }

/-- `Queue`: the connection with the frame in its output, if that is possible. -/
def Gateway.queue (gateway : Gateway) (c : Connection) (f : Frame) : Option Connection :=
  match encodeFrame gateway.codec f with
  | .error _ => none
  | .ok bytes => if c.HasRoom bytes then some (c.push bytes) else none

/-- The node's own `HELLO`. -/
def Gateway.helloFrame (gateway : Gateway) : Frame :=
  { source := gateway.self, sessionId := gateway.session }

/-- `Hello`. -/
def Gateway.hello (gateway : Gateway) (c : Connection) : Option Connection :=
  gateway.queue c gateway.helloFrame

/-! ## Completion -/

/-- The request may have taken effect, although it is reported as failed. -/
def Completion.executionUnknown (completion : Completion) (batch : Batch) (sent : Bool) : Bool :=
  sent && completion.code ≠ 0 && (batch.service ||
    (batch.action && batch.cancel.isNone && (!completion.confirmed || completion.unknown)))

def Completion.cancelUnknown (completion : Completion) (batch : Batch) (sent : Bool) : Bool :=
  batch.cancel.isSome && sent && completion.code ≠ 0 &&
    (!completion.confirmed || completion.unknown)

/-- What `Finish` writes to the session of a goal or of a cancelled goal. -/
def Completion.settle (completion : Completion) (batch : Batch) (sent : Bool)
    (session : ActionSession) : ActionSession :=
  let a := session.snapshot
  let ok := completion.code = 0
  if batch.cancel.isSome then
    { session with
      snapshot := { a with cancelUnknown := completion.cancelUnknown batch sent
                           cancelAccepted := ok } }
  else
    { session with
      snapshot := { a with
        error := completion.code
        executionUnknown := completion.executionUnknown batch sent
        accepted := ok
        state := if ok then .accepted else .idle
        communicationLost :=
          if ok then a.communicationLost else completion.executionUnknown batch sent } }

/-- The result of one endpoint of a batch. -/
def Completion.record (completion : Completion) (batch : Batch) (sent : Bool)
    (out : EndpointResult) : EndpointResult :=
  { out with
    error := completion.code
    reason := completion.reason
    value := completion.value
    executionUnknown := completion.executionUnknown batch sent
    cancelUnknown := completion.cancelUnknown batch sent }

/-- Record one result; the last one sets the promise. -/
def Batch.finish (batch : Batch) (index : Nat) (sent : Bool) (completion : Completion) : Batch :=
  let result := { batch.result with
    endpoints := batch.result.endpoints.modify index (completion.record batch sent) }
  { batch with
    result
    left := batch.left - 1
    promise := if batch.left - 1 = 0 then batch.promise ++ [result] else batch.promise
    finishes := batch.finishes ++ [⟨index, sent, completion⟩] }

namespace Node

/-- A goal that failed is not tracked any more; if it may be running, its
connection is given up. -/
def forget (node : Node) (session : Nat) (connection : UInt64) (unknown : Bool) : Node :=
  { node with
    outgoing := node.outgoing.filter fun o => o.session ≠ session
    abortConnections :=
      if unknown ∧ connection ∈ node.liveConnections then node.abortConnections.insert connection
      else node.abortConnections }

/-- The Action part of `Finish`. -/
def settleAction (node : Node) (p : Pending) (batch : Batch) (completion : Completion)
    (session : Nat) : Node :=
  let node := { node with
    sessions := node.sessions.modify session (completion.settle batch p.sent) }
  if batch.cancel.isNone ∧ completion.code ≠ 0 then
    node.forget session p.connection (completion.executionUnknown batch p.sent)
  else node

/-- `Finish`. -/
def finish (node : Node) (index : Nat) (completion : Completion) : Node :=
  match node.pending[index]? with
  | none => node
  | some p =>
    match node.batches[p.batch]? with
    | none => node
    | some batch =>
      let node := { node with pending := node.pending.eraseIdx index }
      let node :=
        match batch.result.endpoints[p.index]?.bind EndpointResult.action with
        | some session => node.settleAction p batch completion session
        | none => node
      { node with batches := node.batches.set p.batch (batch.finish p.index p.sent completion) }

/-- `Finish` for every request that was sent on a connection, from the last one. -/
def finishSent (node : Node) (connection : UInt64) (completion : Completion) : Nat → Node
  | 0 => node
  | index + 1 =>
    let node :=
      match node.pending[index]? with
      | some p => if p.sent ∧ p.connection = connection then node.finish index completion else node
      | none => node
    node.finishSent connection completion index

/-- Forget a lost connection and tell the sessions of its goals. -/
def detach (node : Node) (connection : UInt64) : Node :=
  { node with
    diagnosticsJobs := node.diagnosticsJobs.filter fun job => job.connection ≠ connection
    liveConnections := node.liveConnections.filter fun id => id ≠ connection
    abortConnections := node.abortConnections.filter fun id => id ≠ connection
    sessions := (node.outgoing.filter fun o => o.connection = connection).foldl
      (fun sessions o => sessions.modify o.session fun session =>
        { session with snapshot := { session.snapshot with
            communicationLost := true, error := errorCode Errno.econnreset } })
      node.sessions
    outgoing := node.outgoing.filter fun o => o.connection ≠ connection }

/-- Everything that `Drop` does apart from the connection itself. -/
def abandon (node : Node) (connection : UInt64) : Node :=
  (node.detach connection).finishSent connection { code := errorCode Errno.econnreset }
    node.pending.length

/-- `Drop`. -/
def drop (node : Node) (index : Nat) : Node :=
  match node.connections[index]? with
  | none => node
  | some c => { node.abandon c.id with connections := node.connections.eraseIdx index }

/-! ## What completion leaves alone -/

/-- A node without the requests of its own user. -/
def rest (node : Node) : Node :=
  { node with
    pending := [], outgoing := [], batches := [], sessions := [], submissions := []
    abortConnections := [], nextRequest := 0, nextGoal := 0 }

theorem finish_rest (node : Node) (index : Nat) (completion : Completion) :
    (node.finish index completion).rest = node.rest := by
  unfold finish
  split
  · rfl
  split
  · rfl
  split
  · unfold settleAction
    split <;> rfl
  · rfl

theorem finishSent_rest (connection : UInt64) (completion : Completion) (count : Nat)
    (node : Node) :
    (node.finishSent connection completion count).rest = node.rest := by
  induction count generalizing node with
  | zero => rfl
  | succ index ih =>
    unfold finishSent
    split
    · split
      · exact (ih _).trans (node.finish_rest index completion)
      · exact ih node
    · exact ih node

theorem abandon_rest (node : Node) (connection : UInt64) :
    (node.abandon connection).rest = (node.detach connection).rest :=
  finishSent_rest _ _ _ _

end Node

end Kcf.Network.Control
