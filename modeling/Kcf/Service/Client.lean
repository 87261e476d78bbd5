import Kcf.Data.Counter
import Kcf.Data.Snoc
import Kcf.Service.Protocol

/-!
# The Service client

`ServiceClient::CallRaw`: one outstanding request with its retries.  The mutex of the
client serializes the calls, so a client is in at most one of them; what `sendto`,
`poll` and `recvfrom` do is up to the system.
-/

namespace Kcf.Service

open Kcf.Wire List

/-- The arguments of a call; `buffer` is what the output holds before it. -/
structure Call where
  serviceId : UInt16
  input : Bytes
  buffer : Bytes
  requestIdentity : StorageIdentity := {}
  responseIdentity : StorageIdentity := {}
  length_input : input.length ≤ maxPayload
  length_buffer : buffer.length ≤ maxPayload
  deriving DecidableEq

/-- The result of a call and what it left in the output. -/
structure Completion where
  requestId : UInt64
  call : Call
  code : Int32
  output : Bytes

/-- Where a client is in `CallRaw`. -/
inductive Phase where
  | idle
  | sending (call : Call) (attempt : Nat)
  | waiting (call : Call) (attempt : Nat)

/-- The call that a client is in. -/
def Phase.call : Phase → Option Call
  | idle => none
  | sending call _ | waiting call _ => some call

/-- `ServiceClient`.  `started` and `returned` record its calls. -/
structure Client where
  endpoint : Endpoint
  target : Endpoint
  clientId : UInt64
  retryCount : UInt32 := 2
  requestId : UInt64 := 0
  isOpen : Bool := true
  phase : Phase := .idle
  started : List (UInt64 × Call) := []
  returned : List Completion := []

/-- What a call makes of a datagram. -/
inductive Verdict where
  | skip
  | fail (code : Int32)
  | accept (output : Bytes)

namespace Client

variable (client : Client)

/-- The packet that a call sends. -/
def request (requestId : UInt64) (call : Call) : Packet where
  header :=
    { serviceId := call.serviceId
      requestTypeId := call.requestIdentity.typeId
      responseTypeId := call.responseIdentity.typeId
      requestLayoutId := call.requestIdentity.layoutId
      responseLayoutId := call.responseIdentity.layoutId
      clientId := client.clientId
      requestId
      payloadSize := UInt32.ofNat call.input.length }
  payload := call.input

/-- A datagram is a response to this call. -/
def Matches (call : Call) (sender : Endpoint) (p : Packet) : Prop :=
  sender = client.target ∧ p.header.Valid responseType ∧
    p.header.clientId = client.clientId ∧ p.header.requestId = client.requestId ∧
    p.header.serviceId = call.serviceId ∧ p.Sized
  deriving Decidable

def examine (call : Call) (sender : Endpoint) : Datagram → Verdict
  | .short => .skip
  | .packet p =>
    if ¬client.Matches call sender p then .skip
    else if ¬p.header.Identifies call.requestIdentity call.responseIdentity then
      .fail (errorCode Errno.eprototype)
    else if p.header.frameworkStatus < 0 then
      if p.header.payloadSize = 0 then .fail p.header.frameworkStatus else .skip
    else if p.header.frameworkStatus ≠ 0 then .skip
    else if p.header.payloadSize.toNat ≠ call.buffer.length then
      .fail (errorCode Errno.emsgsize)
    else .accept p.payload

/-- Return from a call. -/
def leave (call : Call) (code : Int32) (output : Bytes) : Client :=
  { client with
    phase := .idle
    returned := client.returned ++ [⟨client.requestId, call, code, output⟩] }

/-- `CallRaw` up to its first `sendto`. -/
def enter (call : Call) : Client :=
  if ¬client.isOpen then client.leave call (errorCode Errno.ebadf) call.buffer
  else if client.requestId = 0xffffffffffffffff then
    client.leave call (errorCode Errno.eoverflow) call.buffer
  else
    { client with
      requestId := client.requestId + 1
      phase := .sending call 0
      started := client.started ++ [(client.requestId + 1, call)] }

/-- No response came in time. -/
def lapse (call : Call) (attempt : Nat) : Client :=
  if attempt < client.retryCount.toNat then { client with phase := .sending call (attempt + 1) }
  else client.leave call (errorCode Errno.etimedout) call.buffer

/-- `CallRaw` goes on after a datagram. -/
def settle (call : Call) : Verdict → Client
  | .skip => client
  | .fail code => client.leave call code call.buffer
  | .accept output => client.leave call 0 output

/-- What happens to a client. -/
inductive Event where
  | call (call : Call)
  | sent
  | failed (code : Int32)
  | received (sender : Endpoint) (d : Datagram)
  | lapsed
  | close

/-- One step of a client; a system call that fails makes the call return its code. -/
def advance : Event → Option Client
  | .call call =>
    match client.phase with
    | .idle => some (client.enter call)
    | _ => none
  | .sent =>
    match client.phase with
    | .sending call attempt => some { client with phase := .waiting call attempt }
    | _ => none
  | .failed code =>
    match client.phase.call with
    | some call => if code < 0 then some (client.leave call code call.buffer) else none
    | none => none
  | .received sender d =>
    match client.phase with
    | .waiting call _ => some (client.settle call (client.examine call sender d))
    | _ => none
  | .lapsed =>
    match client.phase with
    | .waiting call attempt => some (client.lapse call attempt)
    | _ => none
  | .close =>
    match client.phase with
    | .idle => some { client with isOpen := false }
    | _ => none

/-- The packets that a step puts on the network. -/
def sends : Event → List Packet
  | .sent => (client.phase.call.map (client.request client.requestId)).toList
  | _ => []

end Client

/-! ## What a datagram does -/

/-- Everything a call can make of a datagram. -/
inductive Client.Examines (client : Client) (call : Call) (sender : Endpoint) :
    Datagram → Verdict → Prop where
  | skipped {d : Datagram} : Examines client call sender d .skip
  | failed {p : Packet} {code : Int32} : client.Matches call sender p → code ≠ 0 →
      Examines client call sender (.packet p) (.fail code)
  | accepted {p : Packet} : client.Matches call sender p → p.header.frameworkStatus = 0 →
      Examines client call sender (.packet p) (.accept p.payload)

theorem Client.examines (client : Client) (call : Call) (sender : Endpoint) (d : Datagram) :
    client.Examines call sender d (client.examine call sender d) := by
  cases d with
  | short => exact .skipped
  | packet p =>
    unfold examine
    dsimp only
    by_cases fits : client.Matches call sender p
    case neg =>
      rw [if_pos fits]
      exact .skipped
    rw [if_neg (not_not.mpr fits)]
    by_cases types : ¬p.header.Identifies call.requestIdentity call.responseIdentity
    · rw [if_pos types]
      exact .failed fits (by decide)
    rw [if_neg types]
    by_cases negative : p.header.frameworkStatus < 0
    · rw [if_pos negative]
      by_cases empty : p.header.payloadSize = 0
      · rw [if_pos empty]
        refine .failed fits ?_
        intro zero
        rw [zero] at negative
        exact absurd negative (by decide)
      · rw [if_neg empty]
        exact .skipped
    rw [if_neg negative]
    by_cases status : p.header.frameworkStatus = 0
    case neg =>
      rw [if_pos status]
      exact .skipped
    rw [if_neg (not_not.mpr status)]
    by_cases size : p.header.payloadSize.toNat ≠ call.buffer.length
    · rw [if_pos size]
      exact .failed fits (by decide)
    · rw [if_neg size]
      exact .accepted fits status

/-! ## What a step does -/

/-- Everything a step of a client can do. -/
inductive Client.Effect (client : Client) (event : Client.Event) : Client → Prop where
  | proceeded {phase : Phase} : phase.call = client.phase.call →
      Effect client event { client with phase := phase }
  | began {call : Call} : client.requestId ≠ 0xffffffffffffffff →
      Effect client event
        { client with
          requestId := client.requestId + 1
          phase := .sending call 0
          started := client.started ++ [(client.requestId + 1, call)] }
  | failed {call : Call} {code : Int32} : code ≠ 0 →
      Effect client event (client.leave call code call.buffer)
  | accepted {call : Call} {sender : Endpoint} {p : Packet} :
      event = .received sender (.packet p) → client.phase.call = some call →
      client.Matches call sender p → p.header.frameworkStatus = 0 →
      Effect client event (client.leave call 0 p.payload)
  | closed : Effect client event { client with isOpen := false }

theorem Client.effect_enter (client : Client) (event : Client.Event) (call : Call) :
    client.Effect event (client.enter call) := by
  unfold enter
  by_cases closed : ¬client.isOpen
  · rw [if_pos closed]
    exact .failed (by decide)
  rw [if_neg closed]
  by_cases full : client.requestId = 0xffffffffffffffff
  · rw [if_pos full]
    exact .failed (by decide)
  · rw [if_neg full]
    exact .began full

theorem Client.effect_lapse {client : Client} {call : Call} {attempt : Nat}
    (waiting : client.phase = .waiting call attempt) (event : Client.Event) :
    client.Effect event (client.lapse call attempt) := by
  unfold lapse
  split
  · refine .proceeded ?_
    rw [waiting]
    rfl
  · exact .failed (by decide)

theorem Client.effect_settle {client : Client} {call : Call} {attempt : Nat}
    (waiting : client.phase = .waiting call attempt) (sender : Endpoint) (d : Datagram) :
    client.Effect (.received sender d)
      (client.settle call (client.examine call sender d)) := by
  have outcome := client.examines call sender d
  generalize client.examine call sender d = verdict at outcome ⊢
  cases outcome with
  | skipped => exact .proceeded (rfl : client.phase.call = client.phase.call)
  | failed _ nonzero => exact .failed nonzero
  | accepted fits status => exact .accepted rfl (by rw [waiting]; rfl) fits status

theorem Client.effect_of_advance {client next : Client} {event : Client.Event}
    (step : client.advance event = some next) : client.Effect event next := by
  cases event with
  | call call =>
    dsimp only [advance] at step
    split at step <;> cases step
    exact client.effect_enter _ call
  | sent =>
    dsimp only [advance] at step
    split at step <;> cases step
    next sending => exact .proceeded (by rw [sending]; rfl)
  | failed code =>
    dsimp only [advance] at step
    split at step
    · obtain ⟨negative, ⟨⟩⟩ := Option.ite_none_right_eq_some.mp step
      refine .failed ?_
      rintro rfl
      exact absurd negative (by decide)
    · cases step
  | received sender d =>
    dsimp only [advance] at step
    split at step <;> cases step
    next waiting => exact effect_settle waiting sender d
  | lapsed =>
    dsimp only [advance] at step
    split at step <;> cases step
    next waiting => exact effect_lapse waiting _
  | close =>
    dsimp only [advance] at step
    split at step <;> cases step
    exact .closed

/-! ## The calls of a client -/

/-- What holds between any two steps of a client. -/
structure Client.Invariant (client : Client) : Prop where
  ordered : client.started.Pairwise fun first second => first.1 < second.1
  bounded : ∀ record ∈ client.started, record.1 ≤ client.requestId
  active : ∀ call, client.phase.call = some call → (client.requestId, call) ∈ client.started
  untouched : ∀ completion ∈ client.returned, completion.code ≠ 0 →
    completion.output = completion.call.buffer

/-- What no step of a client changes. -/
structure Client.Extends (client next : Client) : Prop where
  endpoint : next.endpoint = client.endpoint
  target : next.target = client.target
  clientId : next.clientId = client.clientId
  started : client.started ⊆ next.started

section

variable {client next : Client} {call : Call} {event : Client.Event}

section

variable (invariant : client.Invariant)
include invariant

/-- Two requests with one id are the same call. -/
theorem Client.Invariant.call_unique {id : UInt64}
    {first second : Call} (atFirst : (id, first) ∈ client.started)
    (atSecond : (id, second) ∈ client.started) : first = second := by
  have distinct : (client.started.map Prod.fst).Nodup := by
    refine pairwise_map.mpr (invariant.ordered.imp ?_)
    intro earlier later before same
    rw [same] at before
    exact absurd before (UInt64.lt_irrefl _)
  have equal := inj_on_of_nodup_map distinct atFirst atSecond rfl
  exact congrArg Prod.snd equal

theorem Client.Invariant.leave {code : Int32} {output : Bytes}
    (kept : code ≠ 0 → output = call.buffer) : (client.leave call code output).Invariant where
  __ := invariant
  active := nofun
  untouched := by
    intro completion member failed
    rcases Data.mem_snoc member with old | rfl
    · exact invariant.untouched completion old failed
    · exact kept failed

theorem Client.Invariant.began (below : client.requestId ≠ 0xffffffffffffffff) :
    ({ client with
      requestId := client.requestId + 1
      phase := .sending call 0
      started := client.started ++ [(client.requestId + 1, call)] } : Client).Invariant := by
  have later := Data.UInt64.lt_add_one below
  refine { invariant with ordered := ?ordered, bounded := ?bounded, active := ?active }
  case ordered =>
    refine Data.pairwise_snoc invariant.ordered fun first member => ?_
    exact UInt64.lt_of_le_of_lt (invariant.bounded first member) later
  case bounded =>
    refine Data.forall_snoc (fun record old => ?_) (UInt64.le_refl _)
    exact UInt64.le_of_lt (UInt64.lt_of_le_of_lt (invariant.bounded record old) later)
  case active =>
    intro other running
    cases running
    exact mem_append_right _ (mem_singleton.mpr rfl)

/-- A step inside a call keeps the call. -/
theorem Client.Invariant.proceed {phase : Phase}
    (same : phase.call = client.phase.call) :
    ({ client with phase := phase } : Client).Invariant where
  __ := invariant
  active := by
    intro other running
    exact invariant.active other (same.symm.trans running)

theorem Client.Invariant.step (step : client.advance event = some next) : next.Invariant := by
  cases effect_of_advance step with
  | proceeded same => exact invariant.proceed same
  | began below => exact invariant.began below
  | failed => exact invariant.leave fun _ => rfl
  | accepted => exact invariant.leave fun failed => absurd rfl failed
  | closed => exact { invariant with }

end

theorem Client.Extends.refl (client : Client) : client.Extends client :=
  ⟨rfl, rfl, rfl, Subset.refl _⟩

theorem Client.Extends.request_eq (more : client.Extends next) :
    next.request = client.request := by
  funext id call
  unfold Client.request
  rw [more.clientId]

theorem Client.Extends.step (step : client.advance event = some next) :
    client.Extends next := by
  cases effect_of_advance step with
  | proceeded | failed | accepted | closed => exact ⟨rfl, rfl, rfl, Subset.refl _⟩
  | began => exact ⟨rfl, rfl, rfl, subset_append_left _ _⟩

/-- A new successful completion comes from a response to the current call. -/
theorem Client.accepted_of_advance (step : client.advance event = some next)
    {completion : Completion} (member : completion ∈ next.returned)
    (success : completion.code = 0) :
    completion ∈ client.returned ∨
      ∃ call sender p, event = .received sender (.packet p) ∧ client.phase.call = some call ∧
        client.Matches call sender p ∧ p.header.frameworkStatus = 0 ∧
        completion = ⟨client.requestId, call, 0, p.payload⟩ := by
  cases effect_of_advance step with
  | proceeded | began | closed => exact .inl member
  | failed nonzero =>
    rcases Data.mem_snoc member with old | rfl
    · exact .inl old
    · exact absurd success nonzero
  | @accepted call sender p received running fits status =>
    exact (Data.mem_snoc member).imp_right fun new =>
      ⟨call, sender, p, received, running, fits, status, new⟩

end

end Kcf.Service
