import Kcf.Data.Ring
import Kcf.Service.Protocol
import Kcf.Transition.System

/-!
# The Service server

`ServiceServer::Run`: one worker that takes datagrams one after another, answers
repeated requests from a cache and runs the handler of each new one.
-/

namespace Kcf.Service

open Kcf.Wire Kcf.Data Kcf.Transition Errno

/-- `ServiceServer::Handler`, without the callback: what a callback does is up to
the application. -/
structure Handler where
  requestSize : Nat
  responseSize : Nat
  requestIdentity : StorageIdentity
  responseIdentity : StorageIdentity

/-- What tells requests apart. -/
structure Key where
  source : Endpoint
  clientId : UInt64
  requestId : UInt64
  serviceId : UInt16
  deriving DecidableEq

/-- The key of a request from some socket. -/
def Packet.key (p : Packet) (source : Endpoint) : Key :=
  ⟨source, p.header.clientId, p.header.requestId, p.header.serviceId⟩

/-- The same types and the same payload. -/
def Packet.SameContent (p q : Packet) : Prop :=
  p.header.requestTypeId = q.header.requestTypeId ∧
    p.header.responseTypeId = q.header.responseTypeId ∧
    p.header.requestLayoutId = q.header.requestLayoutId ∧
    p.header.responseLayoutId = q.header.responseLayoutId ∧
    p.header.payloadSize = q.header.payloadSize ∧ p.payload = q.payload
  deriving Decidable

/-- `ServiceServer::Cached`. -/
structure Cached where
  source : Endpoint
  request : Packet
  response : Packet

def Cached.key (entry : Cached) : Key := entry.request.key entry.source

/-- A handler at work; `position` counts the requests processed before. -/
structure Invocation where
  source : Endpoint
  request : Packet
  handler : Handler
  position : Nat

def Invocation.key (invocation : Invocation) : Key := invocation.request.key invocation.source

/-- The number of cached requests. -/
def cacheSize : Nat := 64

theorem cacheSize_pos : 0 < cacheSize := by decide

/-- `ServiceServer` with its worker.  `processed`, `invoked`, `produced` and `sent`
record what happened since `Start`. -/
structure Server where
  handlers : UInt16 → Option Handler
  cache : Ring Cached cacheSize := .empty cacheSize_pos
  current : Option Invocation := none
  processed : List Cached := []
  invoked : List Invocation := []
  produced : List (Invocation × Option Bytes) := []
  sent : List (Endpoint × Packet) := []

/-- The types of a response are those of the handler. -/
def Handler.stamp (handler : Handler) (p : Packet) : Packet :=
  { p with
    header :=
      { p.header with
        requestTypeId := handler.requestIdentity.typeId
        responseTypeId := handler.responseIdentity.typeId
        requestLayoutId := handler.requestIdentity.layoutId
        responseLayoutId := handler.responseIdentity.layoutId } }

/-- The response to an invocation; a callback that throws yields no output. -/
def Handler.respond (handler : Handler) (request : Packet) : Option Bytes → Packet
  | none => handler.stamp (request.refuse (errorCode efault))
  | some output =>
    handler.stamp
      { header :=
          { request.header with
            packetType := responseType
            payloadSize := UInt32.ofNat handler.responseSize }
        payload := output }

/-- What the worker does with a datagram. -/
inductive Reaction where
  | ignore
  | reply (response : Packet)
  | process (response : Packet)
  | invoke (handler : Handler)

namespace Server

variable (server : Server) (source : Endpoint)

/-- The cached request with the key of this one. -/
def duplicate (p : Packet) : Option Cached :=
  server.cache.entries.find? fun entry => entry.key = p.key source

/-- A request that is not cached: it is refused, or goes to its handler. -/
def admitPacket (p : Packet) : Reaction :=
  match server.handlers p.header.serviceId with
  | none => .process (p.refuse (errorCode enoent))
  | some handler =>
    if handler.requestSize ≠ p.header.payloadSize.toNat then
      .process (handler.stamp (p.refuse (errorCode emsgsize)))
    else if ¬p.header.Identifies handler.requestIdentity handler.responseIdentity then
      .process (handler.stamp (p.refuse (errorCode eprototype)))
    else .invoke handler

/-- A request from this machine with a valid header. -/
def Accepts (p : Packet) : Prop :=
  source.address = loopback ∧ p.header.Valid requestType ∧ p.header.frameworkStatus = 0
  deriving Decidable

def react : Datagram → Reaction
  | .short => .ignore
  | .packet p =>
    if ¬Accepts source p then .ignore
    else if ¬p.Sized then .reply (p.refuse (errorCode emsgsize))
    else
      match server.duplicate source p with
      | some entry =>
        if entry.request.SameContent p then .reply entry.response
        else .reply (p.refuse (errorCode einval))
      | none => server.admitPacket p

/-- Send a response. -/
def answer (response : Packet) : Server :=
  { server with sent := server.sent ++ [(source, response)] }

/-- Put a request in the cache and send its response. -/
def conclude (request response : Packet) : Server :=
  let entry : Cached := ⟨source, request, response⟩
  { server with
    cache := server.cache.push entry
    processed := server.processed ++ [entry]
    sent := server.sent ++ [(source, response)] }

/-- The worker hands a request to its handler. -/
def begin (request : Packet) (handler : Handler) : Server :=
  let invocation : Invocation := ⟨source, request, handler, server.processed.length⟩
  { server with
    current := some invocation
    invoked := server.invoked ++ [invocation] }

/-- The worker takes a datagram. -/
def receive (d : Datagram) : Server :=
  match server.react source d, d with
  | .reply response, _ => server.answer source response
  | .process response, .packet p => server.conclude source p response
  | .invoke handler, .packet p => server.begin source p handler
  | _, _ => server

/-- The handler returns its response, or throws. -/
def finish (invocation : Invocation) (output : Option Bytes) : Server :=
  { (server.conclude invocation.source invocation.request
      (invocation.handler.respond invocation.request output)) with
    current := none
    produced := server.produced ++ [(invocation, output)] }

/-- What happens to the worker. -/
inductive Event where
  | datagram (source : Endpoint) (d : Datagram)
  | finished (output : Option Bytes)

/-- The output of a handler has the size of its response type. -/
def Invocation.Fits (invocation : Invocation) (output : Option Bytes) : Prop :=
  ∀ bytes ∈ output, bytes.length = invocation.handler.responseSize
  deriving Decidable

/-- One step of the worker: it takes the next datagram only after the handler of the
last one has returned. -/
def advance : Event → Option Server
  | .datagram source d =>
    match server.current with
    | none => some (server.receive source d)
    | some _ => none
  | .finished output =>
    match server.current with
    | none => none
    | some invocation =>
      if Invocation.Fits invocation output then some (server.finish invocation output)
      else none

theorem advance_datagram {server next : Server} {source : Endpoint} {d : Datagram}
    (step : server.advance (.datagram source d) = some next) :
    server.current = none ∧ next = server.receive source d := by
  dsimp only [advance] at step
  split at step
  next idle =>
    cases step
    exact ⟨idle, rfl⟩
  · cases step

theorem advance_finished {server next : Server} {output : Option Bytes}
    (step : server.advance (.finished output) = some next) :
    ∃ invocation, server.current = some invocation ∧ next = server.finish invocation output := by
  dsimp only [advance] at step
  split at step
  · cases step
  next invocation busy =>
    obtain ⟨_, ⟨⟩⟩ := Option.ite_none_right_eq_some.mp step
    exact ⟨invocation, busy, rfl⟩

/-- The worker after `Start`. -/
def Started (server : Server) : Prop := ∃ handlers, server = { handlers }

/-- The runs of a server. -/
def serving : System Server Event where
  initial := Started
  step server event next := server.advance event = some next

end Server

end Kcf.Service
