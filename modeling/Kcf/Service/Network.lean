import Kcf.Service.Cache
import Kcf.Service.Client
import Mathlib.Data.Fintype.Basic

/-!
# Clients and a server

One server and any number of clients.  A datagram that was sent may arrive any number
of times, at any later time, or never.  Other processes may send whatever they like,
but not from the socket of the server or of a client.
-/

namespace Kcf.Service

open Kcf.Wire Kcf.Transition List Function

/-! ## The answers of a server -/

/-- An invocation that a successful response comes from. -/
structure Server.Backs (server : Server) (destination : Endpoint) (response : Packet)
    (invocation : Invocation) : Prop where
  produced : (invocation, some response.payload) ∈ server.produced
  invoked : invocation ∈ server.invoked
  key : invocation.key = response.key destination
  handler : server.handlers response.header.serviceId = some invocation.handler

/-- Every successful response comes from an invocation. -/
structure Server.Honest (server : Server) : Prop where
  sent : ∀ destination response, (destination, response) ∈ server.sent →
    response.header.frameworkStatus = 0 → ∃ invocation, server.Backs destination response invocation
  processed : ∀ entry ∈ server.processed, entry.response.header.frameworkStatus = 0 →
    ∃ invocation, server.Backs entry.source entry.response invocation
  current : ∀ invocation, server.current = some invocation → invocation ∈ server.invoked ∧
    server.handlers invocation.request.header.serviceId = some invocation.handler

/-- What no step of a server takes back. -/
structure Server.Extends (server next : Server) : Prop where
  handlers : next.handlers = server.handlers
  produced : server.produced ⊆ next.produced
  invoked : server.invoked ⊆ next.invoked

section

variable {server next : Server} {source : Endpoint} {p response : Packet}

/-- A step seen from the handlers: none is involved, or one begins, or one ends. -/
inductive Server.Progress (server : Server) (event : Server.Event) (next : Server) : Prop where
  | waited : server.current = none → next.current = none → next.handlers = server.handlers →
      next.invoked = server.invoked → next.produced = server.produced →
      Progress server event next
  | began {invocation : Invocation} : server.current = none →
      event = .datagram invocation.source (.packet invocation.request) →
      next.current = some invocation → next.handlers = server.handlers →
      next.invoked = server.invoked ++ [invocation] → next.produced = server.produced →
      Progress server event next
  | ended {invocation : Invocation} {output : Option Bytes} :
      server.current = some invocation → event = .finished output → next.current = none →
      next.handlers = server.handlers → next.invoked = server.invoked →
      next.produced = server.produced ++ [(invocation, output)] → Progress server event next

variable {event : Server.Event} {invocation : Invocation}

theorem Server.progress_of_advance (step : server.advance event = some next) :
    server.Progress event next := by
  cases event with
  | datagram source d =>
    obtain ⟨idle, rfl⟩ := advance_datagram step
    have outcome := server.receives source d
    generalize server.receive source d = next at outcome ⊢
    cases outcome with
    | ignored | refused | repeated | processed => exact .waited idle idle rfl rfl rfl
    | invoked => exact .began idle rfl rfl rfl rfl rfl
  | finished output =>
    obtain ⟨invocation, busy, rfl⟩ := advance_finished step
    exact .ended busy rfl rfl rfl rfl rfl

theorem Server.Extends.step (step : server.advance event = some next) : server.Extends next := by
  cases progress_of_advance step with
  | waited _ _ handlers invoked produced =>
    exact ⟨handlers, fun _ => (produced ▸ ·), fun _ => (invoked ▸ ·)⟩
  | began _ _ _ handlers invoked produced =>
    refine ⟨handlers, fun _ => (produced ▸ ·), ?_⟩
    rw [invoked]
    exact subset_append_left _ _
  | ended _ _ _ handlers invoked produced =>
    refine ⟨handlers, ?_, fun _ => (invoked ▸ ·)⟩
    rw [produced]
    exact subset_append_left _ _

/-- A new invocation is for the datagram that just came in. -/
theorem Server.invoked_of_advance (step : server.advance event = some next)
    (member : invocation ∈ next.invoked) : invocation ∈ server.invoked ∨
      event = .datagram invocation.source (.packet invocation.request) := by
  cases progress_of_advance step with
  | waited _ _ _ invoked => exact .inl (invoked ▸ member)
  | began _ arrived _ _ invoked =>
    rw [invoked] at member
    refine (Data.mem_snoc member).imp_right ?_
    rintro rfl
    exact arrived
  | ended _ _ _ _ invoked => exact .inl (invoked ▸ member)

theorem Server.Backs.extends
    (backs : server.Backs source response invocation) (more : server.Extends next) :
    next.Backs source response invocation where
  produced := more.produced backs.produced
  invoked := more.invoked backs.invoked
  key := backs.key
  handler := by rw [more.handlers, backs.handler]

section

variable (honest : server.Honest)
include honest

/-- A step keeps the server honest if its own responses are backed. -/
theorem Server.Honest.step_of (more : server.Extends next)
    (sent : ∀ destination response, (destination, response) ∈ next.sent →
      (destination, response) ∈ server.sent ∨ (response.header.frameworkStatus = 0 →
        ∃ invocation, next.Backs destination response invocation))
    (processed : ∀ entry ∈ next.processed, entry ∈ server.processed ∨
      (entry.response.header.frameworkStatus = 0 →
        ∃ invocation, next.Backs entry.source entry.response invocation))
    (current : ∀ invocation, next.current = some invocation →
      server.current = some invocation ∨ invocation ∈ next.invoked ∧
        next.handlers invocation.request.header.serviceId = some invocation.handler) :
    next.Honest where
  sent := by
    intro destination response member status
    rcases sent destination response member with old | new
    · obtain ⟨invocation, backs⟩ := honest.sent destination response old status
      exact ⟨invocation, backs.extends more⟩
    · exact new status
  processed := by
    intro entry member status
    rcases processed entry member with old | new
    · obtain ⟨invocation, backs⟩ := honest.processed entry old status
      exact ⟨invocation, backs.extends more⟩
    · exact new status
  current := by
    intro invocation busy
    rcases current invocation busy with old | new
    · obtain ⟨member, found⟩ := honest.current invocation old
      exact ⟨more.invoked member, by rw [more.handlers, found]⟩
    · exact new

theorem Server.Honest.answer
    (backed : response.header.frameworkStatus = 0 →
      ∃ invocation, server.Backs source response invocation) :
    (server.answer source response).Honest := by
  have more : server.Extends (server.answer source response) := ⟨rfl, Subset.refl _, Subset.refl _⟩
  refine honest.step_of more ?_ (fun _ => .inl) (fun _ => .inl)
  intro destination other member
  refine (Data.mem_snoc member).imp_right ?_
  rintro ⟨⟩ status
  obtain ⟨invocation, backs⟩ := backed status
  exact ⟨invocation, backs.extends more⟩

theorem Server.Honest.conclude
    (failed : response.header.frameworkStatus ≠ 0) :
    (server.conclude source p response).Honest := by
  refine honest.step_of ⟨rfl, Subset.refl _, Subset.refl _⟩ ?_ ?_ (fun _ => .inl)
  · intro destination other member
    refine (Data.mem_snoc member).imp_right ?_
    rintro ⟨⟩ status
    exact absurd status failed
  · intro entry member
    refine (Data.mem_snoc member).imp_right ?_
    rintro rfl status
    exact absurd status failed

theorem Server.Honest.begin {handler : Handler}
    (found : server.handlers p.header.serviceId = some handler) :
    (server.begin source p handler).Honest := by
  refine honest.step_of ⟨rfl, Subset.refl _, subset_append_left _ _⟩
    (fun _ _ => .inl) (fun _ => .inl) ?_
  intro invocation busy
  cases busy
  exact .inr ⟨mem_append_right _ (mem_singleton.mpr rfl), found⟩

theorem Server.Honest.finish
    (busy : server.current = some invocation) (output : Option Bytes) :
    (server.finish invocation output).Honest := by
  obtain ⟨member, found⟩ := honest.current invocation busy
  -- only a handler that returned has a successful response
  have backed : (invocation.handler.respond invocation.request output).header.frameworkStatus = 0 →
      ∃ invocation', (server.finish invocation output).Backs invocation.source
        (invocation.handler.respond invocation.request output) invocation' := by
    intro status
    cases output with
    | none =>
      have failed : errorCode Errno.efault ≠ 0 := by decide
      exact absurd status failed
    | some output =>
      refine ⟨invocation, ?_, member, rfl, found⟩
      exact mem_append_right _ (mem_singleton.mpr rfl)
  refine honest.step_of ⟨rfl, subset_append_left _ _, Subset.refl _⟩ ?_ ?_ nofun
  · intro destination other member
    refine (Data.mem_snoc member).imp_right ?_
    rintro ⟨⟩
    exact backed
  · intro entry member
    refine (Data.mem_snoc member).imp_right ?_
    rintro rfl
    exact backed

theorem Server.Honest.step
    (invariant : server.Invariant) (step : server.advance event = some next) : next.Honest := by
  cases event with
  | datagram source d =>
    obtain ⟨idle, rfl⟩ := advance_datagram step
    have outcome := server.receives source d
    generalize server.receive source d = next at outcome ⊢
    cases outcome with
    | ignored => exact honest
    | refused failed => exact honest.answer fun status => absurd status failed
    | @repeated p entry member same content =>
      refine honest.answer fun status => ?_
      have old : entry ∈ server.processed :=
        mem_of_mem_drop ((invariant.holds.mem_iff entry).mp member)
      have here : entry.source = source := congrArg Key.source same
      rw [← here]
      exact honest.processed entry old status
    | processed fresh failed => exact honest.conclude failed
    | invoked fresh found => exact honest.begin found
  | finished output =>
    obtain ⟨invocation, busy, rfl⟩ := advance_finished step
    exact honest.finish busy output

end

end

/-! ## The network -/

/-- A server, its clients, and every request that a client has sent. -/
structure Network (ι : Type) where
  address : Endpoint
  server : Server
  clients : ι → Client
  requests : List (Endpoint × Packet) := []

namespace Network

variable {ι : Type}

/-- A datagram that the server may receive. -/
def Delivers (network : Network ι) (source : Endpoint) (d : Datagram) : Prop :=
  (∃ request ∈ network.requests, source = request.1 ∧ d = .packet request.2) ∨
    ∀ i, (network.clients i).endpoint ≠ source

/-- A datagram that a client may receive. -/
def Returns (network : Network ι) (i : ι) (sender : Endpoint) (d : Datagram) : Prop :=
  (∃ response ∈ network.server.sent,
      (network.clients i).endpoint = response.1 ∧ d = .packet response.2) ∨
    sender ≠ network.address

/-- What happens in the network. -/
inductive Label (ι : Type) where
  | server (event : Server.Event)
  | client (i : ι) (event : Client.Event)

/-- A step takes only a datagram that may arrive. -/
def Permits (network : Network ι) : Label ι → Prop
  | .server (.datagram source d) => network.Delivers source d
  | .client i (.received sender d) => network.Returns i sender d
  | _ => True

instance [Fintype ι] (network : Network ι) : DecidablePred network.Permits
  | .server (.datagram _ _) | .client _ (.received _ _) => inferInstanceAs (Decidable (_ ∨ _))
  | .server (.finished _) | .client _ (.call _) | .client _ .sent | .client _ (.failed _)
  | .client _ .lapsed | .client _ .close => inferInstanceAs (Decidable True)

/-- A step of the server. -/
def afterServer (network : Network ι) (next : Server) : Network ι := { network with server := next }

/-- A step of one client, which may put requests on the network. -/
def afterClient [DecidableEq ι] (network : Network ι) (i : ι) (event : Client.Event)
    (next : Client) : Network ι :=
  { network with
    clients := update network.clients i next
    requests := network.requests ++
      ((network.clients i).sends event).map ((network.clients i).endpoint, ·) }

/-- One step of the server or of one client. -/
def advance [DecidableEq ι] (network : Network ι) : Label ι → Option (Network ι)
  | .server event => (network.server.advance event).map network.afterServer
  | .client i event => ((network.clients i).advance event).map (network.afterClient i event)

/-- Clients with different ids that have made no calls, and a server that has just
started. -/
structure Initial (network : Network ι) : Prop where
  server : network.server.Started
  requests : network.requests = []
  distinct : Injective fun i => (network.clients i).clientId
  target : ∀ i, (network.clients i).target = network.address
  idle : ∀ i, (network.clients i).phase = .idle
  started : ∀ i, (network.clients i).started = []
  returned : ∀ i, (network.clients i).returned = []

/-- The runs of the network. -/
def communicating (ι : Type) [DecidableEq ι] : System (Network ι) (Label ι) where
  initial := Initial
  step network label next := network.Permits label ∧ network.advance label = some next

/-- The output of a call is that of an invocation for its own request. -/
structure Answers (network : Network ι) (i : ι) (completion : Completion)
    (invocation : Invocation) : Prop where
  produced : (invocation, some completion.output) ∈ network.server.produced
  invoked : invocation ∈ network.server.invoked
  handler : network.server.handlers completion.call.serviceId = some invocation.handler
  source : invocation.source = (network.clients i).endpoint
  request : invocation.request =
    (network.clients i).request completion.requestId completion.call

/-- What holds between any two steps of the network. -/
structure Invariant (network : Network ι) : Prop where
  server : network.server.Invariant
  honest : network.server.Honest
  clients : ∀ i, (network.clients i).Invariant
  distinct : Injective fun i => (network.clients i).clientId
  target : ∀ i, (network.clients i).target = network.address
  requests : ∀ source p, (source, p) ∈ network.requests →
    ∃ i id call, (id, call) ∈ (network.clients i).started ∧
      source = (network.clients i).endpoint ∧ p = (network.clients i).request id call
  invoked : ∀ invocation ∈ network.server.invoked,
    network.Delivers invocation.source (.packet invocation.request)
  answered : ∀ i, ∀ completion ∈ (network.clients i).returned, completion.code = 0 →
    ∃ invocation, network.Answers i completion invocation

/-- What no step of the network takes back. -/
structure Extends (network next : Network ι) : Prop where
  server : network.server.Extends next.server
  clients : ∀ i, (network.clients i).Extends (next.clients i)
  requests : network.requests ⊆ next.requests

section

variable {network next : Network ι}

theorem Extends.delivers (more : network.Extends next) {source : Endpoint} {d : Datagram}
    (delivers : network.Delivers source d) : next.Delivers source d := by
  rcases delivers with ⟨request, member, here⟩ | foreign
  · exact .inl ⟨request, more.requests member, here⟩
  · right
    intro i
    rw [(more.clients i).endpoint]
    exact foreign i

theorem Extends.answers (more : network.Extends next) {i : ι} {completion : Completion}
    {invocation : Invocation} (answers : network.Answers i completion invocation) :
    next.Answers i completion invocation where
  produced := more.server.produced answers.produced
  invoked := more.server.invoked answers.invoked
  handler := by rw [more.server.handlers, answers.handler]
  source := by rw [(more.clients i).endpoint, answers.source]
  request := by rw [(more.clients i).request_eq, answers.request]

theorem Extends.distinct (more : network.Extends next)
    (distinct : Injective fun i => (network.clients i).clientId) :
    Injective fun i => (next.clients i).clientId := by
  have same : (fun i => (next.clients i).clientId) = fun i => (network.clients i).clientId :=
    funext fun i => (more.clients i).clientId
  rw [same]
  exact distinct

theorem Extends.step [DecidableEq ι] {label : Label ι}
    (step : network.advance label = some next) : network.Extends next := by
  cases label with
  | server event =>
    obtain ⟨server, moved, rfl⟩ := Option.map_eq_some_iff.mp step
    exact ⟨.step moved, fun i => .refl _, Subset.refl _⟩
  | client i event =>
    obtain ⟨client, moved, rfl⟩ := Option.map_eq_some_iff.mp step
    refine ⟨⟨rfl, Subset.refl _, Subset.refl _⟩, ?_, subset_append_left _ _⟩
    intro j
    unfold afterClient
    dsimp only
    by_cases same : j = i
    · subst same
      rw [update_self]
      exact .step moved
    · rw [update_of_ne same]
      exact .refl _

/-- A response that a client accepts answers its request: nobody else sent one with
its ids. -/
theorem Invariant.answers (invariant : network.Invariant) {i : ι} {call : Call} {p : Packet}
    (running : (network.clients i).phase.call = some call)
    (sent : ((network.clients i).endpoint, p) ∈ network.server.sent)
    (fits : (network.clients i).Matches call network.address p)
    (status : p.header.frameworkStatus = 0) :
    ∃ invocation, network.Answers i ⟨(network.clients i).requestId, call, 0, p.payload⟩
      invocation := by
  obtain ⟨_, _, clientId, requestId, serviceId, _⟩ := fits
  obtain ⟨invocation, backs⟩ := invariant.honest.sent _ p sent status
  have source : invocation.source = (network.clients i).endpoint := congrArg Key.source backs.key
  rcases invariant.invoked invocation backs.invoked with ⟨asked, member, _, equal⟩ | foreign
  case inr => exact absurd source.symm (foreign i)
  obtain ⟨j, id, other, started, _, same⟩ := invariant.requests _ _ member
  have request := (Datagram.packet.inj equal).trans same
  have sameClient : (network.clients j).clientId = (network.clients i).clientId := by
    rw [← clientId, ← show invocation.request.header.clientId = p.header.clientId from
      congrArg Key.clientId backs.key, request]
    rfl
  obtain rfl := invariant.distinct sameClient
  have sameId : id = (network.clients j).requestId := by
    rw [← requestId, ← show invocation.request.header.requestId = p.header.requestId from
      congrArg Key.requestId backs.key, request]
    rfl
  subst sameId
  have active := (invariant.clients j).active call running
  obtain rfl := (invariant.clients j).call_unique started active
  refine ⟨invocation, backs.produced, backs.invoked, ?_, source, request⟩
  rw [← serviceId]
  exact backs.handler

theorem Invariant.step_server (invariant : network.Invariant) {event : Server.Event}
    {server : Server}
    (arrives : network.Permits (.server event)) (step : network.server.advance event = some server)
    (more : network.Extends (network.afterServer server)) :
    (network.afterServer server).Invariant where
  server := Server.preserves_invariant step invariant.server
  honest := invariant.honest.step invariant.server step
  __ := invariant
  invoked := by
    intro invocation member
    rcases Server.invoked_of_advance step member with old | rfl
    · exact more.delivers (invariant.invoked invocation old)
    · exact more.delivers arrives
  answered := by
    intro i completion member success
    obtain ⟨invocation, answers⟩ := invariant.answered i completion member success
    exact ⟨invocation, more.answers answers⟩

theorem Invariant.step_client [DecidableEq ι] (invariant : network.Invariant) {i : ι}
    {event : Client.Event} {client : Client}
    (arrives : network.Permits (.client i event))
    (step : (network.clients i).advance event = some client)
    (more : network.Extends (network.afterClient i event client)) :
    (network.afterClient i event client).Invariant := by
  have self : (network.afterClient i event client).clients i = client := update_self ..
  have others {j : ι} (other : j ≠ i) :
      (network.afterClient i event client).clients j = network.clients j :=
    update_of_ne other ..
  constructor
  case server => exact invariant.server
  case honest => exact invariant.honest
  case clients =>
    intro j
    by_cases same : j = i
    · rw [same, self]
      exact (invariant.clients i).step step
    · rw [others same]
      exact invariant.clients j
  case distinct => exact more.distinct invariant.distinct
  case target =>
    intro j
    rw [(more.clients j).target, invariant.target]
    rfl
  case requests =>
    intro source p member
    rcases mem_append.mp member with old | new
    · obtain ⟨j, id, call, started, rfl, rfl⟩ := invariant.requests source p old
      refine ⟨j, id, call, (more.clients j).started started, ?_, ?_⟩
      · rw [(more.clients j).endpoint]
      · rw [(more.clients j).request_eq]
    · obtain ⟨q, sent, equal⟩ := mem_map.mp new
      cases equal
      cases event with
      | sent =>
        obtain ⟨call, running, rfl⟩ := Option.map_eq_some_iff.mp (Option.mem_toList.mp sent)
        have active := (invariant.clients i).active call running
        refine ⟨i, _, call, (more.clients i).started active, ?_, ?_⟩
        · rw [(more.clients i).endpoint]
        · rw [(more.clients i).request_eq]
      | _ => cases sent
  case invoked =>
    intro invocation member
    exact more.delivers (invariant.invoked invocation member)
  case answered =>
    intro j completion member success
    suffices found : ∃ invocation, network.Answers j completion invocation by
      obtain ⟨invocation, answers⟩ := found
      exact ⟨invocation, more.answers answers⟩
    by_cases same : j = i
    case neg =>
      rw [others same] at member
      exact invariant.answered j completion member success
    subst same
    rw [self] at member
    rcases Client.accepted_of_advance step member success with
      old | ⟨call, sender, p, rfl, running, fits, status, rfl⟩
    · exact invariant.answered j completion old success
    · have target : sender = network.address := fits.1.trans (invariant.target j)
      subst target
      rcases arrives with ⟨⟨_, _⟩, sent, rfl, ⟨⟩⟩ | foreign
      · exact invariant.answers running sent fits status
      · exact absurd rfl foreign

theorem preserves_invariant [DecidableEq ι] : (communicating ι).Preserves Invariant := by
  rintro network label next ⟨arrives, step⟩ invariant
  have more := Extends.step step
  cases label with
  | server event =>
    obtain ⟨server, moved, rfl⟩ := Option.map_eq_some_iff.mp step
    exact invariant.step_server arrives moved more
  | client i event =>
    obtain ⟨client, moved, rfl⟩ := Option.map_eq_some_iff.mp step
    exact invariant.step_client arrives moved more

theorem Initial.invariant (initial : network.Initial) : network.Invariant where
  server := .of_started initial.server
  honest := by
    obtain ⟨handlers, started⟩ := initial.server
    rw [started]
    exact ⟨nofun, nofun, nofun⟩
  clients := by
    intro i
    constructor
    case ordered => rw [initial.started]; exact Pairwise.nil
    case bounded => rw [initial.started]; nofun
    case active => rw [initial.idle]; nofun
    case untouched => rw [initial.returned]; nofun
  distinct := initial.distinct
  target := initial.target
  requests := by rw [initial.requests]; nofun
  invoked := by
    obtain ⟨handlers, started⟩ := initial.server
    rw [started]
    nofun
  answered := by
    intro i
    rw [initial.returned]
    nofun

theorem Invariant.of_reachable [DecidableEq ι] (reachable : (communicating ι).Reachable network) :
    network.Invariant :=
  reachable.invariant (fun _ initial => Initial.invariant initial) preserves_invariant

end

/-- A call that returns `0` has the output of an invocation of the handler registered for
its service, for the very request of this call; a call that fails leaves its output alone;
and no client ever takes a response with other ids for an answer. -/
theorem calls_answered [DecidableEq ι] {network : Network ι}
    (reachable : (communicating ι).Reachable network) (i : ι) :
    (∀ completion ∈ (network.clients i).returned,
      (completion.code = 0 → ∃ invocation, network.Answers i completion invocation ∧
        invocation.request.header.clientId = (network.clients i).clientId ∧
        invocation.request.header.requestId = completion.requestId ∧
        invocation.request.header.serviceId = completion.call.serviceId ∧
        invocation.request.payload = completion.call.input) ∧
      (completion.code ≠ 0 → completion.output = completion.call.buffer)) ∧
    ∀ call sender p, (network.clients i).examine call sender (.packet p) ≠ .skip →
      p.header.clientId = (network.clients i).clientId ∧
        p.header.requestId = (network.clients i).requestId ∧
        p.header.serviceId = call.serviceId := by
  have invariant := Invariant.of_reachable reachable
  constructor
  · intro completion member
    refine ⟨fun success => ?_, (invariant.clients i).untouched completion member⟩
    obtain ⟨invocation, answers⟩ := invariant.answered i completion member success
    refine ⟨invocation, answers, ?_⟩
    rw [answers.request]
    exact ⟨rfl, rfl, rfl, rfl⟩
  · intro call sender p taken
    have outcome := (network.clients i).examines call sender (.packet p)
    generalize (network.clients i).examine call sender (.packet p) = verdict at outcome taken
    cases outcome with
    | skipped => exact absurd rfl taken
    | failed fits => exact ⟨fits.2.2.1, fits.2.2.2.1, fits.2.2.2.2.1⟩
    | accepted fits => exact ⟨fits.2.2.1, fits.2.2.2.1, fits.2.2.2.2.1⟩

/-! Two clients; one of them calls the service of `sumStart`. -/

def sumCall : Call where
  serviceId := 7
  input := [2, 3]
  buffer := [0]
  length_input := by decide
  length_buffer := by decide

def sumAddress : Endpoint := ⟨loopback, 5000⟩

def sumNetwork : Network Bool where
  address := sumAddress
  server := sumStart
  clients := fun i =>
    { endpoint := if i then sumSource else ⟨loopback, 40001⟩
      target := sumAddress
      clientId := if i then 11 else 12 }

theorem sumNetwork_initial : sumNetwork.Initial where
  server := ⟨_, rfl⟩
  requests := rfl
  distinct := by
    intro i j
    revert i j
    decide
  target := fun _ => rfl
  idle := fun _ => rfl
  started := fun _ => rfl
  returned := fun _ => rfl

def sumAsked : Packet := (sumNetwork.clients true).request 1 sumCall

def sumRun : List (Label Bool) :=
  [.client true (.call sumCall), .client true .sent,
    .server (.datagram sumSource (.packet sumAsked)), .server (.finished (some [5])),
    .client true (.received sumAddress (.packet (sumHandler.respond sumAsked (some [5]))))]

theorem calls_answered_sum : ∃ network : Network Bool,
    (communicating Bool).Reachable network ∧
      ∃ completion ∈ (network.clients true).returned,
        completion.code = 0 ∧ completion.output = [5] ∧
          ∃ invocation, network.Answers true completion invocation ∧
            invocation.request.payload = [2, 3] := by
  have computed : (sumRun.foldlM
      (fun network : Network Bool => fun label =>
        if network.Permits label then network.advance label else none) sumNetwork).map
      (fun network => (network.clients true).returned) = some [⟨1, sumCall, 0, [5]⟩] := by
    rfl
  obtain ⟨network, run, returned⟩ := Option.map_eq_some_iff.mp computed
  have reachable : (communicating Bool).Reachable network :=
    ⟨_, sumRun, sumNetwork_initial,
      .of_foldlM (fun _ _ _ => Option.ite_none_right_eq_some.mp) run⟩
  have member : ⟨1, sumCall, 0, [5]⟩ ∈ (network.clients true).returned := by
    rw [returned]
    exact .head _
  obtain ⟨invocation, answers, _, _, _, payload⟩ :=
    ((calls_answered reachable true).1 _ member).1 rfl
  exact ⟨network, reachable, _, member, rfl, rfl, invocation, answers, payload⟩

end Network

end Kcf.Service
