import Kcf.Network.Control.Exact
import Kcf.Network.Topic.Exact
import Kcf.Network.Topic.Routes

/-!
# Diagnostics snapshots

`NetworkDiagnosticsSnapshot`: the Topic routes of a gateway, as many of them as fit
in a payload.  A snapshot that was encoded is decoded with the routes that fitted,
and names the same gateway; bytes that are decoded are the encoding of what they mean.
-/

namespace Kcf.Network

open Kcf.Wire List Errno
open Topic (RouteState)

/-- `ProxyRecoveryState`. -/
inductive ProxyRecoveryState where
  | none | created | liveNetworkOwner | localPublisher | unknownOwnership
  | staleDetected | recovered | validationFailed | cleanupFailed
  deriving DecidableEq

/-- The states in the order of their codes. -/
def ProxyRecoveryState.all : List ProxyRecoveryState :=
  [.none, .created, .liveNetworkOwner, .localPublisher, .unknownOwnership, .staleDetected,
    .recovered, .validationFailed, .cleanupFailed]

def ProxyRecoveryState.code (state : ProxyRecoveryState) : UInt8 :=
  UInt8.ofNat (ProxyRecoveryState.all.idxOf state)

def ProxyRecoveryState.ofCode (code : UInt8) : Option ProxyRecoveryState :=
  ProxyRecoveryState.all[code.toNat]?

theorem ProxyRecoveryState.ofCode_code (state : ProxyRecoveryState) :
    ProxyRecoveryState.ofCode state.code = some state := by
  cases state <;> rfl

theorem ProxyRecoveryState.code_ofCode {code : UInt8} {state : ProxyRecoveryState}
    (known : ProxyRecoveryState.ofCode code = some state) : state.code = code :=
  ofNat_idxOf (by decide) known

namespace Topic.RouteState

/-- The states in the order of their codes. -/
def all : List RouteState := [.waitingSubscriber, .active, .rejected, .closed]

def code (state : RouteState) : UInt8 := UInt8.ofNat (all.idxOf state)

def ofCode (code : UInt8) : Option RouteState := all[code.toNat]?

theorem ofCode_code (state : RouteState) : ofCode state.code = some state := by cases state <;> rfl

theorem code_ofCode {code : UInt8} {state : RouteState} (known : ofCode code = some state) :
    state.code = code :=
  ofNat_idxOf (by decide) known

end Topic.RouteState

/-- The counters of a route, in the order of the wire. -/
structure RouteCounters where
  packetsSent : UInt64 := 0
  packetsReceived : UInt64 := 0
  samplesPublished : UInt64 := 0
  dropped : UInt64 := 0
  duplicate : UInt64 := 0
  outOfOrder : UInt64 := 0
  missedSequence : UInt64 := 0
  malformed : UInt64 := 0
  localSamplesSkipped : UInt64 := 0
  deriving DecidableEq

/-- `TopicRouteInfo`. -/
structure TopicRouteInfo where
  source : RemoteEndpointIdentity := {}
  destination : RemoteEndpointIdentity := {}
  name : Bytes := []
  sourceSession : UInt64 := 0
  destinationSession : UInt64 := 0
  routeId : UInt64 := 0
  proxyRecovery : ProxyRecoveryState := .none
  sending : Bool := false
  state : RouteState := .waitingSubscriber
  error : Int32 := 0
  reason : CompatibilityReason := .compatible
  counters : RouteCounters := {}
  deriving DecidableEq

namespace TopicRouteInfo

/-- `ValidRoute`: a notice about a source, or a route between two hosts. -/
def Valid (r : TopicRouteInfo) : Prop :=
  r.source.Valid ∧ Text r.name 240 ∧ r.name.head? = some 47 ∧
    if r.destination = {} then
      (r.state = .waitingSubscriber ∨ r.state = .rejected) ∧ r.sending = false ∧
        r.sourceSession = 0 ∧ r.destinationSession = 0 ∧ r.routeId = 0
    else
      r.destination.Valid ∧ r.source.runtime.host ≠ r.destination.runtime.host ∧
        r.sourceSession ≠ 0 ∧ r.destinationSession ≠ 0 ∧ r.routeId ≠ 0
  deriving Decidable

/-- The bytes of a route without its name. -/
def fixedSize : Nat := 210

def size (r : TopicRouteInfo) : Nat := fixedSize + r.name.length

end TopicRouteInfo

/-- `NetworkDiagnosticsSnapshot`. -/
structure NetworkDiagnosticsSnapshot where
  gatewayHost : HostIdentity := default
  gatewayBootId : HostIdentity := default
  gatewaySession : UInt64 := 0
  totalRoutes : UInt32 := 0
  truncated : Bool := false
  routes : List TopicRouteInfo := []
  deriving DecidableEq

namespace NetworkDiagnosticsSnapshot

def magic : UInt32 := 0x4b4e4431

/-- The bytes in front of the routes. -/
def headerSize : Nat := 60

/-- `ValidHeader`. -/
def HeaderValid (s : NetworkDiagnosticsSnapshot) : Prop :=
  s.gatewayHost.Valid ∧ s.gatewayBootId.Valid ∧ s.gatewaySession ≠ 0 ∧
    s.routes.length ≤ s.totalRoutes.toNat ∧
    (s.truncated = true ↔ s.routes.length < s.totalRoutes.toNat)
  deriving Decidable

/-- The routes that fit behind so many bytes; nothing follows one that does not. -/
def fitting : Nat → List TopicRouteInfo → List TopicRouteInfo
  | _, [] => []
  | size, r :: rest =>
    if size + r.size ≤ Control.maxDiagnosticsPayload then r :: fitting (size + r.size) rest
    else []

/-- `Prefix`: even a route that is left out has to be valid. -/
def select (routes : List TopicRouteInfo) : Except Int32 (List TopicRouteInfo) :=
  if ∃ r ∈ routes, ¬r.Valid then .error (errorCode einval)
  else .ok (fitting headerSize routes)

/-- `MakeNetworkDiagnosticsSnapshot`. -/
def make (host bootId : HostIdentity) (session : UInt64) (routes : List TopicRouteInfo) :
    Except Int32 NetworkDiagnosticsSnapshot :=
  if ¬host.Valid ∨ ¬bootId.Valid ∨ session = 0 then .error (errorCode einval)
  else if UInt32.size ≤ routes.length then .error (errorCode emsgsize)
  else
    match select routes with
    | .error code => .error code
    | .ok kept => .ok
        { gatewayHost := host
          gatewayBootId := bootId
          gatewaySession := session
          totalRoutes := UInt32.ofNat routes.length
          truncated := kept.length < routes.length
          routes := kept }

/-! ## Encoding -/

def counterBytes (counters : RouteCounters) : Bytes :=
  Writer.u64 counters.packetsSent ++ Writer.u64 counters.packetsReceived ++
    Writer.u64 counters.samplesPublished ++ Writer.u64 counters.dropped ++
    Writer.u64 counters.duplicate ++ Writer.u64 counters.outOfOrder ++
    Writer.u64 counters.missedSequence ++ Writer.u64 counters.malformed ++
    Writer.u64 counters.localSamplesSkipped

def routeBytes (r : TopicRouteInfo) : Bytes :=
  Writer.endpoint r.source ++ Writer.endpoint r.destination ++ Writer.u64 r.sourceSession ++
    Writer.u64 r.destinationSession ++ Writer.u64 r.routeId ++ Writer.u8 r.state.code ++
    Writer.flag r.sending ++ Writer.u8 r.reason.code ++ Writer.u8 r.proxyRecovery.code ++
    Writer.u32 r.error.toUInt32 ++ counterBytes r.counters ++ Writer.string r.name

/-- The bytes of a snapshot with these routes. -/
def bytesWith (s : NetworkDiagnosticsSnapshot) (kept : List TopicRouteInfo) : Bytes :=
  Writer.u32 magic ++ Writer.u16 1 ++
    Writer.number (if kept.length < s.totalRoutes.toNat then 1 else 0) 2 ++
    Writer.number (headerSize + (kept.map TopicRouteInfo.size).sum) 4 ++
    Writer.host s.gatewayHost ++ Writer.host s.gatewayBootId ++ Writer.u64 s.gatewaySession ++
    Writer.u32 s.totalRoutes ++ Writer.number kept.length 4 ++ kept.flatMap routeBytes

/-- `EncodeNetworkDiagnosticsSnapshot`. -/
def encode (s : NetworkDiagnosticsSnapshot) : Except Int32 Bytes :=
  if ¬s.HeaderValid then .error (errorCode einval)
  else
    match select s.routes with
    | .error code => .error code
    | .ok kept => .ok (s.bytesWith kept)

/-! ## Decoding -/

def readCounters : Reader RouteCounters := do
  let packetsSent ← Reader.u64
  let packetsReceived ← Reader.u64
  let samplesPublished ← Reader.u64
  let dropped ← Reader.u64
  let duplicate ← Reader.u64
  let outOfOrder ← Reader.u64
  let missedSequence ← Reader.u64
  let malformed ← Reader.u64
  let localSamplesSkipped ← Reader.u64
  pure ⟨packetsSent, packetsReceived, samplesPublished, dropped, duplicate, outOfOrder,
    missedSequence, malformed, localSamplesSkipped⟩

def readRoute : Reader TopicRouteInfo := do
  let source ← Reader.endpoint
  let destination ← Reader.endpoint
  let sourceSession ← Reader.u64
  let destinationSession ← Reader.u64
  let routeId ← Reader.u64
  let state ← Reader.code RouteState.ofCode
  let sending ← Reader.flag
  let reason ← Reader.code CompatibilityReason.ofCode
  let proxyRecovery ← Reader.code ProxyRecoveryState.ofCode
  let error ← Reader.u32
  let counters ← readCounters
  let name ← Reader.string 240
  let route : TopicRouteInfo :=
    { source, destination, name, sourceSession, destinationSession, routeId, proxyRecovery,
      sending, state, error := error.toInt32, reason, counters }
  Decoder.require (-eproto) route.Valid
  pure route

/-- A snapshot of so many bytes. -/
def read (size : Nat) : Reader NetworkDiagnosticsSnapshot := do
  let tag ← Reader.u32
  Decoder.require (-eproto) (tag = magic)
  let release ← Reader.u16
  Decoder.require (-eprotonosupport) (release = 1)
  let flags ← Reader.number 2
  let length ← Reader.number 4
  Decoder.require (-eproto) (flags ≤ 1 ∧ length = size)
  let gatewayHost ← Reader.host
  let gatewayBootId ← Reader.host
  let gatewaySession ← Reader.u64
  let totalRoutes ← Reader.u32
  let count ← Reader.number 4
  let left ← Decoder.left
  Decoder.require (-eproto)
    (count ≤ totalRoutes.toNat ∧ count ≤ left / (TopicRouteInfo.fixedSize + 1))
  let routes ← Decoder.replicate count readRoute
  let s : NetworkDiagnosticsSnapshot :=
    { gatewayHost, gatewayBootId, gatewaySession, totalRoutes, truncated := flags ≠ 0, routes }
  Decoder.require (-eproto) s.HeaderValid
  pure s

/-- `DecodeNetworkDiagnosticsSnapshot`. -/
def decode (bytes : Bytes) : Except Int NetworkDiagnosticsSnapshot :=
  Decoder.within (-emsgsize) (-eproto) headerSize Control.maxDiagnosticsPayload
    (read bytes.length) bytes

/-! ## Round trip -/

variable {routes : List TopicRouteInfo} {s : NetworkDiagnosticsSnapshot}

theorem make_names {host bootId : HostIdentity} {session : UInt64}
    (made : make host bootId session routes = .ok s) :
    s.gatewayHost = host ∧ s.gatewayBootId = bootId ∧ s.gatewaySession = session := by
  unfold make at made
  split at made
  · cases made
  split at made
  · cases made
  split at made
  · cases made
  · cases made
    exact ⟨rfl, rfl, rfl⟩

theorem fitting_front (size : Nat) (routes : List TopicRouteInfo) :
    fitting size routes <+: routes := by
  induction routes generalizing size with
  | nil => exact prefix_refl _
  | cons r rest ih =>
    unfold fitting
    split
    · exact (prefix_cons_inj r).mpr (ih _)
    · exact nil_prefix

/-- No longer prefix fits. -/
theorem prefix_fitting {size : Nat} {kept : List TopicRouteInfo} (front : kept <+: routes)
    (fits : size + (kept.map TopicRouteInfo.size).sum ≤ Control.maxDiagnosticsPayload) :
    kept <+: fitting size routes := by
  induction kept generalizing size routes with
  | nil => exact nil_prefix
  | cons r kept ih =>
    obtain ⟨rest, rfl⟩ := front
    rw [map_cons, sum_cons] at fits
    rw [cons_append, fitting, if_pos (by omega)]
    exact (prefix_cons_inj r).mpr (ih ⟨rest, rfl⟩ (by omega))

theorem fitting_le {size : Nat} (start : size ≤ Control.maxDiagnosticsPayload)
    (routes : List TopicRouteInfo) :
    size + ((fitting size routes).map TopicRouteInfo.size).sum ≤
      Control.maxDiagnosticsPayload := by
  induction routes generalizing size with
  | nil => exact start
  | cons r rest ih =>
    unfold fitting
    split
    next fits =>
      have later := ih fits
      rw [map_cons, sum_cons]
      omega
    · exact start

theorem select_eq_ok {routes kept : List TopicRouteInfo} (selected : select routes = .ok kept) :
    (∀ r ∈ routes, r.Valid) ∧ kept = fitting headerSize routes := by
  unfold select at selected
  split at selected
  · cases selected
  next valid =>
    cases selected
    push Not at valid
    exact ⟨valid, rfl⟩

@[simp] theorem length_counterBytes (counters : RouteCounters) :
    (counterBytes counters).length = 72 := by
  simp [counterBytes]

@[simp] theorem length_routeBytes (r : TopicRouteInfo) : (routeBytes r).length = r.size := by
  simp only [routeBytes, length_append, length_endpoint, length_u64, length_u8,
    length_flag, length_u32, length_counterBytes, Writer.string, length_number,
    TopicRouteInfo.size, TopicRouteInfo.fixedSize]
  omega

theorem length_routes (kept : List TopicRouteInfo) :
    (kept.flatMap routeBytes).length = (kept.map TopicRouteInfo.size).sum := by
  rw [length_flatMap]
  exact congrArg sum (map_congr_left fun r _ => length_routeBytes r)

theorem length_bytesWith (s : NetworkDiagnosticsSnapshot) (kept : List TopicRouteInfo) :
    (s.bytesWith kept).length = headerSize + (kept.map TopicRouteInfo.size).sum := by
  simp only [bytesWith, length_append, length_routes, length_u16, length_u32, length_u64,
    length_number, Writer.host, HostIdentity.length_bytes, headerSize]

theorem decodes_counters (counters : RouteCounters) :
    Decodes readCounters (counterBytes counters) counters := by
  simp only [counterBytes, append_assoc]
  exact (decodes_u64 _).bind ((decodes_u64 _).bind ((decodes_u64 _).bind ((decodes_u64 _).bind
    ((decodes_u64 _).bind ((decodes_u64 _).bind ((decodes_u64 _).bind ((decodes_u64 _).bind
      ((decodes_u64 _).last (Decodes.pure counters)))))))))

theorem destination_pid {r : TopicRouteInfo} (valid : r.Valid) : 0 ≤ r.destination.runtime.pid := by
  have rest := valid.2.2.2
  split at rest
  next notice =>
    rw [notice]
    decide
  · exact rest.1.1.pid_nonneg

theorem decodes_route {r : TopicRouteInfo} (valid : r.Valid) :
    Decodes readRoute (routeBytes r) r := by
  have source := valid.1.1.pid_nonneg
  simp only [routeBytes, append_assoc]
  exact (decodes_endpoint source).bind ((decodes_endpoint (destination_pid valid)).bind
    ((decodes_u64 _).bind ((decodes_u64 _).bind ((decodes_u64 _).bind
    ((decodes_code (RouteState.ofCode_code _)).bind ((decodes_flag _).bind
    ((decodes_code (CompatibilityReason.ofCode_code _)).bind
    ((decodes_code (ProxyRecoveryState.ofCode_code _)).bind ((decodes_u32 _).bind
    ((decodes_counters _).bind ((decodes_string valid.2.1.2.1 (by decide)).last
    ((Decodes.require valid).skip (Decodes.pure r)))))))))))))

/-- The snapshot with the routes that fit. -/
def fitted (s : NetworkDiagnosticsSnapshot) : NetworkDiagnosticsSnapshot :=
  let kept := fitting headerSize s.routes
  { s with truncated := kept.length < s.totalRoutes.toNat, routes := kept }

theorem HeaderValid.fitted (valid : s.HeaderValid) : s.fitted.HeaderValid := by
  have fewer := (fitting_front headerSize s.routes).length_le
  refine ⟨valid.1, valid.2.1, valid.2.2.1, ?_, ?_⟩
  · exact le_trans fewer valid.2.2.2.1
  · exact decide_eq_true_iff

/-- Every route takes a name and so more than its fixed bytes. -/
theorem length_le_sum {kept : List TopicRouteInfo} (each : ∀ r ∈ kept, r.Valid) :
    kept.length * (TopicRouteInfo.fixedSize + 1) ≤ (kept.map TopicRouteInfo.size).sum := by
  induction kept with
  | nil => simp
  | cons r rest ih =>
    have later := ih fun other inside => each other (mem_cons_of_mem _ inside)
    have named := length_pos_iff.mpr (each r mem_cons_self).2.1.1
    have sized : r.size = TopicRouteInfo.fixedSize + r.name.length := rfl
    rw [length_cons, map_cons, sum_cons, Nat.succ_mul]
    omega

theorem consumes_read (header : s.HeaderValid) (each : ∀ r ∈ s.routes, r.Valid) :
    let kept := fitting headerSize s.routes
    Consumes (read (headerSize + (kept.map TopicRouteInfo.size).sum)) (s.bytesWith kept)
      s.fitted := by
  intro kept
  have valid : ∀ r ∈ kept, r.Valid := fun r inside =>
    each r ((fitting_front headerSize s.routes).subset inside)
  have short : headerSize + (kept.map TopicRouteInfo.size).sum ≤ Control.maxDiagnosticsPayload :=
    fitting_le (by decide) s.routes
  have limit : Control.maxDiagnosticsPayload < 256 ^ 4 := by decide
  have counted := length_le_sum valid
  have small : kept.length < 256 ^ 4 := by
    have one : kept.length ≤ kept.length * (TopicRouteInfo.fixedSize + 1) :=
      Nat.le_mul_of_pos_right _ (Nat.succ_pos _)
    omega
  have fewer : kept.length ≤ s.totalRoutes.toNat := header.fitted.2.2.2.1
  have flag : (if kept.length < s.totalRoutes.toNat then 1 else 0) ≤ 1 := by split <;> omega
  have truncated : decide ((if kept.length < s.totalRoutes.toNat then 1 else 0) ≠ 0) =
      decide (kept.length < s.totalRoutes.toNat) := by
    split <;> simp [*]
  simp only [bytesWith, append_assoc]
  refine .field (decodes_u32 _) (.skip (Decodes.require rfl) (.field (decodes_u16 _)
    (.skip (Decodes.require rfl) (.field (decodes_number (by omega))
    (.field (decodes_number (by omega)) (.skip (Decodes.require ⟨flag, rfl⟩)
    (.field (decodes_host _) (.field (decodes_host _) (.field (decodes_u64 _)
    (.field (decodes_u32 _) (.field (decodes_number small) (.left (.skip (Decodes.require ?_)
    (.of_decodes ((Decodes.replicate kept fun r inside => decodes_route (valid r inside)).last
    ?_)))))))))))))))
  · rw [length_routes]
    exact ⟨fewer, (Nat.le_div_iff_mul_le (by decide)).mpr counted⟩
  · rw [truncated]
    exact (Decodes.require header.fitted).skip (Decodes.pure s.fitted)

/-- What was encoded is decoded with the routes that fitted. -/
theorem decode_encode {bytes : Bytes} (encoded : s.encode = .ok bytes) :
    bytes.length ≤ Control.maxDiagnosticsPayload ∧ decode bytes = .ok s.fitted := by
  unfold encode at encoded
  split at encoded
  · cases encoded
  next header =>
    rw [not_not] at header
    split at encoded
    · cases encoded
    next kept selected =>
      cases encoded
      obtain ⟨each, rfl⟩ := select_eq_ok selected
      have short := fitting_le (by decide : headerSize ≤ Control.maxDiagnosticsPayload) s.routes
      have length := length_bytesWith s (fitting headerSize s.routes)
      refine ⟨by omega, Consumes.within ?_ (by omega) (by omega)⟩
      rw [length]
      exact consumes_read header each

theorem select_of_valid (each : ∀ r ∈ routes, r.Valid) :
    select routes = .ok (fitting headerSize routes) := by
  unfold select
  rw [if_neg]
  rintro ⟨r, inside, invalid⟩
  exact invalid (each r inside)

/-- A list that fits is kept. -/
theorem fitting_eq_self
    (fits : headerSize + (routes.map TopicRouteInfo.size).sum ≤ Control.maxDiagnosticsPayload) :
    fitting headerSize routes = routes :=
  (fitting_front headerSize routes).eq_of_length_le
    (prefix_fitting (prefix_refl routes) fits).length_le

theorem encode_of_valid (header : s.HeaderValid) (each : ∀ r ∈ s.routes, r.Valid)
    (fits : headerSize + (s.routes.map TopicRouteInfo.size).sum ≤ Control.maxDiagnosticsPayload) :
    s.encode = .ok (s.bytesWith s.routes) := by
  unfold encode
  rw [if_neg (not_not.mpr header), select_of_valid each, fitting_eq_self fits]

theorem HeaderValid.fitted_eq (header : s.HeaderValid)
    (fits : headerSize + (s.routes.map TopicRouteInfo.size).sum ≤ Control.maxDiagnosticsPayload) :
    s.fitted = s := by
  have cut : decide (s.routes.length < s.totalRoutes.toNat) = s.truncated := by
    rw [Bool.eq_iff_iff, decide_eq_true_iff, header.2.2.2.2]
  rw [NetworkDiagnosticsSnapshot.fitted, fitting_eq_self fits, cut]

/-- A snapshot of valid routes can be made, with those that fit. -/
theorem make_of_valid {host bootId : HostIdentity} {session : UInt64}
    (hostValid : host.Valid) (bootValid : bootId.Valid) (known : session ≠ 0)
    (short : routes.length < UInt32.size) (each : ∀ r ∈ routes, r.Valid) :
    ∃ s, make host bootId session routes = .ok s ∧ s.HeaderValid ∧
      s.totalRoutes.toNat = routes.length ∧ s.routes = fitting headerSize routes := by
  have counted : (UInt32.ofNat routes.length).toNat = routes.length :=
    UInt32.toNat_ofNat_of_lt' short
  unfold make
  rw [if_neg (by simp [hostValid, bootValid, known]), if_neg (not_le.mpr short),
    select_of_valid each]
  refine ⟨_, rfl, ⟨hostValid, bootValid, known, ?_, ?_⟩, counted, rfl⟩
  · rw [counted]
    exact (fitting_front headerSize routes).length_le
  · rw [counted]
    exact decide_eq_true_iff

/-- And it can be encoded. -/
theorem encode_make {host bootId : HostIdentity} {session : UInt64}
    (hostValid : host.Valid) (bootValid : bootId.Valid) (known : session ≠ 0)
    (short : routes.length < UInt32.size) (each : ∀ r ∈ routes, r.Valid) :
    ∃ s bytes, make host bootId session routes = .ok s ∧ s.encode = .ok bytes := by
  obtain ⟨s, made, header, -, kept⟩ := make_of_valid hostValid bootValid known short each
  refine ⟨s, _, made, encode_of_valid header (fun r inside => ?_) ?_⟩
  · exact each r ((fitting_front headerSize routes).subset (kept ▸ inside))
  · exact kept ▸ fitting_le (by decide) routes

/-! ## What was read -/

variable {bytes : Bytes}

theorem exact_counters : Exact (· < 0) readCounters counterBytes :=
  .of_reads (exact_u64.field fun _ => exact_u64.field fun _ => exact_u64.field fun _ =>
    exact_u64.field fun _ => exact_u64.field fun _ => exact_u64.field fun _ =>
    exact_u64.field fun _ => exact_u64.field fun _ => exact_u64.field fun _ => .pure rfl)

theorem reads_route : Reads (· < 0) [] readRoute fun r whole => whole = routeBytes r ∧ r.Valid :=
  exact_endpoint.field fun _ => exact_endpoint.field fun _ => exact_u64.field fun _ =>
    exact_u64.field fun _ => exact_u64.field fun _ =>
    (exact_code RouteState.code_ofCode).field fun _ => exact_flag.field fun _ =>
    (exact_code CompatibilityReason.code_ofCode).field fun _ =>
    (exact_code ProxyRecoveryState.code_ofCode).field fun _ => exact_u32.field fun _ =>
    exact_counters.field fun _ => (exact_string 240).field fun _ =>
    .require (by decide) fun valid => .pure ⟨rfl, valid⟩

theorem reads_read (size : Nat) :
    Reads (· < 0) [] (read size) fun s whole => s.HeaderValid ∧ (∀ r ∈ s.routes, r.Valid) ∧
      (size = whole.length → whole = s.bytesWith s.routes) := by
  refine exact_u32.field fun _ => .require (by decide) ?_
  rintro rfl
  refine exact_u16.field fun _ => .require (by decide) ?_
  rintro rfl
  refine (exact_number 2).field fun flags => (exact_number 4).field fun length =>
    .require (by decide) ?_
  rintro ⟨bit, rfl⟩
  refine exact_host.field fun _ => exact_host.field fun _ => exact_u64.field fun _ =>
    exact_u32.field fun total => (exact_number 4).field fun count => .left fun _ =>
    .require (by decide) fun _ => (reads_route.replicate count).bind ?_
  rintro routes _ ⟨rfl, rfl, each⟩
  refine .require (by decide) fun header => .pure ⟨header, each, fun long => ?_⟩
  have cut : flags ≠ 0 ↔ routes.length < total.toNat := decide_eq_true_iff.symm.trans header.2.2.2.2
  have flag : flags = if routes.length < total.toNat then 1 else 0 := by split <;> omega
  simp only [length_append, length_routes, length_u16, length_u32, length_u64,
    length_number, Writer.host, HostIdentity.length_bytes, length_nil] at long
  rw [long, flag]
  rfl

/-- What was decoded is encoded to the same bytes. -/
theorem encode_decode (decoded : decode bytes = .ok s) : s.encode = .ok bytes := by
  obtain ⟨sized, header, each, same⟩ := (reads_read _).within_eq_ok decoded
  replace same := same rfl
  have length := length_bytesWith s s.routes
  rw [← same] at length
  rw [same]
  exact encode_of_valid header each (by omega)

theorem decode_error {code : Int} (failed : decode bytes = .error code) : code < 0 :=
  (reads_read _).within_error (by decide) (by decide) failed

/-! ## The functions with their output arguments -/

/-- `MakeNetworkDiagnosticsSnapshot`: the code it returns and the snapshot in `output`. -/
def makeNetworkDiagnosticsSnapshot (host bootId : HostIdentity) (session : UInt64)
    (routes : List TopicRouteInfo) (output : NetworkDiagnosticsSnapshot) :
    Int × NetworkDiagnosticsSnapshot :=
  writeOut output ((make host bootId session routes).mapError Int32.toInt)

/-- `EncodeNetworkDiagnosticsSnapshot`. -/
def encodeNetworkDiagnosticsSnapshot (s : NetworkDiagnosticsSnapshot) (output : Bytes) :
    Int × Bytes :=
  writeOut output (s.encode.mapError Int32.toInt)

/-- `DecodeNetworkDiagnosticsSnapshot`. -/
def decodeNetworkDiagnosticsSnapshot (bytes : Bytes) (output : NetworkDiagnosticsSnapshot) :
    Int × NetworkDiagnosticsSnapshot :=
  writeOut output (decode bytes)

/-- A snapshot of fewer than `2 ^ 32` valid routes has the longest prefix of them whose
encoding fits in a payload, and is encoded and decoded back; bytes that are accepted by the
decoder are the encoding of the snapshot they are decoded to; and an error leaves the
output argument alone. -/
theorem diagnostics_snapshots_exact :
    (∀ host bootId session routes, host.Valid → bootId.Valid → session ≠ 0 →
      routes.length < UInt32.size → (∀ r ∈ routes, r.Valid) → ∃ s : NetworkDiagnosticsSnapshot,
        (∀ output, makeNetworkDiagnosticsSnapshot host bootId session routes output = (0, s)) ∧
        s.gatewayHost = host ∧ s.gatewayBootId = bootId ∧ s.gatewaySession = session ∧
        s.routes <+: routes ∧ (∀ kept, kept <+: routes →
          (kept <+: s.routes ↔ (s.bytesWith kept).length ≤ Control.maxDiagnosticsPayload)) ∧
        s.totalRoutes.toNat = routes.length ∧ (s.truncated = true ↔ s.routes ≠ routes) ∧
        ∃ bytes, (∀ output, encodeNetworkDiagnosticsSnapshot s output = (0, bytes)) ∧
          bytes.length ≤ Control.maxDiagnosticsPayload ∧
          ∀ output, decodeNetworkDiagnosticsSnapshot bytes output = (0, s)) ∧
    (∀ bytes output, (decodeNetworkDiagnosticsSnapshot bytes output).1 = 0 → ∀ other,
      encodeNetworkDiagnosticsSnapshot (decodeNetworkDiagnosticsSnapshot bytes output).2 other =
        (0, bytes)) ∧
    (∀ host bootId session routes output,
      (makeNetworkDiagnosticsSnapshot host bootId session routes output).1 ≠ 0 →
        (makeNetworkDiagnosticsSnapshot host bootId session routes output).2 = output) ∧
    (∀ s output, (encodeNetworkDiagnosticsSnapshot s output).1 ≠ 0 →
      (encodeNetworkDiagnosticsSnapshot s output).2 = output) ∧
    ∀ bytes output, (decodeNetworkDiagnosticsSnapshot bytes output).1 ≠ 0 →
      (decodeNetworkDiagnosticsSnapshot bytes output).2 = output := by
  refine ⟨fun host bootId session routes hostValid bootValid known short each => ?_,
    fun bytes output accepted other => ?_, fun _ _ _ _ _ => writeOut_error,
    fun _ _ => writeOut_error, fun _ _ => writeOut_error⟩
  · obtain ⟨s, made, header, counted, kept⟩ :=
      make_of_valid hostValid bootValid known short each
    obtain ⟨sameHost, sameBoot, sameSession⟩ := make_names made
    have front : s.routes <+: routes := kept ▸ fitting_front headerSize routes
    have fits : headerSize + (s.routes.map TopicRouteInfo.size).sum ≤
        Control.maxDiagnosticsPayload := kept ▸ fitting_le (by decide) routes
    have encoded := encode_of_valid header (fun r inside => each r (front.subset inside)) fits
    obtain ⟨small, decoded⟩ := decode_encode encoded
    rw [header.fitted_eq fits] at decoded
    refine ⟨s, fun output => ?_, sameHost, sameBoot, sameSession, front,
      fun other ahead => ⟨fun inside => ?_, fun within => ?_⟩, counted, ?_,
      s.bytesWith s.routes, fun output => ?_, small, fun output => ?_⟩
    · rw [makeNetworkDiagnosticsSnapshot, made]
      rfl
    · obtain ⟨tail, same⟩ := inside
      rw [← same, map_append, sum_append] at fits
      rw [length_bytesWith]
      omega
    · rw [length_bytesWith] at within
      exact kept ▸ prefix_fitting ahead within
    · rw [header.2.2.2.2, counted]
      refine ⟨fun fewer same => ?_, fun differ => ?_⟩
      · rw [same] at fewer
        exact lt_irrefl _ fewer
      · exact lt_of_le_of_ne front.length_le fun same => differ (front.eq_of_length same)
    · rw [encodeNetworkDiagnosticsSnapshot, encoded]
      rfl
    · rw [decodeNetworkDiagnosticsSnapshot, decoded]
      rfl
  · have decoded := writeOut_zero (fun _ => decode_error) accepted
    change decode bytes = .ok (decodeNetworkDiagnosticsSnapshot bytes output).2 at decoded
    rw [encodeNetworkDiagnosticsSnapshot, encode_decode decoded]
    rfl

/-- A notice about a source with a name of one byte. -/
def sampleNotice : TopicRouteInfo where
  source := ⟨⟨.ofByte 1, .ofByte 9, 200, 1⟩, 3⟩
  name := [47]

/-- Of a hundred notices, 77 fit in a payload. -/
theorem diagnostics_snapshots_exact_notice : ∃ s bytes,
    makeNetworkDiagnosticsSnapshot (.ofByte 1) (.ofByte 9) 5 (replicate 100 sampleNotice) {} =
        (0, s) ∧
      s.totalRoutes.toNat = 100 ∧ s.truncated = true ∧ s.routes = replicate 77 sampleNotice ∧
      encodeNetworkDiagnosticsSnapshot s [] = (0, bytes) ∧
      decodeNetworkDiagnosticsSnapshot bytes {} = (0, s) := by
  have valid : sampleNotice.Valid := by decide +kernel
  obtain ⟨s, made, _, _, _, front, kept, counted, cut, bytes, encoded, _, decoded⟩ :=
    diagnostics_snapshots_exact.1 (.ofByte 1) (.ofByte 9) 5 (replicate 100 sampleNotice)
      (by decide) (by decide) (by decide) (by decide)
      fun r inside => eq_of_mem_replicate inside ▸ valid
  obtain ⟨_, routes⟩ := prefix_replicate_iff.mp front
  have fits (count : Nat) (few : count ≤ 100) :
      count ≤ s.routes.length ↔ 60 + count * 211 ≤ 16384 := by
    have size : (s.bytesWith (replicate count sampleNotice)).length = 60 + count * 211 := by
      rw [length_bytesWith, map_replicate, sum_replicate_nat]
      rfl
    have within := kept (replicate count sampleNotice)
      (prefix_replicate_iff.mpr ⟨by rwa [length_replicate], by rw [length_replicate]⟩)
    rw [size, routes, prefix_replicate_iff, length_replicate] at within
    exact (and_iff_left rfl).symm.trans within
  have long : s.routes.length = 77 := by
    have some_ := (fits 77 (by decide)).mpr (by decide)
    have more := (fits 78 (by decide)).not.mpr (by decide)
    omega
  rw [long] at routes
  refine ⟨s, bytes, made {}, counted.trans (length_replicate ..), cut.mpr fun all => ?_, routes,
    encoded [], decoded {}⟩
  rw [all, length_replicate] at long
  cases long

/-- A count of `2 ^ 32` routes has no place in a snapshot. -/
theorem snapshot_of_too_many :
    (∀ r ∈ replicate UInt32.size sampleNotice, r.Valid) ∧ ∀ output,
      makeNetworkDiagnosticsSnapshot (.ofByte 1) (.ofByte 9) 5
        (replicate UInt32.size sampleNotice) output = (-emsgsize, output) := by
  refine ⟨fun r inside => ?_, fun output => ?_⟩
  · rw [eq_of_mem_replicate inside]
    decide +kernel
  · rw [makeNetworkDiagnosticsSnapshot, make, if_neg (by decide), if_pos (length_replicate ..).ge]
    rfl

end NetworkDiagnosticsSnapshot

end Kcf.Network
