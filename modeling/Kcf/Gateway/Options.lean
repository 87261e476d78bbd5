import Kcf.Data.Snoc
import Kcf.Network.Exposure
import Kcf.Network.Topic.Worker
import Mathlib.Data.List.DropRight

/-!
# The options of the gateway

`gateway::Parse` reads the command line and `gateway::Config` makes the configuration of a
control node of it, which `Start` checks once more.
-/

namespace Kcf.Gateway

open Kcf.Wire Kcf.Network List Function

/-- The lists of endpoints that other hosts may use. -/
inductive Exposed where
  | parameter | service | action
  deriving DecidableEq

/-- The lists of hosts that may do something. -/
inductive Client where
  | descriptorQuery | parameterGet | parameterSet | serviceCall | actionGoal | actionCancel
  deriving DecidableEq

/-- `TopicRateLimit`; a number of type `double` is its value, if it is finite. -/
structure TopicRateLimit where
  name : Bytes
  maxHz : Option Rat

/-- A rate between 0.1 (the nearest `double`) and 1000. -/
def RateValid : Option Rat → Prop
  | none => False
  | some hz => 3602879701896397 / 36028797018963968 ≤ hz ∧ hz ≤ 1000

instance : (hz : Option Rat) → Decidable (RateValid hz)
  | none => isFalse id
  | some _ => inferInstanceAs (Decidable (_ ∧ _))

structure Options where
  stateDir : Bytes := "/var/lib/kcf".toUTF8.toList
  ipcSocket : Bytes := "/run/kcf/gateway.sock".toUTF8.toList
  lockFile : Bytes := "/run/kcf/gateway.lock".toUTF8.toList
  interfaceName : Bytes := []
  allowLoopback : Bool := false
  topicPolicy : TopicExposurePolicy := {}
  topicRates : List TopicRateLimit := []
  remoteTopics : List Bytes := []
  endpoints : Exposed → List Bytes := fun _ => []
  clients : Client → List HostIdentity := fun _ => []
  freshStartTopics : List Bytes := []
  discovery : UInt16 := 37651
  control : UInt16 := 39001
  topic : UInt16 := 37652

/-! ## Parse -/

/-- `Port`. -/
def port (text : Bytes) : Option UInt16 :=
  if text = [] ∨ ∃ c ∈ text, c < 48 ∨ 57 < c then none
  else
    let n := text.foldl (fun n c => 10 * n + (c.toNat - 48)) 0
    if n = 0 ∨ 65535 < n then none else some (UInt16.ofNat n)

def digit (c : UInt8) : Option UInt8 :=
  if 48 ≤ c ∧ c ≤ 57 then some (c - 48)
  else if 97 ≤ c ∧ c ≤ 102 then some (c - 97 + 10)
  else if 65 ≤ c ∧ c ≤ 70 then some (c - 65 + 10)
  else none

def hexBytes : Bytes → Option Bytes
  | high :: low :: rest => do
    let byte := (← digit high) <<< 4 ||| (← digit low)
    return byte :: (← hexBytes rest)
  | _ => some []

/-- `ClientHost`. -/
def clientHost (text : Bytes) : Option HostIdentity :=
  if text.length ≠ 32 then none
  else (hexBytes text).bind fun bytes =>
    if whole : bytes.length = 16 then
      if HostIdentity.Valid ⟨bytes, whole⟩ then some ⟨bytes, whole⟩ else none
    else none

/-- What a word of the command line asks for. -/
inductive Key where
  | endpoint (list : Exposed)
  | client (list : Client)
  | allowPrefix | excludePrefix | rate | remoteTopic | freshStart
  | allowLoopback | ipcSocket | lockFile | stateDir | interface
  | discoveryPort | controlPort | topicPort
  deriving DecidableEq

def keys : List (String × Key) :=
  [("--remote-parameter", .endpoint .parameter), ("--remote-service", .endpoint .service),
    ("--remote-action", .endpoint .action), ("--descriptor-client", .client .descriptorQuery),
    ("--parameter-get-client", .client .parameterGet),
    ("--parameter-set-client", .client .parameterSet),
    ("--service-call-client", .client .serviceCall), ("--action-goal-client", .client .actionGoal),
    ("--action-cancel-client", .client .actionCancel), ("--topic-allow-prefix", .allowPrefix),
    ("--topic-exclude-prefix", .excludePrefix), ("--topic-rate", .rate),
    ("--remote-topic", .remoteTopic), ("--topic-fresh-start", .freshStart),
    ("--allow-loopback", .allowLoopback), ("--ipc-socket", .ipcSocket),
    ("--lock-file", .lockFile), ("--state-dir", .stateDir), ("--interface", .interface),
    ("--discovery-port", .discoveryPort), ("--control-port", .controlPort),
    ("--topic-port", .topicPort)]

/-- The option may be given more than once. -/
def Key.repeats : Key → Bool
  | .endpoint _ | .client _ | .allowPrefix | .excludePrefix | .rate | .remoteTopic
  | .freshStart => true
  | _ => false

section

-- `std::stod`: the number and how many characters it took, or it throws
variable (stod : Bytes → Option (Option Rat × Nat))

/-- One option with its value; nothing if it is refused. -/
def Options.take (out : Options) (value : Bytes) : Key → Option Options
  | .client list => do
    let host ← clientHost value
    if host ∈ out.clients list ∨ 32 ≤ (out.clients list).length then none
    else some { out with
      clients := update out.clients list (out.clients list ++ [host]) }
  | .endpoint list =>
    if value.head? ≠ some 47 ∨ 240 < value.length ∨ (∃ c ∈ value, c ≤ 32 ∨ c = 127) ∨
        ∃ name ∈ out.endpoints list, name = value then none
    else some { out with
      endpoints := update out.endpoints list (out.endpoints list ++ [value]) }
  | .allowPrefix =>
    let policy := out.topicPolicy
    some { out with
      topicPolicy := { policy with allowPrefixes := policy.allowPrefixes ++ [value] } }
  | .excludePrefix =>
    let policy := out.topicPolicy
    some { out with
      topicPolicy := { policy with excludePrefixes := policy.excludePrefixes ++ [value] } }
  | .rate =>
    -- the name ends at the last colon
    let name := (value.rdropWhile (· ≠ 58)).dropLast
    let number := value.rtakeWhile (· ≠ 58)
    if 58 ∉ value then none
    else (stod number).bind fun (hz, used) =>
      if used ≠ number.length ∨ ¬RateValid hz ∨ ∃ r ∈ out.topicRates, r.name = name then none
      else some { out with topicRates := out.topicRates ++ [⟨name, hz⟩] }
  | .freshStart =>
    if ∃ name ∈ out.freshStartTopics, name = value then none
    else some { out with freshStartTopics := out.freshStartTopics ++ [value] }
  | .remoteTopic =>
    if ∃ name ∈ out.remoteTopics, name = value then none
    else some { out with remoteTopics := out.remoteTopics ++ [value] }
  | .allowLoopback => some out
  | .stateDir => some { out with stateDir := value }
  | .ipcSocket => some { out with ipcSocket := value }
  | .lockFile => some { out with lockFile := value }
  | .interface => some { out with interfaceName := value }
  | .discoveryPort => (port value).map ({ out with discovery := · })
  | .controlPort => (port value).map ({ out with control := · })
  | .topicPort => (port value).map ({ out with topic := · })

/-- The loop of `Parse`. -/
def parseFrom : List Bytes → List Key → Options → Option Options
  | [], _, out => some out
  | text :: rest, seen, out =>
    match keys.find? fun key => key.1.toUTF8.toList = text with
    | none => none
    | some (_, key) =>
      if key.repeats = false ∧ key ∈ seen then none
      else if key = .allowLoopback then
        parseFrom rest (key :: seen) { out with allowLoopback := true }
      else
        match rest with
        | [] | [] :: _ => none
        | value :: rest =>
          match out.take stod value key with
          | none => none
          | some out => parseFrom rest (key :: seen) out

/-- The names of Topics that `Parse` lets through. -/
def ValidName (name : Bytes) : Prop :=
  name.head? = some 47 ∧ name.length ≤ 240 ∧ ∀ c ∈ name, c ∉ [32, 9, 13, 10]
  deriving Decidable

/-- The names of Topics in the options. -/
def Options.names (out : Options) : List Bytes :=
  out.topicRates.map (·.name) ++ out.freshStartTopics ++ out.remoteTopics

/-- `Parse` of the words behind the name of the program; nothing if it throws. -/
def parse (args : List Bytes) : Option Options := do
  let out ← parseFrom stod args [] {}
  let policy := { out.topicPolicy with
    enabled := out.topicPolicy.allowPrefixes ≠ [] ∨ out.topicPolicy.excludePrefixes ≠ [] }
  if out.discovery = out.control ∨ out.discovery = out.topic ∨ out.control = out.topic ∨
      (out.allowLoopback = true ∧ out.interfaceName = []) ∨ 64 < out.topicRates.length ∨
      64 < out.remoteTopics.length ∨ 64 < out.freshStartTopics.length ∨
      (∃ name ∈ out.names, ¬ValidName name) ∨ policy.validate ≠ 0 then none
  else some { out with topicPolicy := policy }

end

/-- `ValidateClientHosts`. -/
def Options.ValidClientHosts (options : Options) (own : HostIdentity) : Prop :=
  ∀ list, own ∉ options.clients list

/-! ## The configuration -/

/-- What `Start` reads of `ControlConfig`; the address of the interface is a number. -/
structure ControlConfig extends Control.Config where
  interfaceAddress : UInt32
  metadataPort : UInt16
  metadata : MetadataConfig
  endpoints : Exposed → List Bytes
  groups : List Bytes := []
  metadataInterval : Int := 250
  reconnectInterval : Int := 250
  topicsEnabled : Bool
  topics : Topic.Config
  receivePort : Option UInt16 := none
  maxHz : Option Rat := some 50
  rateLimits : List TopicRateLimit
  socketBufferBytes : Nat := 64 * 1024

/-- `Config`, with the identities filled in. -/
def Options.config (options : Options) (address : UInt32) (host bootId : HostIdentity) :
    ControlConfig where
  discovery := { host, bootId, multicastGroup := ⟨0xefff4b43, options.discovery⟩ }
  interfaceAddress := address
  metadataPort := options.control
  metadata := { remoteTopics := options.remoteTopics, topicExposure := options.topicPolicy }
  endpoints := options.endpoints
  topics := { port := options.topic, freshStartTopics := options.freshStartTopics }
  rateLimits := options.topicRates
  topicObserverEnabled := options.topicPolicy.enabled && options.topicPolicy.allowPrefixes ≠ []
  topicsEnabled := (options.topicPolicy.enabled && options.topicPolicy.allowPrefixes ≠ []) ||
    options.remoteTopics ≠ []
  descriptorQueryClients := options.clients .descriptorQuery
  parameterGetClients := options.clients .parameterGet
  parameterSetClients := options.clients .parameterSet
  serviceCallClients := options.clients .serviceCall
  actionGoalClients := options.clients .actionGoal
  actionCancelClients := options.clients .actionCancel

/-- The names of endpoints, as both `Start` want them. -/
def NameAccepted (name : Bytes) : Prop := Text name 240 ∧ name.head? = some 47

namespace ControlConfig

variable (config : ControlConfig)

def grants : List (List HostIdentity) :=
  [config.descriptorQueryClients, config.parameterGetClients, config.parameterSetClients,
    config.serviceCallClients, config.actionGoalClients, config.actionCancelClients]

/-- The checks of `ControlNode::Start`. -/
structure Accepted : Prop where
  intervals : ∀ interval ∈
    [config.metadataInterval, config.connectTimeout, config.reconnectInterval],
    20 ≤ interval ∧ interval ≤ 60000
  clients : ∀ hosts ∈ config.grants,
    hosts.length ≤ 32 ∧ ∀ host ∈ hosts, host.Valid ∧ host ≠ config.discovery.host
  host : config.discovery.host.Valid
  bootId : config.discovery.bootId.Valid
  endpoints : ∀ list, ∀ name ∈ config.endpoints list, NameAccepted name
  topics : ∀ name ∈ config.metadata.remoteTopics, NameAccepted name
  groups : ∀ group ∈ config.groups, Text group 128

/-- The checks of `TopicDataPlane::Start`. -/
structure TopicsAccepted : Prop where
  receivePort : config.topics.receiveOnly = false →
    ∀ port, config.receivePort = some port → port = config.topics.port
  enabled : config.topicsEnabled = true
  maxHz : RateValid config.maxHz
  buffer : 4096 ≤ config.socketBufferBytes ∧ config.socketBufferBytes ≤ 1024 * 1024
  setup : Topic.Setup.Accepted
    { topic := config.topics
      remoteTopics := config.metadata.remoteTopics
      discovery := config.discovery }
  rateCount : config.rateLimits.length ≤ 64
  rates : ∀ r ∈ config.rateLimits, NameAccepted r.name ∧ RateValid r.maxHz

end ControlConfig

/-! ## What gets through -/

/-- What the loop of `Parse` makes sure of. -/
structure Options.Sane (out : Options) : Prop where
  endpoints : ∀ list, ∀ name ∈ out.endpoints list, NameAccepted name
  clients : ∀ list, (out.clients list).length ≤ 32 ∧ ∀ host ∈ out.clients list, host.Valid
  rates : ∀ r ∈ out.topicRates, RateValid r.maxHz
  fresh : out.freshStartTopics.Nodup
  remote : out.remoteTopics.Nodup
  topic : out.topic ≠ 0

theorem clientHost_valid {text : Bytes} {host : HostIdentity}
    (found : clientHost text = some host) : host.Valid := by
  obtain ⟨_, found⟩ := Option.ite_none_left_eq_some.mp found
  obtain ⟨bytes, _, found⟩ := Option.bind_eq_some_iff.mp found
  split at found
  · obtain ⟨valid, ⟨⟩⟩ := Option.ite_none_right_eq_some.mp found
    exact valid
  · cases found

theorem port_ne_zero {text : Bytes} {n : UInt16} (found : port text = some n) : n ≠ 0 := by
  obtain ⟨_, found⟩ := Option.ite_none_left_eq_some.mp found
  obtain ⟨range, ⟨⟩⟩ := Option.ite_none_left_eq_some.mp found
  intro zero
  have small := congrArg UInt16.toNat zero
  rw [UInt16.toNat_ofNat', Nat.mod_eq_of_lt (by omega)] at small
  exact range (.inl small)

section

variable {stod : Bytes → Option (Option Rat × Nat)} {out next : Options}

theorem Options.Sane.take {value : Bytes} {key : Key} (sane : out.Sane)
    (taken : out.take stod value key = some next) : next.Sane := by
  cases key with
  | client list =>
    obtain ⟨host, valid, taken⟩ := Option.bind_eq_some_iff.mp taken
    obtain ⟨free, ⟨⟩⟩ := Option.ite_none_left_eq_some.mp taken
    refine { sane with clients := fun other => ?_ }
    simp only [update_apply]
    split
    · obtain ⟨few, valids⟩ := sane.clients list
      refine ⟨?_, Data.forall_snoc valids (clientHost_valid valid)⟩
      rw [length_append]
      exact not_le.mp (not_or.mp free).2
    · exact sane.clients other
  | endpoint list =>
    obtain ⟨fine, ⟨⟩⟩ := Option.ite_none_left_eq_some.mp taken
    simp only [not_or, not_not, not_lt, not_exists, not_and] at fine
    obtain ⟨absolute, short, plain, _⟩ := fine
    refine { sane with endpoints := fun other => ?_ }
    simp only [update_apply]
    split
    · refine Data.forall_snoc (sane.endpoints list) ?_
      refine ⟨⟨?_, short, fun c inside => ?_⟩, absolute⟩
      · rintro rfl
        cases absolute
      · exact not_or.mpr ⟨fun low => (plain c inside).1 (UInt8.le_of_lt low), (plain c inside).2⟩
    · exact sane.endpoints other
  | rate =>
    obtain ⟨_, taken⟩ := Option.ite_none_left_eq_some.mp taken
    obtain ⟨⟨hz, used⟩, _, taken⟩ := Option.bind_eq_some_iff.mp taken
    obtain ⟨fine, ⟨⟩⟩ := Option.ite_none_left_eq_some.mp taken
    have valid := not_not.mp (not_or.mp (not_or.mp fine).2).1
    exact { sane with rates := Data.forall_snoc sane.rates valid }
  | freshStart =>
    obtain ⟨new, ⟨⟩⟩ := Option.ite_none_left_eq_some.mp taken
    exact { sane with fresh := Data.nodup_snoc sane.fresh fun old => new ⟨_, old, rfl⟩ }
  | remoteTopic =>
    obtain ⟨new, ⟨⟩⟩ := Option.ite_none_left_eq_some.mp taken
    exact { sane with remote := Data.nodup_snoc sane.remote fun old => new ⟨_, old, rfl⟩ }
  | topicPort =>
    obtain ⟨n, found, rfl⟩ := Option.map_eq_some_iff.mp taken
    exact { sane with topic := port_ne_zero found }
  | discoveryPort | controlPort =>
    obtain ⟨n, found, rfl⟩ := Option.map_eq_some_iff.mp taken
    exact { sane with }
  | allowPrefix | excludePrefix | allowLoopback | stateDir | ipcSocket | lockFile | interface =>
    cases taken
    exact { sane with }

theorem Options.Sane.parseFrom {args : List Bytes} {seen : List Key} (sane : out.Sane)
    (parsed : Gateway.parseFrom stod args seen out = some next) : next.Sane := by
  fun_induction Gateway.parseFrom stod args seen out with
  | case1 =>
    cases parsed
    exact sane
  | case4 _ _ _ _ _ _ _ ih => exact ih { sane with } parsed
  | case8 _ _ _ _ _ _ _ _ _ _ _ _ taken ih => exact ih (sane.take taken) parsed
  | _ => cases parsed

/-- What `Parse` makes sure of in the end. -/
theorem parse_spec {args : List Bytes} {options : Options}
    (parsed : parse stod args = some options) :
    options.Sane ∧ options.topicRates.length ≤ 64 ∧ options.remoteTopics.length ≤ 64 ∧
      options.freshStartTopics.length ≤ 64 ∧ ∀ name ∈ options.names, ValidName name := by
  obtain ⟨out, looped, parsed⟩ := Option.bind_eq_some_iff.mp parsed
  obtain ⟨fine, ⟨⟩⟩ := Option.ite_none_left_eq_some.mp parsed
  simp only [not_or, not_lt, not_exists, not_and, not_not] at fine
  obtain ⟨_, _, _, _, rates, remote, fresh, names, _⟩ := fine
  have empty : Options.Sane {} :=
    ⟨fun _ => forall_mem_nil _, fun _ => ⟨Nat.zero_le _, forall_mem_nil _⟩,
      forall_mem_nil _, nodup_nil, nodup_nil, by decide⟩
  exact ⟨{ empty.parseFrom looped with }, rates, remote, fresh, names⟩

end

/-- A name without control characters. -/
def Printable (name : Bytes) : Prop := ∀ c ∈ name, ¬(c < 32 ∨ c = 127)

theorem nameAccepted_iff {name : Bytes} (valid : ValidName name) :
    NameAccepted name ↔ Printable name := by
  obtain ⟨absolute, short, _⟩ := valid
  refine ⟨fun accepted => accepted.1.2.2, fun printable => ⟨⟨?_, short, printable⟩, absolute⟩⟩
  rintro rfl
  cases absolute

/-- Options that `Parse` accepts start exactly if no name of a Topic has a control character:
`Parse` looks for blanks, and `Start` for all of them. -/
theorem accepted_options_start {stod : Bytes → Option (Option Rat × Nat)} {args : List Bytes}
    {options : Options} (parsed : parse stod args = some options) (address : UInt32)
    {host bootId : HostIdentity} (known : host.Valid) (booted : bootId.Valid)
    (others : options.ValidClientHosts host) :
    let config := options.config address host bootId
    (config.Accepted ∧ (config.topicsEnabled = true → config.TopicsAccepted)) ↔
      (∀ name ∈ options.remoteTopics, Printable name) ∧
        (config.topicsEnabled = true → ∀ name ∈ options.names, Printable name) := by
  obtain ⟨sane, rates, remote, fresh, valid⟩ := parse_spec parsed
  have accepted {name : Bytes} (listed : name ∈ options.names) :=
    nameAccepted_iff (valid name listed)
  have topic {name : Bytes} (listed : name ∈ options.remoteTopics) : name ∈ options.names :=
    mem_append_right _ listed
  constructor
  · rintro ⟨control, topics⟩
    refine ⟨fun name listed => (accepted (topic listed)).mp (control.topics name listed), ?_⟩
    intro enabled name listed
    refine (accepted listed).mp ?_
    have started := topics enabled
    rcases mem_append.mp listed with early | listed
    · rcases mem_append.mp early with rated | listed
      · obtain ⟨r, member, rfl⟩ := mem_map.mp rated
        exact (started.rates r member).1
      · exact started.setup.2.2.2.2.2.2.1.2.1 name listed
    · exact control.topics name listed
  · rintro ⟨printable, names⟩
    have clients (list : Client) : (options.clients list).length ≤ 32 ∧
        ∀ other ∈ options.clients list, other.Valid ∧ other ≠ host := by
      refine ⟨(sane.clients list).1, fun other member => ⟨(sane.clients list).2 other member, ?_⟩⟩
      rintro rfl
      exact others list member
    have remotes (name : Bytes) (listed : name ∈ options.remoteTopics) :
        NameAccepted name := (accepted (topic listed)).mpr (printable name listed)
    have intervals : ∀ interval ∈ [250, 1000, 250], 20 ≤ interval ∧ interval ≤ (60000 : Int) := by
      decide
    refine ⟨⟨intervals, ?_, known, booted, sane.endpoints, remotes, forall_mem_nil _⟩,
      fun enabled => ?_⟩
    · simp only [ControlConfig.grants, forall_mem_cons]
      exact ⟨clients _, clients _, clients _, clients _, clients _, clients _, forall_mem_nil _⟩
    · have started (name : Bytes) (listed : name ∈ options.names) :
          NameAccepted name := (accepted listed).mpr (names enabled name listed)
      have standard : RateValid (some 50) := by decide +kernel
      have buffer : 4096 ≤ 64 * 1024 ∧ 64 * 1024 ≤ 1024 * 1024 := by decide
      have none : Topic.NamesAccepted [] := by decide
      refine ⟨nofun, enabled, standard, buffer, ?_, rates, fun r member => ?_⟩
      · refine ⟨sane.topic, Nat.one_le_ofNat, le_rfl, Nat.one_le_ofNat, Nat.le_of_ble_eq_true rfl,
          ⟨remote, remotes, sane.remote⟩, ⟨fresh, ?_, sane.fresh⟩, none, forall_mem_nil _⟩
        exact fun name listed => started name (mem_append_left _ (mem_append_right _ listed))
      · exact ⟨started r.name (mem_append_left _ (mem_append_left _
          (mem_map_of_mem member))), sane.rates r member⟩

/-- One Topic on the command line. -/
def topicWords (name : Bytes) : List Bytes := ["--remote-topic".toUTF8.toList, name]

theorem parse_topicWords {stod : Bytes → Option (Option Rat × Nat)} {name : Bytes}
    (valid : ValidName name) : parse stod (topicWords name) = some { remoteTopics := [name] } := by
  have found : keys.find? (fun key => key.1.toUTF8.toList = "--remote-topic".toUTF8.toList) =
      some ("--remote-topic", .remoteTopic) := by decide +kernel
  cases name with
  | nil => cases valid.1
  | cons first rest =>
    have looped : parseFrom stod (topicWords (first :: rest)) [] {} =
        some { remoteTopics := [first :: rest] } := by
      rw [topicWords, parseFrom, found]
      rfl
    rw [parse, looped]
    exact if_neg (by simp [Options.names, valid, TopicExposurePolicy.validate, validatePrefixes])

theorem accepted_options_start_topic : ∃ options,
    parse (fun _ => none) (topicWords [47, 97]) = some options ∧
    (options.config 0x0a000001 (.ofByte 1) (.ofByte 9)).Accepted := by
  have parsed : parse (fun _ => none) (topicWords [47, 97]) = _ :=
    parse_topicWords (by decide +kernel)
  have printable : ∀ name ∈ [[47, 97]], Printable name :=
    forall_mem_singleton.mpr
      (show ∀ c ∈ [47, 97], ¬(c < (32 : UInt8) ∨ c = 127) by decide +kernel)
  exact ⟨_, parsed, ((accepted_options_start parsed 0x0a000001 (by decide) (by decide)
    fun _ => not_mem_nil).mpr ⟨printable, fun _ => printable⟩).1⟩

theorem control_character_fails_start : ∃ options,
    parse (fun _ => none) (topicWords [47, 1]) = some options ∧
    options.ValidClientHosts (.ofByte 1) ∧
    ¬(options.config 0x0a000001 (.ofByte 1) (.ofByte 9)).Accepted := by
  refine ⟨_, parse_topicWords (by decide +kernel), fun _ => not_mem_nil, fun accepted => ?_⟩
  have text : Text [47, 1] 240 := (accepted.topics [47, 1] (mem_singleton_self _)).1
  exact absurd text (by decide)

end Kcf.Gateway
