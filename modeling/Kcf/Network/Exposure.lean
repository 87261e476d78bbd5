import Kcf.Errno
import Kcf.Network.Validation
import Mathlib.Data.List.Infix

/-!
# Which local endpoints are exposed

`MetadataConfig` names the endpoints that other hosts may see, and `TopicExposurePolicy` adds
the Topics below some prefixes.
-/

namespace Kcf.Network

open Kcf.Wire List Errno

/-- `TopicExposurePolicy`. -/
structure TopicExposurePolicy where
  enabled : Bool := false
  allowPrefixes : List Bytes := []
  excludePrefixes : List Bytes := []

/-- What decides about Topics in `MetadataConfig`. -/
structure MetadataConfig where
  remoteTopics : List Bytes := []
  topicExposure : TopicExposurePolicy := {}

/-- `CanonicalPrefix`: without a slash at its end. -/
def canonicalPrefix (p : Bytes) : Bytes :=
  if 1 < p.length ∧ p.getLast? = some 47 then p.dropLast else p

/-- `PrefixValid`: an absolute path without empty segments, dots, blanks and wildcards. -/
def PrefixValid (p : Bytes) : Prop :=
  Text p 240 ∧ p.head? = some 47 ∧ ¬[47, 47] <:+: p ∧
    (∀ byte ∈ p, byte ∉ [32, 42, 63, 91, 93, 92]) ∧
    (canonicalPrefix p = [47] ∨
      ∀ part ∈ ((canonicalPrefix p).drop 1).splitOn 47,
        part ≠ [] ∧ part ≠ [46] ∧ part ≠ [46, 46])
  deriving Decidable

/-- `Matches`: the prefix itself, or something below it. -/
def Matches (name p : Bytes) : Prop :=
  let p := canonicalPrefix p
  p = [47] ∨ name.take p.length = p ∧ (name.length = p.length ∨ name[p.length]? = some 47)
  deriving Decidable

/-- `TopicScope`. -/
def MetadataConfig.topicScope (config : MetadataConfig) (name : Bytes) (role : EndpointRole) :
    NetworkScope :=
  let policy := config.topicExposure
  let governed := policy.enabled = true ∧ role = .provider
  if governed ∧ ∃ p ∈ policy.excludePrefixes, Matches name p then .local
  else if (∃ topic ∈ config.remoteTopics, topic = name) ∨
      governed ∧ ∃ p ∈ policy.allowPrefixes, Matches name p then .remote
  else .local

/-- The inner loops of `ValidateTopicExposurePolicy` behind the prefixes `seen`. -/
def validatePrefixes (seen : List Bytes) : List Bytes → Int
  | [] => 0
  | p :: rest =>
    if ¬PrefixValid p then -einval
    else if ∃ other ∈ seen, canonicalPrefix p = canonicalPrefix other then -eexist
    else validatePrefixes (seen ++ [p]) rest

/-- `ValidateTopicExposurePolicy`. -/
def TopicExposurePolicy.validate (policy : TopicExposurePolicy) : Int :=
  let check (list : List Bytes) := if 64 < list.length then -e2big else validatePrefixes [] list
  if check policy.allowPrefixes ≠ 0 then check policy.allowPrefixes
  else check policy.excludePrefixes

/-- `EvaluateTopicExposure`. -/
def MetadataConfig.evaluateTopicExposure (config : MetadataConfig) (name : Bytes)
    (role : EndpointRole) : Except Int NetworkScope :=
  let code := config.topicExposure.validate
  if code ≠ 0 then .error code
  else if ¬Text name 240 ∨ name.head? ≠ some 47 then .error (-einval)
  else .ok (config.topicScope name role)

/-! ## Segments -/

/-- The segments of an absolute name. -/
def segments (name : Bytes) : List Bytes := (name.drop 1).splitOn 47

/-- The segments of a prefix; the root has none. -/
def prefixSegments (p : Bytes) : List Bytes :=
  if canonicalPrefix p = [47] then [] else segments (canonicalPrefix p)

theorem intercalate_append {α : Type} {separator : List α} {front : List (List α)}
    (some_ : front ≠ []) (part : List α) (parts : List (List α)) :
    separator.intercalate (front ++ part :: parts) =
      separator.intercalate front ++ (separator ++ separator.intercalate (part :: parts)) := by
  induction front with
  | nil => exact absurd rfl some_
  | cons first front ih =>
    cases front with
    | nil => simp [intercalate_cons_cons]
    | cons second front =>
      simp only [cons_append, intercalate_cons_cons, append_assoc] at ih ⊢
      rw [ih (cons_ne_nil _ _)]

/-- The parts of a list are the first parts of another list if that one goes on behind a
separator. -/
theorem splitOn_prefix_iff {α : Type} [DecidableEq α] {separator : α} {front whole : List α} :
    front.splitOn separator <+: whole.splitOn separator ↔
      whole = front ∨ ∃ rest, whole = front ++ separator :: rest := by
  constructor
  · rintro ⟨parts, same⟩
    have joined := congrArg [separator].intercalate same
    rw [intercalate_splitOn] at joined
    cases parts with
    | nil =>
      rw [append_nil, intercalate_splitOn] at joined
      exact .inl joined.symm
    | cons part parts =>
      rw [intercalate_append (splitOn_ne_nil _ _), intercalate_splitOn] at joined
      exact .inr ⟨_, joined.symm⟩
  · rintro (rfl | ⟨rest, rfl⟩)
    · exact prefix_rfl
    · rw [splitOn_append_cons_self]
      exact prefix_append _ _

theorem canonicalPrefix_head {p : Bytes} (absolute : p.head? = some 47) :
    ∃ rest, canonicalPrefix p = 47 :: rest := by
  obtain ⟨rest, rfl⟩ := head?_eq_some_iff.mp absolute
  unfold canonicalPrefix
  split
  next long =>
    cases rest with
    | nil => exact absurd long.1 (by simp)
    | cons byte rest => exact ⟨_, rfl⟩
  · exact ⟨rest, rfl⟩

/-- A prefix matches by whole segments. -/
theorem matches_iff_segments {name p : Bytes} (absolute : name.head? = some 47)
    (valid : PrefixValid p) : Matches name p ↔ prefixSegments p <+: segments name := by
  obtain ⟨text, rfl⟩ := head?_eq_some_iff.mp absolute
  obtain ⟨rest, canonical⟩ := canonicalPrefix_head valid.2.1
  unfold Matches prefixSegments segments
  rw [canonical]
  by_cases root : rest = []
  · simp [root]
  · simp only [cons.injEq, root, and_false, false_or, if_false, drop_succ_cons,
      drop_zero, splitOn_prefix_iff, length_cons, take_succ_cons, true_and,
      Nat.add_right_cancel_iff, getElem?_cons_succ]
    constructor
    · rintro ⟨taken, tail⟩
      obtain ⟨last, rfl⟩ := prefix_iff_eq_take.mpr taken.symm
      cases last with
      | nil => exact .inl (append_nil rest)
      | cons byte last =>
        have slash : byte = 47 := by simpa using tail
        exact .inr ⟨last, by rw [slash]⟩
    · rintro (rfl | ⟨last, rfl⟩)
      · exact ⟨take_length, .inl rfl⟩
      · exact ⟨take_left, .inr (by simp)⟩

/-! ## Decisions -/

theorem validatePrefixes_valid {seen list : List Bytes}
    (accepted : validatePrefixes seen list = 0) :
    ∀ p ∈ list, PrefixValid p := by
  induction list generalizing seen with
  | nil => simp
  | cons p rest ih =>
    unfold validatePrefixes at accepted
    split_ifs at accepted with valid
    · exact absurd accepted (by decide)
    · exact forall_mem_cons.mpr ⟨valid, ih accepted⟩
    · exact absurd accepted (by decide)

theorem TopicExposurePolicy.validate_valid {policy : TopicExposurePolicy}
    (accepted : policy.validate = 0) :
    ∀ p ∈ policy.allowPrefixes ++ policy.excludePrefixes, PrefixValid p := by
  have checked {list : List Bytes}
      (passed : (if 64 < list.length then -e2big else validatePrefixes [] list) = 0) :
      ∀ p ∈ list, PrefixValid p := by
    split_ifs at passed
    · exact absurd passed (by decide)
    · exact validatePrefixes_valid passed
  unfold TopicExposurePolicy.validate at accepted
  dsimp only at accepted
  rw [forall_mem_append]
  by_cases allowed : (if 64 < policy.allowPrefixes.length then -e2big
      else validatePrefixes [] policy.allowPrefixes) = 0
  · rw [if_neg (not_not.mpr allowed)] at accepted
    exact ⟨checked allowed, checked accepted⟩
  · rw [if_pos allowed] at accepted
    exact absurd accepted allowed

section

variable (config : MetadataConfig) (name : Bytes) (role : EndpointRole)

theorem MetadataConfig.topicScope_remote_iff :
    config.topicScope name role = .remote ↔
      if config.topicExposure.enabled = true ∧ role = .provider then
        (∀ p ∈ config.topicExposure.excludePrefixes, ¬Matches name p) ∧
          (name ∈ config.remoteTopics ∨
            ∃ p ∈ config.topicExposure.allowPrefixes, Matches name p)
      else name ∈ config.remoteTopics := by
  unfold MetadataConfig.topicScope
  dsimp only
  by_cases governed : config.topicExposure.enabled = true ∧ role = .provider
  · rw [if_pos governed]
    simp only [governed, true_and, exists_eq_right]
    split_ifs with excluded allowed
    · obtain ⟨p, inside, matched⟩ := excluded
      exact iff_of_false nofun fun both => both.1 p inside matched
    · exact iff_of_true rfl ⟨fun p inside matched => excluded ⟨p, inside, matched⟩, allowed⟩
    · exact iff_of_false nofun fun both => allowed both.2
  · simp [governed]

variable {config name role}

/-- The decision only gets more open if the names and the allowed prefixes grow and the excluded
ones shrink, up to a slash at the end. -/
theorem MetadataConfig.topicScope_mono {other : MetadataConfig}
    (enabled : other.topicExposure.enabled = config.topicExposure.enabled)
    (topics : config.remoteTopics ⊆ other.remoteTopics)
    (allow : config.topicExposure.allowPrefixes.map canonicalPrefix ⊆
      other.topicExposure.allowPrefixes.map canonicalPrefix)
    (exclude : other.topicExposure.excludePrefixes.map canonicalPrefix ⊆
      config.topicExposure.excludePrefixes.map canonicalPrefix)
    (remote : config.topicScope name role = .remote) : other.topicScope name role = .remote := by
  have found {list more : List Bytes} (fewer : list.map canonicalPrefix ⊆ more.map canonicalPrefix)
      {p : Bytes} (inside : p ∈ list) (matched : Matches name p) : ∃ q ∈ more, Matches name q := by
    obtain ⟨q, member, same⟩ := mem_map.mp (fewer (mem_map_of_mem inside))
    refine ⟨q, member, ?_⟩
    unfold Matches
    rwa [same]
  rw [topicScope_remote_iff] at remote ⊢
  rw [enabled]
  split_ifs at remote ⊢
  · refine ⟨fun p inside matched => ?_, remote.2.imp (fun listed => topics listed) ?_⟩
    · obtain ⟨q, member, hit⟩ := found exclude inside matched
      exact remote.1 q member hit
    · rintro ⟨p, inside, matched⟩
      exact found allow inside matched
  · exact topics remote

end

/-- Prefixes match by whole segments, and a provider is exposed if no excluded prefix matches and
its Topic is listed or below an allowed prefix.  So excluding more exposes nothing, allowing more
hides nothing, and neither the order of the lists nor a slash at the end of a prefix matters. -/
theorem topic_exposure_by_segments {config : MetadataConfig} {name : Bytes}
    (accepted : config.topicExposure.validate = 0) (text : Text name 240)
    (absolute : name.head? = some 47) :
    (∀ p ∈ config.topicExposure.allowPrefixes ++ config.topicExposure.excludePrefixes,
      Matches name p ↔ prefixSegments p <+: segments name) ∧
    (∀ role, config.evaluateTopicExposure name role = .ok (config.topicScope name role)) ∧
    (∀ role, config.topicScope name role = .remote ↔
      if config.topicExposure.enabled = true ∧ role = .provider then
        (∀ p ∈ config.topicExposure.excludePrefixes, ¬Matches name p) ∧
          (name ∈ config.remoteTopics ∨
            ∃ p ∈ config.topicExposure.allowPrefixes, Matches name p)
      else name ∈ config.remoteTopics) ∧
    (∀ role more, config.topicExposure.excludePrefixes ⊆ more →
      { config with topicExposure := { config.topicExposure with
        excludePrefixes := more } }.topicScope name role = .remote →
      config.topicScope name role = .remote) ∧
    (∀ role more, config.topicExposure.allowPrefixes ⊆ more →
      config.topicScope name role = .remote →
      { config with topicExposure := { config.topicExposure with
        allowPrefixes := more } }.topicScope name role = .remote) ∧
    ∀ role (other : MetadataConfig), other.remoteTopics.Perm config.remoteTopics →
      other.topicExposure.enabled = config.topicExposure.enabled →
      (other.topicExposure.allowPrefixes.map canonicalPrefix).Perm
        (config.topicExposure.allowPrefixes.map canonicalPrefix) →
      (other.topicExposure.excludePrefixes.map canonicalPrefix).Perm
        (config.topicExposure.excludePrefixes.map canonicalPrefix) →
      other.topicScope name role = config.topicScope name role := by
  refine ⟨fun p inside => ?_, fun role => ?_, config.topicScope_remote_iff name,
    fun role more grown => ?_, fun role more grown => ?_, ?_⟩
  · exact matches_iff_segments absolute (TopicExposurePolicy.validate_valid accepted p inside)
  · unfold MetadataConfig.evaluateTopicExposure
    simp [accepted, text, absolute]
  · exact MetadataConfig.topicScope_mono rfl (Subset.refl _) (Subset.refl _) (map_subset _ grown)
  · exact MetadataConfig.topicScope_mono rfl (Subset.refl _) (map_subset _ grown) (Subset.refl _)
  · intro role other topics enabled allow exclude
    have same : other.topicScope name role = .remote ↔ config.topicScope name role = .remote :=
      ⟨MetadataConfig.topicScope_mono enabled.symm topics.subset allow.subset exclude.symm.subset,
        MetadataConfig.topicScope_mono enabled topics.symm.subset allow.symm.subset exclude.subset⟩
    cases scope : config.topicScope name role with
    | remote => exact same.mpr scope
    | «local» =>
      cases here : other.topicScope name role with
      | «local» => rfl
      | remote => exact absurd (scope.symm.trans (same.mp here)) nofun

/-- Everything below `/p`. -/
def sampleExposure : MetadataConfig where
  topicExposure := { enabled := true, allowPrefixes := [[47, 112, 47]] }

/-- `/p/` exposes `/p/x` and not `/px`. -/
theorem topic_exposure_by_segments_below :
    sampleExposure.topicScope [47, 112, 47, 120] .provider = .remote ∧
      sampleExposure.topicScope [47, 112, 120] .provider ≠ .remote := by
  have inside : sampleExposure.topicExposure.validate = 0 := by decide +kernel
  refine ⟨?_, ?_⟩
  · rw [(topic_exposure_by_segments inside (by decide +kernel) rfl).2.2.1 .provider]
    decide +kernel
  · rw [Ne, (topic_exposure_by_segments inside (by decide +kernel) rfl).2.2.1 .provider]
    decide +kernel

end Kcf.Network
