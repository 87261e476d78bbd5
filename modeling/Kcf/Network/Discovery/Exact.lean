import Kcf.Network.Discovery.Protocol

/-!
# Exactness of the discovery codecs

The converse of the round trips of the discovery protocol: what is decoded is the only
byte string that means it.
-/

namespace Kcf.Network.Discovery

open Kcf.Wire List

/-! ## Datagrams -/

/-- What `decodeBody` has read. -/
structure ReadBody (host bootId : HostIdentity) (sessionId : UInt64) (code : UInt16)
    (bytes : Bytes) (p : Packet) : Prop where
  host : p.host = host
  bootId : p.bootId = bootId
  sessionId : p.sessionId = sessionId
  code : p.kind.code = code
  body : bytes = encodeBody p p.kind

theorem reads_body (host bootId : HostIdentity) (sessionId : UInt64) (code : UInt16) :
    Reads (· < 0) [] (decodeBody host bootId sessionId code) fun p body =>
      ReadBody host bootId sessionId code body p := by
  unfold decodeBody
  split
  next announce =>
    exact exact_u64.field fun _ => exact_u64.field fun _ => exact_u32.field fun _ =>
      exact_u16.field fun _ => (exact_reserved 2).field fun _ => exact_u16.field fun _ =>
      exact_u16.field fun _ => exact_u16.field fun _ => exact_u16.field fun _ =>
      exact_u16.field fun _ => (exact_reserved 2).field fun _ => exact_u64.field fun _ =>
      .pure ⟨rfl, rfl, rfl, announce.symm, rfl⟩
  split
  next request =>
    exact exact_u64.field fun _ => exact_u64.field fun _ => exact_u32.field fun _ =>
      .pure ⟨rfl, rfl, rfl, request.symm, rfl⟩
  split
  next response =>
    exact exact_u64.field fun _ => exact_u64.field fun _ => exact_u32.field fun _ =>
      exact_u32.field fun _ => .left fun _ => .require (by decide) fun _ =>
      .remaining fun _ => .pure ⟨rfl, rfl, rfl, response.symm, rfl⟩
  · exact (Reads.accept_last (by decide) _).imp fun _ _ both =>
      absurd both.2.symm (Option.some_ne_none _)

variable {bytes : Bytes} {code : Int} {endpoints : List NetworkEndpointMetadata}

theorem reads_fields (size : Nat) :
    Reads (· < 0) [] (decodeFields size) fun p whole =>
      p.Valid ∧ (size = whole.length → p.bytes = whole) := by
  refine exact_u32.field fun _ => .require (by decide) ?_
  rintro rfl
  refine exact_u16.field fun _ => .require (by decide) ?_
  rintro rfl
  refine exact_u16.field fun code => (exact_number 4).field fun length => .require (by decide) ?_
  rintro rfl
  refine (exact_reserved 4).field fun _ => exact_host.field fun _ => exact_host.field fun _ =>
    exact_u64.field fun _ => (reads_body _ _ _ _).frame.bind ?_
  rintro p _ ⟨body, rfl, read⟩
  refine .require (by decide) fun valid => .pure ⟨valid, fun size => ?_⟩
  rw [read.body, ← read.code, ← read.host, ← read.bootId, ← read.sessionId] at size ⊢
  simp only [length_append, length_u32, length_u16, length_number, length_u64,
    length_encodeBody valid.2.2.2.2, Writer.host, HostIdentity.length_bytes, length_nil]
    at size
  have announced : length = headerSize + p.kind.bodySize + p.chunk.length := by
    rw [size, headerSize]
    omega
  rw [announced]
  rfl

theorem decodePacket_valid {p : Packet} (decoded : decodePacket bytes = .ok p) : p.Valid :=
  ((reads_fields _).within_eq_ok decoded).2.1

theorem decodePacket_eq_ok {p : Packet} (decoded : decodePacket bytes = .ok p) :
    p.bytes = bytes :=
  ((reads_fields _).within_eq_ok decoded).2.2 rfl

theorem decodePacket_error (failed : decodePacket bytes = .error code) : code < 0 :=
  (reads_fields _).within_error (by decide) (by decide) failed

theorem encodePacket_error {p : Packet} (failed : encodePacket p = .error code) : code < 0 := by
  unfold encodePacket at failed
  split_ifs at failed
  cases failed
  decide

/-- `EncodeDiscoveryPacket`: the code it returns and the bytes in `output` behind it. -/
def encodeDiscoveryPacket (p : Packet) (output : Bytes) : Int × Bytes :=
  writeOut output (encodePacket p)

/-- `DecodeDiscoveryPacket`: the code it returns and the packet in `output` behind it. -/
def decodeDiscoveryPacket (bytes : Bytes) (output : Packet) : Int × Packet :=
  writeOut output (decodePacket bytes)

/-- A packet that is accepted by the encoder fits in a datagram and is decoded to itself,
where only an announce has a profile; bytes that are accepted by the decoder are the
encoding of the packet they are decoded to; and an error leaves the output argument alone. -/
theorem packet_codec_exact :
    (∀ p output, (encodeDiscoveryPacket p output).1 = 0 →
      (encodeDiscoveryPacket p output).2.length ≤ maxDatagram ∧
        ((p.kind ≠ .announce → p.profile = {}) →
          ∀ other, decodeDiscoveryPacket (encodeDiscoveryPacket p output).2 other = (0, p))) ∧
    (∀ bytes output, (decodeDiscoveryPacket bytes output).1 = 0 →
      ∀ other, encodeDiscoveryPacket (decodeDiscoveryPacket bytes output).2 other = (0, bytes)) ∧
    (∀ p output, (encodeDiscoveryPacket p output).1 ≠ 0 →
      (encodeDiscoveryPacket p output).2 = output) ∧
    ∀ bytes output, (decodeDiscoveryPacket bytes output).1 ≠ 0 →
      (decodeDiscoveryPacket bytes output).2 = output := by
  refine ⟨fun p output accepted => ?_, fun bytes output accepted other => ?_,
    fun _ _ => writeOut_error, fun _ _ => writeOut_error⟩
  · have encoded := writeOut_zero (fun _ => encodePacket_error) accepted
    obtain ⟨valid, same⟩ := encodePacket_eq_ok.mp encoded
    refine ⟨?_, fun silent => ?_⟩
    · exact same ▸ valid.length_le
    · exact writeOut_inverse (fun _ => encodePacket_error) accepted fun encoded =>
        decodePacket_encodePacket encoded silent
  · exact writeOut_inverse (fun _ => decodePacket_error) accepted (fun decoded =>
      encodePacket_eq_ok.mpr ⟨decodePacket_valid decoded, decodePacket_eq_ok decoded⟩) other

/-- A request for the first chunk. -/
def sampleRequest : Packet where
  kind := .metadataRequest
  host := .ofByte 1
  bootId := .ofByte 9
  sessionId := 5
  revision := 1
  requestId := 2

theorem packet_codec_exact_request :
    (encodeDiscoveryPacket sampleRequest []).1 = 0 ∧
      decodeDiscoveryPacket (encodeDiscoveryPacket sampleRequest []).2 {} = (0, sampleRequest) := by
  have accepted : (encodeDiscoveryPacket sampleRequest []).1 = 0 := by decide +kernel
  exact ⟨accepted, (packet_codec_exact.1 sampleRequest [] accepted).2 (fun _ => rfl) {}⟩

/-! ## Metadata -/

theorem kindCode_kindOfCode {code : UInt8} {kind : EndpointKind}
    (known : kindOfCode code = some kind) : kindCode kind = code := by
  unfold kindOfCode at known
  split_ifs at known with topic parameter service action <;> cases known <;> symm <;> assumption

theorem roleCode_roleOfCode {code : UInt8} {role : EndpointRole}
    (known : roleOfCode code = some role) : roleCode role = code := by
  unfold roleOfCode at known
  split_ifs at known with provider consumer <;> cases known <;> symm <;> assumption

theorem scopeCode_scopeOfCode {code : UInt8} {scope : NetworkScope}
    (known : scopeOfCode code = some scope) : scopeCode scope = code := by
  unfold scopeOfCode at known
  split_ifs at known with here everywhere <;> cases known <;> symm <;> assumption

theorem reads_endpoint :
    Reads (· < 0) [] decodeEndpoint fun m whole => whole = encodeEndpoint m ∧ m.Valid := by
  refine (exact_u16.field fun _ => exact_runtime.field fun _ => exact_u64.field fun _ =>
    exact_runtime.field fun _ => (exact_code kindCode_kindOfCode).field fun _ =>
    (exact_code roleCode_roleOfCode).field fun _ =>
    (exact_code scopeCode_scopeOfCode).field fun _ => (exact_reserved 1).field fun _ =>
    exact_type.field fun _ => exact_type.field fun _ => exact_type.field fun _ =>
    exact_type.field fun _ => (exact_string 128).field fun _ => (exact_string 128).field fun _ =>
    (exact_string 128).field fun _ => (exact_string 240).field fun _ =>
    (exact_number 2).field fun count => .require (by decide) fun _ =>
    ((exact_string 128).replicate count).bind ?_)
  rintro groups _ ⟨rfl, rfl⟩
  exact .require (by decide) fun valid => .pure ⟨rfl, valid⟩

/-- Valid endpoints are written as long as all of them fit. -/
theorem encodeEndpoints_of_fits (valid : ∀ m ∈ endpoints, m.Valid) (written : Bytes)
    (fits : (written ++ endpoints.flatMap encodeEndpoint).length ≤ maxMetadata) :
    encodeEndpoints written endpoints = .ok (written ++ endpoints.flatMap encodeEndpoint) := by
  induction endpoints generalizing written with
  | nil => rw [encodeEndpoints, flatMap_nil, append_nil]
  | cons m rest ih =>
    obtain ⟨first, others⟩ := forall_mem_cons.mp valid
    rw [flatMap_cons, ← append_assoc] at fits ⊢
    have small : ¬(written ++ encodeEndpoint m).length > maxMetadata := by
      rw [length_append] at fits
      omega
    rw [encodeEndpoints, if_neg (not_not_intro first), if_neg small]
    exact ih others _ fits

/-- Endpoints are encodable if they are valid and not too many or too long. -/
theorem encodeMetadata_eq_ok :
    encodeMetadata endpoints = .ok bytes ↔
      metadataBytes endpoints = bytes ∧ endpoints.length ≤ maxEndpoints ∧
        (∀ m ∈ endpoints, m.Valid) ∧ bytes.length ≤ maxMetadata := by
  unfold encodeMetadata
  constructor
  · intro encoded
    split at encoded
    · cases encoded
    next few =>
      obtain ⟨same, fits, valid⟩ := encodeEndpoints_eq encoded (by rw [length_number]; decide)
      exact ⟨same.symm, by omega, valid, fits⟩
  · rintro ⟨rfl, few, valid, fits⟩
    rw [if_neg (by omega)]
    exact encodeEndpoints_of_fits valid _ fits

theorem reads_metadata :
    Reads (· < 0) [] decodeEndpoints fun endpoints whole => metadataBytes endpoints = whole ∧
      endpoints.length ≤ maxEndpoints ∧ ∀ m ∈ endpoints, m.Valid := by
  refine (exact_number 2).field fun count => .require (by decide) fun few =>
    (reads_endpoint.replicate count).imp ?_
  rintro endpoints _ ⟨rfl, rfl, valid⟩
  exact ⟨rfl, few, valid⟩

theorem decodeMetadata_valid (decoded : decodeMetadata bytes = .ok endpoints) :
    ∀ m ∈ endpoints, m.Valid :=
  (reads_metadata.within_eq_ok decoded).2.2.2

theorem decodeMetadata_eq_ok
    (decoded : decodeMetadata bytes = .ok endpoints) : encodeMetadata endpoints = .ok bytes := by
  obtain ⟨fits, same, few, valid⟩ := reads_metadata.within_eq_ok decoded
  exact encodeMetadata_eq_ok.mpr ⟨same, few, valid, fits.2⟩

theorem decodeMetadata_error (failed : decodeMetadata bytes = .error code) : code < 0 :=
  reads_metadata.within_error (by decide) (by decide) failed

theorem encodeEndpoints_error {written : Bytes}
    (failed : encodeEndpoints written endpoints = .error code) : code < 0 := by
  induction endpoints generalizing written with
  | nil => cases failed
  | cons m rest ih =>
    rw [encodeEndpoints] at failed
    split at failed
    · cases failed
      decide
    split at failed
    · cases failed
      decide
    · exact ih failed

theorem encodeMetadata_error (failed : encodeMetadata endpoints = .error code) : code < 0 := by
  unfold encodeMetadata at failed
  split at failed
  · cases failed
    decide
  · exact encodeEndpoints_error failed

/-- `EncodeDiscoveryMetadata`: the code it returns and the bytes in `output` behind it. -/
def encodeDiscoveryMetadata (endpoints : List NetworkEndpointMetadata) (output : Bytes) :
    Int × Bytes :=
  writeOut output (encodeMetadata endpoints)

/-- `DecodeDiscoveryMetadata`: the code it returns and the list in `output` behind it. -/
def decodeDiscoveryMetadata (bytes : Bytes) (output : List NetworkEndpointMetadata) :
    Int × List NetworkEndpointMetadata :=
  writeOut output (decodeMetadata bytes)

/-- Endpoints that are accepted by the encoder are decoded to themselves; bytes that are
accepted by the decoder are the encoding of what they are decoded to; an error leaves the
output argument alone; and valid metadata can be encoded unless it is too long. -/
theorem metadata_codec_exact :
    (∀ endpoints output, (encodeDiscoveryMetadata endpoints output).1 = 0 →
      2 ≤ (encodeDiscoveryMetadata endpoints output).2.length ∧
      (encodeDiscoveryMetadata endpoints output).2.length ≤ maxMetadata ∧
      ∀ other, decodeDiscoveryMetadata (encodeDiscoveryMetadata endpoints output).2 other =
        (0, endpoints)) ∧
    (∀ bytes output, (decodeDiscoveryMetadata bytes output).1 = 0 →
      ∀ other, encodeDiscoveryMetadata (decodeDiscoveryMetadata bytes output).2 other =
        (0, bytes)) ∧
    (∀ endpoints output, (encodeDiscoveryMetadata endpoints output).1 ≠ 0 →
      (encodeDiscoveryMetadata endpoints output).2 = output) ∧
    (∀ bytes output, (decodeDiscoveryMetadata bytes output).1 ≠ 0 →
      (decodeDiscoveryMetadata bytes output).2 = output) ∧
    ∀ endpoints host bootId, ValidMetadata endpoints host bootId →
      ∀ output, (encodeDiscoveryMetadata endpoints output).1 = 0 ∨
        maxMetadata < (metadataBytes endpoints).length := by
  refine ⟨fun endpoints output accepted => ?_, fun bytes output accepted other => ?_,
    fun _ _ => writeOut_error, fun _ _ => writeOut_error,
    fun endpoints host bootId valid output => ?_⟩
  · have encoded := writeOut_zero (fun _ => encodeMetadata_error) accepted
    obtain ⟨decoded, least, most, -⟩ := decodeMetadata_encodeMetadata encoded
    exact ⟨least, most, fun other => congrArg (writeOut other) decoded⟩
  · exact writeOut_inverse (fun _ => decodeMetadata_error) accepted decodeMetadata_eq_ok other
  · by_cases fits : (metadataBytes endpoints).length ≤ maxMetadata
    · have each : ∀ m ∈ endpoints, m.Valid := fun m member => (valid.2.2.2.1 m member).1
      have encoded := encodeMetadata_eq_ok.mpr ⟨rfl, valid.2.2.1, each, fits⟩
      rw [encodeDiscoveryMetadata, encoded]
      exact .inl rfl
    · exact .inr (Nat.not_le.mp fits)

/-- The publisher of a Topic in one group. -/
def sampleEndpoint : NetworkEndpointMetadata where
  identity := ⟨⟨.ofByte 1, .ofByte 9, 200, 1⟩, 3⟩
  elementName := [101]
  name := [47, 112]
  groups := [[103]]
  valueType := ⟨1, 2, 3, 1⟩

theorem metadata_codec_exact_endpoint :
    (encodeDiscoveryMetadata [sampleEndpoint] []).1 = 0 ∧
      decodeDiscoveryMetadata (encodeDiscoveryMetadata [sampleEndpoint] []).2 [] =
        (0, [sampleEndpoint]) := by
  have accepted : (encodeDiscoveryMetadata [sampleEndpoint] []).1 = 0 := by decide +kernel
  exact ⟨accepted, (metadata_codec_exact.1 [sampleEndpoint] [] accepted).2.2 []⟩

end Kcf.Network.Discovery
