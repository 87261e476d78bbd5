import Kcf.Network.Topic.Protocol

/-!
# Exactness of the Topic packet codec

Both directions of the round trip.  The lengths in a packet are 16 bits wide; the limits
of a valid packet keep them below.
-/

namespace Kcf.Network.Topic

open Kcf.Wire

theorem Message.ofCode_code (kind : Message) : Message.ofCode kind.code = some kind := by
  cases kind <;> rfl

theorem Message.code_ofCode {code : UInt16} {kind : Message}
    (known : Message.ofCode code = some kind) : kind.code = code := by
  unfold Message.ofCode at known
  split_ifs at known with interest data <;> cases known <;> symm <;> assumption

namespace Packet

variable {p : Packet}

theorem Valid.name_length (valid : p.Valid) : p.name.length ≤ 240 := by
  obtain ⟨_, _, _, _, _, _, _, _, text, _⟩ := valid
  exact text.2.1

theorem Valid.payload_length (valid : p.Valid) : p.payload.length ≤ maxWirePayload := by
  obtain ⟨_, _, _, _, _, _, _, small, _, _, body⟩ := valid
  cases kind : p.kind with
  | interest =>
    rw [kind] at body
    rw [body.2.2]
    decide
  | data =>
    rw [kind] at body
    rw [body.2.2]
    exact small

end Packet

theorem Packet.length_bytes (p : Packet) :
    p.bytes.length = headerSize + p.name.length + p.payload.length := by
  simp only [Packet.bytes, List.length_append, length_u32, length_u16, length_number,
    length_u64, length_endpoint, length_type, headerSize]

variable {p : Packet} {bytes : Bytes}

theorem encodePacket_eq_ok : encodePacket p = .ok bytes ↔ p.Valid ∧ p.bytes = bytes := by
  unfold encodePacket
  split
  next large =>
    have invalid : ¬p.Valid := fun valid => Nat.not_le.mpr large valid.2.2.2.2.2.2.2.1
    simp [invalid]
  split <;> simp_all

/-! ## Reading back -/

theorem consumes_fields (valid : p.Valid) : Consumes (decodeFields p.bytes.length) p.bytes p := by
  have names := valid.name_length
  have payloads := valid.payload_length
  have length : headerSize + p.name.length + p.payload.length < 256 ^ 2 := by
    simp only [headerSize, maxWirePayload] at payloads ⊢
    omega
  have both : (p.name ++ p.payload).length = p.name.length + p.payload.length := List.length_append
  rw [p.length_bytes]
  simp only [Packet.bytes, List.append_assoc]
  refine Consumes.field (decodes_u32 _) (Consumes.skip (Decodes.require rfl)
    (Consumes.field (decodes_u16 _) (Consumes.skip (Decodes.require rfl)
    (Consumes.field (decodes_u16 _) (Consumes.field (decodes_number length)
    (Consumes.skip (Decodes.require rfl) (Consumes.field (decodes_reserved 2)
    (Consumes.field (decodes_number (by omega)) (Consumes.field (decodes_number ?_)
    (Consumes.field (decodes_endpoint valid.1.1.pid_nonneg)
    (Consumes.field (decodes_endpoint valid.2.1.1.pid_nonneg)
    (Consumes.field (decodes_u64 _) (Consumes.field (decodes_u64 _) (Consumes.field (decodes_u64 _)
    (Consumes.field (decodes_u64 _) (Consumes.field (decodes_u64 _) (Consumes.field (decodes_type _)
    (Consumes.left (Consumes.skip (Decodes.require ⟨names, payloads, both.symm⟩)
    (Consumes.field (Decodes.take _) ?_))))))))))))))))))))
  · simp only [maxWirePayload] at payloads
    omega
  · exact Consumes.of_decodes ((Decodes.take p.payload).last
      ((Decodes.accept (Message.ofCode_code p.kind)).skip
      ((Decodes.require valid).skip (Decodes.pure p))))

theorem Packet.Valid.length_le (valid : p.Valid) : p.bytes.length ≤ maxDatagram := by
  have names := valid.name_length
  have payloads := valid.payload_length
  rw [p.length_bytes]
  simp only [headerSize, maxWirePayload, maxDatagram] at payloads ⊢
  omega

theorem decodePacket_bytes (valid : p.Valid) : decodePacket p.bytes = .ok p := by
  refine (consumes_fields valid).within ?_ valid.length_le
  rw [p.length_bytes]
  omega

/-! ## What was read -/

/-- The lengths in the packet are those of its parts if it announces its own length. -/
theorem reads_fields (size : Nat) :
    Reads (· < 0) [] (decodeFields size) fun p whole =>
      p.Valid ∧ (size = whole.length → p.bytes = whole) := by
  refine exact_u32.field fun _ => .require (by decide) ?_
  rintro rfl
  refine exact_u16.field fun _ => .require (by decide) ?_
  rintro rfl
  refine exact_u16.field fun code => (exact_number 2).field fun length => .require (by decide) ?_
  rintro rfl
  refine (exact_reserved 2).field fun _ => (exact_number 2).field fun names =>
    (exact_number 2).field fun payloads => exact_endpoint.field fun _ =>
    exact_endpoint.field fun _ => exact_u64.field fun _ => exact_u64.field fun _ =>
    exact_u64.field fun _ => exact_u64.field fun _ => exact_u64.field fun _ =>
    exact_type.field fun _ => .left fun _ => .require (by decide) fun _ =>
    .take (by decide) fun name text => .take (by decide) fun payload rest =>
    .accept (by decide) fun kind known => .require (by decide) fun valid =>
    .pure ⟨valid, fun size => ?_⟩
  simp only [List.length_append, length_u32, length_u16, length_number, length_u64,
    length_endpoint, length_type, List.length_nil] at size
  rw [size, ← text, ← rest, ← Message.code_ofCode known]
  rfl

theorem decodePacket_valid (decoded : decodePacket bytes = .ok p) : p.Valid :=
  ((reads_fields _).within_eq_ok decoded).2.1

theorem decodePacket_eq_ok (decoded : decodePacket bytes = .ok p) : p.bytes = bytes :=
  ((reads_fields _).within_eq_ok decoded).2.2 rfl

/-! ## Errors -/

theorem decodePacket_error {code : Int} (failed : decodePacket bytes = .error code) : code < 0 :=
  (reads_fields _).within_error (by decide) (by decide) failed

theorem encodePacket_error {code : Int} (failed : encodePacket p = .error code) : code < 0 := by
  unfold encodePacket at failed
  split_ifs at failed <;> cases failed <;> decide

/-! ## The functions with their output arguments -/

/-- `EncodeTopicPacket`: the code it returns and the bytes in `output` behind it. -/
def encodeTopicPacket (p : Packet) (output : Bytes) : Int × Bytes :=
  writeOut output (encodePacket p)

/-- `DecodeTopicPacket`: the code it returns and the packet in `output` behind it. -/
def decodeTopicPacket (bytes : Bytes) (output : Packet) : Int × Packet :=
  writeOut output (decodePacket bytes)

/-- A packet that is accepted by the encoder fits in a datagram and is decoded to itself;
bytes that are accepted by the decoder are the encoding of the packet they are decoded to;
and an error leaves the output argument alone. -/
theorem topic_codec_exact :
    (∀ p output, (encodeTopicPacket p output).1 = 0 →
      (encodeTopicPacket p output).2.length ≤ maxDatagram ∧
        ∀ other, decodeTopicPacket (encodeTopicPacket p output).2 other = (0, p)) ∧
    (∀ bytes output, (decodeTopicPacket bytes output).1 = 0 →
      ∀ other, encodeTopicPacket (decodeTopicPacket bytes output).2 other = (0, bytes)) ∧
    (∀ p output, (encodeTopicPacket p output).1 ≠ 0 → (encodeTopicPacket p output).2 = output) ∧
    ∀ bytes output, (decodeTopicPacket bytes output).1 ≠ 0 →
      (decodeTopicPacket bytes output).2 = output := by
  refine ⟨fun p output accepted => ?_, fun bytes output accepted other => ?_,
    fun _ _ => writeOut_error, fun _ _ => writeOut_error⟩
  · have encoded := writeOut_zero (fun _ => encodePacket_error) accepted
    obtain ⟨valid, same⟩ := encodePacket_eq_ok.mp encoded
    refine ⟨?_, fun other => ?_⟩
    · exact same ▸ valid.length_le
    · exact congrArg (writeOut other) (same ▸ decodePacket_bytes valid)
  · exact writeOut_inverse (fun _ => decodePacket_error) accepted (fun decoded =>
      encodePacket_eq_ok.mpr ⟨decodePacket_valid decoded, decodePacket_eq_ok decoded⟩) other

/-- A request for a Topic of one byte. -/
def sampleInterest : Packet where
  source := ⟨⟨.ofByte 1, .ofByte 9, 200, 1⟩, 3⟩
  destination := ⟨⟨.ofByte 2, .ofByte 8, 300, 1⟩, 4⟩
  sourceSession := 5
  destinationSession := 6
  routeId := 7
  type := ⟨1, 2, 3, 1⟩
  name := [47, 112]

theorem topic_codec_exact_interest :
    (encodeTopicPacket sampleInterest []).1 = 0 ∧
      (encodeTopicPacket sampleInterest []).2.length = 186 ∧
      decodeTopicPacket (encodeTopicPacket sampleInterest []).2 {} = (0, sampleInterest) := by
  have accepted : (encodeTopicPacket sampleInterest []).1 = 0 := by decide +kernel
  exact ⟨accepted, by decide +kernel, (topic_codec_exact.1 sampleInterest [] accepted).2 {}⟩

end Kcf.Network.Topic
