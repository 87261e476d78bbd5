import Kcf.Network.Control.Codec

/-!
# Exactness of the control frame codec

The converse of the round trip: the bytes of an accepted frame are its encoding,
so that no two accepted byte strings mean the same frame.  Each reader restores
the bytes that it has read; only the length of a frame is checked apart from it.
-/

namespace Kcf.Network

open Kcf.Wire List

/-! ## Codes -/

variable {code : UInt8}

theorem TargetScope.code_ofCode {scope : TargetScope}
    (known : TargetScope.ofCode code = some scope) : scope.code = code := by
  simpa using find?_some known

/-- The codes of an enumeration are the positions in the list of its values. -/
theorem ofNat_idxOf {α : Type} [DecidableEq α] {all : List α} {value : α}
    (nodup : all.Nodup) (known : all[code.toNat]? = some value) :
    UInt8.ofNat (all.idxOf value) = code := by
  obtain ⟨bound, rfl⟩ := List.getElem?_eq_some_iff.mp known
  rw [nodup.idxOf_getElem, UInt8.ofNat_toNat]

theorem CompatibilityReason.code_ofCode {reason : CompatibilityReason}
    (known : CompatibilityReason.ofCode code = some reason) : reason.code = code :=
  ofNat_idxOf (by decide) known

theorem ActionState.code_ofCode {state : ActionState}
    (known : ActionState.ofCode code = some state) : state.code = code :=
  ofNat_idxOf (by decide) known

theorem DescriptorRole.code_ofCode {role : DescriptorRole}
    (known : DescriptorRole.ofCode code = some role) : role.code = code :=
  ofNat_idxOf (by decide) known

namespace Control

theorem Message.code_ofCode {code : UInt16} {message : Message}
    (known : Message.ofCode code = some message) : message.code = code := by
  simpa using find?_some known

/-! ## Restoring the bytes -/

/-- The fields of the Action extension, as bytes. -/
def GoalFields.bytes (fields : GoalFields) : Bytes :=
  Frame.goalBytes
    { feedbackType := fields.feedbackType, goal := fields.goal,
      actionState := fields.actionState, outcomeUnknown := fields.outcomeUnknown,
      feedbackSequence := fields.feedbackSequence }

theorem exact_goal : Exact (· < 0) readGoal GoalFields.bytes :=
  .of_reads (exact_type.field fun _ => exact_runtime.field fun _ => exact_u64.field fun _ =>
    exact_u64.field fun _ => (exact_code ActionState.code_ofCode).field fun _ =>
    exact_flag.field fun _ => (exact_reserved 2).field fun _ => exact_u64.field fun _ => .pure rfl)

theorem exact_role : Exact (· < 0) readRole fun role => Writer.u8 role.code ++ Writer.number 0 3 :=
  .of_reads ((exact_code DescriptorRole.code_ofCode).field fun _ =>
    (exact_reserved 3).field fun _ => .pure rfl)

variable {bytes : Bytes} {codec : PayloadCodec}

/-- What `readFrame` reads is the frame, apart from the eight bytes it reads over. -/
theorem reads_frame :
    Reads (· < 0) [] readFrame fun f whole => ∃ skipped,
      whole = Writer.u16 f.operation.code ++ (Writer.number skipped 8 ++ f.bodyBytes) := by
  refine exact_u16.field fun code => .accept (by decide) fun operation known =>
    (exact_number 8).field fun skipped => exact_runtime.field fun _ =>
    exact_u64.field fun _ => exact_u64.field fun _ => exact_runtime.field fun _ =>
    exact_u64.field fun _ => (exact_code TargetScope.code_ofCode).field fun _ =>
    (exact_code CompatibilityReason.code_ofCode).field fun _ => (exact_reserved 2).field fun _ =>
    exact_type.field fun _ => exact_u32.field fun _ => exact_u32.field fun _ =>
    (exact_number 2).field fun names => (exact_reserved 2).field fun _ =>
    (exact_number 4).field fun payloads => (exact_optional exact_type).field fun _ =>
    (exact_optional exact_goal).field fun _ => (exact_optional exact_role).field fun _ =>
    .left fun _ => .require (by decide) fun _ => .take (by decide) fun name text =>
    .take (by decide) fun payload rest => .pure ⟨skipped, ?_⟩
  subst text rest
  simp [Frame.bodyBytes, Frame.commonBytes, Frame.goalBytes, GoalFields.bytes,
    Message.code_ofCode known, UInt32.toUInt32_toInt32]

/-- The bytes of an accepted frame are the bytes it is encoded to. -/
theorem bytes_of_decodeFrame {f : Frame}
    (decoded : decodeFrame codec bytes = .ok f) : bytes = f.bytes := by
  obtain ⟨announced, read, -⟩ := decodeFrame_eq_ok decoded
  obtain ⟨rest, start⟩ := frameSize_eq_ok announced
  obtain ⟨_, front, -, code, rfl⟩ := reads_prefix.of_ok start
  obtain ⟨_, tail, skipped, rfl⟩ := reads_frame.of_ok read
  rw [append_nil] at tail
  have dropped : bytes.drop 6 = Writer.u16 code ++
      ((Writer.number bytes.length 4 ++ Writer.number 0 4) ++ rest) := by
    have split : bytes = (Writer.u32 magic ++ Writer.u16 wireVersion) ++ (Writer.u16 code ++
        ((Writer.number bytes.length 4 ++ Writer.number 0 4) ++ rest)) := by
      simpa only [append_assoc] using front
    conv => lhs; rw [split]
    exact drop_left' (by simp)
  obtain ⟨operation, same⟩ := append_inj (dropped.symm.trans tail) (by simp)
  obtain ⟨-, body⟩ := append_inj same (by simp)
  -- the announced length is all that the two byte strings can differ in
  have length : bytes.length = f.size := by
    rw [← f.length_bytes, front, body]
    simp only [Frame.bytes, Frame.bodyBytes, Frame.prefixBytes, length_append, length_u32,
      length_u16, length_number]
  rw [length, operation, body] at front
  exact front

/-! ## Errors -/

theorem frameSize_error {code : Int} (failed : frameSize bytes = .error code) : code < 0 := by
  unfold frameSize at failed
  split at failed
  · cases failed
    decide
  split at failed
  · cases failed
  next read =>
    cases failed
    exact reads_prefix.of_error read

theorem encodeFrame_eq_ok {f : Frame}
    (encoded : encodeFrame codec f = .ok bytes) : f.Valid codec ∧ f.bytes = bytes := by
  unfold encodeFrame at encoded
  split at encoded
  next valid =>
    cases encoded
    exact ⟨valid, rfl⟩
  · cases encoded

theorem encodeFrame_error {f : Frame} {code : Int}
    (failed : encodeFrame codec f = .error code) : code < 0 := by
  unfold encodeFrame at failed
  split at failed
  · cases failed
  · cases failed
    decide

theorem decodeFrame_error {code : Int} (failed : decodeFrame codec bytes = .error code) :
    code < 0 := by
  unfold decodeFrame at failed
  split at failed
  next announced =>
    cases failed
    exact frameSize_error announced
  split at failed
  · cases failed
    decide
  split at failed
  next read =>
    cases failed
    exact reads_frame.whole_error (by decide) read
  split at failed
  · cases failed
  · cases failed
    decide

/-! ## The functions with their output arguments -/

/-- `EncodeControlFrame`: the code it returns and the bytes in `output` behind it. -/
def encodeControlFrame (codec : PayloadCodec) (f : Frame) (output : Bytes) : Int × Bytes :=
  writeOut output (encodeFrame codec f)

/-- `DecodeControlFrame`: the code it returns and the frame in `output` behind it. -/
def decodeControlFrame (codec : PayloadCodec) (bytes : Bytes) (output : Frame) : Int × Frame :=
  writeOut output (decodeFrame codec bytes)

/-- `ControlFrameSize`: the code it returns and the length in `output` behind it. -/
def controlFrameSize (bytes : Bytes) (output : Nat) : Int × Nat := writeOut output (frameSize bytes)

/-- A frame that is accepted by the encoder is encoded to bytes of bounded length
that announce their own length and are decoded to the same frame; bytes that are
accepted by the decoder are the encoding of the frame they are decoded to; and an
error leaves the output argument alone. -/
theorem codec_exact (codec : PayloadCodec) :
    (∀ f output, (encodeControlFrame codec f output).1 = 0 →
      (encodeControlFrame codec f output).2.length ≤ maxFrame ∧
      (∀ size, controlFrameSize (encodeControlFrame codec f output).2 size =
        (0, (encodeControlFrame codec f output).2.length)) ∧
      ∀ other, decodeControlFrame codec (encodeControlFrame codec f output).2 other = (0, f)) ∧
    (∀ bytes output, (decodeControlFrame codec bytes output).1 = 0 →
      ∀ other, encodeControlFrame codec (decodeControlFrame codec bytes output).2 other =
        (0, bytes)) ∧
    (∀ first second output other, (decodeControlFrame codec first output).1 = 0 →
      (decodeControlFrame codec second other).1 = 0 →
      (decodeControlFrame codec first output).2 = (decodeControlFrame codec second other).2 →
      first = second) ∧
    (∀ f output, (encodeControlFrame codec f output).1 ≠ 0 →
      (encodeControlFrame codec f output).2 = output) ∧
    ∀ bytes output, (decodeControlFrame codec bytes output).1 ≠ 0 →
      (decodeControlFrame codec bytes output).2 = output := by
  have restored {bytes : Bytes} {output : Frame}
      (accepted : (decodeControlFrame codec bytes output).1 = 0) :
      decodeFrame codec bytes = .ok (decodeControlFrame codec bytes output).2 :=
    writeOut_zero (fun _ => decodeFrame_error) accepted
  refine ⟨?_, ?_, ?_, fun _ _ => writeOut_error, fun _ _ => writeOut_error⟩
  · intro f output accepted
    have encoded := writeOut_zero (fun _ => encodeFrame_error) accepted
    change encodeFrame codec f = .ok (encodeControlFrame codec f output).2 at encoded
    obtain ⟨valid, same⟩ := encodeFrame_eq_ok encoded
    rw [← same]
    refine ⟨?_, fun size => ?_, fun other => ?_⟩
    · rw [f.length_bytes]
      exact valid.portable.size_le
    · rw [controlFrameSize, Frame.bytes, frameSize_of_prefix valid.portable, ← Frame.bytes,
        f.length_bytes]
      rfl
    · rw [decodeControlFrame, decodeFrame_bytes valid]
      rfl
  · intro bytes output accepted other
    have decoded := restored accepted
    rw [encodeControlFrame, encodeFrame, if_pos (decodeFrame_valid decoded),
      ← bytes_of_decodeFrame decoded]
    rfl
  · intro first second output other left right same
    rw [bytes_of_decodeFrame (restored left), bytes_of_decodeFrame (restored right), same]

/-- A greeting, and codecs that accept no payload. -/
def greeting : Frame where
  source := ⟨.ofByte 2, .ofByte 3, 7, 9⟩
  sessionId := 6

def greetingCodec : PayloadCodec := ⟨fun _ _ => false, fun _ => none⟩

/-- The greeting is encoded to 172 bytes, which are decoded to it and encoded to themselves. -/
theorem codec_exact_greeting : ∃ bytes,
    encodeControlFrame greetingCodec greeting [] = (0, bytes) ∧ bytes.length = 172 ∧
      controlFrameSize bytes 0 = (0, 172) ∧
      decodeControlFrame greetingCodec bytes {} = (0, greeting) ∧
      encodeControlFrame greetingCodec (decodeControlFrame greetingCodec bytes {}).2 [] =
        (0, bytes) := by
  have accepted : (encodeControlFrame greetingCodec greeting []).1 = 0 := by decide +kernel
  have length : (encodeControlFrame greetingCodec greeting []).2.length = 172 := by decide +kernel
  obtain ⟨encoded, decoded, _⟩ := codec_exact greetingCodec
  obtain ⟨_, size, restored⟩ := encoded greeting [] accepted
  exact ⟨(encodeControlFrame greetingCodec greeting []).2, Prod.ext accepted rfl, length,
    length ▸ size 0, restored {}, decoded _ {} (congrArg Prod.fst (restored {})) []⟩

end Control

end Kcf.Network
