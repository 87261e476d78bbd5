import Kcf.Errno
import Kcf.Network.Validation

/-!
# Wire fields

The fields that the codecs of the network protocols share: fixed-width numbers,
identities, types and length-prefixed strings, each with its encoder, its decoder
and the proof that the decoder reads the encoding back.  A truncated field is
`-EPROTO`.
-/

namespace Kcf.Network

open Kcf.Wire Errno

/-- Decoders of the network protocols, with `errno` results. -/
abbrev Reader := Decoder Int

namespace Reader

/-- `Reader::U(width)`. -/
def number (width : Nat) : Reader Nat := Decoder.number (-eproto) width

def u8 : Reader UInt8 := UInt8.ofNat <$> number 1
def u16 : Reader UInt16 := UInt16.ofNat <$> number 2
def u32 : Reader UInt32 := UInt32.ofNat <$> number 4
def u64 : Reader UInt64 := UInt64.ofNat <$> number 8

/-- A reserved field, which has to be zero. -/
def reserved (width : Nat) : Reader Unit := do
  let value ← number width
  Decoder.require (-eproto) (value = 0)

/-- `Reader::Host`. -/
def host : Reader HostIdentity := do
  let bytes ← Decoder.take (-eproto) 16
  Decoder.accept (-eproto)
    (if length : bytes.length = 16 then some ⟨bytes, length⟩ else none)

/-- `Reader::Runtime`: the process number has to be an `int32_t`. -/
def runtime : Reader RemoteRuntimeIdentity := do
  let hostId ← host
  let bootId ← host
  let pid ← u32
  Decoder.require (-eproto) (pid.toNat ≤ 2 ^ 31 - 1)
  let processStartTicks ← u64
  pure ⟨hostId, bootId, pid.toInt32, processStartTicks⟩

/-- `Reader::Endpoint`. -/
def endpoint : Reader RemoteEndpointIdentity := do
  let runtime ← runtime
  let registrationId ← u64
  pure ⟨runtime, registrationId⟩

/-- `Reader::Type`. -/
def type : Reader TypeIdentity := do
  let typeId ← u64
  let schemaId ← u64
  let encodingId ← u32
  let payloadSize ← u32
  pure ⟨typeId, schemaId, encodingId, payloadSize⟩

/-- `Reader::String(maximum)`. -/
def string (maximum : Nat) : Reader Bytes := do
  let length ← number 2
  Decoder.require (-eproto) (length ≤ maximum)
  Decoder.take (-eproto) length

/-- One of the codes of an enumeration, one byte wide. -/
def code {α : Type} (ofCode : UInt8 → Option α) : Reader α := do
  let value ← u8
  Decoder.accept (-eproto) (ofCode value)

/-- A byte that has to be zero or one. -/
def flag : Reader Bool := do
  let value ← u8
  Decoder.require (-eproto) (value ≤ 1)
  pure (value ≠ 0)

/-- A part that only some messages carry. -/
def optional {α : Type} (present : Bool) (reader : Reader α) (absent : α) : Reader α :=
  if present then reader else pure absent

end Reader

namespace Writer

/-- `Writer::U(value, width)`. -/
def number (value width : Nat) : Bytes := bigEndian value width

def u8 (value : UInt8) : Bytes := number value.toNat 1
def u16 (value : UInt16) : Bytes := number value.toNat 2
def u32 (value : UInt32) : Bytes := number value.toNat 4
def u64 (value : UInt64) : Bytes := number value.toNat 8

/-- `Writer::Host`. -/
def host (identity : HostIdentity) : Bytes := identity.bytes

/-- `Writer::Runtime`. -/
def runtime (identity : RemoteRuntimeIdentity) : Bytes :=
  host identity.host ++ host identity.bootId ++ u32 identity.pid.toUInt32 ++
    u64 identity.processStartTicks

/-- `Writer::Endpoint`. -/
def endpoint (identity : RemoteEndpointIdentity) : Bytes :=
  runtime identity.runtime ++ u64 identity.registrationId

/-- `Writer::Type`. -/
def type (identity : TypeIdentity) : Bytes :=
  u64 identity.typeId ++ u64 identity.schemaId ++ u32 identity.encodingId ++
    u32 identity.payloadSize

/-- `Writer::String`. -/
def string (value : Bytes) : Bytes := number value.length 2 ++ value

def flag (value : Bool) : Bytes := u8 (if value then 1 else 0)

end Writer

/-! ## Lengths -/

@[simp] theorem length_number (value width : Nat) : (Writer.number value width).length = width :=
  length_bigEndian value width

@[simp] theorem length_u8 (value : UInt8) : (Writer.u8 value).length = 1 := length_number _ _
@[simp] theorem length_u16 (value : UInt16) : (Writer.u16 value).length = 2 := length_number _ _
@[simp] theorem length_u32 (value : UInt32) : (Writer.u32 value).length = 4 := length_number _ _
@[simp] theorem length_u64 (value : UInt64) : (Writer.u64 value).length = 8 := length_number _ _
@[simp] theorem length_flag (value : Bool) : (Writer.flag value).length = 1 := length_number _ _

@[simp] theorem length_runtime (identity : RemoteRuntimeIdentity) :
    (Writer.runtime identity).length = 44 := by
  simp [Writer.runtime, Writer.host, HostIdentity.length_bytes]

@[simp] theorem length_endpoint (identity : RemoteEndpointIdentity) :
    (Writer.endpoint identity).length = 52 := by
  simp [Writer.endpoint]

@[simp] theorem length_type (identity : TypeIdentity) : (Writer.type identity).length = 24 := by
  simp [Writer.type]

/-! ## Round trips -/

theorem decodes_number {value width : Nat} (small : value < 256 ^ width) :
    Decodes (Reader.number width) (Writer.number value width) value :=
  Decodes.number small

theorem decodes_u8 (value : UInt8) : Decodes Reader.u8 (Writer.u8 value) value := by
  have digits : Decodes (Reader.number 1) (Writer.u8 value) value.toNat :=
    decodes_number value.toNat_lt
  have read := digits.map UInt8.ofNat
  rwa [UInt8.ofNat_toNat] at read

theorem decodes_u16 (value : UInt16) : Decodes Reader.u16 (Writer.u16 value) value := by
  have digits : Decodes (Reader.number 2) (Writer.u16 value) value.toNat :=
    decodes_number value.toNat_lt
  have read := digits.map UInt16.ofNat
  rwa [UInt16.ofNat_toNat] at read

theorem decodes_u32 (value : UInt32) : Decodes Reader.u32 (Writer.u32 value) value := by
  have digits : Decodes (Reader.number 4) (Writer.u32 value) value.toNat :=
    decodes_number value.toNat_lt
  have read := digits.map UInt32.ofNat
  rwa [UInt32.ofNat_toNat] at read

theorem decodes_u64 (value : UInt64) : Decodes Reader.u64 (Writer.u64 value) value := by
  have digits : Decodes (Reader.number 8) (Writer.u64 value) value.toNat :=
    decodes_number value.toNat_lt
  have read := digits.map UInt64.ofNat
  rwa [UInt64.ofNat_toNat] at read

theorem decodes_reserved (width : Nat) :
    Decodes (Reader.reserved width) (Writer.number 0 width) () :=
  (decodes_number (Nat.pow_pos (by decide))).last (Decodes.require rfl)

theorem decodes_host (identity : HostIdentity) :
    Decodes Reader.host (Writer.host identity) identity :=
  (Decodes.take_of_length identity.length_bytes).last
    (Decodes.accept (dif_pos identity.length_bytes))

/-- Process numbers that are not negative survive the wire. -/
theorem decodes_runtime {identity : RemoteRuntimeIdentity} (positive : 0 ≤ identity.pid) :
    Decodes Reader.runtime (Writer.runtime identity) identity := by
  have small : identity.pid.toUInt32.toNat ≤ 2 ^ 31 - 1 := by
    have signed : 0 ≤ identity.pid.toBitVec.toInt := Int32.le_iff_toInt_le.mp positive
    have width := identity.pid.toBitVec.isLt
    have same : identity.pid.toUInt32.toNat = identity.pid.toBitVec.toNat := rfl
    rw [BitVec.toInt_eq_toNat_cond] at signed
    rw [same]
    split at signed <;> omega
  simp only [Writer.runtime, List.append_assoc]
  refine (decodes_host _).bind ((decodes_host _).bind ((decodes_u32 _).bind
    ((Decodes.require small).skip ((decodes_u64 _).last ?_))))
  exact Decodes.pure identity

theorem decodes_endpoint {identity : RemoteEndpointIdentity} (positive : 0 ≤ identity.runtime.pid) :
    Decodes Reader.endpoint (Writer.endpoint identity) identity :=
  (decodes_runtime positive).bind ((decodes_u64 _).last (Decodes.pure _))

theorem decodes_type (identity : TypeIdentity) :
    Decodes Reader.type (Writer.type identity) identity := by
  simp only [Writer.type, List.append_assoc]
  exact (decodes_u64 _).bind ((decodes_u64 _).bind ((decodes_u32 _).bind
    ((decodes_u32 _).last (Decodes.pure identity))))

theorem decodes_string {value : Bytes} {maximum : Nat} (fits : value.length ≤ maximum)
    (narrow : maximum < 2 ^ 16) :
    Decodes (Reader.string maximum) (Writer.string value) value :=
  (decodes_number (by omega)).bind ((Decodes.require fits).skip (Decodes.take value))

variable {α : Type}

theorem decodes_code {ofCode : UInt8 → Option α} {value : α} {encoded : UInt8}
    (known : ofCode encoded = some value) :
    Decodes (Reader.code ofCode) (Writer.u8 encoded) value :=
  (decodes_u8 encoded).last (Decodes.accept known)

theorem decodes_flag (value : Bool) : Decodes Reader.flag (Writer.flag value) value := by
  cases value with
  | false => exact (decodes_u8 0).last ((Decodes.require (by decide)).skip (Decodes.pure false))
  | true => exact (decodes_u8 1).last ((Decodes.require (by decide)).skip (Decodes.pure true))

theorem decodes_optional {reader : Reader α} {present : Bool} {bytes : Bytes}
    {value absent : α} (read : Decodes reader bytes value)
    (missing : present = false → value = absent) :
    Decodes (Reader.optional present reader absent) (if present then bytes else []) value := by
  cases present with
  | false =>
    rw [missing rfl]
    exact Decodes.pure absent
  | true => exact read

/-! ## What was read -/

theorem exact_number (width : Nat) :
    Exact (· < 0) (Reader.number width) fun value => Writer.number value width :=
  ⟨.number width, .number (by decide) width⟩

/-- The value of so many bytes does not change in a machine word of that width. -/
theorem number_lt {width value : Nat} {bytes rest : Bytes}
    (read : Reader.number width bytes = .ok (value, rest)) : value < 256 ^ width := by
  obtain ⟨digits, first, rfl⟩ := Decoder.map_eq_ok read
  obtain ⟨-, length⟩ := Restores.take_length first
  rw [← length]
  exact fromBigEndian_lt digits

theorem exact_word {ofNat : Nat → α} {toNat : α → Nat} (width : Nat)
    (inverse : ∀ {value}, value < 256 ^ width → toNat (ofNat value) = value) :
    Exact (· < 0) (ofNat <$> Reader.number width) fun word => Writer.number (toNat word) width := by
  refine ⟨fun bytes word rest read => ?_, (exact_number width).errors.map _⟩
  obtain ⟨value, first, rfl⟩ := Decoder.map_eq_ok read
  rw [inverse (number_lt first)]
  exact (exact_number width).restores first

theorem exact_u8 : Exact (· < 0) Reader.u8 Writer.u8 := exact_word 1 UInt8.toNat_ofNat_of_lt'
theorem exact_u16 : Exact (· < 0) Reader.u16 Writer.u16 := exact_word 2 UInt16.toNat_ofNat_of_lt'
theorem exact_u32 : Exact (· < 0) Reader.u32 Writer.u32 := exact_word 4 UInt32.toNat_ofNat_of_lt'
theorem exact_u64 : Exact (· < 0) Reader.u64 Writer.u64 := exact_word 8 UInt64.toNat_ofNat_of_lt'

theorem exact_reserved (width : Nat) :
    Exact (· < 0) (Reader.reserved width) fun _ => Writer.number 0 width := by
  refine .of_reads ((exact_number width).field fun value =>
    (Reads.require_last (by decide) _).imp ?_)
  rintro _ _ ⟨rfl, rfl⟩
  rfl

theorem exact_host : Exact (· < 0) Reader.host Writer.host := by
  refine .of_reads (.take (by decide) fun digits length => (Reads.accept_last (by decide) _).imp ?_)
  rintro _ _ ⟨rfl, known⟩
  rw [dif_pos length] at known
  cases known
  rfl

theorem exact_runtime : Exact (· < 0) Reader.runtime Writer.runtime :=
  .of_reads (exact_host.field fun _ => exact_host.field fun _ => exact_u32.field fun _ =>
    .require (by decide) fun _ => exact_u64.field fun _ => .pure rfl)

theorem exact_endpoint : Exact (· < 0) Reader.endpoint Writer.endpoint :=
  .of_reads (exact_runtime.field fun _ => exact_u64.field fun _ => .pure rfl)

theorem exact_type : Exact (· < 0) Reader.type Writer.type :=
  .of_reads (exact_u64.field fun _ => exact_u64.field fun _ => exact_u32.field fun _ =>
    exact_u32.field fun _ => .pure rfl)

theorem exact_code {ofCode : UInt8 → Option α} {code : α → UInt8}
    (inverse : ∀ {encoded value}, ofCode encoded = some value → code value = encoded) :
    Exact (· < 0) (Reader.code ofCode) fun value => Writer.u8 (code value) := by
  refine .of_reads (exact_u8.field fun encoded => (Reads.accept_last (by decide) _).imp ?_)
  rintro value _ ⟨rfl, known⟩
  rw [inverse known]
  rfl

theorem exact_string (maximum : Nat) : Exact (· < 0) (Reader.string maximum) Writer.string := by
  refine .of_reads ((exact_number 2).field fun length => .require (by decide) fun _ =>
    (Reads.take_last (by decide) _).imp ?_)
  rintro text _ ⟨rfl, rfl⟩
  rfl

theorem exact_flag : Exact (· < 0) Reader.flag Writer.flag := by
  refine .of_reads (exact_u8.field fun encoded => .require (by decide) fun small => .pure ?_)
  have bit : encoded = 0 ∨ encoded = 1 := by
    rw [UInt8.le_iff_toNat_le] at small
    rw [← UInt8.toNat_inj, ← UInt8.toNat_inj]
    change encoded.toNat = 0 ∨ encoded.toNat = 1
    change encoded.toNat ≤ 1 at small
    omega
  rcases bit with rfl | rfl <;> rfl

theorem exact_optional {reader : Reader α} {encode : α → Bytes} {present : Bool}
    {absent : α} (reads : Exact (· < 0) reader encode) :
    Exact (· < 0) (Reader.optional present reader absent) fun value =>
      if present then encode value else [] := by
  cases present with
  | false => exact .of_reads (.pure rfl)
  | true => exact reads

/-! ## Output arguments -/

/-- A function of the source that returns an error code, or zero and its result in
an output argument. -/
def writeOut {ε α : Type} [OfNat ε 0] (output : α) : Except ε α → ε × α
  | .ok value => (0, value)
  | .error code => (code, output)

section WriteOut

variable {α : Type} {output : α} {result : Except Int α}

/-- If errors are negative, then zero means success and an error writes nothing. -/
theorem writeOut_zero (errors : ∀ code, result = .error code → code < 0)
    (done : (writeOut output result).1 = 0) : result = .ok (writeOut output result).2 := by
  cases result with
  | ok value => rfl
  | error code => exact absurd done (Int.ne_of_lt (errors code rfl))

/-- What an encoder has written is what its decoder reads, and the other way round. -/
theorem writeOut_inverse {β : Type} {next : α → Except Int β} {origin : β}
    (errors : ∀ code, result = .error code → code < 0) (done : (writeOut output result).1 = 0)
    (inverse : ∀ {value}, result = .ok value → next value = .ok origin) (other : β) :
    writeOut other (next (writeOut output result).2) = (0, origin) := by
  rw [inverse (writeOut_zero errors done)]
  rfl

theorem writeOut_error (failed : (writeOut output result).1 ≠ 0) :
    (writeOut output result).2 = output := by
  cases result with
  | ok value => exact absurd rfl failed
  | error code => rfl

end WriteOut

end Kcf.Network
