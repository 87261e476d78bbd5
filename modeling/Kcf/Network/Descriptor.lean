import Kcf.Network.Value

/-!
# Descriptors on the wire

`DecodeTypeDescriptor`.  The wire has neither offsets nor padding: what arrives is
a packed descriptor with the wire type of the original.
-/

namespace Kcf.Network

open Kcf.Wire List Errno

/-! ## Decoding -/

def FieldValueKind.all : List FieldValueKind :=
  [.bool, .int8, .uint8, .int16, .uint16, .int32, .uint32, .int64, .uint64, .float32, .float64]

def FieldValueKind.ofCode (code : UInt8) : Option FieldValueKind :=
  FieldValueKind.all.find? fun kind => kind.code = code

theorem FieldValueKind.ofCode_code (kind : FieldValueKind) :
    FieldValueKind.ofCode kind.code = some kind := by
  cases kind <;> rfl

namespace Reader

/-- A name that fits in an array of so many characters with its terminating zero. -/
def cstring (capacity : Nat) : Reader CString := do
  let length ← number 2
  Decoder.require (-eproto) (0 < length ∧ length < capacity)
  let bytes ← Decoder.take (-eproto) length
  Decoder.accept (-eproto)
    (if terminated : 0 ∉ bytes then some ⟨bytes, terminated⟩ else none)

/-- The fields, each behind the bytes of those before it. -/
def typeFields : Nat → Nat → Reader (List TypeFieldInfo)
  | 0, _ => pure []
  | count + 1, offset => do
    let name ← cstring 96
    let kind ← code FieldValueKind.ofCode
    let arrayCount ← u32
    let size := kind.size.toNat * arrayCount.toNat
    Decoder.require (-eproto) (arrayCount ≠ 0 ∧ size ≤ maxParameterWire - offset)
    let rest ← typeFields count (offset + size)
    pure ({ name, kind, offset := UInt32.ofNat offset, elementSize := kind.size, arrayCount } ::
      rest)

def typeDescriptor : Reader TypeDescriptor := do
  let release ← Decoder.number (-eprotonosupport) 2
  Decoder.require (-eprotonosupport) (release = 1)
  let typeName ← cstring 160
  let count ← number 2
  Decoder.require (-eproto) (0 < count ∧ count ≤ maxTypeFields)
  let fields ← typeFields count 0
  pure { typeId := stableTypeId typeName, typeName, payloadAlignment := 1, fields,
         payloadSize := UInt32.ofNat (fields.map TypeFieldInfo.length).sum }

end Reader

/-- `DecodeTypeDescriptor`. -/
def decodeTypeDescriptor (bytes : Bytes) (expected : TypeIdentity) : Except Int TypeDescriptor :=
  if maxParameterWire < bytes.length then .error (-emsgsize)
  else if bytes = [] then .error (-eproto)
  else
    match Decoder.whole (-eproto) Reader.typeDescriptor bytes with
    | .error error => .error error
    | .ok d =>
      match parameterWireType d with
      | .error _ => .error (-eproto)
      | .ok actual => if actual ≠ expected then .error (-eprototype) else .ok d

/-! ## Packed descriptors -/

/-- The fields one behind the other, from an offset on. -/
def packFields : Nat → List TypeFieldInfo → List TypeFieldInfo
  | _, [] => []
  | offset, field :: rest =>
    { field with offset := UInt32.ofNat offset } :: packFields (offset + field.length) rest

/-- The descriptor that is left of another one on the wire. -/
def TypeDescriptor.packed (d : TypeDescriptor) : TypeDescriptor where
  typeId := d.typeId
  typeName := d.typeName
  payloadSize := UInt32.ofNat d.wireSize
  payloadAlignment := 1
  fields := packFields 0 d.fields

section Packed

variable {fields : List TypeFieldInfo} {offset : Nat}

@[simp] theorem length_packFields : (packFields offset fields).length = fields.length := by
  induction fields generalizing offset with
  | nil => rfl
  | cons field rest ih => simp [packFields, ih]

@[simp] theorem map_length_packFields :
    (packFields offset fields).map TypeFieldInfo.length = fields.map TypeFieldInfo.length := by
  induction fields generalizing offset with
  | nil => rfl
  | cons field rest ih => simp [packFields, ih, TypeFieldInfo.length]

@[simp] theorem flatMap_schema_packFields :
    (packFields offset fields).flatMap TypeFieldInfo.schema =
      fields.flatMap TypeFieldInfo.schema := by
  induction fields generalizing offset with
  | nil => rfl
  | cons field rest ih => simp [packFields, ih, TypeFieldInfo.schema]

/-- A packed field is one of the fields, at a place behind the first offset. -/
theorem mem_packFields {packed : TypeFieldInfo} (member : packed ∈ packFields offset fields) :
    ∃ field ∈ fields, ∃ place, offset ≤ place ∧
      place + field.length ≤ offset + (fields.map TypeFieldInfo.length).sum ∧
      packed = { field with offset := UInt32.ofNat place } := by
  induction fields generalizing offset with
  | nil => cases member
  | cons field rest ih =>
    rw [map_cons, sum_cons]
    cases member with
    | head => exact ⟨field, mem_cons_self, offset, le_refl _, by omega, rfl⟩
    | tail _ later =>
      obtain ⟨other, inside, place, behind, fits, rfl⟩ := ih later
      exact ⟨other, mem_cons_of_mem _ inside, place, by omega, by omega, rfl⟩

/-- Packed fields keep their names and do not overlap. -/
theorem pairwise_packFields (distinct : fields.Pairwise TypeFieldInfo.Follows)
    (fits : offset + (fields.map TypeFieldInfo.length).sum ≤ maxParameterWire) :
    (packFields offset fields).Pairwise TypeFieldInfo.Follows := by
  induction fields generalizing offset with
  | nil => exact .nil
  | cons field rest ih =>
    rw [map_cons, sum_cons] at fits
    rw [pairwise_cons] at distinct
    have small : maxParameterWire < UInt32.size := by decide
    refine pairwise_cons.mpr ⟨?_, ih distinct.2 (by omega)⟩
    intro packed member
    obtain ⟨other, inside, place, behind, within, rfl⟩ := mem_packFields member
    refine ⟨(distinct.1 other inside).1, fun overlap => ?_⟩
    have start : (UInt32.ofNat place).toNat = place := UInt32.toNat_ofNat_of_lt' (by omega)
    have first : (UInt32.ofNat offset).toNat = offset := UInt32.toNat_ofNat_of_lt' (by omega)
    have crossed : place < offset + field.length := by
      have before := overlap.1
      change (UInt32.ofNat place).toNat < (UInt32.ofNat offset).toNat + field.length at before
      rwa [start, first] at before
    omega

end Packed

/-! ## Round trip -/

namespace TypeDescriptor

variable {d : TypeDescriptor}

theorem Valid.packed (valid : d.Valid) (positive : d.wireSize ≠ 0)
    (small : d.wireSize ≤ maxParameterWire) : d.packed.Valid := by
  obtain ⟨-, -, identified, named, short, -, -, -, -, filled, few, stable, each, distinct⟩ := valid
  have word : maxParameterWire < UInt32.size := by decide
  have size : (UInt32.ofNat d.wireSize).toNat = d.wireSize := UInt32.toNat_ofNat_of_lt' (by omega)
  have nonzero : UInt32.ofNat d.wireSize ≠ 0 := by
    intro zero
    rw [zero] at size
    exact positive size.symm
  refine ⟨rfl, rfl, identified, named, short, nonzero,
    (by decide : (1 : UInt32) ≠ 0), (by decide : (1 : UInt32) &&& (1 - 1) = 0), ?_, ?_, ?_, stable,
    ?_, pairwise_packFields distinct (by unfold wireSize at small; omega)⟩
  · exact UInt32.toNat_inj.mp (by simp [TypeDescriptor.packed])
  · intro empty
    have none : (packFields 0 d.fields).length = 0 := congrArg length empty
    rw [length_packFields] at none
    exact filled (length_eq_zero_iff.mp none)
  · change (packFields 0 d.fields).length ≤ maxTypeFields
    rw [length_packFields]
    exact few
  · intro packed member
    obtain ⟨field, inside, place, -, within, rfl⟩ := mem_packFields member
    obtain ⟨titled, brief, element, counted, -, -⟩ := each field inside
    rw [Nat.zero_add] at within
    change place + field.length ≤ d.wireSize at within
    have start : (UInt32.ofNat place).toNat = place := UInt32.toNat_ofNat_of_lt' (by omega)
    refine ⟨titled, brief, element, counted, ?_, ?_⟩
    · rw [UInt32.le_iff_toNat_le]
      change (UInt32.ofNat place).toNat ≤ (UInt32.ofNat d.wireSize).toNat
      omega
    · change field.length ≤ (UInt32.ofNat d.wireSize).toNat - (UInt32.ofNat place).toNat
      omega

/-- The packed descriptor has the wire type of the original. -/
theorem parameterWireType_packed {type : TypeIdentity} (typed : parameterWireType d = .ok type) :
    parameterWireType d.packed = .ok type := by
  obtain ⟨valid, hashed, positive, small, rfl⟩ := parameterWireType_eq_ok typed
  have packed := valid.packed positive small
  have filled : d.packed.fields ≠ [] := packed.2.2.2.2.2.2.2.2.2.1
  have word : maxParameterWire < UInt32.size := by decide
  have size : d.packed.payloadSize.toNat = d.wireSize := UInt32.toNat_ofNat_of_lt' (by omega)
  have schema : d.packed.fields.flatMap TypeFieldInfo.schema =
      d.fields.flatMap TypeFieldInfo.schema := flatMap_schema_packFields
  have lengths : (d.packed.fields.map TypeFieldInfo.length).sum = d.wireSize := by
    rw [show d.packed.fields.map TypeFieldInfo.length = d.fields.map TypeFieldInfo.length from
      map_length_packFields]
    rfl
  unfold parameterWireType
  rw [if_neg (by rw [not_or, not_or, not_not]; exact ⟨packed, filled, by omega⟩)]
  dsimp only
  rw [schema, lengths, if_neg (by rw [not_or, not_or]; exact ⟨hashed, positive, by omega⟩)]
  rfl

end TypeDescriptor

theorem decodes_cstring {name : CString} {capacity : Nat} (filled : name.bytes ≠ [])
    (short : name.bytes.length < capacity) (narrow : capacity ≤ 2 ^ 16) :
    Decodes (Reader.cstring capacity) name.wire name := by
  have positive := length_pos_iff.mpr filled
  exact (decodes_number (by omega)).bind ((Decodes.require ⟨positive, short⟩).skip
    ((Decodes.take name.bytes).last (Decodes.accept (dif_pos name.terminated))))

variable {fields : List TypeFieldInfo} {d : TypeDescriptor} {bytes : Bytes}
  {expected : TypeIdentity}

theorem decodes_typeFields {offset : Nat} {payloadSize : UInt32}
    (each : ∀ field ∈ fields, field.Valid payloadSize)
    (fits : offset + (fields.map TypeFieldInfo.length).sum ≤ maxParameterWire) :
    Decodes (Reader.typeFields fields.length offset) (fields.flatMap TypeFieldInfo.wire)
      (packFields offset fields) := by
  induction fields generalizing offset with
  | nil => exact Decodes.pure []
  | cons field rest ih =>
    obtain ⟨titled, brief, element, counted, -, -⟩ := each field mem_cons_self
    rw [map_cons, sum_cons] at fits
    have same : field.kind.size.toNat * field.arrayCount.toNat = field.length := by
      rw [TypeFieldInfo.length, element]
    have later : Decodes
        (Reader.typeFields rest.length
          (offset + field.kind.size.toNat * field.arrayCount.toNat))
        (rest.flatMap TypeFieldInfo.wire)
        (packFields (offset + field.kind.size.toNat * field.arrayCount.toNat) rest) :=
      ih (fun other inside => each other (mem_cons_of_mem _ inside)) (by omega)
    rw [flatMap_cons, TypeFieldInfo.wire, append_assoc, append_assoc]
    refine (decodes_cstring titled brief (by decide)).bind
      ((decodes_code (FieldValueKind.ofCode_code _)).bind ((decodes_u32 _).bind
        ((Decodes.require ⟨counted, by omega⟩).skip (later.last ?_))))
    rw [packFields, same, ← element]
    exact Decodes.pure _

theorem encodeTypeDescriptor_eq_ok (encoded : encodeTypeDescriptor d = .ok bytes) :
    bytes = d.wire ∧ bytes.length ≤ maxParameterWire := by
  unfold encodeTypeDescriptor at encoded
  split at encoded
  · cases encoded
  split at encoded
  · cases encoded
  next short =>
    cases encoded
    exact ⟨rfl, not_lt.mp short⟩

@[simp] theorem length_wire (name : CString) : name.wire.length = 2 + name.bytes.length := by
  simp [CString.wire]

/-- The names of a descriptor are short enough for every descriptor to fit. -/
theorem length_typeFields {payloadSize : UInt32}
    (each : ∀ field ∈ fields, field.Valid payloadSize) :
    (fields.flatMap TypeFieldInfo.wire).length ≤ fields.length * 102 := by
  induction fields with
  | nil => exact Nat.zero_le _
  | cons field rest ih =>
    have later := ih fun other member => each other (mem_cons_of_mem _ member)
    have brief := (each field mem_cons_self).2.1
    simp only [flatMap_cons, TypeFieldInfo.wire, length_append, length_wire, length_u8,
      length_u32, length_cons]
    omega

/-- Every descriptor that has a wire type can be sent. -/
theorem encodeTypeDescriptor_of_typed {type : TypeIdentity}
    (typed : parameterWireType d = .ok type) : encodeTypeDescriptor d = .ok d.wire := by
  have valid := (parameterWireType_eq_ok typed).1
  obtain ⟨-, -, -, -, short, -, -, -, -, -, few, -, each, -⟩ := valid
  have fields := length_typeFields each
  have limit : maxTypeFields = 128 := rfl
  have room : maxParameterWire = 16384 := rfl
  have length : d.wire.length = 2 + (2 + d.typeName.bytes.length) + 2 +
      (d.fields.flatMap TypeFieldInfo.wire).length := by
    simp only [TypeDescriptor.wire, length_append, length_u16, length_wire, length_number]
  unfold encodeTypeDescriptor
  rw [typed]
  exact if_neg (show ¬maxParameterWire < d.wire.length by omega)

theorem decodes_typeDescriptor (valid : d.Valid) (small : d.wireSize ≤ maxParameterWire) :
    Decodes Reader.typeDescriptor d.wire d.packed := by
  obtain ⟨-, -, -, named, short, -, -, -, -, filled, few, stable, each, -⟩ := valid
  have positive := length_pos_iff.mpr filled
  have limit : maxTypeFields < 2 ^ 16 := by decide
  have fields : Decodes (Reader.typeFields d.fields.length 0)
      (d.fields.flatMap TypeFieldInfo.wire) (packFields 0 d.fields) :=
    decodes_typeFields each (by unfold TypeDescriptor.wireSize at small; omega)
  have release : Decodes (Decoder.number (-eprotonosupport) 2) (Writer.u16 1) 1 :=
    Decodes.number (by decide)
  simp only [TypeDescriptor.wire, append_assoc]
  refine release.bind ((Decodes.require rfl).skip
    ((decodes_cstring named short (by decide)).bind
      ((decodes_number (by omega)).bind ((Decodes.require ⟨positive, few⟩).skip
        (fields.last ?_)))))
  rw [map_length_packFields, stable]
  exact Decodes.pure d.packed

/-- What was encoded is decoded as its packed descriptor, under its wire type. -/
theorem decodeTypeDescriptor_encodeTypeDescriptor {type : TypeIdentity}
    (typed : parameterWireType d = .ok type)
    (encoded : encodeTypeDescriptor d = .ok bytes) :
    decodeTypeDescriptor bytes type = .ok d.packed := by
  obtain ⟨valid, -, -, small, -⟩ := parameterWireType_eq_ok typed
  obtain ⟨rfl, short⟩ := encodeTypeDescriptor_eq_ok encoded
  have read : Decoder.whole (-eproto) Reader.typeDescriptor d.wire = .ok d.packed :=
    (Consumes.of_decodes (decodes_typeDescriptor valid small)).whole
  have filled : d.wire ≠ [] := by simp [TypeDescriptor.wire, Writer.u16, Writer.number, bigEndian]
  unfold decodeTypeDescriptor
  rw [if_neg (not_lt.mpr short), if_neg filled, read]
  dsimp only
  rw [TypeDescriptor.parameterWireType_packed typed]
  exact if_neg (not_not.mpr rfl)

/-! ## What was read -/

theorem FieldValueKind.code_ofCode {code : UInt8} {kind : FieldValueKind}
    (known : FieldValueKind.ofCode code = some kind) : kind.code = code := by
  simpa using find?_some known

theorem exact_cstring (capacity : Nat) : Exact (· < 0) (Reader.cstring capacity) CString.wire := by
  refine .of_reads ((exact_number 2).field fun length => .require (by decide) fun _ =>
    .take (by decide) fun characters counted => (Reads.accept_last (by decide) _).imp ?_)
  rintro text _ ⟨rfl, known⟩
  split at known
  · cases known
    rw [← counted]
    rfl
  · cases known

/-- The bytes of the fields that were read are theirs on the wire. -/
theorem reads_typeFields {front : Bytes} (count offset : Nat) :
    Reads (· < 0) front (Reader.typeFields count offset) fun fields whole =>
      front ++ fields.flatMap TypeFieldInfo.wire = whole ∧ fields.length = count := by
  induction count generalizing front offset with
  | zero => exact .pure ⟨append_nil _, rfl⟩
  | succ count ih =>
    refine (exact_cstring 96).field fun name =>
      (exact_code FieldValueKind.code_ofCode).field fun kind => exact_u32.field fun arrayCount =>
      .require (by decide) fun _ => (ih _).bind ?_
    rintro others _ ⟨rfl, rfl⟩
    refine .pure ⟨?_, rfl⟩
    simp only [flatMap_cons, append_assoc, TypeFieldInfo.wire]

theorem exact_typeDescriptor : Exact (· < 0) Reader.typeDescriptor TypeDescriptor.wire := by
  have release : Exact (· < 0) (Decoder.number (-eprotonosupport) 2) fun value =>
      Writer.number value 2 := ⟨.number 2, .number (by decide) 2⟩
  refine .of_reads (release.field fun _ => .require (by decide) ?_)
  rintro rfl
  refine (exact_cstring 160).field fun typeName => (exact_number 2).field fun count =>
    .require (by decide) fun _ => (reads_typeFields count 0).bind ?_
  rintro fields _ ⟨rfl, rfl⟩
  exact .pure rfl

/-- What an accepted byte string says about the descriptor that was read. -/
theorem decodeTypeDescriptor_eq_ok (decoded : decodeTypeDescriptor bytes expected = .ok d) :
    bytes.length ≤ maxParameterWire ∧ bytes = d.wire ∧ parameterWireType d = .ok expected := by
  unfold decodeTypeDescriptor at decoded
  split at decoded
  · cases decoded
  next short =>
    split at decoded
    · cases decoded
    split at decoded
    · cases decoded
    next read =>
      split at decoded
      · cases decoded
      next typed =>
        split at decoded
        · cases decoded
        next same =>
          cases decoded
          rw [not_not] at same
          have wire := exact_typeDescriptor.restores (Decoder.whole_eq_ok read)
          rw [append_nil] at wire
          exact ⟨not_lt.mp short, wire, same ▸ typed⟩

/-- What was decoded is encoded as the same bytes. -/
theorem encodeTypeDescriptor_decodeTypeDescriptor
    (decoded : decodeTypeDescriptor bytes expected = .ok d) :
    encodeTypeDescriptor d = .ok bytes := by
  obtain ⟨short, rfl, typed⟩ := decodeTypeDescriptor_eq_ok decoded
  unfold encodeTypeDescriptor
  rw [typed]
  exact if_neg (not_lt.mpr short)

/-! ## Errors -/

/-- A byte string is refused with a negative code. -/
theorem decodeTypeDescriptor_error {error : Int}
    (refused : decodeTypeDescriptor bytes expected = .error error) : error < 0 := by
  unfold decodeTypeDescriptor at refused
  split_ifs at refused
  · cases refused
    decide
  · cases refused
    decide
  · split at refused
    next failed =>
      cases refused
      exact exact_typeDescriptor.reads.whole_error (by decide) failed
    · split at refused
      · cases refused
        decide
      · split at refused <;> cases refused
        decide

/-! ## Descriptors that cross the network -/

/-- The fields lie one behind the other and fill the payload. -/
structure TypeDescriptor.Contiguous (d : TypeDescriptor) : Prop where
  offsets : ∀ index field, d.fields[index]? = some field →
    field.offset.toNat = ((d.fields.take index).map TypeFieldInfo.length).sum
  size : d.payloadSize.toNat = d.wireSize

/-- What a descriptor and its packed image have in common. -/
structure TypeDescriptor.SameShape (d p : TypeDescriptor) : Prop where
  typeName : p.typeName = d.typeName
  typeId : p.typeId = d.typeId
  names : p.fields.map TypeFieldInfo.name = d.fields.map TypeFieldInfo.name
  kinds : p.fields.map TypeFieldInfo.kind = d.fields.map TypeFieldInfo.kind
  arrayCounts : p.fields.map TypeFieldInfo.arrayCount = d.fields.map TypeFieldInfo.arrayCount

theorem getElem?_packFields {offset index : Nat}
    {field : TypeFieldInfo} (present : (packFields offset fields)[index]? = some field) :
    field.offset = UInt32.ofNat
      (offset + (((packFields offset fields).take index).map TypeFieldInfo.length).sum) := by
  induction fields generalizing offset index with
  | nil => cases present
  | cons first rest ih =>
    cases index with
    | zero =>
      cases present
      rfl
    | succ index =>
      have later := ih present
      rw [packFields, take_succ_cons, map_cons, sum_cons, later, Nat.add_assoc]
      rfl

theorem map_packFields {α : Type} (image : TypeFieldInfo → α)
    (same : ∀ field offset, image { field with offset } = image field)
    (fields : List TypeFieldInfo) (offset : Nat) :
    (packFields offset fields).map image = fields.map image := by
  induction fields generalizing offset with
  | nil => rfl
  | cons field rest ih => rw [packFields, map_cons, map_cons, ih, same]

theorem TypeDescriptor.sameShape_packed (d : TypeDescriptor) : d.SameShape d.packed where
  typeName := rfl
  typeId := rfl
  names := map_packFields _ (fun _ _ => rfl) _ _
  kinds := map_packFields _ (fun _ _ => rfl) _ _
  arrayCounts := map_packFields _ (fun _ _ => rfl) _ _

theorem TypeDescriptor.contiguous_packed
    (small : d.wireSize ≤ maxParameterWire) : d.packed.Contiguous := by
  have word : maxParameterWire < UInt32.size := by decide
  have lengths : (d.packed.fields.map TypeFieldInfo.length).sum = d.wireSize := by
    change ((packFields 0 d.fields).map TypeFieldInfo.length).sum = d.wireSize
    rw [map_length_packFields]
    rfl
  constructor
  case offsets =>
    intro index field present
    have parts : ((d.packed.fields.take index).map TypeFieldInfo.length).sum +
        ((d.packed.fields.drop index).map TypeFieldInfo.length).sum = d.wireSize := by
      rw [← sum_append, ← map_append, take_append_drop, lengths]
    have below : ((d.packed.fields.take index).map TypeFieldInfo.length).sum < UInt32.size := by
      omega
    rw [getElem?_packFields present, Nat.zero_add]
    exact UInt32.toNat_ofNat_of_lt' below
  case size =>
    rw [TypeDescriptor.wireSize, lengths]
    exact UInt32.toNat_ofNat_of_lt' (by omega)

/-- A descriptor that is sent arrives packed, with its names, kinds and wire type; a byte
string that is accepted is the encoding of what it is read as; an error is negative and leaves
the output as it was. -/
theorem descriptors_survive_network :
    (∀ d bytes, encodeTypeDescriptor d = .ok bytes → ∃ type p,
      parameterWireType d = .ok type ∧ decodeTypeDescriptor bytes type = .ok p ∧ p.Valid ∧
        p.payloadAlignment = 1 ∧ p.Contiguous ∧ d.SameShape p ∧
        parameterWireType p = .ok type) ∧
    (∀ bytes type p, decodeTypeDescriptor bytes type = .ok p →
      encodeTypeDescriptor p = .ok bytes ∧ parameterWireType p = .ok type) ∧
    (∀ d code output, encodeTypeDescriptor d = .error code →
      code < 0 ∧ (writeOut output (encodeTypeDescriptor d)).2 = output) ∧
    ∀ bytes type error output, decodeTypeDescriptor bytes type = .error error →
      error < 0 ∧ (writeOut output (decodeTypeDescriptor bytes type)).2 = output := by
  refine ⟨?_, ?_, ?_, ?_⟩
  · intro d bytes encoded
    obtain ⟨type, typed⟩ : ∃ type, parameterWireType d = .ok type := by
      unfold encodeTypeDescriptor at encoded
      split at encoded
      · cases encoded
      next type typed => exact ⟨type, typed⟩
    obtain ⟨valid, -, positive, small, -⟩ := parameterWireType_eq_ok typed
    exact ⟨type, d.packed, typed, decodeTypeDescriptor_encodeTypeDescriptor typed encoded,
      valid.packed positive small, rfl, TypeDescriptor.contiguous_packed small,
      d.sameShape_packed, TypeDescriptor.parameterWireType_packed typed⟩
  · intro bytes type p decoded
    exact ⟨encodeTypeDescriptor_decodeTypeDescriptor decoded,
      (decodeTypeDescriptor_eq_ok decoded).2.2⟩
  · intro d code output failed
    rw [failed]
    exact ⟨encodeTypeDescriptor_negative d failed, rfl⟩
  · intro bytes type error output refused
    rw [refused]
    exact ⟨decodeTypeDescriptor_error refused, rfl⟩

/-- A `bool` and, behind three bytes of padding, two 16-bit numbers. -/
def padded : TypeDescriptor where
  typeName := ⟨[80], by decide⟩
  typeId := stableTypeId ⟨[80], by decide⟩
  payloadSize := 8
  payloadAlignment := 4
  fields := [
    { name := ⟨[98], by decide⟩, kind := .bool, offset := 0, elementSize := 1 },
    { name := ⟨[110], by decide⟩, kind := .uint16, offset := 4, elementSize := 2, arrayCount := 2 }]

theorem padded_survives_network :
    encodeTypeDescriptor padded = .ok padded.wire ∧
      ∃ type p, parameterWireType padded = .ok type ∧
        decodeTypeDescriptor padded.wire type = .ok p ∧ p.Contiguous ∧ padded.SameShape p := by
  have encoded : encodeTypeDescriptor padded = .ok padded.wire := by decide +kernel
  obtain ⟨type, p, typed, decoded, -, -, contiguous, same, -⟩ :=
    descriptors_survive_network.1 padded _ encoded
  exact ⟨encoded, type, p, typed, decoded, contiguous, same⟩

end Kcf.Network
