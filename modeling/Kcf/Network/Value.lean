import Kcf.Data.Scatter
import Kcf.Network.Fields
import Kcf.Network.Control.Frame

/-!
# Type descriptors and values

Flat descriptors of local types, the identity that a type has on the wire, and the
codec of values: fields in the order of the descriptor, big-endian, without padding.
-/

namespace Kcf.Network

open Kcf.Wire List Errno
open Kcf.Data (splice)

inductive FieldValueKind where
  | bool | int8 | uint8 | int16 | uint16 | int32 | uint32 | int64 | uint64 | float32 | float64
  deriving DecidableEq

namespace FieldValueKind

/-- `PrimitiveSize`. -/
def size : FieldValueKind → UInt32
  | .bool | .int8 | .uint8 => 1
  | .int16 | .uint16 => 2
  | .int32 | .uint32 | .float32 => 4
  | .int64 | .uint64 | .float64 => 8

def code : FieldValueKind → UInt8
  | .bool => 1
  | .int8 => 2
  | .uint8 => 3
  | .int16 => 4
  | .uint16 => 5
  | .int32 => 6
  | .uint32 => 7
  | .int64 => 8
  | .uint64 => 9
  | .float32 => 10
  | .float64 => 11

end FieldValueKind

/-- The characters of a C string before its terminating zero. -/
structure CString where
  bytes : Bytes
  terminated : 0 ∉ bytes
  deriving DecidableEq

instance : Inhabited CString := ⟨⟨[], not_mem_nil⟩⟩

structure TypeFieldInfo where
  name : CString := default
  kind : FieldValueKind := .bool
  offset : UInt32 := 0
  elementSize : UInt32 := 0
  arrayCount : UInt32 := 1
  deriving DecidableEq

namespace TypeFieldInfo

/-- Bytes of all elements. -/
def length (field : TypeFieldInfo) : Nat := field.elementSize.toNat * field.arrayCount.toNat

/-- First byte after the field. -/
def stop (field : TypeFieldInfo) : Nat := field.offset.toNat + field.length

end TypeFieldInfo

/-- `TypeDescriptor`; the list holds the first `field_count` fields. -/
structure TypeDescriptor where
  protocolVersion : UInt32 := 1
  structSize : UInt32 := 14528
  typeId : UInt64 := 0
  typeName : CString := default
  payloadSize : UInt32 := 0
  payloadAlignment : UInt32 := 0
  fields : List TypeFieldInfo := []
  deriving DecidableEq

/-- `DynamicPayload`. -/
structure DynamicPayload where
  typeId : UInt64 := 0
  sequence : UInt64 := 0
  bytes : Bytes := []
  deriving DecidableEq

/-! ## Hashes -/

/-- One step of FNV-1a. -/
def fnvStep (hash : UInt64) (byte : UInt8) : UInt64 := (hash ^^^ byte.toUInt64) * 1099511628211

def fnv (bytes : Bytes) : UInt64 := bytes.foldl fnvStep 14695981039346656037

/-- `StableTypeId`. -/
def stableTypeId (name : CString) : UInt64 := fnv name.bytes

/-! ## Validation -/

/-- `MAX_TYPE_FIELDS`. -/
def maxTypeFields : Nat := 128

namespace TypeFieldInfo

/-- The checks of one field of a payload of this size. -/
def Valid (payloadSize : UInt32) (field : TypeFieldInfo) : Prop :=
  field.name.bytes ≠ [] ∧ field.name.bytes.length < 96 ∧ field.elementSize = field.kind.size ∧
    field.arrayCount ≠ 0 ∧ field.offset ≤ payloadSize ∧
    field.length ≤ payloadSize.toNat - field.offset.toNat
  deriving Decidable

/-- A field can follow an earlier one: another name and other bytes. -/
def Follows (previous field : TypeFieldInfo) : Prop :=
  field.name ≠ previous.name ∧
    ¬(field.offset.toNat < previous.stop ∧ previous.offset.toNat < field.stop)
  deriving Decidable

end TypeFieldInfo

/-- `ValidateTypeDescriptor`. -/
def TypeDescriptor.Valid (d : TypeDescriptor) : Prop :=
  d.protocolVersion = 1 ∧ d.structSize = 14528 ∧ d.typeId ≠ 0 ∧ d.typeName.bytes ≠ [] ∧
    d.typeName.bytes.length < 160 ∧ d.payloadSize ≠ 0 ∧ d.payloadAlignment ≠ 0 ∧
    d.payloadAlignment &&& (d.payloadAlignment - 1) = 0 ∧
    d.payloadSize % d.payloadAlignment = 0 ∧ d.fields ≠ [] ∧ d.fields.length ≤ maxTypeFields ∧
    stableTypeId d.typeName = d.typeId ∧ (∀ field ∈ d.fields, field.Valid d.payloadSize) ∧
    d.fields.Pairwise TypeFieldInfo.Follows
  deriving Decidable

/-! ## Wire types -/

/-- What a field contributes to the schema hash. -/
def TypeFieldInfo.schema (field : TypeFieldInfo) : Bytes :=
  field.name.bytes ++ [0, field.kind.code] ++ Writer.u32 field.arrayCount

/-- `ParameterWireType`. -/
def parameterWireType (d : TypeDescriptor) : Except Int32 TypeIdentity :=
  if ¬d.Valid ∨ d.fields = [] ∨ maxParameterWire < d.payloadSize.toNat then
    .error (errorCode einval)
  else
    let hash := fnv (d.fields.flatMap TypeFieldInfo.schema)
    let size := (d.fields.map TypeFieldInfo.length).sum
    if hash = 0 ∨ size = 0 ∨ maxParameterWire < size then .error (errorCode emsgsize)
    else .ok ⟨d.typeId, hash, 1, UInt32.ofNat size⟩

/-- The bytes of all fields. -/
def TypeDescriptor.wireSize (d : TypeDescriptor) : Nat := (d.fields.map TypeFieldInfo.length).sum

/-- What a wire type says about its descriptor. -/
theorem parameterWireType_eq_ok {d : TypeDescriptor} {type : TypeIdentity}
    (typed : parameterWireType d = .ok type) :
    d.Valid ∧ fnv (d.fields.flatMap TypeFieldInfo.schema) ≠ 0 ∧ d.wireSize ≠ 0 ∧
      d.wireSize ≤ maxParameterWire ∧
      type = ⟨d.typeId, fnv (d.fields.flatMap TypeFieldInfo.schema), 1,
        UInt32.ofNat d.wireSize⟩ := by
  unfold parameterWireType at typed
  split at typed
  · cases typed
  next sound =>
    dsimp only at typed
    split at typed
    · cases typed
    next sized =>
      cases typed
      rw [not_or, not_or] at sound sized
      exact ⟨not_not.mp sound.1, sized.1, sized.2.1, not_lt.mp sized.2.2, rfl⟩

/-- The size of a wire type is that of the fields. -/
theorem parameterWireType_payloadSize {d : TypeDescriptor} {type : TypeIdentity}
    (typed : parameterWireType d = .ok type) : type.payloadSize.toNat = d.wireSize := by
  obtain ⟨-, -, -, small, rfl⟩ := parameterWireType_eq_ok typed
  have word : maxParameterWire < UInt32.size := by decide
  exact UInt32.toNat_ofNat_of_lt' (by omega)

/-- A name with its length. -/
def CString.wire (name : CString) : Bytes := Writer.number name.bytes.length 2 ++ name.bytes

/-- What a field is on the wire. -/
def TypeFieldInfo.wire (field : TypeFieldInfo) : Bytes :=
  field.name.wire ++ Writer.u8 field.kind.code ++ Writer.u32 field.arrayCount

/-- What a descriptor is on the wire. -/
def TypeDescriptor.wire (d : TypeDescriptor) : Bytes :=
  Writer.u16 1 ++ d.typeName.wire ++ Writer.number d.fields.length 2 ++
    d.fields.flatMap TypeFieldInfo.wire

/-- `EncodeTypeDescriptor`. -/
def encodeTypeDescriptor (d : TypeDescriptor) : Except Int32 Bytes :=
  match parameterWireType d with
  | .error code => .error code
  | .ok _ => if maxParameterWire < d.wire.length then .error (errorCode emsgsize) else .ok d.wire

/-! ## Values -/

/-- One element of a field: its kind, its place in the payload and its size. -/
structure Slot where
  kind : FieldValueKind
  offset : Nat
  size : Nat

/-- The elements of one field. -/
def TypeFieldInfo.slots (field : TypeFieldInfo) : List Slot :=
  (range field.arrayCount.toNat).map fun n =>
    ⟨field.kind, field.offset.toNat + n * field.elementSize.toNat, field.elementSize.toNat⟩

/-- The elements in the order of the wire. -/
def TypeDescriptor.slots (d : TypeDescriptor) : List Slot := d.fields.flatMap TypeFieldInfo.slots

/-- Between the byte order of the machine and the order of the wire. -/
def swap (little : Bool) (bytes : Bytes) : Bytes := if little then bytes.reverse else bytes

/-- A `bool` is 0 or 1. -/
def Slot.Admits (slot : Slot) (bytes : Bytes) : Prop :=
  slot.kind = .bool → ∀ byte ∈ bytes.head?, byte ≤ 1
  deriving Decidable

/-- `EncodeParameterValue`; `little` is the byte order of the machine. -/
def encodeParameterValue (little : Bool) (d : TypeDescriptor) (value : DynamicPayload) :
    Except Int32 Bytes :=
  match parameterWireType d with
  | .error code => .error code
  | .ok _ =>
    if value.typeId ≠ d.typeId ∨ value.bytes.length ≠ d.payloadSize.toNat then
      .error (errorCode eprototype)
    else
      let elements := d.slots.map fun slot => (slot, (value.bytes.drop slot.offset).take slot.size)
      if ∃ element ∈ elements, ¬element.1.Admits element.2 then .error (errorCode eproto)
      else .ok (elements.flatMap fun element => swap little element.2)

/-- Put the elements of an input in their places. -/
def fill (little : Bool) : List Slot → Bytes → Bytes → Except Int32 Bytes
  | [], _, bytes => .ok bytes
  | slot :: slots, input, bytes =>
    if slot.Admits input then
      fill little slots (input.drop slot.size)
        (splice bytes slot.offset (swap little (input.take slot.size)))
    else .error (errorCode eproto)

/-- `DecodeParameterValue`. -/
def decodeParameterValue (little : Bool) (d : TypeDescriptor) (input : Bytes) :
    Except Int32 DynamicPayload :=
  match parameterWireType d with
  | .error code => .error code
  | .ok type =>
    if input.length ≠ type.payloadSize.toNat then .error (errorCode emsgsize)
    else
      match fill little d.slots input (replicate d.payloadSize.toNat 0) with
      | .error code => .error code
      | .ok bytes => .ok { typeId := d.typeId, bytes }

/-! ## Lengths -/

/-- All elements together have the size of the fields. -/
theorem TypeDescriptor.sum_slots (d : TypeDescriptor) :
    (d.slots.map Slot.size).sum = d.wireSize := by
  unfold TypeDescriptor.slots TypeDescriptor.wireSize
  induction d.fields with
  | nil => rfl
  | cons field rest ih =>
    rw [flatMap_cons, map_append, sum_append, ih, map_cons, sum_cons, TypeFieldInfo.slots, map_map]
    simp [Function.comp_def, TypeFieldInfo.length, map_const', Nat.mul_comm]

theorem TypeFieldInfo.mem_slots {field : TypeFieldInfo} {slot : Slot}
    (member : slot ∈ field.slots) :
    field.offset.toNat ≤ slot.offset ∧ slot.offset + slot.size ≤ field.stop := by
  obtain ⟨n, counted, rfl⟩ := mem_map.mp member
  have last : (n + 1) * field.elementSize.toNat ≤ field.length := by
    rw [TypeFieldInfo.length, Nat.mul_comm field.elementSize.toNat]
    exact Nat.mul_le_mul_right _ (mem_range.mp counted)
  rw [Nat.succ_mul] at last
  rw [TypeFieldInfo.stop]
  dsimp only
  omega

/-- The elements of a valid descriptor lie in the payload. -/
theorem TypeDescriptor.Valid.slots {d : TypeDescriptor} (valid : d.Valid) :
    ∀ slot ∈ d.slots, slot.offset + slot.size ≤ d.payloadSize.toNat := by
  intro slot member
  obtain ⟨field, inside, element⟩ := mem_flatMap.mp member
  obtain ⟨-, -, -, -, start, fits⟩ := valid.2.2.2.2.2.2.2.2.2.2.2.2.1 field inside
  have below : field.offset.toNat ≤ d.payloadSize.toNat := UInt32.le_iff_toNat_le.mp start
  have last := (TypeFieldInfo.mem_slots element).2
  rw [TypeFieldInfo.stop] at last
  omega

@[simp] theorem length_swap (little : Bool) (bytes : Bytes) :
    (swap little bytes).length = bytes.length := by
  cases little <;> simp [swap]

/-! ## Errors -/

theorem parameterWireType_negative (d : TypeDescriptor) : Negative (parameterWireType d) := by
  unfold parameterWireType
  split
  · exact .error (by decide)
  dsimp only
  split
  · exact .error (by decide)
  · exact .ok _

theorem encodeTypeDescriptor_negative (d : TypeDescriptor) : Negative (encodeTypeDescriptor d) := by
  unfold encodeTypeDescriptor
  split
  next failed => exact .error (parameterWireType_negative d failed)
  split
  · exact .error (by decide)
  · exact .ok _

theorem encodeParameterValue_negative (little : Bool) (d : TypeDescriptor)
    (value : DynamicPayload) : Negative (encodeParameterValue little d value) := by
  unfold encodeParameterValue
  split
  next failed => exact .error (parameterWireType_negative d failed)
  split
  · exact .error (by decide)
  dsimp only
  split
  · exact .error (by decide)
  · exact .ok _

theorem fill_negative (little : Bool) (slots : List Slot) (input bytes : Bytes) :
    Negative (fill little slots input bytes) := by
  induction slots generalizing input bytes with
  | nil => exact .ok _
  | cons slot slots ih =>
    unfold fill
    split
    · exact ih _ _
    · exact .error (by decide)

theorem decodeParameterValue_negative (little : Bool) (d : TypeDescriptor) (input : Bytes) :
    Negative (decodeParameterValue little d input) := by
  unfold decodeParameterValue
  split
  next failed => exact .error (parameterWireType_negative d failed)
  split
  · exact .error (by decide)
  split
  next failed => exact .error (fill_negative _ _ _ _ failed)
  · exact .ok _

end Kcf.Network
