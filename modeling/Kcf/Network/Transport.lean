import Kcf.Network.Descriptor

/-!
# Values in transport

`EncodeParameterValue` gathers the elements of a payload and `DecodeParameterValue`
scatters them.  The elements of a valid descriptor do not overlap, so nothing is
lost in either direction, and a packed descriptor reads the same elements.
-/

namespace Kcf.Network

open Kcf.Wire Kcf.Data List

/-! ## Elements -/

namespace Slot

/-- The bytes of an element in a payload. -/
def read (slot : Slot) (bytes : Bytes) : Bytes := slice bytes slot.offset slot.size

/-- Two elements that do not overlap. -/
def Apart (first second : Slot) : Prop :=
  first.offset + first.size ≤ second.offset ∨ second.offset + second.size ≤ first.offset

/-- What the wire knows of an element. -/
def shape (slot : Slot) : FieldValueKind × Nat := (slot.kind, slot.size)

/-- A `bool` takes one byte. -/
def Sized (slot : Slot) : Prop := slot.kind = .bool → slot.size = 1

end Slot

theorem TypeFieldInfo.slots_apart (field : TypeFieldInfo) : field.slots.Pairwise Slot.Apart := by
  refine Pairwise.map _ ?_ pairwise_lt_range
  intro n m before
  have next : (n + 1) * field.elementSize.toNat ≤ m * field.elementSize.toNat :=
    Nat.mul_le_mul_right _ before
  rw [Nat.succ_mul] at next
  exact .inl (by dsimp only; omega)

namespace TypeDescriptor.Valid

variable {d : TypeDescriptor}

theorem fields (valid : d.Valid) : ∀ field ∈ d.fields, field.Valid d.payloadSize :=
  valid.2.2.2.2.2.2.2.2.2.2.2.2.1

theorem distinct (valid : d.Valid) : d.fields.Pairwise TypeFieldInfo.Follows :=
  valid.2.2.2.2.2.2.2.2.2.2.2.2.2

theorem slots_sized (valid : d.Valid) : ∀ slot ∈ d.slots, slot.Sized := by
  intro slot member bool
  obtain ⟨field, inside, element⟩ := mem_flatMap.mp member
  obtain ⟨n, -, rfl⟩ := mem_map.mp element
  have kind : field.kind = .bool := bool
  have size := (valid.fields field inside).2.2.1
  rw [kind] at size
  change field.elementSize.toNat = 1
  rw [size]
  rfl

/-- No two elements overlap, of one field or of two. -/
theorem slots_apart (valid : d.Valid) : d.slots.Pairwise Slot.Apart := by
  refine pairwise_flatMap.mpr ⟨fun field _ => field.slots_apart, ?_⟩
  refine valid.distinct.imp ?_
  intro previous field follows first member second later
  have one := TypeFieldInfo.mem_slots member
  have two := TypeFieldInfo.mem_slots later
  have clear := follows.2
  unfold Slot.Apart
  omega

end TypeDescriptor.Valid

/-! ## Portions of the wire -/

/-- The bytes of each element in an encoded value. -/
def portions : List Slot → Bytes → List (Slot × Bytes)
  | [], _ => []
  | slot :: slots, input => (slot, input.take slot.size) :: portions slots (input.drop slot.size)

section Portions

variable {slots : List Slot} {input : Bytes}

theorem map_fst_portions (slots : List Slot) (input : Bytes) :
    (portions slots input).map Prod.fst = slots := by
  induction slots generalizing input with
  | nil => rfl
  | cons slot slots ih => rw [portions, map_cons, ih]

theorem length_portions (long : (slots.map Slot.size).sum ≤ input.length) :
    ∀ portion ∈ portions slots input, portion.2.length = portion.1.size := by
  induction slots generalizing input with
  | nil => simp [portions]
  | cons slot slots ih =>
    rw [map_cons, sum_cons] at long
    intro portion member
    rcases mem_cons.mp member with rfl | later
    · exact length_take_of_le (by omega)
    · exact ih (by rw [length_drop]; omega) portion later

theorem flatMap_portions (length : input.length = (slots.map Slot.size).sum) :
    (portions slots input).flatMap Prod.snd = input := by
  induction slots generalizing input with
  | nil => exact (length_eq_zero_iff.mp length).symm
  | cons slot slots ih =>
    rw [map_cons, sum_cons] at length
    rw [portions, flatMap_cons, ih (by rw [length_drop]; omega), take_append_drop]

/-- A value that is put together from its elements is taken apart into them. -/
theorem portions_flatMap {image : Slot → Bytes}
    (sized : ∀ slot ∈ slots, (image slot).length = slot.size) :
    portions slots (slots.flatMap image) = slots.map fun slot => (slot, image slot) := by
  induction slots with
  | nil => rfl
  | cons slot slots ih =>
    have here := sized slot mem_cons_self
    have rest := ih fun other member => sized other (mem_cons_of_mem _ member)
    rw [flatMap_cons, portions, ← here, take_left, drop_left, rest]
    rfl

/-- The portions depend on the sizes alone. -/
theorem map_snd_portions {others : List Slot}
    (same : slots.map Slot.shape = others.map Slot.shape) :
    (portions slots input).map (fun portion => (portion.1.shape, portion.2)) =
      (portions others input).map fun portion => (portion.1.shape, portion.2) := by
  induction slots generalizing others input with
  | nil =>
    cases others with
    | nil => rfl
    | cons => cases same
  | cons slot slots ih =>
    cases others with
    | nil => cases same
    | cons other others =>
      obtain ⟨first, rest⟩ := cons.inj same
      have size : slot.size = other.size := congrArg Prod.snd first
      rw [portions, portions, map_cons, map_cons, first, size, ih rest]

end Portions

/-! ## Both directions -/

@[simp] theorem swap_swap (little : Bool) (bytes : Bytes) :
    swap little (swap little bytes) = bytes := by
  cases little <;> simp [swap]

namespace Slot

variable {slot : Slot} {bytes : Bytes}

/-- The check looks at the element alone. -/
theorem admits_take (sized : slot.Sized) (bytes : Bytes) :
    slot.Admits (bytes.take slot.size) ↔ slot.Admits bytes := by
  refine forall_congr' fun bool => ?_
  rw [sized bool, head?_take]
  rfl

/-- The check does not depend on the byte order. -/
theorem admits_swap (sized : slot.Sized) (length : bytes.length = slot.size) (little : Bool) :
    slot.Admits (swap little bytes) ↔ slot.Admits bytes := by
  refine forall_congr' fun bool => ?_
  obtain ⟨byte, rfl⟩ := length_eq_one_iff.mp (length.trans (sized bool))
  cases little <;> rfl

end Slot

/-- `fill` checks all elements and writes each in its place. -/
theorem fill_eq {slots : List Slot} (sized : ∀ slot ∈ slots, slot.Sized) (little : Bool)
    (input bytes : Bytes) :
    fill little slots input bytes =
      if ∀ portion ∈ portions slots input, portion.1.Admits portion.2 then
        .ok (scatter ((portions slots input).map fun portion =>
          (portion.1.offset, swap little portion.2)) bytes)
      else .error (errorCode Errno.eproto) := by
  induction slots generalizing input bytes with
  | nil => simp [fill, portions, scatter]
  | cons slot slots ih =>
    have here := Slot.admits_take (sized slot mem_cons_self) input
    have rest := ih fun other member => sized other (mem_cons_of_mem _ member)
    rw [fill, portions]
    by_cases admits : slot.Admits input
    · rw [if_pos admits, rest]
      simp only [forall_mem_cons, here.mpr admits, true_and, map_cons]
      rfl
    · rw [if_neg admits, if_neg]
      intro all
      exact admits (here.mp (all _ mem_cons_self))

section Codec

variable {d : TypeDescriptor} {type : TypeIdentity} (little : Bool)

theorem encodeParameterValue_eq (typed : parameterWireType d = .ok type) {value : DynamicPayload}
    (identified : value.typeId = d.typeId) (length : value.bytes.length = d.payloadSize.toNat) :
    encodeParameterValue little d value =
      if ∀ slot ∈ d.slots, slot.Admits (slot.read value.bytes) then
        .ok (d.slots.flatMap fun slot => swap little (slot.read value.bytes))
      else .error (errorCode Errno.eproto) := by
  unfold encodeParameterValue
  rw [typed]
  dsimp only
  rw [if_neg (by rw [not_or, not_not, not_not]; exact ⟨identified, length⟩)]
  simp only [mem_map, exists_exists_and_eq_and, flatMap_map]
  by_cases all : ∀ slot ∈ d.slots, slot.Admits (slot.read value.bytes)
  · rw [if_pos all, if_neg]
    · rfl
    · rintro ⟨slot, member, refused⟩
      exact refused (all slot member)
  · rw [if_neg all, if_pos]
    push Not at all
    exact all

/-- The bytes of a decoded value. -/
def scattered (d : TypeDescriptor) (input : Bytes) : Bytes :=
  scatter ((portions d.slots input).map fun portion => (portion.1.offset, swap little portion.2))
    (replicate d.payloadSize.toNat 0)

theorem decodeParameterValue_eq (typed : parameterWireType d = .ok type) {input : Bytes}
    (length : input.length = type.payloadSize.toNat) :
    decodeParameterValue little d input =
      if ∀ portion ∈ portions d.slots input, portion.1.Admits portion.2 then
        .ok { typeId := d.typeId, bytes := scattered little d input }
      else .error (errorCode Errno.eproto) := by
  have valid := (parameterWireType_eq_ok typed).1
  unfold decodeParameterValue
  rw [typed]
  dsimp only
  rw [if_neg (not_not.mpr length), fill_eq valid.slots_sized]
  by_cases all : ∀ portion ∈ portions d.slots input, portion.1.Admits portion.2
  · rw [if_pos all, if_pos all]
    rfl
  · rw [if_neg all, if_neg all]

end Codec

/-! ## What is read back -/

section Scattered

variable {d : TypeDescriptor} {input : Bytes} (little : Bool)

theorem mem_slots_of_portion {portion : Slot × Bytes} (member : portion ∈ portions d.slots input) :
    portion.1 ∈ d.slots := by
  have image := mem_map_of_mem (f := Prod.fst) member
  rwa [map_fst_portions] at image

section

variable (valid : d.Valid) (length : input.length = d.wireSize)
include valid length

/-- Every element is written inside the payload. -/
theorem writes_inside :
    ∀ write ∈ (portions d.slots input).map (fun portion =>
        (portion.1.offset, swap little portion.2)),
      write.1 + write.2.length ≤ (replicate d.payloadSize.toNat (0 : UInt8)).length := by
  intro write member
  obtain ⟨portion, inside, rfl⟩ := mem_map.mp member
  have size := length_portions (by rw [d.sum_slots, length]) portion inside
  rw [length_replicate, length_swap, size]
  exact valid.slots portion.1 (mem_slots_of_portion inside)

theorem writes_apart :
    ((portions d.slots input).map fun portion =>
      (portion.1.offset, swap little portion.2)).Pairwise Data.Apart := by
  have sizes := length_portions (by rw [d.sum_slots, length] : (d.slots.map Slot.size).sum ≤ _)
  have apart := valid.slots_apart
  rw [← map_fst_portions d.slots input, pairwise_map] at apart
  refine pairwise_map.mpr (apart.imp_of_mem ?_)
  intro first second one two clear
  unfold Data.Apart
  rw [length_swap, length_swap, sizes first one, sizes second two]
  exact clear

theorem length_scattered : (scattered little d input).length = d.payloadSize.toNat := by
  rw [scattered, length_scatter (writes_inside little valid length), length_replicate]

/-- Every element of the wire is found in its place. -/
theorem read_scattered :
    ∀ portion ∈ portions d.slots input,
      portion.1.read (scattered little d input) = swap little portion.2 := by
  intro portion member
  have size := length_portions (by rw [d.sum_slots, length]) portion member
  have read := slice_scatter (writes_inside little valid length)
    (writes_apart little valid length) _ (mem_map_of_mem member)
  rw [length_swap, size] at read
  exact read

/-- Bytes that belong to no element are zero. -/
theorem scattered_elsewhere {index : Nat}
    (inside : index < d.payloadSize.toNat)
    (outside : ∀ slot ∈ d.slots, index < slot.offset ∨ slot.offset + slot.size ≤ index) :
    (scattered little d input)[index]? = some 0 := by
  have apart : ∀ write ∈ (portions d.slots input).map (fun portion =>
      (portion.1.offset, swap little portion.2)),
      index < write.1 ∨ write.1 + write.2.length ≤ index := by
    intro write member
    obtain ⟨portion, known, rfl⟩ := mem_map.mp member
    have size := length_portions (by rw [d.sum_slots, length]) portion known
    rw [length_swap, size]
    exact outside portion.1 (mem_slots_of_portion known)
  rw [scattered, getElem?_scatter (writes_inside little valid length) apart,
    getElem?_replicate, if_pos inside]

end

end Scattered

/-! ## Packed descriptors -/

theorem TypeFieldInfo.map_shape_slots (field : TypeFieldInfo) :
    field.slots.map Slot.shape =
      replicate field.arrayCount.toNat (field.kind, field.elementSize.toNat) := by
  simp [TypeFieldInfo.slots, Function.comp_def, Slot.shape, map_const']

/-- A packed descriptor has the same elements, in other places. -/
theorem TypeDescriptor.map_shape_packed (d : TypeDescriptor) :
    d.packed.slots.map Slot.shape = d.slots.map Slot.shape := by
  have shapes (fields : List TypeFieldInfo) :
      (fields.flatMap TypeFieldInfo.slots).map Slot.shape =
        (fields.map fun field => field.slots.map Slot.shape).flatten := by
    rw [map_flatMap, flatMap_def]
  unfold TypeDescriptor.slots
  rw [shapes, shapes]
  refine congrArg flatten (map_packFields _ (fun field offset => ?_) d.fields 0)
  rw [TypeFieldInfo.map_shape_slots, TypeFieldInfo.map_shape_slots]

/-! ## Values that cross the network -/

/-- A byte of a payload that belongs to a field. -/
def TypeDescriptor.Covers (d : TypeDescriptor) (index : Nat) : Prop :=
  ∃ field ∈ d.fields, field.offset.toNat ≤ index ∧ index < field.stop
  deriving Decidable

/-- Some `bool` element of a payload is neither 0 nor 1. -/
def TypeDescriptor.BadBool (d : TypeDescriptor) (bytes : Bytes) : Prop :=
  ∃ slot ∈ d.slots, slot.kind = .bool ∧ ∃ byte, bytes[slot.offset]? = some byte ∧ 1 < byte
  deriving Decidable

/-- Some `bool` element of an encoded value is neither 0 nor 1. -/
def TypeDescriptor.BadWireBool (d : TypeDescriptor) (input : Bytes) : Prop :=
  ∃ before slot after, d.slots = before ++ slot :: after ∧ slot.kind = .bool ∧
    ∃ byte, input[(before.map Slot.size).sum]? = some byte ∧ 1 < byte

section

variable {d : TypeDescriptor}

/-- The elements of a field cover it. -/
theorem TypeFieldInfo.exists_slot {field : TypeFieldInfo} {index : Nat}
    (start : field.offset.toNat ≤ index) (inside : index < field.stop) :
    ∃ slot ∈ field.slots, slot.offset ≤ index ∧ index < slot.offset + slot.size := by
  have place : index - field.offset.toNat < field.arrayCount.toNat * field.elementSize.toNat := by
    rw [TypeFieldInfo.stop, TypeFieldInfo.length, Nat.mul_comm] at inside
    omega
  have positive : 0 < field.elementSize.toNat :=
    Nat.pos_of_ne_zero fun zero => by simp [zero] at place
  have number := (Nat.div_lt_iff_lt_mul positive).mpr place
  have split := Nat.div_add_mod (index - field.offset.toNat) field.elementSize.toNat
  have small := Nat.mod_lt (index - field.offset.toNat) positive
  rw [Nat.mul_comm] at split
  refine ⟨_, mem_map_of_mem (mem_range.mpr number), ?_, ?_⟩ <;> dsimp only <;> omega

theorem TypeDescriptor.covers_iff (index : Nat) :
    d.Covers index ↔ ∃ slot ∈ d.slots, slot.offset ≤ index ∧ index < slot.offset + slot.size := by
  constructor
  · rintro ⟨field, member, start, inside⟩
    obtain ⟨slot, element, place⟩ := TypeFieldInfo.exists_slot start inside
    exact ⟨slot, mem_flatMap.mpr ⟨field, member, element⟩, place⟩
  · rintro ⟨slot, member, start, inside⟩
    obtain ⟨field, known, element⟩ := mem_flatMap.mp member
    obtain ⟨first, last⟩ := TypeFieldInfo.mem_slots element
    exact ⟨field, known, by omega, by omega⟩

/-- The check of an element looks at its first byte. -/
theorem Slot.not_admits_iff {slot : Slot} (sized : slot.Sized) (bytes : Bytes) (offset : Nat) :
    ¬slot.Admits (slice bytes offset slot.size) ↔
      slot.kind = .bool ∧ ∃ byte, bytes[offset]? = some byte ∧ 1 < byte := by
  unfold Slot.Admits
  rw [Classical.not_imp]
  refine and_congr_right fun bool => ?_
  rw [head?_eq_getElem?, getElem?_slice, sized bool, if_pos Nat.one_pos, Nat.add_zero]
  push Not
  exact exists_congr fun byte => and_congr_right fun _ => UInt8.not_le

theorem TypeDescriptor.Valid.badBool_iff (valid : d.Valid) (bytes : Bytes) :
    d.BadBool bytes ↔ ¬∀ slot ∈ d.slots, slot.Admits (slot.read bytes) := by
  push Not
  exact exists_congr fun slot => and_congr_right fun member =>
    (Slot.not_admits_iff (valid.slots_sized slot member) bytes slot.offset).symm

/-- A portion is the part of the wire behind the elements before it. -/
theorem mem_portions {slots : List Slot} {input : Bytes} {portion : Slot × Bytes} :
    portion ∈ portions slots input ↔ ∃ before slot after, slots = before ++ slot :: after ∧
      portion = (slot, slice input (before.map Slot.size).sum slot.size) := by
  induction slots generalizing input with
  | nil => simp [portions]
  | cons first slots ih =>
    rw [portions, mem_cons, ih]
    constructor
    · rintro (rfl | ⟨before, slot, after, rfl, rfl⟩)
      · exact ⟨[], first, slots, rfl, rfl⟩
      · refine ⟨first :: before, slot, after, rfl, ?_⟩
        rw [slice, slice, drop_drop]
        rfl
    · rintro ⟨before, slot, after, split, rfl⟩
      cases before with
      | nil =>
        cases split
        exact .inl rfl
      | cons other before =>
        cases split
        refine .inr ⟨before, slot, after, rfl, ?_⟩
        rw [slice, slice, drop_drop]
        rfl

theorem TypeDescriptor.Valid.badWireBool_iff (valid : d.Valid) (input : Bytes) :
    d.BadWireBool input ↔ ¬∀ portion ∈ portions d.slots input, portion.1.Admits portion.2 := by
  push Not
  constructor
  · rintro ⟨before, slot, after, split, bad⟩
    have sized := valid.slots_sized slot (by simp [split])
    exact ⟨_, mem_portions.mpr ⟨before, slot, after, split, rfl⟩,
      (Slot.not_admits_iff sized input _).mpr bad⟩
  · rintro ⟨portion, member, refused⟩
    obtain ⟨before, slot, after, split, rfl⟩ := mem_portions.mp member
    have sized := valid.slots_sized slot (by simp [split])
    exact ⟨before, slot, after, split, (Slot.not_admits_iff sized input _).mp refused⟩

variable {type : TypeIdentity} (little : Bool)

/-- What was encoded is decoded with the same elements, each in the byte order of its host,
by every descriptor of the same shape and wire type. -/
theorem decode_encode_shape {p : TypeDescriptor} {v : DynamicPayload} (other : Bool)
    (typed : parameterWireType d = .ok type) (known : parameterWireType p = .ok type)
    (shape : p.slots.map Slot.shape = d.slots.map Slot.shape)
    (length : v.bytes.length = d.payloadSize.toNat)
    (good : ∀ slot ∈ d.slots, slot.Admits (slot.read v.bytes)) :
    let w := d.slots.flatMap fun slot => swap little (slot.read v.bytes)
    decodeParameterValue other p w = .ok { typeId := p.typeId, bytes := scattered other p w } ∧
      w.length = p.wireSize ∧
      p.slots.map (fun slot => swap other (slot.read (scattered other p w))) =
        d.slots.map fun slot => swap little (slot.read v.bytes) := by
  intro w
  have here := (parameterWireType_eq_ok typed).1
  have there := (parameterWireType_eq_ok known).1
  have sized : ∀ slot ∈ d.slots, (swap little (slot.read v.bytes)).length = slot.size := by
    intro slot member
    rw [length_swap]
    exact length_slice (length ▸ here.slots slot member)
  have wire : w.length = type.payloadSize.toNat := by
    rw [parameterWireType_payloadSize typed, ← d.sum_slots, length_flatMap]
    exact congrArg sum (map_congr_left sized)
  have parts : (portions p.slots w).map (fun portion => (portion.1.shape, portion.2)) =
      d.slots.map fun slot => (slot.shape, swap little (slot.read v.bytes)) := by
    rw [map_snd_portions shape, portions_flatMap sized, map_map]
    rfl
  have admitted : ∀ portion ∈ portions p.slots w, portion.1.Admits portion.2 := by
    intro portion member
    have image := mem_map_of_mem (f := fun portion => (portion.1.shape, portion.2)) member
    rw [parts] at image
    obtain ⟨slot, inside, same⟩ := mem_map.mp image
    obtain ⟨kinds, bytes⟩ := Prod.mk.inj same
    have kind : slot.kind = portion.1.kind := congrArg Prod.fst kinds
    have accepted := (Slot.admits_swap (here.slots_sized slot inside)
      (length_slice (length ▸ here.slots slot inside)) little).mpr (good slot inside)
    intro bool
    rw [← bytes]
    exact accepted (kind.trans bool)
  refine ⟨?_, ?_, ?_⟩
  · rw [decodeParameterValue_eq other known wire, if_pos admitted]
  · rw [wire, parameterWireType_payloadSize known]
  · have size : w.length = p.wireSize := by rw [wire, parameterWireType_payloadSize known]
    calc p.slots.map (fun slot => swap other (slot.read (scattered other p w)))
        = (portions p.slots w).map fun portion =>
            swap other (portion.1.read (scattered other p w)) := by
          conv_lhs => rw [← map_fst_portions p.slots w, map_map]
          rfl
      _ = (portions p.slots w).map Prod.snd := by
          refine map_congr_left fun portion member => ?_
          rw [read_scattered other there size portion member, swap_swap]
      _ = ((portions p.slots w).map fun portion => (portion.1.shape, portion.2)).map Prod.snd := by
          rw [map_map]
          rfl
      _ = d.slots.map fun slot => swap little (slot.read v.bytes) := by
          rw [parts, map_map]
          rfl

/-- What was decoded is encoded as the same bytes. -/
theorem encode_scattered (typed : parameterWireType d = .ok type) {w : Bytes}
    (length : w.length = d.wireSize)
    (good : ∀ portion ∈ portions d.slots w, portion.1.Admits portion.2) :
    encodeParameterValue little d { typeId := d.typeId, bytes := scattered little d w } =
      .ok w := by
  have valid := (parameterWireType_eq_ok typed).1
  have reads := read_scattered little valid length
  have sizes := length_portions (by rw [d.sum_slots, length] : (d.slots.map Slot.size).sum ≤ _)
  have admitted : ∀ slot ∈ d.slots, slot.Admits (slot.read (scattered little d w)) := by
    intro slot member
    rw [← map_fst_portions d.slots w] at member
    obtain ⟨portion, known, rfl⟩ := mem_map.mp member
    rw [reads portion known]
    exact (Slot.admits_swap (valid.slots_sized _ (mem_slots_of_portion known))
      (sizes portion known) little).mpr (good portion known)
  rw [encodeParameterValue_eq little typed rfl (length_scattered little valid length),
    if_pos admitted]
  refine congrArg Except.ok ?_
  calc d.slots.flatMap (fun slot => swap little (slot.read (scattered little d w)))
      = (portions d.slots w).flatMap fun portion =>
          swap little (portion.1.read (scattered little d w)) := by
        conv_lhs => rw [← map_fst_portions d.slots w, flatMap_map]
    _ = (portions d.slots w).flatMap Prod.snd := by
        refine flatMap_congr fun portion member => ?_
        rw [reads portion member, swap_swap]
    _ = w := flatMap_portions (length.trans d.sum_slots.symm)

/-- A decoded value has the bytes of the encoded one in its fields, and zeros elsewhere. -/
theorem getElem?_scattered {v : DynamicPayload} (typed : parameterWireType d = .ok type)
    (length : v.bytes.length = d.payloadSize.toNat)
    (good : ∀ slot ∈ d.slots, slot.Admits (slot.read v.bytes)) {index : Nat}
    (inside : index < d.payloadSize.toNat) :
    let w := d.slots.flatMap fun slot => swap little (slot.read v.bytes)
    (d.Covers index → (scattered little d w)[index]? = v.bytes[index]?) ∧
      (¬d.Covers index → (scattered little d w)[index]? = some 0) := by
  intro w
  have valid := (parameterWireType_eq_ok typed).1
  obtain ⟨-, size, same⟩ := decode_encode_shape little little typed typed rfl length good
  rw [TypeDescriptor.covers_iff]
  constructor
  · rintro ⟨slot, member, start, stop⟩
    have equal : slot.read (scattered little d w) = slot.read v.bytes := by
      have swapped := map_inj_left.mp same slot member
      rw [← swap_swap little (slot.read (scattered little d w)), swapped, swap_swap]
    have byte := congrArg (fun part : Bytes => part[index - slot.offset]?) equal
    have place : index - slot.offset < slot.size := by omega
    have back : slot.offset + (index - slot.offset) = index := by omega
    simpa only [Slot.read, getElem?_slice, if_pos place, back] using byte
  · intro elsewhere
    refine scattered_elsewhere little valid size inside fun slot member => ?_
    by_contra covered
    exact elsewhere ⟨slot, member, by omega, by omega⟩

end

/-- Remote values arrive unchanged, between hosts of any byte orders. -/
theorem values_arrive_unchanged {d : TypeDescriptor} {type : TypeIdentity}
    (typed : parameterWireType d = .ok type) (little : Bool) :
    ∃ bytes p, encodeTypeDescriptor d = .ok bytes ∧ decodeTypeDescriptor bytes type = .ok p ∧
      (∀ v : DynamicPayload, v.typeId = d.typeId → v.bytes.length = d.payloadSize.toNat →
        (d.BadBool v.bytes → encodeParameterValue little d v = .error (errorCode Errno.eproto)) ∧
        (¬d.BadBool v.bytes → ∃ w, encodeParameterValue little d v = .ok w ∧
          w.length = type.payloadSize.toNat ∧
          (∃ back, decodeParameterValue little d w = .ok back ∧ back.typeId = d.typeId ∧
            back.bytes.length = d.payloadSize.toNat ∧ ∀ index < d.payloadSize.toNat,
              (d.Covers index → back.bytes[index]? = v.bytes[index]?) ∧
              (¬d.Covers index → back.bytes[index]? = some 0)) ∧
          ∀ other, ∃ there, decodeParameterValue other p w = .ok there ∧
            p.slots.map (fun slot => swap other (slot.read there.bytes)) =
              d.slots.map fun slot => swap little (slot.read v.bytes))) ∧
      (∀ w : Bytes, w.length = type.payloadSize.toNat →
        (d.BadWireBool w → decodeParameterValue little d w = .error (errorCode Errno.eproto)) ∧
        (¬d.BadWireBool w → ∃ v, decodeParameterValue little d w = .ok v ∧
          encodeParameterValue little d v = .ok w)) ∧
      (∀ slot ∈ d.slots, slot.offset + slot.size ≤ d.payloadSize.toNat) ∧
      (∀ v code output, encodeParameterValue little d v = .error code →
        code < 0 ∧ (writeOut output (encodeParameterValue little d v)).2 = output) ∧
      ∀ w code output, decodeParameterValue little d w = .error code →
        code < 0 ∧ (writeOut output (decodeParameterValue little d w)).2 = output := by
  obtain ⟨valid, -, positive, small, -⟩ := parameterWireType_eq_ok typed
  have packed := TypeDescriptor.parameterWireType_packed typed
  have encoded := encodeTypeDescriptor_of_typed typed
  refine ⟨d.wire, d.packed, encoded, decodeTypeDescriptor_encodeTypeDescriptor typed encoded,
    ?_, ?_, valid.slots, ?_, ?_⟩
  · intro v identified length
    rw [valid.badBool_iff, not_not, encodeParameterValue_eq little typed identified length]
    refine ⟨fun bad => if_neg bad, fun good => ?_⟩
    obtain ⟨decoded, size, -⟩ := decode_encode_shape little little typed typed rfl length good
    refine ⟨_, if_pos good, size.trans (parameterWireType_payloadSize typed).symm,
      ⟨_, decoded, rfl, length_scattered little valid size, fun index inside =>
        getElem?_scattered little typed length good inside⟩, fun other => ?_⟩
    obtain ⟨there, -, same⟩ :=
      decode_encode_shape little other typed packed d.map_shape_packed length good
    exact ⟨_, there, same⟩
  · intro w length
    rw [valid.badWireBool_iff, not_not, decodeParameterValue_eq little typed length]
    refine ⟨fun bad => if_neg bad, fun good => ⟨_, if_pos good, ?_⟩⟩
    exact encode_scattered little typed (length.trans (parameterWireType_payloadSize typed)) good
  · intro v code output failed
    rw [failed]
    exact ⟨encodeParameterValue_negative little d v failed, rfl⟩
  · intro w code output failed
    rw [failed]
    exact ⟨decodeParameterValue_negative little d w failed, rfl⟩

/-- The padding of a value is lost, and the fields are not. -/
theorem padded_arrives_unchanged :
    ∃ type w, parameterWireType padded = .ok type ∧
      encodeParameterValue true padded
        { typeId := padded.typeId, bytes := [1, 9, 9, 9, 2, 3, 4, 5] } = .ok w ∧
      ∃ back, decodeParameterValue true padded w = .ok back ∧
        back.bytes[1]? = some 0 ∧ back.bytes[4]? = some 2 := by
  have typed : (parameterWireType padded).isOk = true := by decide +kernel
  obtain ⟨type, typed⟩ : ∃ type, parameterWireType padded = .ok type := by
    generalize parameterWireType padded = result at typed
    cases result with
    | error code => cases typed
    | ok type => exact ⟨type, rfl⟩
  obtain ⟨_, _, -, -, values, -⟩ := values_arrive_unchanged typed true
  obtain ⟨w, encoded, -, ⟨back, decoded, -, -, places⟩, -⟩ :=
    (values { typeId := padded.typeId, bytes := [1, 9, 9, 9, 2, 3, 4, 5] } rfl rfl).2
      (by decide +kernel)
  exact ⟨type, w, typed, encoded, back, decoded, (places 1 (by decide)).2 (by decide +kernel),
    (places 4 (by decide)).1 (by decide +kernel)⟩

end Kcf.Network
