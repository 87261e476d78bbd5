import Mathlib.Order.Interval.Set.Disjoint
import Kcf.Data.Layout

/-!
# Storage layout

The shared objects of `storage_layout.hpp`: the records as the compiler lays them out for
a payload type, `ComputeChannelLayout`, and the offsets that the dynamic access computes
for a Parameter without knowing the type.
-/

namespace Kcf.Ipc

open Kcf.Data

/-! ## Records -/

/-- `std::uint32_t`, `std::int32_t` and the lock-free atomic of the former. -/
def word32 : Member := ⟨4, 4, by decide⟩

/-- `std::uint64_t` and its lock-free atomic. -/
def word64 : Member := ⟨8, 8, by decide⟩

/-- `std::byte`. -/
def byte : Member := ⟨1, 1, by decide⟩

/-- Members of `ChannelHeader`. -/
inductive HeaderField where
  | magic | size | alignment | format | initialized | ownerPid | reserved | typeId | layoutId
  | depth | reserved1 | publishSequence | notifyMutex | notifyCond | notifySequence
  deriving DecidableEq

/-- Members of `ChannelSlot`. -/
inductive SlotField where
  | users | version | sequence | data
  deriving DecidableEq

/-- Members of `ParameterStorage`. -/
inductive ParameterField where
  | magic | payloadSize | payloadAlignment | format | initialized | ownerPid | reserved | typeId
  | layoutId | mutex | condition | version | previousVersion | activeIndex | previousActive
  | transactionActive | valueSlots
  deriving DecidableEq

/-- `ChannelHeader`, for the platform's `pthread_mutex_t` and `pthread_cond_t`. -/
def channelHeader (mutex condition : Member) : Record HeaderField :=
  [(.magic, word64), (.size, word64), (.alignment, word64), (.format, word32),
    (.initialized, word32), (.ownerPid, word32), (.reserved, word32), (.typeId, word64),
    (.layoutId, word64), (.depth, word32), (.reserved1, word32), (.publishSequence, word64),
    (.notifyMutex, mutex), (.notifyCond, condition), (.notifySequence, word64)]

/-- The platform. -/
structure Abi where
  mutex : Member
  condition : Member
  /-- `sizeof(ChannelHeader)` is a `std::size_t`. -/
  fits : (channelHeader mutex condition).sizeOf < UInt64.size

/-- The members of `ChannelSlot` in front of the payload. -/
def slotHead : Record SlotField := [(.users, word32), (.version, word32), (.sequence, word64)]

/-- `ChannelSlot<T>`. -/
def channelSlot (payload : Member) : Record SlotField := slotHead ++ [(.data, payload)]

namespace Abi

variable (abi : Abi)

/-- The members of `ParameterStorage` in front of the values. -/
def parameterHead : Record ParameterField :=
  [(.magic, word64), (.payloadSize, word64), (.payloadAlignment, word64), (.format, word32),
    (.initialized, word32), (.ownerPid, word32), (.reserved, word32), (.typeId, word64),
    (.layoutId, word64), (.mutex, abi.mutex), (.condition, abi.condition), (.version, word64),
    (.previousVersion, word64), (.activeIndex, word32), (.previousActive, word32),
    (.transactionActive, word32)]

/-- `ParameterStorage<T>`: `alignas(T) unsigned char value_slots[2][sizeof(T)]` is its last
member. -/
def parameterStorage (payload : Member) : Record ParameterField :=
  abi.parameterHead ++ [(.valueSlots, ⟨2 * payload.size, payload.align, payload.power⟩)]

/-- `sizeof(ChannelHeader)`. -/
def headerSize : UInt64 := UInt64.ofNat (channelHeader abi.mutex abi.condition).sizeOf

end Abi

/-! ## Topics -/

/-- `std::numeric_limits<std::size_t>::max()`. -/
def maximum : UInt64 := 0xffffffffffffffff

/-- `ChannelLayout`. -/
structure ChannelLayout where
  slots : UInt64 := 0
  data : UInt64 := 0
  stride : UInt64 := 0
  length : UInt64 := 0
  deriving DecidableEq

namespace ChannelLayout

/-- The local function `align` of `ComputeChannelLayout`. -/
def align (n a : UInt64) : Option UInt64 :=
  if n > maximum - (a - 1) then none else some ((n + a - 1) &&& ~~~(a - 1))

/-- `alignof(ChannelSlot<std::byte>)`. -/
def slotAlign : UInt64 := UInt64.ofNat (channelSlot byte).alignOf

/-- `offsetof(ChannelSlot<std::byte>, data)`. -/
def dataOffset : UInt64 := UInt64.ofNat ((channelSlot byte).offsetOf .data)

/-- The value that `ComputeChannelLayout` assigns. -/
def compute (abi : Abi) (size alignment : UInt64) (depth : UInt32) : Option ChannelLayout := do
  guard ¬(depth = 0 ∨ size = 0 ∨ alignment = 0 ∨ alignment &&& (alignment - 1) ≠ 0)
  let slotAlignment := if alignment > slotAlign then alignment else slotAlign
  let slots ← align abi.headerSize slotAlignment
  let data ← align dataOffset alignment
  guard ¬size > maximum - data
  let stride ← align (data + size) slotAlignment
  guard ¬depth.toUInt64 > (maximum - slots) / stride / 3
  return { slots, data, stride, length := slots + depth.toUInt64 * 3 * stride }

/-- Offset of `SlotAt`. -/
def slotAt (layout : ChannelLayout) (index : UInt64) : UInt64 :=
  layout.slots + index * layout.stride

end ChannelLayout

/-- `ComputeChannelLayout`: the result, and the layout the caller has afterwards. -/
def computeChannelLayout (abi : Abi) (size alignment : UInt64) (depth : UInt32)
    (out : ChannelLayout) : Bool × ChannelLayout :=
  match ChannelLayout.compute abi size alignment depth with
  | none => (false, out)
  | some value => (true, value)

/-! ## Parameters without a type -/

namespace Dynamic

/-- `Align`. -/
def align (n a : UInt64) : UInt64 := (n + a - 1) &&& ~~~(a - 1)

/-- What `DynamicStorage::Open` computes for a Parameter. -/
structure ParameterLayout where
  data : UInt64
  stride : UInt64
  length : UInt64

/-- The Parameter branch of `DynamicStorage::Open`, with the stride of `Parameter`. -/
def parameterLayout (abi : Abi) (n a : UInt64) : ParameterLayout :=
  let data := align (UInt64.ofNat ((abi.parameterStorage byte).offsetOf .valueSlots)) a
  let alignParam := UInt64.ofNat (abi.parameterStorage byte).alignOf
  { data
    stride := n
    length := align (data + 2 * n) (if a < alignParam then alignParam else a) }

end Dynamic

/-! ## Exact arithmetic -/

/-- `ComputeChannelLayout` over unbounded numbers. -/
structure ExactLayout where
  slots : Nat
  data : Nat
  stride : Nat
  length : Nat

def exactLayout (abi : Abi) (size alignment depth : Nat) : ExactLayout :=
  let slotAlignment := max alignment (channelSlot byte).alignOf
  let slots := roundUp (channelHeader abi.mutex abi.condition).sizeOf slotAlignment
  let data := roundUp ((channelSlot byte).offsetOf .data) alignment
  let stride := roundUp (data + size) slotAlignment
  { slots, data, stride, length := slots + 3 * depth * stride }

namespace ChannelLayout

theorem headerSize_toNat (abi : Abi) :
    abi.headerSize.toNat = (channelHeader abi.mutex abi.condition).sizeOf :=
  UInt64.toNat_ofNat_of_lt' abi.fits

theorem toNat_maximum_sub (n : UInt64) :
    (maximum - n).toNat = 18446744073709551615 - n.toNat :=
  UInt64.toNat_sub_of_le _ _ (UInt64.le_iff_toNat_le.mpr (Nat.le_of_lt_succ n.toNat_lt))

section Align

variable {n a : UInt64}

/-- The test of `align` is exact. -/
theorem align_eq_some_iff (power : a.toNat.isPowerOfTwo) (result : UInt64) :
    align n a = some result ↔ result.toNat = roundUp n.toNat a.toNat := by
  have positive := Nat.pos_of_isPowerOfTwo power
  have size : UInt64.size = 18446744073709551616 := rfl
  have bound := a.toNat_lt
  have limit : (maximum - (a - 1)).toNat = 18446744073709551615 - (a.toNat - 1) := by
    rw [toNat_maximum_sub, UInt64.toNat_pred positive]
  unfold align
  by_cases room : n.toNat + a.toNat - 1 < UInt64.size
  · have inside : ¬n > maximum - (a - 1) := by
      rw [gt_iff_lt, UInt64.lt_iff_toNat_lt, limit]
      omega
    rw [if_neg inside, Option.some.injEq, ← UInt64.toNat_inj, UInt64.toNat_align power room]
    exact eq_comm
  · have beyond := UInt64.size_le_roundUp power (Nat.not_lt.mp room)
    have outside : n > maximum - (a - 1) := by
      rw [gt_iff_lt, UInt64.lt_iff_toNat_lt, limit]
      omega
    rw [if_pos outside]
    refine ⟨nofun, fun same => ?_⟩
    have below := result.toNat_lt_size
    omega

end Align

/-- The guard of the function. -/
theorem alignment_guard (alignment : UInt64) :
    alignment = 0 ∨ alignment &&& (alignment - 1) ≠ 0 ↔ ¬alignment.toNat.isPowerOfTwo := by
  by_cases zero : alignment = 0
  · subst zero
    exact ⟨fun _ => Nat.not_isPowerOfTwo_zero, fun _ => .inl rfl⟩
  · rw [← UInt64.and_pred_eq_zero_iff zero]
    exact ⟨fun either => either.resolve_left zero, .inr⟩

/-- `slot_alignment`. -/
theorem slotAlignment_toNat (alignment : UInt64) :
    (if alignment > slotAlign then alignment else slotAlign).toNat =
      max alignment.toNat (channelSlot byte).alignOf :=
  (UInt64.toNat_ite_lt slotAlign alignment).trans (Nat.max_comm _ _)

section Compute

variable {slots data stride size : UInt64} {depth : UInt32}

/-- The test of the payload size. -/
theorem size_guard : ¬size > maximum - data ↔ data.toNat + size.toNat < UInt64.size := by
  have words : UInt64.size = 18446744073709551616 := rfl
  have bound := data.toNat_lt
  rw [gt_iff_lt, UInt64.lt_iff_toNat_lt, toNat_maximum_sub]
  omega

/-- The test of the depth. -/
theorem depth_guard (positive : 0 < stride.toNat) :
    ¬depth.toUInt64 > (maximum - slots) / stride / 3 ↔
      slots.toNat + 3 * depth.toNat * stride.toNat < UInt64.size := by
  have words : UInt64.size = 18446744073709551616 := rfl
  have bound := slots.toNat_lt
  have three : (3 : UInt64).toNat = 3 := rfl
  rw [gt_iff_lt, UInt64.lt_iff_toNat_lt, UInt64.toNat_div, UInt64.toNat_div, toNat_maximum_sub,
    three, UInt32.toNat_toUInt64, Nat.not_lt, Nat.le_div_iff_mul_le (by decide),
    Nat.le_div_iff_mul_le positive, Nat.mul_comm depth.toNat]
  omega

theorem length_exact (room : slots.toNat + 3 * depth.toNat * stride.toNat < UInt64.size) :
    (slots + depth.toUInt64 * 3 * stride).toNat =
      slots.toNat + 3 * depth.toNat * stride.toNat := by
  have words : UInt64.size = 18446744073709551616 := rfl
  have bound := depth.toNat_lt
  have three : (3 : UInt64).toNat = 3 := rfl
  have count : (depth.toUInt64 * 3).toNat = 3 * depth.toNat := by
    rw [UInt64.toNat_mul, UInt32.toNat_toUInt64, three]
    omega
  rw [UInt64.toNat_add, UInt64.toNat_mul, count]
  rw [Nat.mod_eq_of_lt (a := 3 * depth.toNat * stride.toNat) (by omega)]
  exact Nat.mod_eq_of_lt (by omega)

end Compute

/-- The layout is exact. -/
structure Represents (layout : ChannelLayout) (exact : ExactLayout) : Prop where
  slots : layout.slots.toNat = exact.slots
  data : layout.data.toNat = exact.data
  stride : layout.stride.toNat = exact.stride
  length : layout.length.toNat = exact.length

section Result

variable {abi : Abi} {size alignment : UInt64} {depth : UInt32}

/-- The tests that a computed layout has passed. -/
theorem compute_cases (layout : ChannelLayout) :
    compute abi size alignment depth = some layout ↔
      ¬(depth = 0 ∨ size = 0 ∨ alignment = 0 ∨ alignment &&& (alignment - 1) ≠ 0) ∧
        align abi.headerSize (if alignment > slotAlign then alignment else slotAlign) =
          some layout.slots ∧
        align dataOffset alignment = some layout.data ∧ ¬size > maximum - layout.data ∧
        align (layout.data + size) (if alignment > slotAlign then alignment else slotAlign) =
          some layout.stride ∧
        ¬depth.toUInt64 > (maximum - layout.slots) / layout.stride / 3 ∧
        layout.length = layout.slots + depth.toUInt64 * 3 * layout.stride := by
  unfold compute
  simp only [Option.bind_eq_bind, Option.bind_eq_some_iff, Option.guard_eq_some']
  constructor
  · rintro ⟨-, passed, slots, first, data, second, -, fits, stride, third, -, deep, same⟩
    cases same
    exact ⟨passed, first, second, fits, third, deep, rfl⟩
  · rintro ⟨passed, first, second, fits, third, deep, length⟩
    refine ⟨(), passed, _, first, _, second, (), fits, _, third, (), deep, ?_⟩
    rw [← length]
    rfl

/-- `ComputeChannelLayout` succeeds exactly if the exact layout has a representation. -/
theorem compute_eq_some_iff (layout : ChannelLayout) :
    compute abi size alignment depth = some layout ↔
      depth ≠ 0 ∧ size ≠ 0 ∧ alignment.toNat.isPowerOfTwo ∧
        layout.Represents (exactLayout abi size.toNat alignment.toNat depth.toNat) := by
  have words : UInt64.size = 18446744073709551616 := rfl
  have guards : ¬(depth = 0 ∨ size = 0 ∨ alignment = 0 ∨ alignment &&& (alignment - 1) ≠ 0) ↔
      depth ≠ 0 ∧ size ≠ 0 ∧ alignment.toNat.isPowerOfTwo := by
    rw [alignment_guard, not_or, not_or, not_not]
  rw [compute_cases, guards, and_assoc, and_assoc]
  refine and_congr_right fun _ => and_congr_right fun nonempty => and_congr_right fun power => ?_
  have slotPower : (if alignment > slotAlign then alignment else slotAlign).toNat.isPowerOfTwo := by
    split
    · exact power
    · exact Record.alignOf_power (channelSlot byte)
  have nonempty : 0 < size.toNat :=
    Nat.pos_of_ne_zero fun zero => nonempty (UInt64.toNat_inj.mp zero)
  simp only [align_eq_some_iff slotPower, align_eq_some_iff power, slotAlignment_toNat,
    headerSize_toNat, size_guard]
  have slotPositive := Nat.pos_of_isPowerOfTwo slotPower
  rw [slotAlignment_toNat] at slotPositive
  have sum (fits : layout.data.toNat + size.toNat < UInt64.size) :
      (layout.data + size).toNat = layout.data.toNat + size.toNat := by
    rw [UInt64.toNat_add]
    omega
  constructor
  · rintro ⟨slots, data, fits, stride, deep, length⟩
    rw [sum fits] at stride
    have enough := le_roundUp (n := layout.data.toNat + size.toNat) slotPositive
    have room := (depth_guard (by omega)).mp deep
    refine ⟨slots, data, ?_, ?_⟩
    · rw [stride, data]
      rfl
    · rw [length, length_exact room, slots, stride, data]
      rfl
  · rintro ⟨slots, data, stride, length⟩
    have rounded : layout.stride.toNat = roundUp (layout.data.toNat + size.toNat)
        (max alignment.toNat (channelSlot byte).alignOf) := by
      rw [stride, data]
      rfl
    have total : layout.length.toNat =
        layout.slots.toNat + 3 * depth.toNat * layout.stride.toNat := by
      rw [length, slots, stride]
      rfl
    have enough := le_roundUp (n := layout.data.toNat + size.toNat) slotPositive
    have below := layout.stride.toNat_lt_size
    have fits : layout.data.toNat + size.toNat < UInt64.size := by omega
    have room := layout.length.toNat_lt_size
    rw [total] at room
    refine ⟨slots, data, fits, ?_, (depth_guard (by omega)).mpr room, ?_⟩
    · rw [sum fits]
      exact rounded
    · rw [← UInt64.toNat_inj, total, length_exact room]

end Result

end ChannelLayout

/-! ## Safe layouts -/

/-- The bytes of one slot up to the end of its payload. -/
def ChannelLayout.slotBytes (layout : ChannelLayout) (size index : Nat) : Set Nat :=
  Set.Ico (layout.slots.toNat + index * layout.stride.toNat)
    (layout.slots.toNat + index * layout.stride.toNat + layout.data.toNat + size)

/-- No sum or product of `ComputeChannelLayout` is beyond the range of `std::size_t`.  Its
differences are all of a number and a smaller one. -/
structure NoWrap (abi : Abi) (size alignment depth : Nat) (layout : ChannelLayout) : Prop where
  header : (channelHeader abi.mutex abi.condition).sizeOf +
    max alignment (channelSlot byte).alignOf < UInt64.size
  offset : (channelSlot byte).offsetOf .data + alignment < UInt64.size
  payload : layout.data.toNat + size < UInt64.size
  stride : layout.data.toNat + size + max alignment (channelSlot byte).alignOf < UInt64.size
  count : depth * 3 < UInt64.size
  area : depth * 3 * layout.stride.toNat < UInt64.size
  length : layout.slots.toNat + depth * 3 * layout.stride.toNat < UInt64.size

/-- How the parts of a layout lie. -/
structure Spaced (abi : Abi) (size alignment slots data stride : Nat) : Prop where
  slots_aligned : max alignment (channelSlot byte).alignOf ∣ slots
  stride_aligned : max alignment (channelSlot byte).alignOf ∣ stride
  data_aligned : alignment ∣ data
  behind_header : (channelHeader abi.mutex abi.condition).sizeOf ≤ slots
  behind_fields : (channelSlot byte).offsetOf .data ≤ data
  payload : data + size ≤ stride
  wide : max alignment (channelSlot byte).alignOf ≤ stride

/-- A layout of a Topic that can be used without further checks. -/
structure SafeLayout (abi : Abi) (size alignment depth : Nat) (layout : ChannelLayout) : Prop
    extends Spaced abi size alignment layout.slots.toNat layout.data.toNat layout.stride.toNat where
  exact : layout.Represents (exactLayout abi size alignment depth)
  noWrap : NoWrap abi size alignment depth layout
  slotAt : ∀ index : UInt64, index.toNat < 3 * depth →
    (layout.slotAt index).toNat = layout.slots.toNat + index.toNat * layout.stride.toNat
  inside : ∀ index, index < 3 * depth → layout.slotBytes size index ⊆
    Set.Ico (channelHeader abi.mutex abi.condition).sizeOf layout.length.toNat
  disjoint : ∀ first second, first < second → second < 3 * depth →
    ∀ position ∈ layout.slotBytes size first, position ∉ layout.slotBytes size second
  length : layout.length.toNat = layout.slots.toNat + 3 * depth * layout.stride.toNat

theorem exactLayout_spaced (abi : Abi) (size : Nat) {alignment : Nat}
    (power : alignment.isPowerOfTwo) (depth : Nat) :
    Spaced abi size alignment (exactLayout abi size alignment depth).slots
      (exactLayout abi size alignment depth).data
      (exactLayout abi size alignment depth).stride := by
  have positive := Nat.pos_of_isPowerOfTwo power
  have slotPositive : 0 < max alignment (channelSlot byte).alignOf := by omega
  have fields : (channelSlot byte).offsetOf .data = 16 := rfl
  have behind : (channelSlot byte).offsetOf .data ≤
      (exactLayout abi size alignment depth).data := le_roundUp positive
  have payload : (exactLayout abi size alignment depth).data + size ≤
      (exactLayout abi size alignment depth).stride := le_roundUp slotPositive
  have aligned : max alignment (channelSlot byte).alignOf ∣
      (exactLayout abi size alignment depth).stride := dvd_roundUp _ _
  exact {
    slots_aligned := dvd_roundUp _ _
    stride_aligned := aligned
    data_aligned := dvd_roundUp _ _
    behind_header := le_roundUp slotPositive
    behind_fields := behind
    payload
    wide := Nat.le_of_dvd (by omega) aligned }

section Safe

variable {abi : Abi} {size alignment depth : Nat} {layout : ChannelLayout}

theorem NoWrap.of_spaced (deep : 0 < depth)
    (spaced : Spaced abi size alignment layout.slots.toNat layout.data.toNat layout.stride.toNat)
    (length : layout.length.toNat = layout.slots.toNat + 3 * depth * layout.stride.toNat) :
    NoWrap abi size alignment depth layout := by
  have below := layout.length.toNat_lt_size
  have header := spaced.behind_header
  have fields := spaced.behind_fields
  have payload := spaced.payload
  have wide := spaced.wide
  have slotAlign : (channelSlot byte).alignOf = 8 := rfl
  have area : 3 * layout.stride.toNat ≤ 3 * depth * layout.stride.toNat :=
    Nat.mul_le_mul_right _ (by omega)
  have count : depth * 3 ≤ depth * 3 * layout.stride.toNat := Nat.le_mul_of_pos_right _ (by omega)
  rw [Nat.mul_comm 3 depth] at area length
  constructor <;> omega

/-- Slots with a smaller index end before a slot begins. -/
theorem Spaced.ends_before {slots data stride first second : Nat}
    (spaced : Spaced abi size alignment slots data stride) (order : first < second) :
    slots + first * stride + data + size ≤ slots + second * stride := by
  have payload := spaced.payload
  have next := Nat.mul_le_mul_right stride order
  rw [Nat.succ_mul] at next
  omega

theorem SafeLayout.of_represents (power : alignment.isPowerOfTwo) (deep : 0 < depth)
    (exact : layout.Represents (exactLayout abi size alignment depth)) :
    SafeLayout abi size alignment depth layout := by
  have spaced := exactLayout_spaced abi size power depth
  have length : layout.length.toNat = layout.slots.toNat + 3 * depth * layout.stride.toNat := by
    rw [exact.length, exact.slots, exact.stride]
    rfl
  rw [← exact.slots, ← exact.data, ← exact.stride] at spaced
  have header := spaced.behind_header
  have below := layout.length.toNat_lt_size
  have inside (index : Nat) (bound : index < 3 * depth) :
      layout.slots.toNat + index * layout.stride.toNat + layout.data.toNat + size ≤
        layout.length.toNat := by
    rw [length]
    exact spaced.ends_before bound
  exact { spaced with
    exact
    noWrap := .of_spaced deep spaced length
    slotAt := fun index bound => by
      have words : UInt64.size = 18446744073709551616 := rfl
      have last := inside index.toNat bound
      rw [ChannelLayout.slotAt, UInt64.toNat_add, UInt64.toNat_mul]
      rw [Nat.mod_eq_of_lt (a := index.toNat * layout.stride.toNat) (by omega)]
      exact Nat.mod_eq_of_lt (by omega)
    inside := fun index bound position member =>
      ⟨Nat.le_trans header (Nat.le_trans (Nat.le_add_right _ _) member.1),
        Nat.lt_of_lt_of_le member.2 (inside index bound)⟩
    disjoint := fun first second order bound position before behind =>
      absurd (Nat.lt_of_lt_of_le before.2 (spaced.ends_before order)) (Nat.not_lt.mpr behind.1)
    length }

/-- A layout whose length is a word is one of words. -/
theorem exists_represents (power : alignment.isPowerOfTwo) (deep : 0 < depth)
    (room : (exactLayout abi size alignment depth).length < UInt64.size) :
    ∃ layout : ChannelLayout, layout.Represents (exactLayout abi size alignment depth) := by
  have spaced := exactLayout_spaced abi size power depth
  have length : (exactLayout abi size alignment depth).length =
      (exactLayout abi size alignment depth).slots +
        3 * depth * (exactLayout abi size alignment depth).stride := rfl
  generalize exactLayout abi size alignment depth = exact at spaced length room ⊢
  have payload := spaced.payload
  have stride := Nat.le_mul_of_pos_left exact.stride (Nat.mul_pos (by decide : 0 < 3) deep)
  exact ⟨⟨.ofNat exact.slots, .ofNat exact.data, .ofNat exact.stride, .ofNat exact.length⟩,
    ⟨UInt64.toNat_ofNat_of_lt' (by omega), UInt64.toNat_ofNat_of_lt' (by omega),
      UInt64.toNat_ofNat_of_lt' (by omega), UInt64.toNat_ofNat_of_lt' room⟩⟩

end Safe

/-- The arithmetic of `ComputeChannelLayout` is safe for all arguments. -/
theorem computeChannelLayout_safe (abi : Abi) (size alignment : UInt64) (depth : UInt32)
    (out : ChannelLayout) :
    ((computeChannelLayout abi size alignment depth out).1 = true →
      SafeLayout abi size.toNat alignment.toNat depth.toNat
        (computeChannelLayout abi size alignment depth out).2) ∧
    ((computeChannelLayout abi size alignment depth out).1 = false →
      (computeChannelLayout abi size alignment depth out).2 = out ∧
        (depth = 0 ∨ size = 0 ∨ ¬alignment.toNat.isPowerOfTwo ∨
          UInt64.size ≤ (exactLayout abi size.toNat alignment.toNat depth.toNat).length)) := by
  unfold computeChannelLayout
  cases computed : ChannelLayout.compute abi size alignment depth with
  | some layout =>
    obtain ⟨deep, -, power, exact⟩ := (ChannelLayout.compute_eq_some_iff layout).mp computed
    have positive : 0 < depth.toNat :=
      Nat.pos_of_ne_zero fun zero => deep (UInt32.toNat_inj.mp zero)
    exact ⟨fun _ => .of_represents power positive exact, nofun⟩
  | none =>
    refine ⟨nofun, fun _ => ⟨rfl, ?_⟩⟩
    by_contra valid
    simp only [not_or, not_not, Nat.not_le] at valid
    obtain ⟨deep, nonempty, power, room⟩ := valid
    have positive : 0 < depth.toNat :=
      Nat.pos_of_ne_zero fun zero => deep (UInt32.toNat_inj.mp zero)
    obtain ⟨layout, exact⟩ := exists_represents power positive room
    have found := (ChannelLayout.compute_eq_some_iff layout).mpr ⟨deep, nonempty, power, exact⟩
    rw [computed] at found
    cases found

/-- Linux on x86-64. -/
def linux : Abi := ⟨⟨40, 8, by decide⟩, ⟨48, 8, by decide⟩, by decide⟩

theorem computeChannelLayout_safe_linux :
    computeChannelLayout linux 12 4 2 {} = (true, ⟨168, 16, 32, 360⟩) ∧
      SafeLayout linux 12 4 2 ⟨168, 16, 32, 360⟩ := by
  have computed : computeChannelLayout linux 12 4 2 {} = (true, ⟨168, 16, 32, 360⟩) := by
    decide +kernel
  have safe := (computeChannelLayout_safe linux 12 4 2 {}).1
  rw [computed] at safe
  exact ⟨computed, safe rfl⟩

/-! ## Typed and erased layouts -/

namespace Dynamic

theorem align_toNat {n a : UInt64} (power : a.toNat.isPowerOfTwo)
    (fits : roundUp n.toNat a.toNat < UInt64.size) :
    (align n a).toNat = roundUp n.toNat a.toNat := by
  refine UInt64.toNat_align power ?_
  by_contra beyond
  exact Nat.not_le.mpr fits (UInt64.size_le_roundUp power (Nat.not_lt.mp beyond))

end Dynamic

section Coincide

variable (abi : Abi) (payload : Member)

theorem channelSlot_offsetOf_data :
    (channelSlot payload).offsetOf .data =
      roundUp ((channelSlot byte).offsetOf .data) payload.align :=
  Record.offsetFrom_last (by decide) 0 payload

theorem channelSlot_sizeOf :
    (channelSlot payload).sizeOf =
      roundUp (roundUp ((channelSlot byte).offsetOf .data) payload.align + payload.size)
        (max payload.align (channelSlot byte).alignOf) := by
  rw [Record.sizeOf, channelSlot, Record.finish_append, Record.alignOf_append]
  rfl

/-- The fields in front of the payload do not depend on it. -/
theorem channelSlot_offsetOf {field : SlotField} (other : field ≠ .data) :
    (channelSlot payload).offsetOf field = (channelSlot byte).offsetOf field := by
  have member : field ∈ slotHead.map Prod.fst := by
    cases field with
    | data => exact absurd rfl other
    | users | version | sequence => decide
  rw [Record.offsetOf, Record.offsetOf, channelSlot, channelSlot,
    Record.offsetFrom_append member, Record.offsetFrom_append member]

theorem parameterStorage_offsetOf {field : ParameterField} (other : field ≠ .valueSlots) :
    (abi.parameterStorage payload).offsetOf field =
      (abi.parameterStorage byte).offsetOf field := by
  have member : field ∈ abi.parameterHead.map Prod.fst := by
    cases field with
    | valueSlots => exact absurd rfl other
    | _ => simp [Abi.parameterHead]
  rw [Record.offsetOf, Record.offsetOf, Abi.parameterStorage, Abi.parameterStorage,
    Record.offsetFrom_append member, Record.offsetFrom_append member]

theorem parameterStorage_offsetOf_valueSlots :
    (abi.parameterStorage payload).offsetOf .valueSlots =
      roundUp (Record.finish 0 abi.parameterHead) payload.align :=
  Record.offsetFrom_last (by simp [Abi.parameterHead]) 0 _

theorem parameterStorage_sizeOf :
    (abi.parameterStorage payload).sizeOf =
      roundUp ((abi.parameterStorage payload).offsetOf .valueSlots + 2 * payload.size)
        (max payload.align (abi.parameterStorage byte).alignOf) := by
  have positive := Nat.pos_of_isPowerOfTwo abi.parameterHead.alignOf_power
  have erased : max byte.align abi.parameterHead.alignOf = abi.parameterHead.alignOf :=
    max_eq_right positive
  rw [parameterStorage_offsetOf_valueSlots, Record.sizeOf, Abi.parameterStorage,
    Record.finish_append, Record.alignOf_append, Abi.parameterStorage, Record.alignOf_append]
  dsimp only
  rw [erased]

theorem parameterHead_finish_pos : 0 < Record.finish 0 abi.parameterHead := by
  have first : 0 < roundUp 0 word64.align + word64.size := by decide
  rw [Abi.parameterHead, Record.finish]
  exact Nat.lt_of_lt_of_le first (Record.le_finish _ _)

/-- The offsets that `DynamicStorage::Open` computes are those of the typed storage. -/
theorem parameterLayout_eq {n a : UInt64} (power : a.toNat.isPowerOfTwo)
    (fits : (abi.parameterStorage ⟨n.toNat, a.toNat, power⟩).sizeOf < UInt64.size) :
    (Dynamic.parameterLayout abi n a).data.toNat =
        (abi.parameterStorage ⟨n.toNat, a.toNat, power⟩).offsetOf .valueSlots ∧
      (Dynamic.parameterLayout abi n a).length.toNat =
        (abi.parameterStorage ⟨n.toNat, a.toNat, power⟩).sizeOf := by
  have words : UInt64.size = 18446744073709551616 := rfl
  have offset := parameterStorage_offsetOf_valueSlots abi ⟨n.toNat, a.toNat, power⟩
  have size : (abi.parameterStorage ⟨n.toNat, a.toNat, power⟩).sizeOf =
      roundUp (roundUp (Record.finish 0 abi.parameterHead) a.toNat + 2 * n.toNat)
        (max a.toNat (abi.parameterStorage byte).alignOf) := by
    rw [parameterStorage_sizeOf, offset]
  have erased : (abi.parameterStorage byte).offsetOf .valueSlots =
      Record.finish 0 abi.parameterHead :=
    (parameterStorage_offsetOf_valueSlots abi byte).trans (roundUp_one _)
  have nonempty := parameterHead_finish_pos abi
  rw [size] at fits
  -- the bounds of the parts follow from the bound of the size
  have positive := Nat.pos_of_isPowerOfTwo power
  have wide : 0 < max a.toNat (abi.parameterStorage byte).alignOf := by omega
  have behind := le_roundUp (n := Record.finish 0 abi.parameterHead) positive
  have inside := le_roundUp
    (n := roundUp (Record.finish 0 abi.parameterHead) a.toNat + 2 * n.toNat) wide
  have align_le := Nat.le_of_dvd (by omega)
    (dvd_roundUp (roundUp (Record.finish 0 abi.parameterHead) a.toNat + 2 * n.toNat)
      (max a.toNat (abi.parameterStorage byte).alignOf))
  have start : (UInt64.ofNat ((abi.parameterStorage byte).offsetOf .valueSlots)).toNat =
      Record.finish 0 abi.parameterHead := by
    rw [erased]
    exact UInt64.toNat_ofNat_of_lt' (by omega)
  have data : (Dynamic.parameterLayout abi n a).data.toNat =
      roundUp (Record.finish 0 abi.parameterHead) a.toNat := by
    have rounded := Dynamic.align_toNat
      (n := UInt64.ofNat ((abi.parameterStorage byte).offsetOf .valueSlots)) power
    rw [start] at rounded
    exact rounded (by omega)
  have alignParam : (UInt64.ofNat (abi.parameterStorage byte).alignOf).toNat =
      (abi.parameterStorage byte).alignOf := UInt64.toNat_ofNat_of_lt' (by omega)
  have sum : ((Dynamic.parameterLayout abi n a).data + 2 * n).toNat =
      roundUp (Record.finish 0 abi.parameterHead) a.toNat + 2 * n.toNat := by
    have two : (2 : UInt64).toNat = 2 := rfl
    rw [UInt64.toNat_add, UInt64.toNat_mul, data, two]
    omega
  have larger : (if a < UInt64.ofNat (abi.parameterStorage byte).alignOf then
      UInt64.ofNat (abi.parameterStorage byte).alignOf else a).toNat =
      max a.toNat (abi.parameterStorage byte).alignOf := by
    rw [UInt64.toNat_ite_lt, alignParam]
  have largerPower : (if a < UInt64.ofNat (abi.parameterStorage byte).alignOf then
      UInt64.ofNat (abi.parameterStorage byte).alignOf else a).toNat.isPowerOfTwo := by
    split
    · rw [alignParam]
      exact Record.alignOf_power _
    · exact power
  refine ⟨data.trans offset.symm, ?_⟩
  have rounded := Dynamic.align_toNat (n := (Dynamic.parameterLayout abi n a).data + 2 * n)
    largerPower
  rw [sum, larger] at rounded
  rw [size]
  exact rounded fits

end Coincide

/-- Storage that is opened without its type has the layout that the compiler gives it. -/
theorem erased_layouts_coincide (abi : Abi) (n a : UInt64) (power : a.toNat.isPowerOfTwo) :
    (∀ depth out, (computeChannelLayout abi n a depth out).1 = true →
      (computeChannelLayout abi n a depth out).2.stride.toNat =
          (channelSlot ⟨n.toNat, a.toNat, power⟩).sizeOf ∧
        (computeChannelLayout abi n a depth out).2.data.toNat =
          (channelSlot ⟨n.toNat, a.toNat, power⟩).offsetOf .data) ∧
    ((abi.parameterStorage ⟨n.toNat, a.toNat, power⟩).sizeOf < UInt64.size →
      (Dynamic.parameterLayout abi n a).data.toNat =
          (abi.parameterStorage ⟨n.toNat, a.toNat, power⟩).offsetOf .valueSlots ∧
        (Dynamic.parameterLayout abi n a).stride = n ∧
        (Dynamic.parameterLayout abi n a).length.toNat =
          (abi.parameterStorage ⟨n.toNat, a.toNat, power⟩).sizeOf) ∧
    (∀ field, field ≠ .data → (channelSlot ⟨n.toNat, a.toNat, power⟩).offsetOf field =
      (channelSlot byte).offsetOf field) ∧
    ∀ field, field ≠ .valueSlots →
      (abi.parameterStorage ⟨n.toNat, a.toNat, power⟩).offsetOf field =
        (abi.parameterStorage byte).offsetOf field := by
  refine ⟨fun depth out succeeds => ?_, fun fits => ?_,
    fun field other => channelSlot_offsetOf _ other,
    fun field other => parameterStorage_offsetOf abi _ other⟩
  · unfold computeChannelLayout at succeeds ⊢
    cases computed : ChannelLayout.compute abi n a depth with
    | none =>
      rw [computed] at succeeds
      cases succeeds
    | some layout =>
      obtain ⟨-, -, -, exact⟩ := (ChannelLayout.compute_eq_some_iff layout).mp computed
      rw [channelSlot_sizeOf, channelSlot_offsetOf_data]
      exact ⟨exact.stride, exact.data⟩
  · obtain ⟨data, length⟩ := parameterLayout_eq abi power fits
    exact ⟨data, rfl, length⟩

theorem erased_layouts_coincide_linux :
    (Dynamic.parameterLayout linux 64 32).data = 192 ∧
      (Dynamic.parameterLayout linux 64 32).length = 320 ∧
      (linux.parameterStorage ⟨64, 32, by decide⟩).sizeOf = 320 := by
  have fits : (linux.parameterStorage ⟨64, 32, by decide⟩).sizeOf < UInt64.size := by decide
  have same := (erased_layouts_coincide linux 64 32 (by decide)).2.1 fits
  exact ⟨UInt64.toNat_inj.mp same.1, UInt64.toNat_inj.mp same.2.2, rfl⟩

end Kcf.Ipc
