import Mathlib.Tactic.Ring
import Mathlib.Control.Monad.Basic

/-!
# Byte decoders

A decoder reads a value from the front of a byte string or fails.  `Decodes`
says that a decoder reads back one particular encoding whatever follows it; the
rules below compose such facts along the `do` notation, so that a round trip is
proved field by field.
-/

namespace Kcf.Wire

open List

/-- A byte string. -/
abbrev Bytes := List UInt8

/-- Reads a value and leaves the bytes behind it, or fails with an error. -/
abbrev Decoder (ε : Type) := StateT Bytes (Except ε)

variable {ε α β : Type}

/-! ## Big-endian numbers -/

/-- The `width` low-order bytes of a number, most significant byte first. -/
def bigEndian (value : Nat) : Nat → Bytes
  | 0 => []
  | width + 1 => UInt8.ofNat (value / 256 ^ width) :: bigEndian value width

/-- Value of a big-endian byte string. -/
def fromBigEndian (bytes : Bytes) : Nat :=
  bytes.foldl (fun value byte => value * 256 + byte.toNat) 0

@[simp] theorem length_bigEndian (value width : Nat) : (bigEndian value width).length = width := by
  induction width with
  | zero => rfl
  | succ width ih => simp [bigEndian, ih]

theorem foldl_bigEndian (value width start : Nat) :
    (bigEndian value width).foldl (fun value byte => value * 256 + byte.toNat) start =
      start * 256 ^ width + value % 256 ^ width := by
  induction width generalizing start with
  | zero => simp [bigEndian, Nat.mod_one]
  | succ width ih =>
    have byte : (UInt8.ofNat (value / 256 ^ width)).toNat = value / 256 ^ width % 256 := by simp
    rw [bigEndian, foldl_cons, ih, byte, Nat.pow_succ, Nat.mod_mul]
    ring

theorem fromBigEndian_bigEndian {value width : Nat} (small : value < 256 ^ width) :
    fromBigEndian (bigEndian value width) = value := by
  rw [fromBigEndian, foldl_bigEndian, Nat.mod_eq_of_lt small]
  simp

theorem foldl_digits (bytes : Bytes) (start : Nat) :
    bytes.foldl (fun value byte => value * 256 + byte.toNat) start =
      start * 256 ^ bytes.length + fromBigEndian bytes := by
  induction bytes generalizing start with
  | nil => simp [fromBigEndian]
  | cons byte bytes ih =>
    simp only [fromBigEndian, foldl_cons, length_cons]
    rw [ih, ih (0 * 256 + byte.toNat), Nat.pow_succ]
    ring

theorem fromBigEndian_cons (byte : UInt8) (bytes : Bytes) :
    fromBigEndian (byte :: bytes) = byte.toNat * 256 ^ bytes.length + fromBigEndian bytes := by
  have digits := foldl_digits bytes byte.toNat
  simpa [fromBigEndian] using digits

theorem fromBigEndian_lt (bytes : Bytes) : fromBigEndian bytes < 256 ^ bytes.length := by
  induction bytes with
  | nil => decide
  | cons byte bytes ih =>
    have digit : byte.toNat + 1 ≤ 256 := byte.toNat_lt
    calc fromBigEndian (byte :: bytes)
        < byte.toNat * 256 ^ bytes.length + 256 ^ bytes.length := by
          rw [fromBigEndian_cons]
          exact Nat.add_lt_add_left ih _
      _ = (byte.toNat + 1) * 256 ^ bytes.length := by ring
      _ ≤ 256 * 256 ^ bytes.length := Nat.mul_le_mul_right _ digit
      _ = 256 ^ (byte :: bytes).length := by rw [length_cons, Nat.pow_succ]; ring

/-- Digits above the width do not matter. -/
theorem bigEndian_add (high value width : Nat) :
    bigEndian (high * 256 ^ width + value) width = bigEndian value width := by
  induction width generalizing high with
  | zero => rfl
  | succ width ih =>
    have split : high * 256 ^ (width + 1) + value = high * 256 * 256 ^ width + value := by
      rw [Nat.pow_succ]
      ring
    have positive : 0 < 256 ^ width := Nat.pow_pos (by decide)
    have digit : UInt8.ofNat (high * 256 + value / 256 ^ width) =
        UInt8.ofNat (value / 256 ^ width) := by
      apply UInt8.toNat_inj.mp
      simp only [UInt8.toNat_ofNat']
      omega
    simp only [bigEndian]
    rw [split, ih, Nat.mul_comm (high * 256), Nat.mul_add_div positive, digit]

/-- Every byte string is the encoding of its value. -/
theorem bigEndian_fromBigEndian (bytes : Bytes) :
    bigEndian (fromBigEndian bytes) bytes.length = bytes := by
  induction bytes with
  | nil => rfl
  | cons byte bytes ih =>
    have positive : 0 < 256 ^ bytes.length := Nat.pow_pos (by decide)
    have digit : (byte.toNat * 256 ^ bytes.length + fromBigEndian bytes) / 256 ^ bytes.length =
        byte.toNat := by
      rw [Nat.mul_comm, Nat.mul_add_div positive, Nat.div_eq_of_lt (fromBigEndian_lt bytes)]
      rfl
    rw [length_cons, bigEndian, fromBigEndian_cons, digit, bigEndian_add, ih, UInt8.ofNat_toNat]

/-! ## Decoders -/

namespace Decoder

/-- The next `count` bytes; `short` is the error if there are fewer. -/
def take (short : ε) (count : Nat) : Decoder ε Bytes := fun bytes =>
  if count ≤ bytes.length then .ok (bytes.take count, bytes.drop count) else .error short

/-- All bytes that are left. -/
def remaining : Decoder ε Bytes := fun bytes => .ok (bytes, [])

/-- How many bytes are left. -/
def left : Decoder ε Nat := fun bytes => .ok (bytes.length, bytes)

/-- A big-endian number of the given width. -/
def number (short : ε) (width : Nat) : Decoder ε Nat := fromBigEndian <$> take short width

/-- Fails with `error` unless the condition holds. -/
def require (error : ε) (condition : Prop) [Decidable condition] : Decoder ε Unit := fun bytes =>
  if condition then .ok ((), bytes) else .error error

/-- A value that a partial function has to accept. -/
def accept (error : ε) (value : Option α) : Decoder ε α := fun bytes =>
  match value with
  | some value => .ok (value, bytes)
  | none => .error error

/-- `count` values, one after another. -/
def replicate (count : Nat) (decoder : Decoder ε α) : Decoder ε (List α) :=
  match count with
  | 0 => pure []
  | count + 1 => do
    let first ← decoder
    let rest ← replicate count decoder
    pure (first :: rest)

/-- Reads a whole byte string; `long` is the error if something is left over. -/
def whole (long : ε) (decoder : Decoder ε α) (bytes : Bytes) : Except ε α :=
  match decoder bytes with
  | .ok (value, []) => .ok value
  | .ok (_, _ :: _) => .error long
  | .error error => .error error

/-- Reads a whole byte string of bounded length; `misfit` is the error for any other length. -/
def within (misfit long : ε) (least most : Nat) (decoder : Decoder ε α) (bytes : Bytes) :
    Except ε α :=
  if bytes.length < least ∨ most < bytes.length then .error misfit
  else whole long decoder bytes

end Decoder

/-- The decoder reads `bytes` as `value`, whatever comes behind them. -/
def Decodes (decoder : Decoder ε α) (bytes : Bytes) (value : α) : Prop :=
  ∀ rest, decoder (bytes ++ rest) = .ok (value, rest)

namespace Decodes

variable {decoder : Decoder ε α} {next : α → Decoder ε β} {bytes more : Bytes} {value : α}
variable {result : β} {error : ε}

theorem pure (value : α) : Decodes (Pure.pure value : Decoder ε α) [] value := fun _ => rfl

/-- Sequencing rule. -/
theorem bind (first : Decodes decoder bytes value) (second : Decodes (next value) more result) :
    Decodes (decoder >>= next) (bytes ++ more) result := by
  intro rest
  change (decoder (bytes ++ more ++ rest) >>= fun pair => next pair.1 pair.2) = _
  rw [append_assoc, first]
  exact second rest

/-- Sequencing with a decoder that reads nothing. -/
theorem skip {check : Decoder ε α} (passed : Decodes check [] value)
    (second : Decodes (next value) more result) : Decodes (check >>= next) more result :=
  passed.bind second

/-- Sequencing rule for the last field. -/
theorem last (first : Decodes decoder bytes value) (second : Decodes (next value) [] result) :
    Decodes (decoder >>= next) bytes result := by
  have step := first.bind second
  rwa [append_nil] at step

theorem map (first : Decodes decoder bytes value) (convert : α → β) :
    Decodes (convert <$> decoder) bytes (convert value) := by
  intro rest
  change (decoder (bytes ++ rest) >>= fun pair => Except.ok (convert pair.1, pair.2)) = _
  rw [first]
  rfl

theorem take (bytes : Bytes) : Decodes (Decoder.take error bytes.length) bytes bytes := by
  intro rest
  simp [Decoder.take]

theorem take_of_length {count : Nat} (length : bytes.length = count) :
    Decodes (Decoder.take error count) bytes bytes := by
  subst length
  exact take bytes

theorem number {value width : Nat} (small : value < 256 ^ width) :
    Decodes (Decoder.number error width) (bigEndian value width) value := by
  have bytes : Decodes (Decoder.take error width) (bigEndian value width) (bigEndian value width) :=
    take_of_length (length_bigEndian value width)
  have read := bytes.map fromBigEndian
  rw [fromBigEndian_bigEndian small] at read
  exact read

theorem require {condition : Prop} [Decidable condition] (holds : condition) :
    Decodes (Decoder.require error condition) [] () := by
  intro rest
  simp [Decoder.require, holds]

theorem accept {candidate : Option α} (accepted : candidate = some value) :
    Decodes (Decoder.accept error candidate) [] value := by
  intro rest
  simp [Decoder.accept, accepted]

/-- A list of encodings is read back item by item. -/
theorem replicate {encode : α → Bytes} (values : List α)
    (each : ∀ value ∈ values, Decodes decoder (encode value) value) :
    Decodes (Decoder.replicate values.length decoder) (values.flatMap encode) values := by
  induction values with
  | nil => exact Decodes.pure []
  | cons first rest ih =>
    have tail := ih fun value membership => each value (mem_cons_of_mem _ membership)
    exact bind (each first mem_cons_self) (tail.map (first :: ·))

end Decodes

/-- The decoder reads exactly `bytes`, to their end, as `value`. -/
def Consumes (decoder : Decoder ε α) (bytes : Bytes) (value : α) : Prop :=
  decoder bytes = .ok (value, [])

namespace Consumes

variable {decoder : Decoder ε α} {next : α → Decoder ε β} {bytes more : Bytes} {value : α}
variable {result : β} {error : ε}

theorem of_decodes (read : Decodes decoder bytes value) : Consumes decoder bytes value := by
  have all := read []
  rwa [append_nil] at all

/-- Sequencing rule for a field in front of the rest. -/
theorem field (first : Decodes decoder bytes value) (second : Consumes (next value) more result) :
    Consumes (decoder >>= next) (bytes ++ more) result := by
  change (decoder (bytes ++ more) >>= fun pair => next pair.1 pair.2) = _
  rw [first]
  exact second

/-- Sequencing with a decoder that reads nothing. -/
theorem skip {check : Decoder ε α} (passed : Decodes check [] value)
    (second : Consumes (next value) more result) : Consumes (check >>= next) more result :=
  field passed second

theorem left {next : Nat → Decoder ε β} (second : Consumes (next bytes.length) bytes result) :
    Consumes (Decoder.left >>= next) bytes result :=
  second

theorem remaining {next : Bytes → Decoder ε β} (second : Consumes (next bytes) [] result) :
    Consumes (Decoder.remaining >>= next) bytes result :=
  second

/-- Nothing is left for what comes last. -/
theorem last (first : Consumes decoder bytes value) (second : Decodes (next value) [] result) :
    Consumes (decoder >>= next) bytes result := by
  have step : (decoder >>= next) bytes = (decoder bytes >>= fun pair => next pair.1 pair.2) := rfl
  rw [Consumes, step, first]
  exact second []

/-- A decoder that consumes `bytes` accepts exactly this string as a whole. -/
theorem whole (read : Consumes decoder bytes value) :
    Decoder.whole error decoder bytes = .ok value := by
  rw [Decoder.whole, read]

theorem within {misfit : ε} {least most : Nat} (read : Consumes decoder bytes value)
    (lower : least ≤ bytes.length) (upper : bytes.length ≤ most) :
    Decoder.within misfit error least most decoder bytes = .ok value := by
  rw [Decoder.within, if_neg (by omega)]
  exact read.whole

end Consumes

/-! ## What was read -/

/-- Whatever the decoder reads, it reads from the encoding of the value. -/
def Restores (decoder : Decoder ε α) (encode : α → Bytes) : Prop :=
  ∀ ⦃bytes value rest⦄, decoder bytes = .ok (value, rest) → bytes = encode value ++ rest

variable {decoder : Decoder ε α} {bytes rest : Bytes}

theorem Decoder.map_eq_ok {convert : α → β}
    {result : β} (read : (convert <$> decoder) bytes = .ok (result, rest)) :
    ∃ value, decoder bytes = .ok (value, rest) ∧ convert value = result := by
  change (decoder bytes >>= fun pair => Except.ok (convert pair.1, pair.2)) = _ at read
  cases first : decoder bytes with
  | error error =>
    rw [first] at read
    cases read
  | ok pair =>
    rw [first] at read
    cases read
    exact ⟨pair.1, rfl, rfl⟩

/-- A byte string that was read as a whole was read to its end. -/
theorem Decoder.whole_eq_ok {bytes : Bytes} {value : α} {long : ε}
    (read : Decoder.whole long decoder bytes = .ok value) : decoder bytes = .ok (value, []) := by
  unfold Decoder.whole at read
  split at read
  next known =>
    cases read
    exact known
  · cases read
  · cases read

namespace Restores

variable {bytes rest : Bytes} {error : ε}

theorem take_length {count : Nat} {value : Bytes}
    (read : Decoder.take error count bytes = .ok (value, rest)) :
    bytes = value ++ rest ∧ value.length = count := by
  unfold Decoder.take at read
  split at read
  next enough =>
    cases read
    exact ⟨(take_append_drop _ _).symm, length_take_of_le enough⟩
  · cases read

theorem number (width : Nat) :
    Restores (Decoder.number error width) fun value => bigEndian value width := by
  intro bytes value rest read
  obtain ⟨digits, first, rfl⟩ := Decoder.map_eq_ok read
  obtain ⟨rfl, rfl⟩ := take_length first
  change _ = bigEndian (fromBigEndian digits) digits.length ++ rest
  rw [bigEndian_fromBigEndian]

end Restores

/-- Every error of the decoder satisfies the condition. -/
def Errors (decoder : Decoder ε α) (condition : ε → Prop) : Prop :=
  ∀ ⦃bytes error⦄, decoder bytes = .error error → condition error

namespace Errors

variable {decoder : Decoder ε α} {condition : ε → Prop} {error : ε}

theorem map (first : Errors decoder condition) (convert : α → β) :
    Errors (convert <$> decoder) condition := by
  intro bytes error failed
  change (decoder bytes >>= fun pair => Except.ok (convert pair.1, pair.2)) = _ at failed
  cases read : decoder bytes with
  | error =>
    rw [read] at failed
    cases failed
    exact first read
  | ok pair =>
    rw [read] at failed
    cases failed

theorem take (holds : condition error) (count : Nat) :
    Errors (Decoder.take error count) condition := by
  intro bytes failure failed
  unfold Decoder.take at failed
  split at failed
  · cases failed
  · cases failed
    exact holds

theorem number (holds : condition error) (width : Nat) :
    Errors (Decoder.number error width) condition :=
  (take holds width).map _

end Errors

/-! ## Following a decoder -/

/-- What the decoder reads is the encoding of the value, and its errors satisfy the condition. -/
structure Exact (condition : ε → Prop) (decoder : Decoder ε α) (encode : α → Bytes) : Prop where
  restores : Restores decoder encode
  errors : Errors decoder condition

/-- The decoder goes on behind `front`: its errors satisfy the condition, and what it returns
is related to all that was read by then. -/
def Reads (condition : ε → Prop) (front : Bytes) (decoder : Decoder ε α)
    (relation : α → Bytes → Prop) : Prop :=
  ∀ bytes, match decoder bytes with
    | .ok (value, rest) => ∃ whole, front ++ bytes = whole ++ rest ∧ relation value whole
    | .error error => condition error

section

variable {condition : ε → Prop} {front : Bytes} {encode : α → Bytes} {decoder : Decoder ε α}
variable {next : α → Decoder ε β} {middle : α → Bytes → Prop} {relation : β → Bytes → Prop}
variable {error : ε}

namespace Reads

theorem pure {value : β} (holds : relation value front) :
    Reads condition front (Pure.pure value : Decoder ε β) relation :=
  fun _ => ⟨front, rfl, holds⟩

/-- Sequencing rule. -/
theorem bind (first : Reads condition front decoder middle)
    (second : ∀ value whole, middle value whole → Reads condition whole (next value) relation) :
    Reads condition front (decoder >>= next) relation := by
  intro bytes
  have step : (decoder >>= next) bytes = (decoder bytes >>= fun pair => next pair.1 pair.2) := rfl
  have early := first bytes
  rw [step]
  cases read : decoder bytes with
  | error error =>
    rw [read] at early
    exact early
  | ok pair =>
    rw [read] at early
    obtain ⟨whole, same, holds⟩ := early
    have late := second pair.1 whole holds pair.2
    rw [← same] at late
    exact late

/-- Rule of consequence. -/
theorem imp {weaker : α → Bytes → Prop} (reads : Reads condition front decoder middle)
    (weakens : ∀ value whole, middle value whole → weaker value whole) :
    Reads condition front decoder weaker := by
  intro bytes
  have read := reads bytes
  split at read
  · exact read.imp fun whole both => ⟨both.1, weakens _ whole both.2⟩
  · exact read

section

variable (holds : condition error)
include holds

theorem require_last (passed : Prop) [Decidable passed] :
    Reads condition front (Decoder.require error passed) fun _ whole => front = whole ∧ passed := by
  intro bytes
  unfold Decoder.require
  by_cases true_ : passed
  · rw [if_pos true_]
    exact ⟨front, rfl, rfl, true_⟩
  · rw [if_neg true_]
    exact holds

theorem require {passed : Prop} [Decidable passed] {next : Unit → Decoder ε β}
    (second : passed → Reads condition front (next ()) relation) :
    Reads condition front (Decoder.require error passed >>= next) relation :=
  (require_last holds passed).bind fun _ _ both => both.1 ▸ second both.2

theorem accept_last (candidate : Option α) :
    Reads condition front (Decoder.accept error candidate) fun value whole =>
      front = whole ∧ candidate = some value := by
  intro bytes
  cases candidate with
  | none => exact holds
  | some value => exact ⟨front, rfl, rfl, rfl⟩

theorem accept {candidate : Option α}
    (second : ∀ value, candidate = some value → Reads condition front (next value) relation) :
    Reads condition front (Decoder.accept error candidate >>= next) relation :=
  (accept_last holds candidate).bind fun value _ both => both.1 ▸ second value both.2

theorem take_last (count : Nat) :
    Reads condition front (Decoder.take error count) fun text whole =>
      front ++ text = whole ∧ text.length = count := by
  intro bytes
  unfold Decoder.take
  by_cases enough : count ≤ bytes.length
  · rw [if_pos enough]
    refine ⟨front ++ bytes.take count, ?_, rfl, length_take_of_le enough⟩
    rw [append_assoc, take_append_drop]
  · rw [if_neg enough]
    exact holds

theorem take {count : Nat} {next : Bytes → Decoder ε β}
    (second : ∀ text, text.length = count →
      Reads condition (front ++ text) (next text) relation) :
    Reads condition front (Decoder.take error count >>= next) relation :=
  (take_last holds count).bind fun text _ both => both.1 ▸ second text both.2

end

theorem left {next : Nat → Decoder ε β}
    (second : ∀ length, Reads condition front (next length) relation) :
    Reads condition front (Decoder.left >>= next) relation :=
  fun bytes => second bytes.length bytes

theorem remaining {next : Bytes → Decoder ε β}
    (second : ∀ text, Reads condition (front ++ text) (next text) relation) :
    Reads condition front (Decoder.remaining >>= next) relation := by
  intro bytes
  have late := second bytes []
  rw [append_nil] at late
  exact late

/-- Frame rule. -/
theorem frame (reads : Reads condition [] decoder middle) :
    Reads condition front decoder fun value whole =>
      ∃ read, front ++ read = whole ∧ middle value read := by
  intro bytes
  have read := reads bytes
  split at read
  · obtain ⟨whole, same, holds⟩ := read
    refine ⟨front ++ whole, ?_, whole, rfl, holds⟩
    rw [append_assoc, ← same, nil_append]
  · exact read

/-- Several values, each behind the encodings of those before it. -/
theorem replicate {valid : α → Prop}
    (each : Reads condition [] decoder fun value whole => whole = encode value ∧ valid value)
    (count : Nat) :
    Reads condition front (Decoder.replicate count decoder) fun values whole =>
      front ++ values.flatMap encode = whole ∧ values.length = count ∧
        ∀ value ∈ values, valid value := by
  induction count generalizing front with
  | zero => exact pure ⟨append_nil _, rfl, forall_mem_nil _⟩
  | succ count ih =>
    refine each.frame.bind ?_
    rintro first _ ⟨_, rfl, rfl, holds⟩
    refine ih.bind ?_
    rintro others _ ⟨rfl, rfl, valid⟩
    refine pure ⟨?_, rfl, forall_mem_cons.mpr ⟨holds, valid⟩⟩
    rw [flatMap_cons, append_assoc]

variable {bytes : Bytes}

theorem of_ok {value : α} {rest : Bytes} (reads : Reads condition [] decoder middle)
    (read : decoder bytes = .ok (value, rest)) :
    ∃ whole, bytes = whole ++ rest ∧ middle value whole := by
  have follows := reads bytes
  rw [read] at follows
  exact follows

theorem of_error (reads : Reads condition front decoder middle)
    (failed : decoder bytes = .error error) : condition error := by
  have follows := reads bytes
  rw [failed] at follows
  exact follows

/-- A byte string that was read as a whole. -/
theorem whole_eq_ok {value : α} {long : ε} (reads : Reads condition [] decoder middle)
    (read : Decoder.whole long decoder bytes = .ok value) : middle value bytes := by
  obtain ⟨whole, same, holds⟩ := reads.of_ok (Decoder.whole_eq_ok read)
  rw [append_nil] at same
  exact same ▸ holds

theorem whole_error {long : ε} (reads : Reads condition [] decoder middle)
    (holds : condition long) (failed : Decoder.whole long decoder bytes = .error error) :
    condition error := by
  unfold Decoder.whole at failed
  split at failed
  · cases failed
  · cases failed
    exact holds
  next read =>
    cases failed
    exact reads.of_error read

theorem within_eq_ok {value : α} {misfit long : ε} {least most : Nat}
    (reads : Reads condition [] decoder middle)
    (read : Decoder.within misfit long least most decoder bytes = .ok value) :
    (least ≤ bytes.length ∧ bytes.length ≤ most) ∧ middle value bytes := by
  unfold Decoder.within at read
  split at read
  · cases read
  · exact ⟨by omega, reads.whole_eq_ok read⟩

theorem within_error {misfit long : ε} {least most : Nat}
    (reads : Reads condition [] decoder middle) (sized : condition misfit) (holds : condition long)
    (failed : Decoder.within misfit long least most decoder bytes = .error error) :
    condition error := by
  unfold Decoder.within at failed
  split at failed
  · cases failed
    exact sized
  · exact reads.whole_error holds failed

end Reads

namespace Exact

theorem of_reads (reads : Reads condition [] decoder fun value whole => whole = encode value) :
    Exact condition decoder encode := by
  refine ⟨fun bytes value rest read => ?_, fun bytes error => reads.of_error⟩
  obtain ⟨_, same, rfl⟩ := reads.of_ok read
  exact same

theorem reads (exact_ : Exact condition decoder encode) :
    Reads condition front decoder fun value whole => whole = front ++ encode value := by
  intro bytes
  split
  next value rest read =>
    refine ⟨_, ?_, rfl⟩
    rw [exact_.restores read, append_assoc]
  next failed => exact exact_.errors failed

/-- The next field. -/
theorem field (first : Exact condition decoder encode)
    (second : ∀ value, Reads condition (front ++ encode value) (next value) relation) :
    Reads condition front (decoder >>= next) relation :=
  first.reads.bind fun value _ same => same ▸ second value

theorem replicate (each : Exact condition decoder encode) (count : Nat) :
    Reads condition front (Decoder.replicate count decoder) fun values whole =>
      front ++ values.flatMap encode = whole ∧ values.length = count := by
  have read : Reads condition [] decoder fun value whole => whole = encode value ∧ True :=
    each.reads.imp fun _ _ same => ⟨same, trivial⟩
  exact (read.replicate count).imp fun _ _ all => ⟨all.1, all.2.1⟩

end Exact

end

/-- What is at the front of the bytes that have arrived. -/
inductive Front (α : Type) where
  | more
  | frame (value : α) (rest : Bytes)
  | bad

end Kcf.Wire
