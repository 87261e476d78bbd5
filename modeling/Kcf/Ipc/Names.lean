import Kcf.Errno
import Kcf.Wire.Decoder

/-!
# Names of shared objects

A logical name such as `/arm/state` becomes the name of one POSIX object: the slashes
behind the first are escaped.  Four places of the source check and encode names, each
with its own code.
-/

namespace Kcf.Ipc

open Kcf.Wire Errno

/-- `/` and `%` as `%2F` and `%25`. -/
def escape (byte : UInt8) : Bytes :=
  if byte = 47 then [37, 50, 70] else if byte = 37 then [37, 50, 53] else [byte]

/-- The encoding loop, from the second character on. -/
def encodeName (name : Bytes) : Bytes := 47 :: name.tail.flatMap escape

/-- `SetName`: the code it returns and `name_` behind it. -/
def setName (name current : Bytes) : Int × Bytes :=
  if name.length < 2 ∨ name.head? ≠ some 47 ∨ 240 < name.length ∨ 0 ∈ name then
    (-einval, current)
  else
    let encoded := encodeName name
    (if encoded.length ≤ 250 then 0 else -enametoolong, encoded)

def SharedChannel.setName (name current : Bytes) : Int × Bytes := Ipc.setName name current

def SharedParameter.setName (name current : Bytes) : Int × Bytes := Ipc.setName name current

/-- `Name` of the dynamic storage, with its output argument. -/
def DynamicStorage.name (name output : Bytes) : Int × Bytes :=
  if name.length < 2 ∨ name.head? ≠ some 47 ∨ 240 < name.length ∨ 0 ∈ name then
    (-einval, output)
  else
    let encoded := encodeName name
    (if 250 < encoded.length then -enametoolong else 0, encoded)

/-- The names of `TopicProxy::Create`, up to its use of the name; whether its descriptor and
its owner are valid is decided elsewhere. -/
def TopicProxy.createName (descriptorValid ownerValid : Bool) (name : Bytes) : Except Int Bytes :=
  if descriptorValid = false ∨ name.length < 2 ∨ 240 < name.length ∨ name.head? ≠ some 47 ∨
      0 ∈ name then .error (-einval)
  else if ownerValid = false then .error (-einval)
  else
    let encoded := encodeName name
    if 250 < encoded.length then .error (-enametoolong) else .ok encoded

/-- Replaces `%2F` by `/` and `%25` by `%`. -/
def decodeName : Bytes → Bytes
  | 37 :: 50 :: 70 :: rest => 47 :: decodeName rest
  | 37 :: 50 :: 53 :: rest => 37 :: decodeName rest
  | byte :: rest => byte :: decodeName rest
  | [] => []

theorem decodeName_cons {byte : UInt8} (plain : byte ≠ 37) (rest : Bytes) :
    decodeName (byte :: rest) = byte :: decodeName rest := by
  rw [decodeName]
  all_goals
    rintro _ rfl
    contradiction

theorem decodeName_escape (byte : UInt8) (rest : Bytes) :
    decodeName (escape byte ++ rest) = byte :: decodeName rest := by
  unfold escape
  split_ifs with slash percent
  · rw [slash]
    rfl
  · rw [percent]
    rfl
  · exact decodeName_cons percent rest

theorem decodeName_flatMap (bytes : Bytes) : decodeName (bytes.flatMap escape) = bytes := by
  induction bytes with
  | nil => rfl
  | cons byte bytes ih => rw [List.flatMap_cons, decodeName_escape, ih]

theorem decodeName_encodeName {name : Bytes} (rooted : name.head? = some 47) :
    decodeName (encodeName name) = name := by
  cases name with
  | nil => cases rooted
  | cons byte name =>
    cases rooted
    rw [encodeName, decodeName_cons (by decide)]
    exact congrArg _ (decodeName_flatMap name)

theorem slash_notMem_escape (byte : UInt8) : 47 ∉ escape byte := by
  unfold escape
  split_ifs with slash
  · decide
  · decide
  · simpa using Ne.symm slash

theorem getElem?_encodeName {name : Bytes} {index : Nat} :
    (encodeName name)[index]? = some 47 ↔ index = 0 := by
  cases index with
  | zero => exact iff_of_true rfl rfl
  | succ index =>
    refine iff_of_false (fun found => ?_) (Nat.succ_ne_zero index)
    obtain ⟨byte, _, inside⟩ := List.mem_flatMap.mp (List.mem_of_getElem? found)
    exact slash_notMem_escape byte inside

/-- A name that is accepted, and what it is turned into. -/
theorem SharedChannel.setName_zero {name current encoded : Bytes} :
    setName name current = (0, encoded) ↔
      2 ≤ name.length ∧ name.length ≤ 240 ∧ name.head? = some 47 ∧ 0 ∉ name ∧
        (encodeName name).length ≤ 250 ∧ encodeName name = encoded := by
  have invalid : -einval ≠ 0 := by decide
  have long : -enametoolong ≠ 0 := by decide
  unfold setName Ipc.setName
  split <;> grind

/-- The encoding of the names that are accepted is injective and inverted by `decodeName`, no
slash remains behind the first, and the copies of the check and of the encoder agree. -/
theorem shared_names_never_alias :
    (∀ name current encoded, SharedChannel.setName name current = (0, encoded) ↔
      2 ≤ name.length ∧ name.length ≤ 240 ∧ name.head? = some 47 ∧ 0 ∉ name ∧
        (encodeName name).length ≤ 250 ∧ encodeName name = encoded) ∧
    (∀ name other current present encoded, SharedChannel.setName name current = (0, encoded) →
      SharedChannel.setName other present = (0, encoded) → name = other) ∧
    (∀ name current encoded, SharedChannel.setName name current = (0, encoded) →
      (∀ index : Nat, encoded[index]? = some 47 ↔ index = 0) ∧ decodeName encoded = name) ∧
    ∀ name current, SharedParameter.setName name current = SharedChannel.setName name current ∧
      DynamicStorage.name name current = SharedChannel.setName name current ∧
      ∀ descriptorValid ownerValid encoded,
        TopicProxy.createName descriptorValid ownerValid name = .ok encoded ↔
          descriptorValid = true ∧ ownerValid = true ∧
            SharedChannel.setName name current = (0, encoded) := by
  have inverse : ∀ {name current encoded}, SharedChannel.setName name current = (0, encoded) →
      decodeName encoded = name := by
    intro name current encoded accepted
    obtain ⟨_, _, rooted, _, _, rfl⟩ := SharedChannel.setName_zero.mp accepted
    exact decodeName_encodeName rooted
  refine ⟨fun _ _ _ => SharedChannel.setName_zero, fun name other current present encoded first
    second => (inverse first).symm.trans (inverse second), fun name current encoded accepted =>
    ⟨?_, inverse accepted⟩, fun name current => ⟨rfl, ?_, fun _ _ encoded => ?_⟩⟩
  · obtain ⟨_, _, _, _, _, rfl⟩ := SharedChannel.setName_zero.mp accepted
    exact fun _ => getElem?_encodeName
  · unfold DynamicStorage.name SharedChannel.setName setName
    grind
  · rw [SharedChannel.setName_zero]
    unfold TopicProxy.createName
    grind

theorem shared_names_never_alias_slash :
    SharedChannel.setName [47, 97, 47, 98] [] = (0, [47, 97, 37, 50, 70, 98]) ∧
      decodeName [47, 97, 37, 50, 70, 98] = [47, 97, 47, 98] := by
  have accepted : SharedChannel.setName [47, 97, 47, 98] [] = (0, [47, 97, 37, 50, 70, 98]) := by
    decide +kernel
  exact ⟨accepted, (shared_names_never_alias.2.2.1 _ _ _ accepted).2⟩

end Kcf.Ipc
