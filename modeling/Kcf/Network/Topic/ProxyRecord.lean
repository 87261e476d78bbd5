import Kcf.Network.Topic.Exact
import Kcf.Network.Value

/-!
# Ownership records of proxies

The sidecar file of a Topic proxy: its owner, its type and the object it stands for,
with a hash over everything before it.
-/

namespace Kcf.Network.Topic

open Kcf.Wire List Errno

structure ProxyOwnership where
  proxy : RemoteEndpointIdentity := {}
  source : RemoteEndpointIdentity := {}
  gatewaySession : UInt64 := 0
  sourceSession : UInt64 := 0

structure ProxyRecord where
  owner : ProxyOwnership := {}
  topic : Bytes := []
  type : TypeIdentity := {}
  size : UInt64 := 0
  alignment : UInt64 := 0
  layout : UInt64 := 0
  device : UInt64 := 0
  inode : UInt64 := 0
  length : UInt64 := 0

/-- `PROXY_RECORD_MAX`. -/
def proxyRecordMax : Nat := 512

namespace ProxyRecord

def magic : UInt64 := 0x4b43464e50525859

/-- `ValidRecord`. -/
def Valid (r : ProxyRecord) : Prop :=
  r.owner.proxy.Valid ∧ r.owner.source.Valid ∧
    r.owner.proxy.runtime.host ≠ r.owner.source.runtime.host ∧
    r.owner.proxy.registrationId &&& ((1 : UInt64) <<< 61) ≠ 0 ∧ r.owner.gatewaySession ≠ 0 ∧
    r.owner.sourceSession ≠ 0 ∧ Text r.topic 240 ∧ 1 < r.topic.length ∧
    r.topic.head? = some 47 ∧ r.type.Valid ∧ r.size ≠ 0 ∧ r.size ≤ 16384 ∧ r.alignment ≠ 0 ∧
    r.alignment ≤ 4096 ∧ r.alignment &&& (r.alignment - 1) = 0 ∧ r.layout ≠ 0 ∧ r.inode ≠ 0 ∧
    r.length ≠ 0
  deriving Decidable

/-- What the hash is taken over. -/
def body (r : ProxyRecord) : Bytes :=
  Writer.u64 magic ++ Writer.u16 1 ++ Writer.number 0 2 ++ Writer.number r.topic.length 2 ++
    Writer.endpoint r.owner.proxy ++ Writer.endpoint r.owner.source ++
    Writer.u64 r.owner.gatewaySession ++ Writer.u64 r.owner.sourceSession ++
    Writer.type r.type ++ Writer.u64 r.size ++ Writer.u64 r.alignment ++ Writer.u64 r.layout ++
    Writer.u64 r.device ++ Writer.u64 r.inode ++ Writer.u64 r.length ++ r.topic

def encode (r : ProxyRecord) : Except Int Bytes :=
  if ¬r.Valid then .error (-einval)
  else
    let bytes := r.body ++ Writer.u64 (fnv r.body)
    if proxyRecordMax < bytes.length then .error (-e2big) else .ok bytes

/-- The fields behind one another.  A read that fails is `-EPROTO` here at once; the source
notes it in a flag and returns the same error when it has read the fixed fields. -/
def read (bytes : Bytes) : Reader ProxyRecord := do
  let tag ← Reader.u64
  Decoder.require (-eproto) (tag = magic)
  let version ← Reader.u16
  Decoder.require (-eproto) (version = 1)
  Reader.reserved 2
  let count ← Reader.number 2
  Decoder.require (-eproto) (count ≤ 240)
  let proxy ← Reader.endpoint
  let source ← Reader.endpoint
  let gatewaySession ← Reader.u64
  let sourceSession ← Reader.u64
  let type ← Reader.type
  let size ← Reader.u64
  let alignment ← Reader.u64
  let layout ← Reader.u64
  let device ← Reader.u64
  let inode ← Reader.u64
  let length ← Reader.u64
  let left ← Decoder.left
  Decoder.require (-eproto) (left = count + 8)
  let topic ← Decoder.take (-eproto) count
  let hash ← Reader.u64
  let r : ProxyRecord :=
    { owner := ⟨proxy, source, gatewaySession, sourceSession⟩, topic, type, size, alignment,
      layout, device, inode, length }
  Decoder.require (-eproto) (hash = fnv (bytes.take (bytes.length - 8)) ∧ r.Valid)
  pure r

def decode (bytes : Bytes) : Except Int ProxyRecord :=
  Decoder.within (-eproto) (-eproto) 214 proxyRecordMax (read bytes) bytes

variable {r : ProxyRecord} {bytes : Bytes}

theorem length_body (r : ProxyRecord) : r.body.length = 206 + r.topic.length := by
  simp only [body, length_append, length_u64, length_u16, length_number, length_endpoint,
    length_type]

theorem encode_of_valid (valid : r.Valid) : r.encode = .ok (r.body ++ Writer.u64 (fnv r.body)) := by
  have short := valid.2.2.2.2.2.2.1.2.1
  have length := length_body r
  rw [encode, if_neg (not_not.mpr valid)]
  refine if_neg ?_
  rw [length_append, length_u64, proxyRecordMax]
  omega

theorem consumes_read (valid : r.Valid) (front : bytes.take (bytes.length - 8) = r.body) :
    Consumes (read bytes) (r.body ++ Writer.u64 (fnv r.body)) r := by
  have short := valid.2.2.2.2.2.2.1.2.1
  unfold read
  rw [front]
  generalize fnv r.body = hash
  simp only [body, append_assoc]
  exact .field (decodes_u64 _) (.skip (.require rfl) (.field (decodes_u16 _) (.skip (.require rfl)
    (.field (decodes_reserved 2) (.field (decodes_number (by omega)) (.skip (.require short)
    (.field (decodes_endpoint valid.1.1.pid_nonneg)
    (.field (decodes_endpoint valid.2.1.1.pid_nonneg)
    (.field (decodes_u64 _) (.field (decodes_u64 _) (.field (decodes_type _)
    (.field (decodes_u64 _) (.field (decodes_u64 _) (.field (decodes_u64 _)
    (.field (decodes_u64 _) (.field (decodes_u64 _) (.field (decodes_u64 _)
    (.left (.skip (.require (by simp)) (.field (.take _) (.of_decodes ((decodes_u64 _).last
    (.skip (.require ⟨rfl, valid⟩) (.pure r))))))))))))))))))))))))

/-- What was encoded is read back. -/
theorem decode_encode (encoded : r.encode = .ok bytes) : decode bytes = .ok r := by
  by_cases valid : r.Valid
  · rw [encode_of_valid valid] at encoded
    cases encoded
    have short := valid.2.2.2.2.2.2.1.2.1
    have length := length_body r
    refine (consumes_read valid (by simp)).within ?_ ?_ <;> rw [length_append, length_u64]
    · omega
    · rw [proxyRecordMax]
      omega
  · rw [encode, if_pos valid] at encoded
    cases encoded

theorem reads_read (bytes : Bytes) :
    Reads (· < 0) [] (read bytes) fun r whole => r.Valid ∧
      whole = r.body ++ Writer.u64 (fnv (bytes.take (bytes.length - 8))) := by
  refine exact_u64.field fun _ => .require (by decide) ?_
  rintro rfl
  refine exact_u16.field fun _ => .require (by decide) ?_
  rintro rfl
  refine (exact_reserved 2).field fun _ => (exact_number 2).field fun count =>
    .require (by decide) fun _ => exact_endpoint.field fun _ => exact_endpoint.field fun _ =>
    exact_u64.field fun _ => exact_u64.field fun _ => exact_type.field fun _ =>
    exact_u64.field fun _ => exact_u64.field fun _ => exact_u64.field fun _ =>
    exact_u64.field fun _ => exact_u64.field fun _ => exact_u64.field fun _ => .left fun _ =>
    .require (by decide) fun _ => .take (by decide) ?_
  rintro topic rfl
  refine exact_u64.field fun hash => .require (by decide) ?_
  rintro ⟨rfl, valid⟩
  exact .pure ⟨valid, rfl⟩

/-- What was decoded is encoded to the same bytes. -/
theorem encode_decode (decoded : decode bytes = .ok r) : r.encode = .ok bytes := by
  obtain ⟨-, valid, same⟩ := (reads_read bytes).within_eq_ok decoded
  rw [encode_of_valid valid]
  have hashed : bytes.take (bytes.length - 8) = r.body := by
    rw [same]
    simp
  rw [hashed] at same
  rw [same]

theorem decode_error {code : Int} (failed : decode bytes = .error code) : code < 0 :=
  (reads_read _).within_error (by decide) (by decide) failed

theorem encode_error {code : Int} (failed : r.encode = .error code) : code < 0 := by
  unfold encode at failed
  dsimp only at failed
  split_ifs at failed
  all_goals
    cases failed
    decide

end ProxyRecord

/-- `EncodeProxyRecord`: the code it returns and the bytes in `output`. -/
def encodeProxyRecord (r : ProxyRecord) (output : Bytes) : Int × Bytes := writeOut output r.encode

/-- `DecodeProxyRecord`. -/
def decodeProxyRecord (bytes : Bytes) (output : ProxyRecord) : Int × ProxyRecord :=
  writeOut output (ProxyRecord.decode bytes)

/-- Records and their bytes determine each other, so that a sidecar file stands for one owner, type
and object; and an error leaves the output alone. -/
theorem proxy_records_exact :
    (∀ r output, (encodeProxyRecord r output).1 = 0 → ∀ other,
      decodeProxyRecord (encodeProxyRecord r output).2 other = (0, r)) ∧
    (∀ bytes output, (decodeProxyRecord bytes output).1 = 0 → ∀ other,
      encodeProxyRecord (decodeProxyRecord bytes output).2 other = (0, bytes)) ∧
    (∀ r output, (encodeProxyRecord r output).1 ≠ 0 → (encodeProxyRecord r output).2 = output) ∧
    ∀ bytes output, (decodeProxyRecord bytes output).1 ≠ 0 →
      (decodeProxyRecord bytes output).2 = output := by
  refine ⟨fun r output accepted other => ?_, fun bytes output accepted other => ?_,
    fun _ _ => writeOut_error, fun _ _ => writeOut_error⟩
  · exact writeOut_inverse (fun _ => ProxyRecord.encode_error) accepted
      ProxyRecord.decode_encode other
  · exact writeOut_inverse (fun _ => ProxyRecord.decode_error) accepted
      ProxyRecord.encode_decode other

/-- The record of a proxy for the Topic `/p`. -/
def sampleProxy : ProxyRecord where
  owner := ⟨⟨⟨.ofByte 1, .ofByte 9, 200, 1⟩, 0x2000000000000001⟩,
    ⟨⟨.ofByte 2, .ofByte 9, 200, 1⟩, 3⟩, 5, 6⟩
  topic := [47, 112]
  type := ⟨1, 1, 1, 4⟩
  size := 4
  alignment := 4
  layout := 1
  inode := 1
  length := 64

theorem proxy_records_exact_sample :
    (encodeProxyRecord sampleProxy []).1 = 0 ∧
      decodeProxyRecord (encodeProxyRecord sampleProxy []).2 {} = (0, sampleProxy) := by
  have accepted : (encodeProxyRecord sampleProxy []).1 = 0 := by decide +kernel
  exact ⟨accepted, proxy_records_exact.1 sampleProxy [] accepted {}⟩

end Kcf.Network.Topic
