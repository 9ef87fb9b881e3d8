/-
# Rs3.Crypto.Payload — keyrings and sealed payload segments.

`keyring.rs` and the segment functions of `payload.rs` in `rs3-crypto`.  The keyed hash and the cipher are
parameters; of the cipher only this is assumed, that it opens what it sealed under the same key, nonce and
associated data.
-/
import Rs3.Types
import Rs3.Lib.Checked
import Rs3.Lib.Wire

namespace Rs3.Crypto

open List

/-! ## Primitives -/

/-- The keyed hash and the authenticated cipher over secrets of type `K`. -/
structure Aead (K : Type) where
  /-- `derive_hmac(secret, domain, material)`. -/
  deriveHmac : K → String → Bytes → Digest
  encrypt : Digest → (nonce associatedData plaintext : Bytes) → Option Bytes
  decrypt : Digest → (nonce associatedData ciphertext : Bytes) → Option Bytes
  decrypt_encrypt : ∀ {key nonce associatedData plaintext ciphertext},
    encrypt key nonce associatedData plaintext = some ciphertext →
      decrypt key nonce associatedData ciphertext = some plaintext

/-- An authenticated cipher whose tag has 16 bytes. -/
structure TaggedAead (K : Type) extends Aead K where
  length_encrypt : ∀ {key nonce associatedData plaintext ciphertext},
    encrypt key nonce associatedData plaintext = some ciphertext → ciphertext.length = plaintext.length + 16

/-! ## Keyrings -/

inductive KeyPurpose where
  | «namespace»
  | content
  | metadata
  | checkpointSigning
  deriving DecidableEq

inductive KeyStatus where
  | primary
  | enabled
  | disabled
  | retired
  deriving DecidableEq

def KeyStatus.isEnabledForLookup : KeyStatus → Bool
  | .primary | .enabled => true
  | .disabled | .retired => false

structure KeyMaterial (K : Type) where
  id : KeyId
  purpose : KeyPurpose
  status : KeyStatus
  secret : K

/-- A keyring that `validate_keyring` accepted; of its checks only the one on duplicate identifiers is used. -/
structure KeyRing (K : Type) where
  keys : List (KeyMaterial K)
  ids_nodup : (keys.map KeyMaterial.id).Nodup

namespace KeyRing

variable {K : Type} (keyring : KeyRing K)

def primaryKey (purpose : KeyPurpose) : Except V3FormatError (KeyMaterial K) :=
  match keyring.keys.filter fun key => key.purpose = purpose ∧ key.status = .primary with
  | [primary] => .ok primary
  | _ => .error .cryptoOperation

def enabledKeyById (keyId : KeyId) (expected : KeyPurpose) : Except V3FormatError (KeyMaterial K) := do
  let key ← okOr (keyring.keys.find? fun key => key.id = keyId) .cryptoOperation
  ensure (key.purpose = expected) .cryptoOperation
  ensure (key.status.isEnabledForLookup = true) .cryptoOperation
  return key

/-- The key that seals is the one that opening looks up. -/
theorem enabledKeyById_primaryKey
    (h : keyring.primaryKey purpose = .ok key) : keyring.enabledKeyById key.id purpose = .ok key := by
  have hfilter : keyring.keys.filter (fun key => key.purpose = purpose ∧ key.status = .primary) = [key] := by
    unfold primaryKey at h
    split at h
    · rename_i primary hprimary
      cases h
      exact hprimary
    · cases h
  have hmem : key ∈ keyring.keys.filter (fun key => key.purpose = purpose ∧ key.status = .primary) :=
    hfilter ▸ mem_cons_self
  rw [mem_filter, decide_eq_true_eq] at hmem
  obtain ⟨hkey, hpurpose, hstatus⟩ := hmem
  have hfind : keyring.keys.find? (fun other => other.id = key.id) = some key := by
    refine List.find?_eq_some_iff_append.mpr ⟨by simp, ?_⟩
    obtain ⟨before, after, hsplit⟩ := append_of_mem hkey
    refine ⟨before, after, hsplit, fun other hother => ?_⟩
    have hnodup := keyring.ids_nodup
    rw [hsplit, map_append, map_cons, nodup_append] at hnodup
    have hne := hnodup.2.2 _ (mem_map_of_mem hother) _ mem_cons_self
    simpa using hne
  simp [enabledKeyById, hfind, okOr, hpurpose, hstatus, KeyStatus.isEnabledForLookup, ensure]

end KeyRing

/-! ## Payload segments -/

structure PayloadSegmentContext where
  repositoryContext : Bytes
  containingObject : BackendObjectId
  sectionOrdinal : Option ℕ
  carrierId : Digest
  attemptId : Digest
  partOrdinal : ℕ
  segmentOrdinal : ℕ
  plaintextLen : ℕ
  isFinal : Bool
  layoutContext : Bytes

namespace PayloadSegmentContext

variable (context : PayloadSegmentContext)

def nonceContext : Bytes :=
  context.carrierId.toList ++ context.attemptId.toList ++ toBe 4 context.partOrdinal ++ toBe 8 context.segmentOrdinal

def lengthPrefixed (field : Bytes) : Bytes := toBe 8 field.length ++ field

def associatedData (keyId : KeyId) : Except V3FormatError Bytes := do
  ensure (context.repositoryContext ≠ [] ∧ context.repositoryContext.length ≤ 4096 ∧
    context.containingObject.asStr.utf8ByteSize ≤ 1024 ∧ context.layoutContext.length ≤ 1024 ∧
    keyId.asStr.utf8ByteSize ≤ 255 ∧ context.plaintextLen ≠ 0 ∧ context.plaintextLen ≤ 64 * 1024 * 1024)
    .cryptoOperation
  let sectionBytes := match context.sectionOrdinal with
    | none => [0]
    | some ordinal => 1 :: toBe 4 ordinal
  return utf8 "rs3:payload-segment-aad:v3" ++ lengthPrefixed context.repositoryContext ++
    lengthPrefixed (utf8 context.containingObject.asStr) ++ lengthPrefixed (utf8 keyId.asStr) ++ sectionBytes ++
    context.nonceContext ++ toBe 8 context.plaintextLen ++ [if context.isFinal then 1 else 0] ++
    lengthPrefixed context.layoutContext

end PayloadSegmentContext

structure PayloadSegmentSeal where
  keyId : KeyId
  ciphertext : Bytes

section Segments

variable {K : Type} (aead : Aead K) (keyring : KeyRing K) (context : PayloadSegmentContext)

/-- `derive_segment_nonce`: the first 24 bytes of a keyed hash. -/
def deriveSegmentNonce (secret : K) (associatedData : Bytes) : Bytes :=
  (aead.deriveHmac secret "rs3:payload-segment-nonce:v3"
    (PayloadSegmentContext.lengthPrefixed associatedData ++
      PayloadSegmentContext.lengthPrefixed context.nonceContext)).toList.take 24

/-- The key of `payload_cipher`. -/
def payloadCipher (secret : K) : Digest := aead.deriveHmac secret "rs3:payload-aead-key:v1" (utf8 "xchacha20poly1305")

def sealPayloadSegment (plaintext : Bytes) : Except V3FormatError PayloadSegmentSeal := do
  ensure (plaintext.length = context.plaintextLen) .cryptoOperation
  let key ← keyring.primaryKey .content
  let associatedData ← context.associatedData key.id
  let nonce := deriveSegmentNonce aead context key.secret associatedData
  let ciphertext ← okOr (aead.encrypt (payloadCipher aead key.secret) nonce associatedData plaintext) .cryptoOperation
  return ⟨key.id, ciphertext⟩

def openPayloadSegment (keyId : KeyId) (ciphertext : Bytes) : Except V3FormatError Bytes := do
  ensure (ciphertext.length = min (context.plaintextLen + 16) (2 ^ 64 - 1)) .cryptoOperation
  let key ← keyring.enabledKeyById keyId .content
  let associatedData ← context.associatedData keyId
  let nonce := deriveSegmentNonce aead context key.secret associatedData
  okOr (aead.decrypt (payloadCipher aead key.secret) nonce associatedData ciphertext) .cryptoOperation

variable {aead keyring context}

/-- A sealed segment of the expected length opens to its plaintext in the same context. -/
theorem openPayloadSegment_sealed (h : sealPayloadSegment aead keyring context plaintext = .ok sealed)
    (hlen : sealed.ciphertext.length = context.plaintextLen + 16) :
    openPayloadSegment aead keyring context sealed.keyId sealed.ciphertext = .ok plaintext := by
  simp only [sealPayloadSegment, ok_iff] at h
  obtain ⟨-, key, hkey, associatedData, hdata, ciphertext, hcipher, rfl⟩ := h
  have hshort : context.plaintextLen ≤ 64 * 1024 * 1024 := by
    simp only [PayloadSegmentContext.associatedData, ok_iff] at hdata
    exact hdata.1.2.2.2.2.2.2
  simp only [openPayloadSegment, ok_iff]
  refine ⟨?_, key, keyring.enabledKeyById_primaryKey hkey, associatedData, hdata, aead.decrypt_encrypt hcipher⟩
  rw [hlen]
  omega

theorem length_sealPayloadSegment {aead : TaggedAead K}
    (h : sealPayloadSegment aead.toAead keyring context plaintext = .ok sealed) :
    sealed.ciphertext.length = context.plaintextLen + 16 := by
  simp only [sealPayloadSegment, ok_iff] at h
  obtain ⟨hlen, key, -, associatedData, -, ciphertext, hcipher, rfl⟩ := h
  rw [← hlen]
  exact aead.length_encrypt hcipher

end Segments

end Rs3.Crypto
