/-
# Rs3.Crypto.Metadata — sealed metadata payloads.

`metadata.rs` of `rs3-crypto`.  The cipher is a parameter: it keeps the length of what it seals and opens what it
sealed under the same key, nonce and associated data; like AES-GCM-SIV it refuses more than `2 ^ 36` bytes.  The
random nonce is an argument, absent when the operating system gives none.
-/
import Rs3.Crypto.Payload

namespace Rs3.Crypto

/-- The keyed hash and the detached authenticated cipher over secrets of type `K`. -/
structure MetadataAead (K : Type) where
  deriveHmac : K → String → Bytes → Digest
  encrypt : Digest → Vector UInt8 12 → (associatedData plaintext : Bytes) → Bytes × Vector UInt8 16
  decrypt : Digest → Vector UInt8 12 → (associatedData ciphertext : Bytes) → Vector UInt8 16 → Option Bytes
  length_encrypt : ∀ key nonce associatedData plaintext,
    (encrypt key nonce associatedData plaintext).1.length = plaintext.length
  decrypt_encrypt : ∀ key nonce associatedData plaintext,
    decrypt key nonce associatedData (encrypt key nonce associatedData plaintext).1
      (encrypt key nonce associatedData plaintext).2 = some plaintext

structure MetadataSeal where
  keyId : KeyId
  nonce : Bytes
  ciphertext : Bytes
  tag : Bytes

/-- `P_MAX` and `A_MAX` of the cipher. -/
def maxCipherBytes : ℕ := 2 ^ 36

section

variable {K : Type} (aead : MetadataAead K) (keyring : KeyRing K)

/-- The key of `metadata_cipher`. -/
def metadataCipher (secret : K) : Digest := aead.deriveHmac secret "rs3:metadata-aead-key:v2" (utf8 "aes-256-gcm-siv")

def sealMetadataPayload (nonce : Option (Vector UInt8 12)) (associatedData plaintext : Bytes) :
    Except V3FormatError MetadataSeal := do
  let key ← keyring.primaryKey .metadata
  let nonce ← okOr nonce .cryptoOperation
  ensure (plaintext.length ≤ maxCipherBytes ∧ associatedData.length ≤ maxCipherBytes) .cryptoOperation
  let sealed := aead.encrypt (metadataCipher aead key.secret) nonce associatedData plaintext
  return ⟨key.id, nonce.toList, sealed.1, sealed.2.toList⟩

def openMetadataPayload (keyId : KeyId) (associatedData nonce ciphertext tag : Bytes) : Except V3FormatError Bytes := do
  let key ← keyring.enabledKeyById keyId .metadata
  let nonce ← okOr (exactly 12 nonce) .cryptoOperation
  let tag ← okOr (exactly 16 tag) .cryptoOperation
  okOr (aead.decrypt (metadataCipher aead key.secret) nonce associatedData ciphertext tag) .cryptoOperation

end

/-! ## Stored form -/

/-- The stored bytes of a seal: nonce, tag, ciphertext. -/
def MetadataSeal.stored (sealed : MetadataSeal) : Bytes := sealed.nonce ++ (sealed.tag ++ sealed.ciphertext)

/-- The nonce, tag and ciphertext of stored bytes, with the error `e` when they are too short. -/
def splitStored (e : V3FormatError) (stored : Bytes) : Except V3FormatError (Bytes × Bytes × Bytes) := do
  let nonce ← okOr (getRange stored 0 12) e
  let tag ← okOr (getRange stored 12 28) e
  let ciphertext ← okOr (getRange stored 28 stored.length) e
  return (nonce, tag, ciphertext)

theorem splitStored_append (hnonce : nonce.length = 12) (htag : tag.length = 16)
    (ciphertext : Bytes) : splitStored e (nonce ++ (tag ++ ciphertext)) = .ok (nonce, tag, ciphertext) := by
  have hlen : (nonce ++ (tag ++ ciphertext)).length = 28 + ciphertext.length := by
    rw [List.length_append, List.length_append]
    omega
  have hfirst : slice (nonce ++ (tag ++ ciphertext)) 0 12 = nonce := by
    have h := slice_append_middle [] nonce (tag ++ ciphertext) rfl (by simpa using hnonce)
    rwa [List.nil_append] at h
  have hsecond : slice (nonce ++ (tag ++ ciphertext)) 12 28 = tag :=
    slice_append_middle nonce tag ciphertext hnonce (by omega)
  have hthird : slice (nonce ++ (tag ++ ciphertext)) 28 (nonce ++ (tag ++ ciphertext)).length = ciphertext := by
    rw [← List.append_assoc]
    exact slice_append_right (by rw [List.length_append]; omega) (by
      rw [List.append_assoc, hlen])
  simp only [splitStored, ok_iff, getRange_eq_some, Prod.mk.injEq]
  exact ⟨nonce, ⟨by omega, hfirst⟩, tag, ⟨by omega, hsecond⟩, ciphertext, ⟨by omega, hthird⟩, rfl, rfl, rfl⟩

section

variable {K : Type} {aead : MetadataAead K} {keyring : KeyRing K}

variable {associatedData plaintext : Bytes}

/-- Sealing needs a primary key, randomness and a payload within the limits of the cipher. -/
theorem exists_sealMetadataPayload (hkey : keyring.primaryKey .metadata = .ok key)
    (nonce : Vector UInt8 12) (hplain : plaintext.length ≤ maxCipherBytes)
    (hdata : associatedData.length ≤ maxCipherBytes) :
    ∃ sealed, sealMetadataPayload aead keyring (some nonce) associatedData plaintext = .ok sealed := by
  simp only [sealMetadataPayload, ok_iff, hkey, Except.ok.injEq, Option.some.injEq]
  exact ⟨_, key, rfl, nonce, rfl, ⟨hplain, hdata⟩, rfl⟩

theorem sealMetadataPayload_facts (h : sealMetadataPayload aead keyring nonce associatedData plaintext = .ok sealed) :
    (∃ key, keyring.primaryKey .metadata = .ok key ∧ sealed.keyId = key.id) ∧ sealed.nonce.length = 12 ∧
      sealed.tag.length = 16 ∧ sealed.ciphertext.length = plaintext.length := by
  simp only [sealMetadataPayload, ok_iff] at h
  obtain ⟨key, hkey, nonce, -, -, rfl⟩ := h
  exact ⟨⟨key, hkey, rfl⟩, by simp, by simp, aead.length_encrypt _ _ _ _⟩

/-- A sealed payload opens to its plaintext under the same associated data. -/
theorem openMetadataPayload_sealed (h : sealMetadataPayload aead keyring nonce associatedData plaintext = .ok sealed) :
    openMetadataPayload aead keyring sealed.keyId associatedData sealed.nonce sealed.ciphertext sealed.tag =
      .ok plaintext := by
  simp only [sealMetadataPayload, ok_iff] at h
  obtain ⟨key, hkey, nonce, -, -, rfl⟩ := h
  simp only [openMetadataPayload, ok_iff, exactly_eq_some]
  exact ⟨key, keyring.enabledKeyById_primaryKey hkey, nonce, rfl, _, rfl, aead.decrypt_encrypt _ _ _ _⟩

end

end Rs3.Crypto
