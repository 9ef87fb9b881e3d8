/-
# Rs3.Index.RootSeal — encrypted index roots.

`seal_v3_index_root` and `open_v3_index_root` of `v3/index_root.rs`.  The public header has fixed fields one after
the other, so the source's reads at fixed offsets are a cursor here.  The random identity and the nonce are
arguments, absent when no randomness is available.
-/
import Rs3.Index.RootCodec
import Rs3.Crypto.Metadata

namespace Rs3.IndexRoot

open List hiding Vector

open Index Crypto
open Repository (V3KeyringEnvelopeRef)

/-! ## Envelope -/

structure RootHeader where
  headerLen : ℕ
  storedLen : ℕ
  sectionOrdinal : ℕ
  rootId : Digest
  keyId : KeyId
  ciphertextLen : ℕ
  deriving DecidableEq

structure V3SealedIndexRoot where
  rootId : Digest
  bytes : Bytes

/-- `INDEX_ROOT_MAGIC`. -/
def magic : Bytes := utf8 "rs3:irt\n"

/-- `V3_INDEX_ROOT_FIXED_HEADER_BYTES`. -/
def fixedHeaderBytes : ℕ := 72

/-- `INDEX_ROOT_SEAL_OVERHEAD`. -/
def sealOverhead : ℕ := 28

/-- `INDEX_ROOT_MAX_KEY_ID_LEN`. -/
def maxKeyIdLen : ℕ := 255

/-- `INDEX_ROOT_FORMAT_GENERATION`. -/
def formatGeneration : ℕ := 2

/-- The fields before the key identifier. -/
def fixedHeader (header : RootHeader) (keyIdLen : ℕ) : Bytes :=
  magic ++ (toBe 2 formatGeneration ++ (toBe 2 wireVersion ++ (toBe 4 header.headerLen ++ (toBe 8 header.storedLen ++
    (toBe 4 header.sectionOrdinal ++ (toBe 4 0 ++ (header.rootId.toList ++ (toBe 2 keyIdLen ++ (toBe 1 12 ++
    (toBe 1 16 ++ toBe 4 header.ciphertextLen))))))))))

def encodeHeader (header : RootHeader) : Except V3FormatError Bytes := do
  let keyIdLen ← okOr (tryFrom 16 header.keyId.asStr.utf8ByteSize) .indexRootLimitExceeded
  let output := fixedHeader header keyIdLen
  ensure (output.length = fixedHeaderBytes) .invalidIndexRoot
  return output ++ utf8 header.keyId.asStr

/-- The fields of the header, without the checks that relate them to the input. -/
def readHeader : Reader V3FormatError (ℕ × RootHeader) := do
  let start ← Reader.take .invalidIndexRoot magic.length
  ensure (start = magic) V3FormatError.invalidIndexRoot
  let generation ← readInt 2
  let version ← readInt 2
  let headerLen ← readInt 4
  let storedLen ← readInt 8
  let sectionOrdinal ← readInt 4
  let reserved ← readInt 4
  let rootId ← readArray32
  let keyIdLen ← readInt 2
  let nonceLen ← readInt 1
  let tagLen ← readInt 1
  let ciphertextLen ← readInt 4
  ensure (generation = formatGeneration ∧ version = wireVersion ∧ reserved = 0 ∧ nonceLen = 12 ∧ tagLen = 16)
    V3FormatError.invalidIndexRoot
  let keyBytes ← Reader.take .invalidIndexRoot keyIdLen
  let text ← okOr (fromUtf8 keyBytes) V3FormatError.invalidIndexRoot
  let keyId ← okOr (KeyId.new? text) V3FormatError.typeValidation
  return (keyIdLen, ⟨headerLen, storedLen, sectionOrdinal, rootId, keyId, ciphertextLen⟩)

def parseHeader (input : Bytes) : Except V3FormatError RootHeader := do
  ensure (fixedHeaderBytes ≤ input.length ∧ input.length ≤ maxBytes) .invalidIndexRoot
  let fields ← readHeader.run input
  let keyIdLen := fields.1.1
  let header := fields.1.2
  let expectedHeaderLen ← okOr (checkedAdd 64 fixedHeaderBytes keyIdLen) .invalidIndexRoot
  let sealedStart ← okOr (checkedAdd 64 expectedHeaderLen sealOverhead) .invalidIndexRoot
  let expectedStoredLen ← okOr (checkedAdd 64 sealedStart header.ciphertextLen) .invalidIndexRoot
  ensure (keyIdLen ≠ 0 ∧ keyIdLen ≤ maxKeyIdLen ∧ header.headerLen = expectedHeaderLen ∧
    header.storedLen = expectedStoredLen ∧ expectedStoredLen = input.length) .invalidIndexRoot
  return header

def validateContext (repositoryContext : Bytes) (containingObject : BackendObjectId) : Except V3FormatError Unit := do
  ensure (repositoryContext ≠ [] ∧ repositoryContext.length ≤ 4096) .indexRootLimitExceeded
  validateLen containingObject.asStr.utf8ByteSize maxTextLen

/-- `INDEX_ROOT_AAD_DOMAIN`. -/
def aadDomain : Bytes := utf8 "rs3:index-root-aad:v02\n"

def associatedData (repositoryContext : Bytes) (containingObject : BackendObjectId) (header : RootHeader) :
    Except V3FormatError Bytes := do
  validateContext repositoryContext containingObject
  let contextLen ← okOr (tryFrom 32 repositoryContext.length) .indexRootLimitExceeded
  let object ← pushString containingObject.asStr
  let keyId ← pushString header.keyId.asStr
  return aadDomain ++ (toBe 4 contextLen ++ (repositoryContext ++ (object ++ (toBe 2 formatGeneration ++
    (toBe 2 wireVersion ++ (toBe 4 header.headerLen ++ (toBe 8 header.storedLen ++ (toBe 4 header.sectionOrdinal ++
    (header.rootId.toList ++ (keyId ++ toBe 4 header.ciphertextLen))))))))))

/-! ## Sealing and opening -/

section

variable {K : Type} (aead : MetadataAead K) (keyring : KeyRing K) (repositoryContext : Bytes)
  (containingObject : BackendObjectId)

def sealV3IndexRoot (rootId : Option Digest) (nonce : Option (Vector UInt8 12)) (sectionOrdinal : ℕ)
    (root : V3IndexRoot) : Except V3FormatError V3SealedIndexRoot := do
  validateContext repositoryContext containingObject
  validateRoot root
  let plaintext ← encodeRoot root
  ensure (plaintext.length ≤ maxBytes) .indexRootLimitExceeded
  let key ← keyring.primaryKey .metadata
  let keyIdLen := key.id.asStr.utf8ByteSize
  ensure (keyIdLen ≠ 0 ∧ keyIdLen ≤ maxKeyIdLen) .indexRootLimitExceeded
  let headerLen ← okOr (checkedAdd 64 fixedHeaderBytes keyIdLen) .indexRootLimitExceeded
  let sealedStart ← okOr (checkedAdd 64 headerLen sealOverhead) .indexRootLimitExceeded
  let storedLen ← okOr (checkedAdd 64 sealedStart plaintext.length) .indexRootLimitExceeded
  ensure (storedLen ≤ maxBytes) .indexRootLimitExceeded
  let rootId ← okOr rootId .randomnessUnavailable
  let headerLen ← okOr (tryFrom 32 headerLen) .indexRootLimitExceeded
  let ciphertextLen ← okOr (tryFrom 32 plaintext.length) .indexRootLimitExceeded
  let header : RootHeader := ⟨headerLen, storedLen, sectionOrdinal, rootId, key.id, ciphertextLen⟩
  let aad ← associatedData repositoryContext containingObject header
  let sealed ← sealMetadataPayload aead keyring nonce aad plaintext
  ensure (sealed.keyId = key.id ∧ sealed.nonce.length = 12 ∧ sealed.tag.length = 16 ∧
    sealed.ciphertext.length = plaintext.length) .invalidIndexRoot
  let encodedHeader ← encodeHeader header
  let stored := encodedHeader ++ sealed.stored
  ensure (stored.length = storedLen) .invalidIndexRoot
  return ⟨rootId, stored⟩

def openV3IndexRoot (expectedSectionOrdinal : ℕ) (stored : Bytes) : Except V3FormatError V3IndexRoot := do
  validateContext repositoryContext containingObject
  let header ← parseHeader stored
  ensure (header.sectionOrdinal = expectedSectionOrdinal ∧ header.storedLen = stored.length) .invalidIndexRoot
  let sealedStart ← okOr (checkedAdd 64 header.headerLen sealOverhead) .invalidIndexRoot
  let ciphertextEnd ← okOr (checkedAdd 64 sealedStart header.ciphertextLen) .invalidIndexRoot
  ensure (ciphertextEnd = stored.length) .invalidIndexRoot
  let sealed ← okOr (getRange stored header.headerLen ciphertextEnd) .invalidIndexRoot
  let parts ← splitStored .invalidIndexRoot sealed
  let aad ← associatedData repositoryContext containingObject header
  let plaintext ← openMetadataPayload aead keyring header.keyId aad parts.1 parts.2.2 parts.2.1
  let root ← decodeRoot plaintext
  let again ← encodeRoot root
  ensure (again = plaintext) .invalidIndexRoot
  validateRoot root
  return root

end

/-! ## What sealing emits -/

theorem length_fixedHeader (header : RootHeader) (keyIdLen : ℕ) : (fixedHeader header keyIdLen).length = 72 := by
  have hmagic : magic.length = 8 := by decide +kernel
  simp only [fixedHeader, length_append, length_toBe, Vector.length_toList, hmagic]

/-- The ranges of the machine fields of a header. -/
structure HeaderTyped (header : RootHeader) : Prop where
  headerLen : header.headerLen < 2 ^ 32
  storedLen : header.storedLen < 2 ^ 64
  sectionOrdinal : header.sectionOrdinal < 2 ^ 32
  ciphertextLen : header.ciphertextLen < 2 ^ 32
  keyId : header.keyId.asStr.utf8ByteSize ≤ maxKeyIdLen

variable {header : RootHeader} {coveredGeneration : Sequence} {expectedLiveObjectCount : ℕ} {formatRef : V3FormatRef}
  {keyringEnvelopeRef : V3KeyringEnvelopeRef} {runs : List V3IndexRootRunRef} {root : V3IndexRoot}

theorem readHeader_fixedHeader (h : HeaderTyped header) (rest : Bytes) :
    readHeader.run (fixedHeader header header.keyId.asStr.utf8ByteSize ++ (utf8 header.keyId.asStr ++ rest)) =
      .ok ((header.keyId.asStr.utf8ByteSize, header), rest) := by
  have hkey : header.keyId.asStr.utf8ByteSize ≤ 255 := h.keyId
  simp only [readHeader, Reader.ok_iff, Reader.take_eq_ok, ok_iff, readInt_eq_ok, readArray32_eq_ok, fromUtf8_eq_some,
    KeyId.new?_eq_some, fixedHeader, append_assoc]
  exact ⟨magic, _, ⟨rfl, rfl⟩, _, ⟨rfl, rfl⟩, formatGeneration, _, ⟨by decide, rfl⟩, wireVersion, _, ⟨by decide, rfl⟩,
    header.headerLen, _, ⟨h.headerLen, rfl⟩, header.storedLen, _, ⟨h.storedLen, rfl⟩, header.sectionOrdinal, _,
    ⟨h.sectionOrdinal, rfl⟩, 0, _, ⟨by decide, rfl⟩, header.rootId, _, rfl, header.keyId.asStr.utf8ByteSize, _,
    ⟨by omega, rfl⟩, 12, _, ⟨by decide, rfl⟩, 16, _, ⟨by decide, rfl⟩, header.ciphertextLen, _, ⟨h.ciphertextLen, rfl⟩, _,
    ⟨⟨rfl, rfl, rfl, rfl, rfl⟩, rfl⟩, utf8 header.keyId.asStr, rest, ⟨length_utf8 _, rfl⟩, header.keyId.asStr, _,
    ⟨rfl, rfl⟩, header.keyId, _, ⟨rfl, rfl⟩, rfl, rfl⟩

/-- The stored form of a root: header, key identifier, envelope. -/
theorem parseHeader_stored (h : HeaderTyped header) (hpos : header.keyId.asStr.utf8ByteSize ≠ 0)
    (hheader : header.headerLen = 72 + header.keyId.asStr.utf8ByteSize)
    (hstored : header.storedLen = header.headerLen + 28 + header.ciphertextLen)
    (hsealed : sealed.length = 28 + header.ciphertextLen) (hmax : header.storedLen ≤ maxBytes) :
    parseHeader (fixedHeader header header.keyId.asStr.utf8ByteSize ++ (utf8 header.keyId.asStr ++ sealed)) =
      .ok header := by
  have hlen : (fixedHeader header header.keyId.asStr.utf8ByteSize ++ (utf8 header.keyId.asStr ++ sealed)).length =
      header.storedLen := by
    rw [length_append, length_append, length_fixedHeader, length_utf8, hsealed]
    omega
  have hkey : header.keyId.asStr.utf8ByteSize ≤ 255 := h.keyId
  have hsmall := h.ciphertextLen
  simp only [parseHeader, ok_iff, checkedAdd_eq_some, readHeader_fixedHeader h, Except.ok.injEq, hlen]
  refine ⟨⟨?_, hmax⟩, _, rfl, _, ⟨?_, rfl⟩, _, ⟨?_, rfl⟩, _, ⟨?_, rfl⟩, ⟨hpos, hkey, hheader, ?_, ?_⟩, rfl⟩ <;>
    simp only [fixedHeaderBytes, sealOverhead] <;> omega

section

variable {K : Type} {aead : MetadataAead K} {keyring : KeyRing K} {repositoryContext : Bytes}
  {containingObject : BackendObjectId}

theorem exists_associatedData (hcontext : validateContext repositoryContext containingObject = .ok ())
    (hkey : header.keyId.asStr.utf8ByteSize ≤ maxKeyIdLen) :
    ∃ aad, associatedData repositoryContext containingObject header = .ok aad ∧ aad.length ≤ maxCipherBytes := by
  have hfacts := hcontext
  simp only [validateContext, ok_iff] at hfacts
  obtain ⟨⟨-, hlen⟩, hobject⟩ := hfacts
  have hobject' : (utf8 containingObject.asStr).length ≤ 1024 := short_of_validateLen hobject
  have hkey' : (utf8 header.keyId.asStr).length ≤ 255 := by
    rw [length_utf8]
    exact hkey
  have hdomain : aadDomain.length = 23 := by decide +kernel
  simp only [associatedData, bind_eq_ok, hcontext, okOr_eq_ok, tryFrom_eq_some, pushString_eq_ok, pure_eq_ok]
  refine ⟨_, ⟨(), trivial, _, ⟨by omega, rfl⟩, _, ⟨by omega, rfl⟩, _, ⟨by omega, rfl⟩, rfl⟩, ?_⟩
  simp only [length_append, length_toBe, Vector.length_toList, length_stringWire, hdomain, maxCipherBytes]
  omega

variable {root : V3IndexRoot}

variable {rootId : Option Digest} {sectionOrdinal : ℕ} {sealed : V3SealedIndexRoot}

theorem sealV3IndexRoot_facts (hordinal : sectionOrdinal < 2 ^ 32)
    (h : sealV3IndexRoot aead keyring repositoryContext containingObject rootId nonce sectionOrdinal root = .ok sealed) :
    ∃ plaintext header, encodeRoot root = .ok plaintext ∧ sealed.bytes.length ≤ maxBytes ∧
      header.sectionOrdinal = sectionOrdinal ∧ parseHeader sealed.bytes = .ok header ∧
      header.storedLen = sealed.bytes.length ∧ header.headerLen + sealOverhead + header.ciphertextLen = header.storedLen ∧
      ∃ aad parts, associatedData repositoryContext containingObject header = .ok aad ∧
        splitStored .invalidIndexRoot (slice sealed.bytes header.headerLen sealed.bytes.length) = .ok parts ∧
        openMetadataPayload aead keyring header.keyId aad parts.1 parts.2.2 parts.2.1 = .ok plaintext := by
  simp only [sealV3IndexRoot, ok_iff, checkedAdd_eq_some, tryFrom_eq_some] at h
  obtain ⟨_, -, _, -, plaintext, hencode, -, key, hkey, ⟨hpos, hkeyLen⟩, _, ⟨-, rfl⟩, _, ⟨-, rfl⟩, _, ⟨hstored, rfl⟩,
    hmax, rootId, -, _, ⟨hheader, rfl⟩, _, ⟨hcipher, rfl⟩, aad, haad, envelope, hseal, ⟨hkeyId, -⟩, encoded, hencoded,
    hlen, rfl⟩ := h
  obtain ⟨-, hnonce, htag, hciphertext⟩ := sealMetadataPayload_facts hseal
  set header : RootHeader := ⟨fixedHeaderBytes + key.id.asStr.utf8ByteSize,
    fixedHeaderBytes + key.id.asStr.utf8ByteSize + sealOverhead + plaintext.length, sectionOrdinal, rootId, key.id,
    plaintext.length⟩ with hdef
  simp only [encodeHeader, ok_iff, tryFrom_eq_some] at hencoded
  obtain ⟨_, ⟨-, rfl⟩, -, rfl⟩ := hencoded
  have htyped : HeaderTyped header := ⟨hheader, hstored, hordinal, hcipher, hkeyLen⟩
  have hsealLen : envelope.stored.length = 28 + header.ciphertextLen := by
    rw [MetadataSeal.stored, length_append, length_append, hnonce, htag, hciphertext]
    simp only [hdef]
    omega
  rw [append_assoc] at hlen ⊢
  refine ⟨plaintext, header, hencode, hlen ▸ hmax, rfl, ?_, hlen.symm, rfl, aad,
    (envelope.nonce, envelope.tag, envelope.ciphertext), haad, ?_, ?_⟩
  · exact parseHeader_stored htyped hpos rfl rfl hsealLen hmax
  · have hslice : slice (fixedHeader header key.id.asStr.utf8ByteSize ++ (utf8 key.id.asStr ++ envelope.stored))
        header.headerLen (fixedHeader header key.id.asStr.utf8ByteSize ++ (utf8 key.id.asStr ++ envelope.stored)).length =
          envelope.stored := by
      rw [← append_assoc]
      refine slice_append_right ?_ ?_
      · rw [length_append, length_fixedHeader, length_utf8]
        rfl
      · rw [length_append, length_append, length_fixedHeader, length_utf8]
        rfl
    rw [hslice, MetadataSeal.stored]
    exact splitStored_append hnonce htag envelope.ciphertext
  · have := openMetadataPayload_sealed hseal
    rwa [hkeyId] at this

variable (aead) in
/-- Sealing succeeds for an acceptable root whose plaintext leaves room for the envelope. -/
theorem exists_sealV3IndexRoot (hcontext : validateContext repositoryContext containingObject = .ok ())
    (hkey : keyring.primaryKey .metadata = .ok key)
    (hkeyLen : key.id.asStr.utf8ByteSize ≤ maxKeyIdLen) (rootId : Digest) (nonce : Vector UInt8 12)
    (sectionOrdinal : ℕ) (hvalid : validateRoot root = .ok ())
    (hencode : encodeRoot root = .ok plaintext) (hlen : plaintext.length + 355 ≤ maxBytes) :
    ∃ sealed, sealV3IndexRoot aead keyring repositoryContext containingObject (some rootId) (some nonce) sectionOrdinal
      root = .ok sealed := by
  have hpos : key.id.asStr.utf8ByteSize ≠ 0 := by
    rw [← length_utf8]
    exact fun hzero => utf8_ne_nil key.id.valid (length_eq_zero_iff.mp hzero)
  have hkeyLen' : key.id.asStr.utf8ByteSize ≤ 255 := hkeyLen
  have hmax : maxBytes = 8388608 := rfl
  have hfixed : fixedHeaderBytes = 72 := rfl
  have hover : sealOverhead = 28 := rfl
  let header : RootHeader := ⟨fixedHeaderBytes + key.id.asStr.utf8ByteSize,
    fixedHeaderBytes + key.id.asStr.utf8ByteSize + sealOverhead + plaintext.length, sectionOrdinal, rootId, key.id,
    plaintext.length⟩
  have hheader : encodeHeader header = .ok (fixedHeader header key.id.asStr.utf8ByteSize ++ utf8 key.id.asStr) := by
    simp only [encodeHeader, ok_iff, tryFrom_eq_some]
    exact ⟨_, ⟨lt_of_le_of_lt hkeyLen' (by decide), rfl⟩, length_fixedHeader _ _, rfl⟩
  obtain ⟨aad, haad, haadLen⟩ : ∃ aad, associatedData repositoryContext containingObject header = .ok aad ∧ _ :=
    exists_associatedData hcontext hkeyLen
  obtain ⟨envelope, hseal⟩ : ∃ sealed, sealMetadataPayload aead keyring (some nonce) aad plaintext = .ok sealed := by
    refine exists_sealMetadataPayload hkey nonce ?_ haadLen
    rw [maxCipherBytes]
    omega
  obtain ⟨⟨key', hkey', hkeyId⟩, hnonce, htag, hciphertext⟩ := sealMetadataPayload_facts hseal
  obtain rfl : key = key' := Except.ok.inj (hkey.symm.trans hkey')
  simp only [sealV3IndexRoot, ok_iff, checkedAdd_eq_some, tryFrom_eq_some, hcontext, hvalid, hencode, hkey,
    Option.some.injEq, Except.ok.injEq]
  refine ⟨_, trivial, trivial, plaintext, rfl, by omega, key, rfl, ⟨hpos, hkeyLen⟩, _, ⟨by omega, rfl⟩, _,
    ⟨by omega, rfl⟩, _, ⟨by omega, rfl⟩, by omega, rootId, rfl, _, ⟨by omega, rfl⟩, _, ⟨by omega, rfl⟩, aad, haad,
    envelope, hseal, ⟨hkeyId, hnonce, htag, hciphertext⟩, _, hheader, ?_, rfl⟩
  rw [length_append, length_append, length_fixedHeader, length_utf8, MetadataSeal.stored, length_append, length_append,
    hnonce, htag, hciphertext]
  omega

theorem openV3IndexRoot_sealed (hcontext : validateContext repositoryContext containingObject = .ok ())
    (hordinal : sectionOrdinal < 2 ^ 32)
    (h : sealV3IndexRoot aead keyring repositoryContext containingObject rootId nonce sectionOrdinal root = .ok sealed) :
    ∃ plaintext, encodeRoot root = .ok plaintext ∧ sealed.bytes.length ≤ maxBytes ∧ ∀ opened,
      openV3IndexRoot aead keyring repositoryContext containingObject sectionOrdinal sealed.bytes = .ok opened ↔
        decodeRoot plaintext = .ok opened := by
  obtain ⟨plaintext, header, hencode, hmax, rfl, hparse, hstored, hsum, aad, parts, haad, hparts, hopen⟩ :=
    sealV3IndexRoot_facts hordinal h
  refine ⟨plaintext, hencode, hmax, fun opened => ?_⟩
  have hmax' : sealed.bytes.length ≤ 8388608 := hmax
  have hover : sealOverhead = 28 := rfl
  have hsum' : header.headerLen + 28 + header.ciphertextLen = sealed.bytes.length := hsum.trans hstored
  have hend : getRange sealed.bytes header.headerLen (header.headerLen + sealOverhead + header.ciphertextLen) =
      some (slice sealed.bytes header.headerLen sealed.bytes.length) :=
    getRange_eq_some.mpr ⟨⟨by omega, by omega⟩, by rw [hsum, hstored]⟩
  have hstart : checkedAdd 64 header.headerLen sealOverhead = some (header.headerLen + sealOverhead) :=
    checkedAdd_eq_some.mpr ⟨by omega, rfl⟩
  have hstop : checkedAdd 64 (header.headerLen + sealOverhead) header.ciphertextLen =
      some (header.headerLen + sealOverhead + header.ciphertextLen) :=
    checkedAdd_eq_some.mpr ⟨by omega, rfl⟩
  rw [openV3IndexRoot, hcontext, ok_bind, hparse, ok_bind, ensure_of ⟨rfl, hstored⟩, ok_bind, hstart, okOr, ok_bind,
    hstop, okOr, ok_bind, ensure_of (hsum.trans hstored), ok_bind, hend, okOr, ok_bind, hparts, ok_bind, haad,
    ok_bind, hopen, ok_bind]
  simp only [ok_iff]
  constructor
  · rintro ⟨_, hdecode, _, _, _, _, _, rfl⟩
    exact hdecode
  · intro hdecode
    have hagain := encodeRoot_decodeRoot hdecode
    obtain ⟨⟨-, -, hvalid⟩, -⟩ := decodeRoot_eq_ok.mp hdecode
    exact ⟨opened, hdecode, plaintext, hagain, rfl, (), hvalid, rfl⟩

end

theorem new_facts (h : new coveredGeneration expectedLiveObjectCount formatRef keyringEnvelopeRef runs = .ok root) :
    validateRoot root = .ok () ∧ root.expectedLiveObjectCount = expectedLiveObjectCount ∧
      ∀ run ∈ root.runs, run ∈ runs := by
  simp only [new, ok_iff] at h
  obtain ⟨claims, -, _, -, _, -, _, hvalid, rfl⟩ := h
  exact ⟨hvalid, rfl, fun run hrun => (mem_insertionSort _).mp hrun⟩

theorem rootTyped_of_new
    (h : new coveredGeneration expectedLiveObjectCount formatRef keyringEnvelopeRef runs = .ok root)
    (hlive : expectedLiveObjectCount < 2 ^ 64) (hruns : ∀ run ∈ runs, RunRefTyped run) (hbuilt : receipts.Built) :
    RootTyped (withCompletionReceipts root receipts) ∧ validateRoot (withCompletionReceipts root receipts) = .ok () := by
  obtain ⟨hvalid, hcount, hmem⟩ := new_facts h
  refine ⟨⟨?_, fun run hrun => hruns run (hmem run hrun), fun receipt hreceipt => ?_, hbuilt.fromSnapshot_iter⟩, hvalid⟩
  · show root.expectedLiveObjectCount < 2 ^ 64
    rwa [hcount]
  · obtain ⟨id, hid⟩ := CompletionReceipts.mem_iter.mp hreceipt
    exact (hbuilt.valid.1.wellFormed id receipt hid).1

/-- Index roots round-trip through their envelope and their plaintext is canonical.  The listing bounds of the runs
have to be at most 1024 bytes: nothing in `new` checks that. -/
theorem index_roots_exact {K : Type} (aead : MetadataAead K) (keyring : Crypto.KeyRing K) :
    (∀ (coveredGeneration : Sequence) (expectedLiveObjectCount : ℕ) (formatRef : V3FormatRef)
      (keyringEnvelopeRef : V3KeyringEnvelopeRef) (runs : List V3IndexRootRunRef) (base : V3IndexRoot)
      (receipts : CompletionReceipts) (repositoryContext : Bytes) (containingObject : BackendObjectId)
      (sectionOrdinal : ℕ) (key : KeyMaterial K) (rootId : Digest) (nonce : Vector UInt8 12),
      expectedLiveObjectCount < 2 ^ 64 → sectionOrdinal < 2 ^ 32 → (∀ run ∈ runs, RunRefTyped run) → receipts.Built →
      new coveredGeneration expectedLiveObjectCount formatRef keyringEnvelopeRef runs = .ok base →
      (∀ run ∈ runs, ListingShort run) →
      validateContext repositoryContext containingObject = .ok () →
      keyring.primaryKey .metadata = .ok key → key.id.asStr.utf8ByteSize ≤ maxKeyIdLen →
      ∃ sealed, sealV3IndexRoot aead keyring repositoryContext containingObject (some rootId) (some nonce)
          sectionOrdinal (withCompletionReceipts base receipts) = .ok sealed ∧ sealed.bytes.length ≤ maxBytes ∧
        openV3IndexRoot aead keyring repositoryContext containingObject sectionOrdinal sealed.bytes =
          .ok (withCompletionReceipts base receipts)) ∧
    ∀ (bytes : Bytes) (root : V3IndexRoot), decodeRoot bytes = .ok root → encodeRoot root = .ok bytes := by
  refine ⟨?_, fun bytes root h => encodeRoot_decodeRoot h⟩
  intro coveredGeneration expectedLiveObjectCount formatRef keyringEnvelopeRef runs base receipts repositoryContext
    containingObject sectionOrdinal key rootId nonce hlive hordinal hruns hbuilt hnew hlisting hcontext hkey hkeyLen
  obtain ⟨htyped, hvalid⟩ := rootTyped_of_new hnew hlive hruns hbuilt
  have hchecked := rootChecked_of_validateRoot hvalid
  have hshort : ∀ run ∈ (withCompletionReceipts base receipts).runs, ListingShort run :=
    fun run hrun => hlisting run ((new_facts hnew).2.2 run hrun)
  have hdecode := decodeRoot_eq_ok.mpr ⟨⟨htyped, hshort, hvalid⟩, rfl⟩
  have hencode := encodeRoot_decodeRoot hdecode
  -- the envelope adds at most 355 bytes to the plaintext
  have hroom : (rootWire (withCompletionReceipts base receipts)).length + 355 ≤ maxBytes := by
    have := length_rootWire htyped hchecked hshort
    rw [show maxBytes = 8388608 from rfl]
    omega
  obtain ⟨sealed, hseal⟩ :=
    exists_sealV3IndexRoot aead hcontext hkey hkeyLen rootId nonce sectionOrdinal hvalid hencode hroom
  obtain ⟨plaintext, hplain, hmax, hopen⟩ := openV3IndexRoot_sealed hcontext hordinal hseal
  obtain rfl := Except.ok.inj (hencode.symm.trans hplain)
  exact ⟨sealed, hseal, hmax, (hopen _).mpr hdecode⟩

/-! ## A root with one run -/

/-- A cipher that hides nothing. -/
def plainAead : MetadataAead Unit where
  deriveHmac _ _ _ := Vector.replicate 32 0
  encrypt _ _ _ plaintext := (plaintext, Vector.replicate 16 0)
  decrypt _ _ _ ciphertext _ := some ciphertext
  length_encrypt _ _ _ _ := rfl
  decrypt_encrypt _ _ _ _ := rfl

def sampleKey : KeyMaterial Unit := ⟨⟨"metadata", by decide⟩, .metadata, .primary, ()⟩

def sampleKeyring : Crypto.KeyRing Unit := ⟨[sampleKey], by decide⟩

def sampleObject : BackendObjectId := ⟨"object", by decide⟩

def sampleFormatRef : V3FormatRef := ⟨1, Text.hexEncode (List.replicate 32 0), sampleObject, none⟩

def sampleKeyringRef : V3KeyringEnvelopeRef := ⟨sampleObject, Vector.replicate 32 0⟩

section

variable (path : LogicalPath)

/-- A run whose listing bounds are both `path`. -/
def sampleRun : V3IndexRootRunRef where
  runId := Vector.replicate 32 1
  runSequence := 1
  minimumGeneration := 1
  maximumGeneration := 1
  mutationCount := 1
  frameCount := 1
  level := 0
  compactionGeneration := 0
  namespaceBounds := (.ofRaw (Vector.replicate 32 0), .ofRaw (Vector.replicate 32 0))
  listingBounds := (path, path)
  keyringEnvelopeRef := sampleKeyringRef
  location := ⟨sampleObject, none, 1, Vector.replicate 32 0, 0, 0, 0, 1, Vector.replicate 32 0⟩

def sampleRoot : V3IndexRoot where
  completionReceipts := .default
  coveredGeneration := 1
  expectedLiveObjectCount := 1
  requiredCapabilities := 0
  formatRef := sampleFormatRef
  keyringEnvelopeRef := sampleKeyringRef
  claims := ⟨1, 1, 1, 1, 0⟩
  runs := [sampleRun path]

theorem validateRuns_sample : validateRuns 1 1 [sampleRun path] = .ok ⟨1, 1, 1, 1, 0⟩ := by
  have hfacts : validateRunFacts 1 (sampleRun path) = .ok () := by
    have hself : ∀ {α : Type} [Ord α] [Std.TransOrd α] (a : α), compare a a ≠ .gt := by
      intro α _ _ a
      rw [compare_self_eq]
      decide
    exact ensure_of ⟨(by decide : (Vector.replicate 32 1 : Digest) ≠ Vector.replicate 32 0),
      (by decide : (1 : ℕ) ≠ 0), (by decide : 1 ≤ maxMutationsPerRun), (by decide : (1 : ℕ) ≠ 0),
      (by decide : 1 ≤ maxFramesPerRun), (by decide : (1 : Sequence) ≠ 0), (by decide : (1 : Sequence) ≤ 1), rfl,
      (by decide : (1 : Sequence) ≤ 1), (by decide : 0 ≤ maxLevel), Iff.rfl, hself _, hself path⟩
  have hstep : validateRunStep 1 .start (sampleRun path) =
      .ok ⟨some (Vector.replicate 32 1), [(sampleObject, none, 0)], 1, 1, 1, 0, some 1⟩ := by
    rw [validateRunStep, ensure_of (fun _ h => by cases h), ok_bind, hfacts]
    rfl
  have hcount : [sampleRun path].length ≤ maxRuns := (by decide : 1 ≤ maxRuns)
  rw [validateRuns, ensure_of hcount, ok_bind, foldlM_cons, hstep]
  rfl

theorem new_sample : new 1 1 sampleFormatRef sampleKeyringRef [sampleRun path] = .ok (sampleRoot path) := by
  have hsort : [sampleRun path].insertionSort (fun a b => (compare a.runId b.runId).isLE = true) = [sampleRun path] := rfl
  have hformat : validateFormatRef sampleFormatRef = .ok () := by decide +kernel
  have hkeyring : validateKeyringRef sampleKeyringRef = .ok () := by decide +kernel
  have hroot : validateRoot (sampleRoot path) = .ok () := by
    rw [validateRoot, ensure_of (by rfl), ok_bind]
    show (validateFormatRef sampleFormatRef >>= fun _ => validateKeyringRef sampleKeyringRef >>= fun _ =>
      validateRuns 1 1 [sampleRun path] >>= fun claims => ensure (claims = ⟨1, 1, 1, 1, 0⟩) _) = _
    rw [hformat, ok_bind, hkeyring, ok_bind, validateRuns_sample]
    rfl
  rw [new, hsort]
  simp only [validateRuns_sample, ok_bind, hformat, hkeyring]
  exact bind_eq_ok.mpr ⟨(), hroot, rfl⟩

theorem runRefTyped_sample : ∀ run ∈ [sampleRun path], RunRefTyped run := by
  intro run hrun
  obtain rfl := mem_singleton.mp hrun
  have hone : 1 < 2 ^ 64 := by decide
  have hzero : 0 < 2 ^ 64 := by decide
  exact ⟨(by decide : 1 < 2 ^ 32), (by decide : 1 < 2 ^ 32), (by decide : 0 < 2 ^ 16), hzero, ⟨_, rfl⟩, ⟨_, rfl⟩,
    ⟨hone, hzero, (by decide : 0 < 2 ^ 32), hzero, hone⟩⟩

end

def shortPath : LogicalPath := ⟨"a", by decide⟩

/-- A text of `n` letters. -/
def letters (n : ℕ) : String := String.ofList (List.replicate n 'a')

theorem validateNonEmpty_letters (h : n ≠ 0) : validateNonEmpty (letters n) = true := by
  rw [validateNonEmpty, letters, String.toList_ofList, any_replicate, if_neg h]
  rfl

theorem length_letters (n : ℕ) : (utf8 (letters n)).length = n := by
  rw [length_utf8]
  induction n with
  | zero => rfl
  | succ n ih =>
    rw [letters, replicate_succ', String.ofList_append, String.utf8ByteSize_append]
    exact congrArg (· + 1) ih

/-- A path of 1025 bytes. -/
def longPath : LogicalPath := ⟨letters 1025, validateNonEmpty_letters (by decide)⟩

theorem index_roots_exact_sample :
    (∃ sealed, sealV3IndexRoot plainAead sampleKeyring [0] sampleObject (some (Vector.replicate 32 7))
        (some (Vector.replicate 12 0)) 2 (withCompletionReceipts (sampleRoot shortPath) .default) = .ok sealed ∧
      sealed.bytes.length ≤ maxBytes ∧
      openV3IndexRoot plainAead sampleKeyring [0] sampleObject 2 sealed.bytes =
        .ok (withCompletionReceipts (sampleRoot shortPath) .default)) ∧
    decodeRoot (rootWire (sampleRoot shortPath)) = .ok (sampleRoot shortPath) ∧
      encodeRoot (sampleRoot shortPath) = .ok (rootWire (sampleRoot shortPath)) := by
  have hlisting : ∀ run ∈ [sampleRun shortPath], ListingShort run := by
    intro run hrun
    obtain rfl := mem_singleton.mp hrun
    have hshort : (utf8 "a").length ≤ maxTextLen := by decide +kernel
    exact ⟨hshort, hshort⟩
  have hdecode : decodeRoot (rootWire (sampleRoot shortPath)) = .ok (sampleRoot shortPath) := by
    obtain ⟨htyped, hvalid⟩ := rootTyped_of_new (new_sample shortPath) (by decide) (runRefTyped_sample shortPath) .default
    exact decodeRoot_eq_ok.mpr ⟨⟨htyped, hlisting, hvalid⟩, rfl⟩
  refine ⟨?_, hdecode, (index_roots_exact plainAead sampleKeyring).2 _ _ hdecode⟩
  exact (index_roots_exact plainAead sampleKeyring).1 1 1 sampleFormatRef sampleKeyringRef [sampleRun shortPath]
    (sampleRoot shortPath) .default [0] sampleObject 2 sampleKey (Vector.replicate 32 7) (Vector.replicate 12 0)
    (by decide) (by decide) (runRefTyped_sample shortPath) .default (new_sample shortPath) hlisting (by decide +kernel)
    rfl (by decide +kernel)

/-- A record takes listing bounds of up to 2000 bytes. -/
theorem sample_sealed_not_opened (hlow : 1024 < (utf8 path.asStr).length) (hhigh : (utf8 path.asStr).length ≤ 2000) :
    ∃ sealed, sealV3IndexRoot plainAead sampleKeyring [0] sampleObject (some (Vector.replicate 32 7))
        (some (Vector.replicate 12 0)) 2 (sampleRoot path) = .ok sealed ∧
      openV3IndexRoot plainAead sampleKeyring [0] sampleObject 2 sealed.bytes ≠ .ok (sampleRoot path) := by
  have hcontext : validateContext [0] sampleObject = .ok () := by decide +kernel
  have hkeyLen : sampleKey.id.asStr.utf8ByteSize ≤ maxKeyIdLen := by decide +kernel
  obtain ⟨htyped, hvalid⟩ := rootTyped_of_new (new_sample path) (by decide) (runRefTyped_sample path) .default
  have hchecked := rootChecked_of_validateRoot hvalid
  have hrecord := (length_runRefWire (runRefTyped_sample path _ mem_cons_self)
    (hchecked.runs (sampleRun path) mem_cons_self)).2
  have hpaths : (sampleRun path).listingBounds = (path, path) := rfl
  rw [hpaths] at hrecord
  have hfits : (runRefWire (sampleRun path)).length ≤ 7353 := by
    simp only at hrecord
    omega
  have hrecords : ∀ run ∈ (sampleRoot path).runs, (runRefWire run).length ≤ 7353 := forall_mem_singleton.mpr hfits
  have hlen : (rootWire (sampleRoot path)).length + 355 ≤ maxBytes := by
    have hbound := length_rootWire_le htyped hchecked hrecords
    exact (Nat.add_le_add_right hbound 355).trans (by decide : 1 * (7353 + 4) + 1324816 + 355 ≤ maxBytes)
  have hencode : encodeRoot (sampleRoot path) = .ok (rootWire (sampleRoot path)) := by
    refine encodeRoot_of htyped hchecked (fun run hrun => ?_) ((Nat.le_add_right _ _).trans hlen)
    obtain rfl := mem_singleton.mp hrun
    have hsmall : (utf8 path.asStr).length < 2 ^ 16 := lt_of_le_of_lt hhigh (by decide)
    exact encodeRunRecord_of (hchecked.runs _ hrun) hsmall hsmall (hfits.trans (by decide))
  have hkey : sampleKeyring.primaryKey .metadata = .ok sampleKey := rfl
  obtain ⟨sealed, hseal⟩ := exists_sealV3IndexRoot plainAead hcontext hkey hkeyLen (Vector.replicate 32 7)
    (Vector.replicate 12 0) 2 hvalid hencode hlen
  refine ⟨sealed, hseal, fun hopen => ?_⟩
  obtain ⟨plaintext, -, -, hiff⟩ := openV3IndexRoot_sealed hcontext (by decide) hseal
  obtain ⟨⟨-, hshort, -⟩, -⟩ := decodeRoot_eq_ok.mp ((hiff _).mp hopen)
  have hbad : (utf8 path.asStr).length ≤ 1024 := (hshort _ mem_cons_self).1
  omega

/-- A root whose run lists a path of 1025 bytes is built and sealed, and does not open. -/
theorem long_listing_bound_not_opened :
    new 1 1 sampleFormatRef sampleKeyringRef [sampleRun longPath] = .ok (sampleRoot longPath) ∧
    ∃ sealed, sealV3IndexRoot plainAead sampleKeyring [0] sampleObject (some (Vector.replicate 32 7))
        (some (Vector.replicate 12 0)) 2 (sampleRoot longPath) = .ok sealed ∧
      openV3IndexRoot plainAead sampleKeyring [0] sampleObject 2 sealed.bytes ≠ .ok (sampleRoot longPath) := by
  have hpath : (utf8 longPath.asStr).length = 1025 := length_letters 1025
  exact ⟨new_sample longPath, sample_sealed_not_opened (by rw [hpath]; decide) (by rw [hpath]; decide)⟩

end Rs3.IndexRoot
