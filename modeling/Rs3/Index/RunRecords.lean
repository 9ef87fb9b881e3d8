/-
# Rs3.Index.RunRecords — the records of an index run on the wire.

The field and record codecs of `run.rs`.  A `Writer` refuses the first write that would exceed its maximum; as it only
grows, it succeeds exactly when the finished bytes fit, and so a writer is modelled by its bytes and one final check.
Every reader has an exact equivalence: it returns a value exactly on the value's wire form, and only for values that
its checks allow.
-/
import Rs3.Index.RunValidate
import Rs3.Lib.Varint

namespace Rs3.Index

/-! ## Primitive fields -/

abbrev RunReader := Reader IndexRunError

def readByte : RunReader UInt8 := Reader.byte .unexpectedEof

def readBytes (length : ℕ) : RunReader Bytes := Reader.take .unexpectedEof length

def readVarint : RunReader ℕ := Reader.varint .unexpectedEof .integerOverflow .nonCanonicalVarint

/-- `u32_varint`. -/
def readU32Varint : RunReader ℕ := do
  let value ← readVarint
  okOr (tryFrom 32 value) IndexRunError.integerOverflow

/-- A generation is a varint. -/
def readGeneration : RunReader Sequence := do
  let value ← readVarint
  okOr (U64.ofNat? value) IndexRunError.integerOverflow

def readU64 : RunReader ℕ := Reader.be .unexpectedEof 8

/-- The two's complement of a signed value. -/
def i64Bits (value : ℤ) : ℕ := (value % 2 ^ 64).toNat

def ofI64Bits (bits : ℕ) : ℤ := if bits < 2 ^ 63 then (bits : ℤ) else (bits : ℤ) - 2 ^ 64

theorem i64Bits_lt (value : ℤ) : i64Bits value < 2 ^ 64 := by
  unfold i64Bits
  omega

theorem ofI64Bits_i64Bits (h : -2 ^ 63 ≤ value ∧ value < 2 ^ 63) : ofI64Bits (i64Bits value) = value := by
  unfold ofI64Bits i64Bits
  split_ifs <;> omega

variable {bits maximum : ℕ} {bytes : Bytes}

theorem i64Bits_ofI64Bits (h : bits < 2 ^ 64) : i64Bits (ofI64Bits bits) = bits := by
  unfold ofI64Bits i64Bits
  split_ifs <;> omega

theorem ofI64Bits_range (h : bits < 2 ^ 64) : -2 ^ 63 ≤ ofI64Bits bits ∧ ofI64Bits bits < 2 ^ 63 := by
  unfold ofI64Bits
  split_ifs <;> omega

/-- `i64::to_be_bytes`. -/
def wireI64 (value : ℤ) : Bytes := toBe 8 (i64Bits value)

/-- `i64::from_be_bytes`. -/
def readI64 : RunReader ℤ := do
  let bits ← readU64
  return ofI64Bits bits

/-- `bounded_count`. -/
def boundedCount (field : String) (maximum : ℕ) : RunReader ℕ := do
  let value ← readVarint
  validateCount field value maximum
  return value

/-- `Reader::record`: the bytes of the next length-delimited record. -/
def readRecord (maximum : ℕ) : RunReader Bytes := do
  let length ← boundedCount "record bytes" maximum
  readBytes length

/-- `Writer::record`. -/
def sized (record : Bytes) : Bytes := varint record.length ++ record

/-- `Writer::string`, after its length check. -/
def wireText (text : String) : Bytes := varint (textLen text) ++ utf8 text

/-- `Writer::string`. -/
def writeText (field text : String) (maximum : ℕ) : Except IndexRunError Bytes := do
  validateCount field (textLen text) maximum
  return wireText text

/-- `typed_string`. -/
def typedString {α : Type} (field : String) (maximum : ℕ) (construct : String → Option α) : RunReader α := do
  let length ← boundedCount field maximum
  let bytes ← readBytes length
  let text ← okOr (fromUtf8 bytes) (IndexRunError.invalidUtf8 field)
  okOr (construct text) (IndexRunError.invalidValue field)

/-- Thirty-two raw bytes. -/
def readDigest : RunReader Digest := do
  let bytes ← readBytes 32
  okOr (exactly 32 bytes) IndexRunError.unexpectedEof

/-- What `Writer::finish` returns when no write was refused. -/
def finishWriter (maximum : ℕ) (bytes : Bytes) : Except IndexRunError Bytes := do
  validateCount "encoded bytes" bytes.length maximum
  return bytes

section

variable {input rest : Bytes}

theorem readByte_eq_ok : readByte.run input = .ok (b, rest) ↔ input = b :: rest := Reader.byte_eq_ok

theorem readBytes_eq_ok : (readBytes n).run input = .ok (bytes, rest) ↔ bytes.length = n ∧ input = bytes ++ rest :=
  Reader.take_eq_ok

theorem readVarint_eq_ok : readVarint.run input = .ok (n, rest) ↔ n < 2 ^ 64 ∧ input = varint n ++ rest :=
  Reader.varint_eq_ok

theorem readU32Varint_eq_ok : readU32Varint.run input = .ok (n, rest) ↔ n < 2 ^ 32 ∧ input = varint n ++ rest := by
  simp only [readU32Varint, Reader.ok_iff, readVarint_eq_ok, okOr_eq_ok, tryFrom_eq_some]
  constructor
  · rintro ⟨_, _, ⟨-, rfl⟩, ⟨hlt, rfl⟩, rfl⟩
    exact ⟨hlt, rfl⟩
  · rintro ⟨hlt, rfl⟩
    exact ⟨n, rest, ⟨by omega, rfl⟩, ⟨hlt, rfl⟩, rfl⟩

theorem readGeneration_eq_ok {sequence : Sequence} :
    readGeneration.run input = .ok (sequence, rest) ↔ input = varint sequence.get ++ rest := by
  simp only [readGeneration, Reader.ok_iff, readVarint_eq_ok, okOr_eq_ok, U64.ofNat?_eq_some, Reader.exists_converted]
  exact and_iff_right sequence.isLt

theorem readU64_eq_ok : readU64.run input = .ok (n, rest) ↔ n < 2 ^ 64 ∧ input = toBe 8 n ++ rest := by
  rw [readU64, Reader.be_eq_ok, show (256 : ℕ) ^ 8 = 2 ^ 64 from rfl]

theorem readI64_eq_ok : readI64.run input = .ok (value, rest) ↔
    (-2 ^ 63 ≤ value ∧ value < 2 ^ 63) ∧ input = wireI64 value ++ rest := by
  simp only [readI64, Reader.ok_iff, readU64_eq_ok, wireI64]
  constructor
  · rintro ⟨n, _, ⟨hlt, rfl⟩, rfl, rfl⟩
    exact ⟨ofI64Bits_range hlt, by rw [i64Bits_ofI64Bits hlt]⟩
  · rintro ⟨hrange, rfl⟩
    exact ⟨_, rest, ⟨i64Bits_lt value, rfl⟩, ofI64Bits_i64Bits hrange, rfl⟩

theorem boundedCount_eq_ok (hmax : maximum < 2 ^ 64) :
    (boundedCount field maximum).run input = .ok (n, rest) ↔ n ≤ maximum ∧ input = varint n ++ rest := by
  simp only [boundedCount, Reader.ok_iff, readVarint_eq_ok, validateCount_eq_ok]
  constructor
  · rintro ⟨_, _, ⟨-, rfl⟩, _, _, ⟨hle, rfl⟩, rfl, rfl⟩
    exact ⟨hle, rfl⟩
  · rintro ⟨hle, rfl⟩
    exact ⟨n, rest, ⟨by omega, rfl⟩, (), rest, ⟨hle, rfl⟩, rfl, rfl⟩

theorem typedString_eq_ok {α : Type} {construct : String → Option α} {text : α → String}
    (hmax : maximum < 2 ^ 64) (hconstruct : ∀ s a, construct s = some a ↔ s = text a) {a : α} :
    (typedString field maximum construct).run input = .ok (a, rest) ↔
      textLen (text a) ≤ maximum ∧ input = wireText (text a) ++ rest := by
  simp only [typedString, Reader.ok_iff, boundedCount_eq_ok hmax, readBytes_eq_ok, okOr_eq_ok, fromUtf8_eq_some,
    hconstruct, wireText]
  constructor
  · rintro ⟨_, _, ⟨hle, rfl⟩, _, _, ⟨rfl, rfl⟩, _, _, ⟨rfl, rfl⟩, rfl, rfl⟩
    exact ⟨hle, (List.append_assoc ..).symm⟩
  · rintro ⟨hle, rfl⟩
    exact ⟨_, _, ⟨hle, List.append_assoc ..⟩, _, _, ⟨rfl, rfl⟩, _, _, ⟨rfl, rfl⟩, rfl, rfl⟩

theorem readDigest_eq_ok : readDigest.run input = .ok (digest, rest) ↔ input = digest.toList ++ rest := by
  simp only [readDigest, Reader.ok_iff, readBytes_eq_ok, okOr_eq_ok, exactly_eq_some, Reader.exists_converted]
  exact and_iff_right digest.length_toList

end

/-! ## Containers -/

/-- `DecodedExactContainer`. -/
structure ExactContainer where
  objectId : BackendObjectId
  versionId : Option BackendVersionId
  storedLen : ℕ
  objectDigest : Digest
  keyringEnvelope : IndexRunKeyringRef
  deriving DecidableEq

namespace ExactContainer

def exact (container : ExactContainer) : ExactObject := (container.objectId, container.versionId)

def wireVersion : Option BackendVersionId → Bytes
  | none => [0]
  | some versionId => 1 :: wireText versionId.asStr

/-- The bytes of `encode_exact_container`. -/
def wire (container : ExactContainer) : Bytes :=
  wireText container.objectId.asStr ++ (wireVersion container.versionId ++ (toBe 8 container.storedLen ++
    (container.objectDigest.toList ++ (wireText container.keyringEnvelope.objectId.asStr ++
      container.keyringEnvelope.digest.toList))))

end ExactContainer

def encodeVersion (limits : IndexRunLimits) : Option BackendVersionId → Except IndexRunError Bytes
  | none => .ok [0]
  | some versionId => do
    let text ← writeText "version id" versionId.asStr limits.maxVersionIdBytes
    return 1 :: text

/-- `encode_exact_container`. -/
def encodeExactContainer (limits : IndexRunLimits) (container : ExactContainer) : Except IndexRunError Bytes := do
  let objectId ← writeText "object id" container.objectId.asStr limits.maxObjectIdBytes
  let version ← encodeVersion limits container.versionId
  let keyring ← writeText "keyring envelope object id" container.keyringEnvelope.objectId.asStr limits.maxObjectIdBytes
  return objectId ++ (version ++ (toBe 8 container.storedLen ++ (container.objectDigest.toList ++
    (keyring ++ container.keyringEnvelope.digest.toList))))

def decodeVersion (limits : IndexRunLimits) : RunReader (Option BackendVersionId) := do
  let tag ← readByte
  if tag = 0 then return none
  else if tag = 1 then do
    let versionId ← typedString "version id" limits.maxVersionIdBytes BackendVersionId.new?
    return some versionId
  else throw (.invalidTag "version option" tag)

/-- `decode_exact_container`. -/
def decodeExactContainer (limits : IndexRunLimits) : RunReader ExactContainer := do
  let objectId ← typedString "object id" limits.maxObjectIdBytes BackendObjectId.new?
  let versionId ← decodeVersion limits
  let storedLen ← readU64
  let objectDigest ← readDigest
  let keyringObjectId ← typedString "keyring envelope object id" limits.maxObjectIdBytes BackendObjectId.new?
  let keyringDigest ← readDigest
  return ⟨objectId, versionId, storedLen, objectDigest, ⟨keyringObjectId, keyringDigest⟩⟩

section

variable {limits : IndexRunLimits} {input rest : Bytes}

theorem readObjectId_eq_ok {objectId : BackendObjectId} :
    (typedString field limits.maxObjectIdBytes BackendObjectId.new?).run input = .ok (objectId, rest) ↔
      textLen objectId.asStr ≤ limits.maxObjectIdBytes ∧ input = wireText objectId.asStr ++ rest :=
  typedString_eq_ok (limits.usize _ (by simp)) fun _ _ => BackendObjectId.new?_eq_some

theorem readKeyId_eq_ok {keyId : KeyId} :
    (typedString field limits.maxKeyIdBytes KeyId.new?).run input = .ok (keyId, rest) ↔
      textLen keyId.asStr ≤ limits.maxKeyIdBytes ∧ input = wireText keyId.asStr ++ rest :=
  typedString_eq_ok (limits.usize _ (by simp)) fun _ _ => KeyId.new?_eq_some

theorem decodeVersion_eq_ok {versionId : Option BackendVersionId} :
    (decodeVersion limits).run input = .ok (versionId, rest) ↔
      (∀ v ∈ versionId, textLen v.asStr ≤ limits.maxVersionIdBytes) ∧
        input = ExactContainer.wireVersion versionId ++ rest := by
  simp only [decodeVersion, Reader.ok_iff, readByte_eq_ok, Reader.ite_eq_ok, Reader.throw_eq_ok,
    typedString_eq_ok (limits.usize limits.maxVersionIdBytes (by simp)) fun _ _ => BackendVersionId.new?_eq_some]
  constructor
  · rintro ⟨tag, _, rfl, ⟨rfl, rfl, rfl⟩ | ⟨-, ⟨rfl, versionId, _, ⟨hle, rfl⟩, rfl, rfl⟩ | ⟨-, h⟩⟩⟩
    · exact ⟨by simp, rfl⟩
    · exact ⟨by simpa using hle, rfl⟩
    · exact h.elim
  · rintro ⟨hle, rfl⟩
    rcases versionId with _ | versionId
    · exact ⟨0, rest, rfl, .inl ⟨rfl, rfl, rfl⟩⟩
    · exact ⟨1, _, rfl, .inr ⟨by decide, .inl ⟨rfl, versionId, rest, ⟨hle versionId rfl, rfl⟩, rfl, rfl⟩⟩⟩

theorem decodeExactContainer_eq_ok :
    (decodeExactContainer limits).run input = .ok (container, rest) ↔
      (container.storedLen < 2 ^ 64 ∧ ExactFits limits container.exact container.keyringEnvelope) ∧
        input = container.wire ++ rest := by
  simp only [decodeExactContainer, Reader.ok_iff, readObjectId_eq_ok, decodeVersion_eq_ok, readU64_eq_ok,
    readDigest_eq_ok, ExactContainer.wire, List.append_assoc]
  constructor
  · rintro ⟨_, _, ⟨hobject, rfl⟩, _, _, ⟨hversion, rfl⟩, _, _, ⟨hstored, rfl⟩, _, _, rfl, _, _, ⟨hkeyring, rfl⟩, _, _,
      rfl, rfl, rfl⟩
    exact ⟨⟨hstored, hobject, hversion, hkeyring⟩, rfl⟩
  · rintro ⟨⟨hstored, hobject, hversion, hkeyring⟩, rfl⟩
    exact ⟨_, _, ⟨hobject, rfl⟩, _, _, ⟨hversion, rfl⟩, _, _, ⟨hstored, rfl⟩, _, _, rfl, _, _, ⟨hkeyring, rfl⟩, _, _,
      rfl, rfl, rfl⟩

end

/-! ### Pack containers -/

namespace IndexRunContainer

variable (container : IndexRunContainer)

/-- The machine ranges of the fields. -/
structure Typed : Prop where
  storedLen : container.storedLen < 2 ^ 64
  packSectionOffset : container.packSectionOffset < 2 ^ 64
  packSectionOrdinal : container.packSectionOrdinal < 2 ^ 32
  packSectionLen : container.packSectionLen < 2 ^ 64
  packRecordCount : container.packRecordCount < 2 ^ 32

def exactContainer : ExactContainer :=
  ⟨container.objectId, container.versionId, container.storedLen, container.commitBodyDigest, container.keyringEnvelope⟩

/-- The fields after the exact object. -/
def wireFields : Bytes :=
  varint container.packSectionOrdinal ++ (toBe 8 container.packSectionOffset ++ (toBe 8 container.packSectionLen ++
    (container.packId.toList ++ (container.attemptId.toList ++ (wireText container.contentKeyId.asStr ++
      varint container.packRecordCount)))))

def wire : Bytes := container.exactContainer.wire ++ container.wireFields

end IndexRunContainer

/-- `decode_container`. -/
def decodeContainer (limits : IndexRunLimits) : RunReader IndexRunContainer := do
  let exact ← decodeExactContainer limits
  let packSectionOrdinal ← readU32Varint
  let packSectionOffset ← readU64
  let packSectionLen ← readU64
  let packId ← readDigest
  let attemptId ← readDigest
  let contentKeyId ← typedString "content key id" limits.maxKeyIdBytes KeyId.new?
  let packRecordCount ← readU32Varint
  let container : IndexRunContainer := ⟨exact.objectId, exact.versionId, exact.storedLen, exact.objectDigest,
    exact.keyringEnvelope, packSectionOffset, packSectionOrdinal, packSectionLen, packId, attemptId, contentKeyId,
    packRecordCount⟩
  validateContainerRange container
  return container

theorem decodeContainer_eq_ok {limits : IndexRunLimits} {input rest : Bytes} {container : IndexRunContainer} :
    (decodeContainer limits).run input = .ok (container, rest) ↔
      (container.Typed ∧ ContainerFits limits container) ∧ input = container.wire ++ rest := by
  simp only [decodeContainer, Reader.ok_iff, decodeExactContainer_eq_ok, readU32Varint_eq_ok, readU64_eq_ok,
    readDigest_eq_ok, readKeyId_eq_ok, IndexRunContainer.wire, IndexRunContainer.wireFields, List.append_assoc]
  constructor
  · rintro ⟨exact, _, ⟨⟨hstored, hexact⟩, rfl⟩, _, _, ⟨hordinal, rfl⟩, _, _, ⟨hoffset, rfl⟩, _, _, ⟨hlen, rfl⟩, _, _,
      rfl, _, _, rfl, _, _, ⟨hkey, rfl⟩, _, _, ⟨hcount, rfl⟩, _, _, ⟨hrange, rfl⟩, rfl, rfl⟩
    exact ⟨⟨⟨hstored, hoffset, hordinal, hlen, hcount⟩, ⟨hexact, hkey, hrange⟩⟩, rfl⟩
  · rintro ⟨⟨⟨hstored, hoffset, hordinal, hlen, hcount⟩, ⟨hexact, hkey, hrange⟩⟩, rfl⟩
    exact ⟨container.exactContainer, _, ⟨⟨hstored, hexact⟩, rfl⟩, _, _, ⟨hordinal, rfl⟩, _, _, ⟨hoffset, rfl⟩, _, _,
      ⟨hlen, rfl⟩, _, _, rfl, _, _, rfl, _, _, ⟨hkey, rfl⟩, _, _, ⟨hcount, rfl⟩, (), _, ⟨hrange, rfl⟩, rfl, rfl⟩

/-! ### Standalone containers -/

namespace PayloadPart

def wire (part : PayloadPart) : Bytes := varint part.partNumber ++ (part.attemptId.toList ++ varint part.plaintextLen)

end PayloadPart

/-- `encode_payload_layout`. -/
def encodePayloadLayout (layout : PayloadLayout) : Except IndexRunError Bytes := do
  let keyId ← writeText "content key id" layout.keyId.asStr 255
  return varint layout.chunkSize ++ (varint layout.plaintextLen ++ (keyId ++ (layout.carrierId.toList ++
    (varint layout.parts.length ++ layout.parts.flatMap PayloadPart.wire))))

def decodePart : RunReader PayloadPart := do
  let partNumber ← readU32Varint
  let attemptId ← readDigest
  let plaintextLen ← readVarint
  return ⟨partNumber, attemptId, plaintextLen⟩

/-- Enough bytes remain for `count` parts of at least 34 bytes each. -/
def requireParts (count : ℕ) : RunReader Unit := fun remaining =>
  if remaining.length / 34 < count then .error .invalidStandaloneStreamContainer else .ok ((), remaining)

/-- `decode_payload_layout`. -/
def decodePayloadLayout (limits : IndexRunLimits) : RunReader PayloadLayout := do
  let chunkSize ← readVarint
  let plaintextLen ← readVarint
  let keyId ← typedString "content key id" limits.maxKeyIdBytes KeyId.new?
  let carrierId ← readDigest
  let count ← boundedCount "payload part count" maxPayloadParts
  requireParts count
  let parts ← Reader.many decodePart count
  let layout : PayloadLayout := ⟨chunkSize, plaintextLen, keyId, carrierId, parts⟩
  validatePayloadLayout limits layout
  return layout

namespace IndexRunStandaloneStreamContainer

variable (container : IndexRunStandaloneStreamContainer)

def exactContainer : ExactContainer :=
  ⟨container.objectId, container.versionId, container.storedLen, container.objectDigest, container.keyringEnvelope⟩

end IndexRunStandaloneStreamContainer

/-- `decode_standalone_stream_container`. -/
def decodeStandaloneStreamContainer (limits : IndexRunLimits) : RunReader IndexRunStandaloneStreamContainer := do
  let exact ← decodeExactContainer limits
  let payloadLayout ← decodePayloadLayout limits
  let container : IndexRunStandaloneStreamContainer := ⟨exact.objectId, exact.versionId, exact.storedLen,
    exact.objectDigest, exact.keyringEnvelope, payloadLayout⟩
  validateStandaloneStreamContainer limits container
  return container

end Rs3.Index
