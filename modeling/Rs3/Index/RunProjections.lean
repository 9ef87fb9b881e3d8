/-
# Rs3.Index.RunProjections — the two projections of a mutation on the wire.

A run stores each mutation twice: a namespace record under its blind key, with the payload pointer and the object
metadata, and a listing record under its path, front-coded against the path before it.  Both carry the mutation
ordinal, and `pairProjections` puts the two halves together again.
-/
import Rs3.Index.RunRecords

namespace Rs3.Index

open List IndexRunError

/-! ## Payload pointers -/

namespace IndexPackRecordPointer

def Typed (record : IndexPackRecordPointer) : Prop := record.recordOrdinal < 2 ^ 32 ∧ record.physicalOffset < 2 ^ 32

/-- `encode_pack_record_pointer`. -/
def wire (record : IndexPackRecordPointer) : Bytes := varint record.recordOrdinal ++ varint record.physicalOffset

end IndexPackRecordPointer

namespace IndexPayloadPointer

def Typed : IndexPayloadPointer → Prop
  | empty => True
  | selfPack record => record.Typed
  | externalPack ordinal record => ordinal < 2 ^ 32 ∧ record.Typed
  | externalStandaloneStream ordinal => ordinal < 2 ^ 32

/-- `encode_payload_pointer`. -/
def wire : IndexPayloadPointer → Bytes
  | empty => [0]
  | selfPack record => 1 :: record.wire
  | externalPack ordinal record => 2 :: (varint ordinal ++ record.wire)
  | externalStandaloneStream ordinal => 5 :: varint ordinal

end IndexPayloadPointer

/-- `decode_pack_record_pointer`. -/
def decodePackRecordPointer : RunReader IndexPackRecordPointer := do
  let recordOrdinal ← readU32Varint
  let physicalOffset ← readU32Varint
  return ⟨recordOrdinal, physicalOffset⟩

/-- `decode_payload_pointer`. -/
def decodePayloadPointer (tables : PayloadTables) : RunReader IndexPayloadPointer := do
  let tag ← readByte
  if tag = 0 then return .empty
  else if tag = 1 then do
    let record ← decodePackRecordPointer
    let pack ← okOr tables.selfPack invalidPackRecordCount
    ensure (record.recordOrdinal < pack.recordCount) invalidPackRecordCount
    return .selfPack record
  else if tag = 2 then do
    let ordinal ← readU32Varint
    let container ← okOr tables.containers[ordinal]? (invalidContainerOrdinal ordinal)
    let record ← decodePackRecordPointer
    ensure (record.recordOrdinal < container.packRecordCount) invalidPackRecordCount
    return .externalPack ordinal record
  else if tag = 5 then do
    let ordinal ← readU32Varint
    ensure (ordinal < tables.standaloneStreamContainers.length) (invalidContainerOrdinal ordinal)
    return .externalStandaloneStream ordinal
  else throw (invalidTag "payload pointer" tag)

section

variable {input rest : Bytes}

theorem decodePackRecordPointer_eq_ok :
    decodePackRecordPointer.run input = .ok (record, rest) ↔ record.Typed ∧ input = record.wire ++ rest := by
  simp only [decodePackRecordPointer, Reader.ok_iff, readU32Varint_eq_ok, IndexPackRecordPointer.wire, append_assoc]
  constructor
  · rintro ⟨_, _, ⟨hordinal, rfl⟩, _, _, ⟨hoffset, rfl⟩, rfl, rfl⟩
    exact ⟨⟨hordinal, hoffset⟩, rfl⟩
  · rintro ⟨⟨hordinal, hoffset⟩, rfl⟩
    exact ⟨_, _, ⟨hordinal, rfl⟩, _, _, ⟨hoffset, rfl⟩, rfl, rfl⟩

theorem decodePayloadPointer_eq_ok :
    (decodePayloadPointer tables).run input = .ok (pointer, rest) ↔
      (pointer.Typed ∧ tables.Holds pointer) ∧ input = pointer.wire ++ rest := by
  simp only [decodePayloadPointer, Reader.ok_iff, readByte_eq_ok, Reader.ite_eq_ok, Reader.throw_eq_ok,
    decodePackRecordPointer_eq_ok, ok_iff, readU32Varint_eq_ok, existsAndEq, and_true]
  -- the tag of the pointer leaves one branch, and the sides differ in the order of their facts
  cases pointer <;> grind [IndexPayloadPointer.Typed, PayloadTables.Holds, IndexPayloadPointer.wire]

end

/-! ## Object metadata -/

namespace RetentionMode

def tag : RetentionMode → UInt8
  | none => 0
  | governance => 1
  | compliance => 2

end RetentionMode

/-- `encode_retention`. -/
def wireRetention : Option RetentionPolicy → Bytes
  | none => [0]
  | some retention => 1 :: retention.mode.tag :: varint retention.retainDays

def decodeRetentionMode : RunReader RetentionMode := do
  let tag ← readByte
  if tag = 0 then return .none
  else if tag = 1 then return .governance
  else if tag = 2 then return .compliance
  else throw (.invalidTag "retention mode" tag)

/-- `decode_retention`. -/
def decodeRetention : RunReader (Option RetentionPolicy) := do
  let tag ← readByte
  if tag = 0 then return none
  else if tag = 1 then do
    let mode ← decodeRetentionMode
    let retainDays ← readU32Varint
    return some ⟨mode, retainDays⟩
  else throw (.invalidTag "retention option" tag)

/-- `encode_legal_hold`. -/
def wireLegalHold : Option LegalHoldStatus → UInt8
  | none => 0
  | some .off => 1
  | some .on => 2

/-- `decode_legal_hold`. -/
def decodeLegalHold : RunReader (Option LegalHoldStatus) := do
  let tag ← readByte
  if tag = 0 then return none
  else if tag = 1 then return some .off
  else if tag = 2 then return some .on
  else throw (.invalidTag "legal hold" tag)

/-- The bytes of `encode_checksum`. -/
def wireChecksum : Option ObjectChecksum → Bytes
  | none => [0]
  | some checksum => UInt8.ofNat checksum.encode.length :: checksum.encode

/-- `encode_checksum`. -/
def encodeChecksum (checksum : Option ObjectChecksum) : Except IndexRunError Bytes :=
  match checksum with
  | none => .ok [0]
  | some checksum => do
    validateCount "checksum" checksum.encode.length ObjectChecksum.maxEncodedBytes
    let length ← okOr (tryFrom 8 checksum.encode.length) .integerOverflow
    return UInt8.ofNat length :: checksum.encode

/-- `decode_checksum`. -/
def decodeChecksum : RunReader (Option ObjectChecksum) := do
  let length ← readByte
  if length = 0 then return none
  else do
    validateCount "checksum" length.toNat ObjectChecksum.maxEncodedBytes
    let bytes ← readBytes length.toNat
    let checksum ← (ObjectChecksum.decode bytes).mapError fun _ => invalidValue "checksum"
    return some checksum

/-- `decode_etag`. -/
def decodeEtag : RunReader ObjectEtag := do
  let bytes ← readBytes 20
  (ObjectEtag.decode bytes).mapError fun _ => invalidValue "etag"

/-- `decode_blind_key`. -/
def decodeBlindKey : RunReader BlindIndexKey := do
  let raw ← readDigest
  return .ofRaw raw

section

variable {input rest : Bytes}

theorem decodeRetentionMode_eq_ok : decodeRetentionMode.run input = .ok (mode, rest) ↔ input = mode.tag :: rest := by
  simp only [decodeRetentionMode, Reader.ok_iff, readByte_eq_ok, Reader.ite_eq_ok, Reader.throw_eq_ok]
  cases mode <;> simp [RetentionMode.tag]

theorem decodeRetention_eq_ok :
    decodeRetention.run input = .ok (retention, rest) ↔
      (∀ r ∈ retention, r.retainDays < 2 ^ 32) ∧ input = wireRetention retention ++ rest := by
  simp only [decodeRetention, Reader.ok_iff, readByte_eq_ok, Reader.ite_eq_ok, Reader.throw_eq_ok,
    decodeRetentionMode_eq_ok, readU32Varint_eq_ok]
  rcases retention with _ | ⟨mode, days⟩ <;> simp [wireRetention, and_comm]

theorem decodeLegalHold_eq_ok :
    decodeLegalHold.run input = .ok (legalHold, rest) ↔ input = wireLegalHold legalHold :: rest := by
  simp only [decodeLegalHold, Reader.ok_iff, readByte_eq_ok, Reader.ite_eq_ok, Reader.throw_eq_ok]
  rcases legalHold with _ | _ | _ <;> simp [wireLegalHold]

theorem length_checksum_encode_ne_zero (checksum : ObjectChecksum) : checksum.encode.length ≠ 0 := by
  have hhead : (Cbor.writeArrayLen 3).length = 1 := by decide +kernel
  simp only [ObjectChecksum.encode, length_append, hhead]
  omega

theorem decodeChecksum_eq_ok :
    decodeChecksum.run input = .ok (checksum, rest) ↔
      (∀ c ∈ checksum, c.WellFormed) ∧ input = wireChecksum checksum ++ rest := by
  simp only [decodeChecksum, Reader.ok_iff, readByte_eq_ok, Reader.ite_eq_ok, validateCount_eq_ok, readBytes_eq_ok,
    mapError_eq_ok, ObjectChecksum.decode_eq_ok]
  constructor
  · rintro ⟨length, _, rfl, ⟨rfl, rfl, rfl⟩ | ⟨-, _, _, ⟨-, rfl⟩, _, _, ⟨hlen, rfl⟩, _, _, ⟨⟨hwf, rfl⟩, rfl⟩, rfl, rfl⟩⟩
    · exact ⟨by simp, rfl⟩
    · refine ⟨by simpa using hwf, ?_⟩
      rw [wireChecksum, hlen, UInt8.ofNat_toNat]
      rfl
  · rintro ⟨hwf, rfl⟩
    rcases checksum with _ | checksum
    · exact ⟨0, rest, rfl, .inl ⟨rfl, rfl, rfl⟩⟩
    · have hwf' := hwf checksum rfl
      have hle : checksum.encode.length ≤ 48 := ObjectChecksum.length_encode_le hwf'
      have hne := length_checksum_encode_ne_zero checksum
      have hval : (UInt8.ofNat checksum.encode.length).toNat = checksum.encode.length := Reader.byte_ofNat_lt (by omega)
      refine ⟨UInt8.ofNat checksum.encode.length, _, rfl, .inr ⟨fun h => hne ?_, (), _, ⟨?_, rfl⟩, checksum.encode, rest,
        ⟨hval.symm, rfl⟩, checksum, rest, ⟨⟨hwf', rfl⟩, rfl⟩, rfl, rfl⟩⟩
      · rw [← hval, h]
        rfl
      · rw [hval]
        exact hle

theorem decodeEtag_eq_ok : decodeEtag.run input = .ok (etag, rest) ↔ etag.WellFormed ∧ input = etag.encode ++ rest := by
  simp only [decodeEtag, Reader.ok_iff, readBytes_eq_ok, mapError_eq_ok, ObjectEtag.decode_eq_ok]
  constructor
  · rintro ⟨_, _, ⟨-, rfl⟩, ⟨hwf, rfl⟩, rfl⟩
    exact ⟨hwf, rfl⟩
  · rintro ⟨hwf, rfl⟩
    exact ⟨_, rest, ⟨ObjectEtag.length_encode etag, rfl⟩, ⟨hwf, rfl⟩, rfl⟩

theorem decodeBlindKey_eq_ok : decodeBlindKey.run input = .ok (key, rest) ↔ key.IsRaw ∧ input = key.raw ++ rest := by
  simp only [decodeBlindKey, Reader.ok_iff, readDigest_eq_ok]
  constructor
  · rintro ⟨raw, _, rfl, rfl, rfl⟩
    exact ⟨⟨raw, rfl⟩, by rw [BlindIndexKey.raw_ofRaw]⟩
  · rintro ⟨⟨raw, rfl⟩, rfl⟩
    exact ⟨raw, rest, by rw [BlindIndexKey.raw_ofRaw], rfl, rfl⟩

end

/-! ## The namespace projection -/

structure NamespaceUpsert where
  blindKey : BlindIndexKey
  namespaceKeyId : KeyId
  generation : Sequence
  payload : IndexPayloadPointer
  contentLen : ℕ
  modifiedAtMs : ℤ
  retention : Option RetentionPolicy
  legalHold : Option LegalHoldStatus
  checksum : Option ObjectChecksum
  etag : ObjectEtag
  deriving DecidableEq

inductive NamespaceProjection where
  | upsert (upsert : NamespaceUpsert)
  | tombstone (blindKey : BlindIndexKey) (namespaceKeyId : KeyId) (generation : Sequence)
  deriving DecidableEq

/-- The machine ranges and checked constructors of an upsert's metadata. -/
structure NamespaceUpsert.Typed (u : NamespaceUpsert) : Prop where
  blindKey : u.blindKey.IsRaw
  payload : u.payload.Typed
  contentLen : u.contentLen < 2 ^ 64
  modifiedAtMs : -2 ^ 63 ≤ u.modifiedAtMs ∧ u.modifiedAtMs < 2 ^ 63
  retention : ∀ r ∈ u.retention, r.retainDays < 2 ^ 32
  checksum : ∀ c ∈ u.checksum, c.WellFormed
  etag : u.etag.WellFormed

namespace NamespaceProjection

/-- `NamespaceProjection::blind_key`. -/
def blindKey : NamespaceProjection → BlindIndexKey
  | upsert u => u.blindKey
  | tombstone blindKey _ _ => blindKey

def namespaceKeyId : NamespaceProjection → KeyId
  | upsert u => u.namespaceKeyId
  | tombstone _ namespaceKeyId _ => namespaceKeyId

def payload : NamespaceProjection → IndexPayloadPointer
  | upsert u => u.payload
  | tombstone _ _ _ => .empty

def Typed : NamespaceProjection → Prop
  | upsert u => u.Typed
  | tombstone blindKey _ _ => blindKey.IsRaw

/-- The payload pointer passes the checks against the tables. -/
def Fits (tables : PayloadTables) : NamespaceProjection → Prop
  | upsert u => tables.Holds u.payload ∧ validateEmptyPayload u.payload u.contentLen = .ok () ∧
      validatePayloadPointer tables u.payload u.contentLen = .ok ()
  | tombstone _ _ _ => True

/-- The bytes of a namespace record after its ordinal. -/
def wire (keyOrdinal : ℕ) : NamespaceProjection → Bytes
  | upsert u => 0 :: (u.blindKey.raw ++ (varint keyOrdinal ++ (varint u.generation.get ++ (u.payload.wire ++
      (varint u.contentLen ++ (wireI64 u.modifiedAtMs ++ (wireRetention u.retention ++ (wireLegalHold u.legalHold ::
        (wireChecksum u.checksum ++ u.etag.encode)))))))))
  | tombstone blindKey _ generation => 1 :: (blindKey.raw ++ (varint keyOrdinal ++ varint generation.get))

end NamespaceProjection

section

variable (namespaceKeyIds : List KeyId)

/-- `decode_namespace_key_reference`. -/
def decodeNamespaceKeyReference : RunReader (ℕ × KeyId) := do
  let ordinal ← readU32Varint
  let namespaceKeyId ← okOr namespaceKeyIds[ordinal]? (invalidNamespaceKeyOrdinal ordinal)
  return (ordinal, namespaceKeyId)

def decodeNamespaceUpsert (tables : PayloadTables) : RunReader (NamespaceProjection × ℕ) := do
  let blindKey ← decodeBlindKey
  let key ← decodeNamespaceKeyReference namespaceKeyIds
  let generation ← readGeneration
  let payload ← decodePayloadPointer tables
  let contentLen ← readVarint
  validateEmptyPayload payload contentLen
  validatePayloadPointer tables payload contentLen
  let modifiedAtMs ← readI64
  let retention ← decodeRetention
  let legalHold ← decodeLegalHold
  let checksum ← decodeChecksum
  let etag ← decodeEtag
  return (.upsert ⟨blindKey, key.2, generation, payload, contentLen, modifiedAtMs, retention, legalHold, checksum, etag⟩,
    key.1)

def decodeNamespaceTombstone : RunReader (NamespaceProjection × ℕ) := do
  let blindKey ← decodeBlindKey
  let key ← decodeNamespaceKeyReference namespaceKeyIds
  let generation ← readGeneration
  return (.tombstone blindKey key.2 generation, key.1)

/-- `decode_namespace_projection`. -/
def decodeNamespaceProjection (tables : PayloadTables) : RunReader (NamespaceProjection × ℕ) := do
  let tag ← readByte
  if tag = 0 then decodeNamespaceUpsert namespaceKeyIds tables
  else if tag = 1 then decodeNamespaceTombstone namespaceKeyIds
  else throw (.invalidTag "namespace mutation" tag)

end

section

variable {rest : Bytes}

theorem decodeNamespaceKeyReference_eq_ok :
    (decodeNamespaceKeyReference namespaceKeyIds).run input = .ok ((ordinal, namespaceKeyId), rest) ↔
      (ordinal < 2 ^ 32 ∧ namespaceKeyIds[ordinal]? = some namespaceKeyId) ∧ input = varint ordinal ++ rest := by
  simp only [decodeNamespaceKeyReference, Reader.ok_iff, readU32Varint_eq_ok, okOr_eq_ok, Prod.mk.injEq]
  constructor
  · rintro ⟨_, _, ⟨hlt, rfl⟩, _, _, ⟨hget, rfl⟩, ⟨rfl, rfl⟩, rfl⟩
    exact ⟨⟨hlt, hget⟩, rfl⟩
  · rintro ⟨⟨hlt, hget⟩, rfl⟩
    exact ⟨ordinal, rest, ⟨hlt, rfl⟩, namespaceKeyId, rest, ⟨hget, rfl⟩, ⟨rfl, rfl⟩, rfl⟩

theorem decodeNamespaceUpsert_eq_ok :
    (decodeNamespaceUpsert namespaceKeyIds tables).run input = .ok ((projection, keyOrdinal), rest) ↔
      ∃ u, projection = .upsert u ∧ ((u.Typed ∧ projection.Fits tables) ∧
        (keyOrdinal < 2 ^ 32 ∧ namespaceKeyIds[keyOrdinal]? = some u.namespaceKeyId)) ∧
          0 :: input = projection.wire keyOrdinal ++ rest := by
  simp only [decodeNamespaceUpsert, Reader.ok_iff, decodeBlindKey_eq_ok, readGeneration_eq_ok,
    decodePayloadPointer_eq_ok, readVarint_eq_ok, readI64_eq_ok, decodeRetention_eq_ok, decodeLegalHold_eq_ok,
    decodeChecksum_eq_ok, decodeEtag_eq_ok, Prod.exists, decodeNamespaceKeyReference_eq_ok, Prod.mk.injEq, existsAndEq,
    true_and, and_true]
  constructor
  · rintro ⟨_, _, _, _, _, _, _, _, _, _, _, _, ⟨hraw, rfl⟩, hkey, ⟨hpayload, hholds⟩, hlen, hempty, hpointer, hmodified,
      hretention, hchecksum, hetag, rfl⟩
    refine ⟨_, rfl, ⟨⟨⟨hraw, hpayload, hlen, hmodified, hretention, hchecksum, hetag⟩, hholds, hempty, hpointer⟩, hkey⟩,
      ?_⟩
    simp only [NamespaceProjection.wire, cons_append, append_assoc]
  · rintro ⟨u, rfl, ⟨⟨⟨hraw, hpayload, hlen, hmodified, hretention, hchecksum, hetag⟩, hholds, hempty, hpointer⟩, hkey⟩,
      hinput⟩
    simp only [NamespaceProjection.wire, cons_append, append_assoc, List.cons.injEq, true_and] at hinput
    exact ⟨_, _, _, _, _, _, _, _, _, _, _, _, ⟨hraw, hinput⟩, hkey, ⟨hpayload, hholds⟩, hlen, hempty, hpointer, hmodified,
      hretention, hchecksum, hetag, rfl⟩

theorem decodeNamespaceTombstone_eq_ok :
    (decodeNamespaceTombstone namespaceKeyIds).run input = .ok ((projection, keyOrdinal), rest) ↔
      ∃ blindKey namespaceKeyId generation, projection = .tombstone blindKey namespaceKeyId generation ∧
        (blindKey.IsRaw ∧ (keyOrdinal < 2 ^ 32 ∧ namespaceKeyIds[keyOrdinal]? = some namespaceKeyId)) ∧
          1 :: input = projection.wire keyOrdinal ++ rest := by
  simp only [decodeNamespaceTombstone, Reader.ok_iff, decodeBlindKey_eq_ok, readGeneration_eq_ok, Prod.exists,
    decodeNamespaceKeyReference_eq_ok, Prod.mk.injEq]
  constructor
  · rintro ⟨_, _, ⟨hraw, rfl⟩, _, _, _, ⟨hkey, rfl⟩, _, _, rfl, ⟨rfl, rfl⟩, rfl⟩
    refine ⟨_, _, _, rfl, ⟨hraw, hkey⟩, ?_⟩
    simp only [NamespaceProjection.wire, cons_append, append_assoc]
  · rintro ⟨_, _, _, rfl, ⟨hraw, hkey⟩, hinput⟩
    simp only [NamespaceProjection.wire, cons_append, append_assoc, List.cons.injEq, true_and] at hinput
    subst hinput
    exact ⟨_, _, ⟨hraw, rfl⟩, keyOrdinal, _, _, ⟨hkey, rfl⟩, _, _, rfl, ⟨rfl, rfl⟩, rfl⟩

theorem decodeNamespaceProjection_eq_ok :
    (decodeNamespaceProjection namespaceKeyIds tables).run input = .ok ((projection, keyOrdinal), rest) ↔
      ((projection.Typed ∧ projection.Fits tables) ∧
        (keyOrdinal < 2 ^ 32 ∧ namespaceKeyIds[keyOrdinal]? = some projection.namespaceKeyId)) ∧
          input = projection.wire keyOrdinal ++ rest := by
  simp only [decodeNamespaceProjection, Reader.bind_eq_ok, readByte_eq_ok, Reader.ite_eq_ok,
    decodeNamespaceUpsert_eq_ok, decodeNamespaceTombstone_eq_ok, Reader.throw_eq_ok]
  constructor
  · rintro ⟨tag, _, rfl, ⟨rfl, u, rfl, h, hinput⟩ | ⟨-, ⟨rfl, _, _, _, rfl, ⟨hraw, hkey⟩, hinput⟩ | ⟨-, h⟩⟩⟩
    · exact ⟨h, hinput⟩
    · exact ⟨⟨⟨hraw, trivial⟩, hkey⟩, hinput⟩
    · exact h.elim
  · rintro ⟨h, rfl⟩
    cases projection with
    | upsert u => exact ⟨0, _, rfl, .inl ⟨rfl, u, rfl, h, rfl⟩⟩
    | tombstone blindKey namespaceKeyId generation =>
      exact ⟨1, _, rfl, .inr ⟨by decide, .inl ⟨rfl, _, _, _, rfl, ⟨h.1.1, h.2⟩, rfl⟩⟩⟩

end

/-! ## The listing projection -/

structure ListingUpsert where
  path : LogicalPath
  generation : Sequence
  contentLen : ℕ
  modifiedAtMs : ℤ
  deriving DecidableEq

inductive ListingProjection where
  | upsert (upsert : ListingUpsert)
  | tombstone (path : LogicalPath) (generation : Sequence)
  deriving DecidableEq

namespace ListingProjection

/-- `ListingProjection::path`. -/
def path : ListingProjection → LogicalPath
  | upsert u => u.path
  | tombstone path _ => path

/-- The bytes of a listing record after its ordinal. -/
def wire : ListingProjection → Bytes
  | upsert u => 0 :: (varint u.generation.get ++ (varint u.contentLen ++ wireI64 u.modifiedAtMs))
  | tombstone _ generation => 1 :: varint generation.get

end ListingProjection

/-- `shared_prefix_len`. -/
def sharedPrefixLen (previous current : Bytes) : ℕ :=
  ((previous.zip current).takeWhile fun pair => pair.1 == pair.2).length

/-- `decode_listing_path`. -/
def decodeListingPath (limits : IndexRunLimits) (previous : Bytes) : RunReader LogicalPath := do
  let prefixLen ← boundedCount "logical path" limits.maxPathBytes
  let shared ← okOr (getRange previous 0 prefixLen) invalidPathPrefix
  let suffixLen ← boundedCount "logical path" limits.maxPathBytes
  let pathLen ← okOr (checkedAdd 64 prefixLen suffixLen) integerOverflow
  validateCount "logical path" pathLen limits.maxPathBytes
  let suffix ← readBytes suffixLen
  -- The shared prefix must be the longest one; it may end inside a code point.
  ensure (¬(previous[prefixLen]?.isSome ∧ previous[prefixLen]? = suffix.head?)) invalidPathPrefix
  let text ← okOr (fromUtf8 (shared ++ suffix)) (invalidUtf8 "logical path")
  okOr (LogicalPath.new? text) (invalidValue "logical path")

/-- `decode_listing_projection`. -/
def decodeListingProjection (path : LogicalPath) : RunReader ListingProjection := do
  let tag ← readByte
  let generation ← readGeneration
  if tag = 0 then do
    let contentLen ← readVarint
    let modifiedAtMs ← readI64
    return .upsert ⟨path, generation, contentLen, modifiedAtMs⟩
  else if tag = 1 then return .tombstone path generation
  else throw (.invalidTag "listing mutation" tag)

end Rs3.Index
