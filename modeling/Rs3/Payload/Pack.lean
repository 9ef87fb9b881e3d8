/-
# Rs3.Payload.Pack — sealing logical records into a payload pack.

`v3/payload_pack.rs`: the layout of a pack, the sealer, the range planner and the two ways of opening a planned
range.  The random pack and attempt identities and the random physical order are inputs.  A pack has no header:
its bytes are the sealed segments of its records, and everything else comes from the index.
-/
import Rs3.Crypto.Payload
import Mathlib.Data.List.Sort

namespace Rs3.Payload

open Crypto

/-! ## Limits -/

/-- `V3_PAYLOAD_PACK_MAX_RECORDS`. -/
def maxPackRecords : ℕ := 4096

/-- `V3_PAYLOAD_PACK_MAX_BYTES`. -/
def maxPackBytes : ℕ := 32 * 1024 * 1024

/-- `V3_PAYLOAD_PACK_SEGMENT_BYTES`. -/
def segmentBytes : ℕ := 64 * 1024

/-- `AEAD_TAG_LEN`. -/
def tagLen : ℕ := 16

/-! ## Segment arithmetic -/

def segmentCount (plaintextLen : ℕ) : Except V3FormatError ℕ := do
  ensure (plaintextLen ≠ 0) .invalidPayloadPack
  let rounded ← okOr (checkedAdd 64 plaintextLen (segmentBytes - 1)) .payloadPackLimitExceeded
  return rounded / segmentBytes

def recordStoredLen (plaintextLen : ℕ) : Except V3FormatError ℕ := do
  let count ← segmentCount plaintextLen
  let tags ← okOr (checkedMul 64 count tagLen) .payloadPackLimitExceeded
  let storedLen ← okOr (checkedAdd 64 plaintextLen tags) .payloadPackLimitExceeded
  let storedLen ← okOr (tryFrom 32 storedLen) .payloadPackLimitExceeded
  ensure (storedLen ≤ maxPackBytes) .payloadPackLimitExceeded
  return storedLen

def segmentPlaintextLen (plaintextLen segmentOrdinal : ℕ) : Except V3FormatError ℕ := do
  let count ← segmentCount plaintextLen
  ensure (segmentOrdinal < count) .invalidPayloadPack
  let start ← okOr (checkedMul 64 segmentOrdinal segmentBytes) .invalidPayloadPack
  return min (plaintextLen - start) segmentBytes

def segmentCiphertextOffset (segmentOrdinal : ℕ) : Except V3FormatError ℕ :=
  okOr (checkedMul 64 segmentOrdinal (segmentBytes + tagLen)) .invalidPayloadPack

/-! ## Layout -/

/-- Facts shared by every record of one pack, as `V3PayloadPackFacts::new` accepts them. -/
structure V3PayloadPackFacts where
  packId : Digest
  attemptId : Digest
  contentKeyId : KeyId
  storedLen : ℕ
  recordCount : ℕ
  valid : contentKeyId.asStr.utf8ByteSize ≤ 255 ∧ 0 < storedLen ∧ storedLen ≤ maxPackBytes ∧ 0 < recordCount ∧
    recordCount ≤ maxPackRecords

def V3PayloadPackFacts.new (packId attemptId : Digest) (contentKeyId : KeyId) (storedLen recordCount : ℕ) :
    Except V3FormatError V3PayloadPackFacts :=
  if h : contentKeyId.asStr.utf8ByteSize ≤ 255 ∧ 0 < storedLen ∧ storedLen ≤ maxPackBytes ∧ 0 < recordCount ∧
      recordCount ≤ maxPackRecords then
    .ok ⟨packId, attemptId, contentKeyId, storedLen, recordCount, h⟩
  else .error .invalidPayloadPack

structure V3PayloadPackRecordRef where
  recordOrdinal : ℕ
  physicalOffset : ℕ
  deriving DecidableEq

structure V3PayloadPackRecord where
  reference : V3PayloadPackRecordRef
  plaintextLen : ℕ
  deriving DecidableEq

section

variable (facts : V3PayloadPackFacts)

def validateV3PayloadPackRecordRef (record : V3PayloadPackRecordRef) (plaintextLen : ℕ) : Except V3FormatError Unit := do
  ensure (record.recordOrdinal < facts.recordCount) .invalidPayloadPack
  let storedLen ← recordStoredLen plaintextLen
  let stop ← okOr (checkedAdd 32 record.physicalOffset storedLen) .invalidPayloadPack
  ensure (stop ≤ facts.storedLen) .invalidPayloadPack

def V3PayloadPackRecord.span (record : V3PayloadPackRecord) : Except V3FormatError (ℕ × ℕ) := do
  let storedLen ← recordStoredLen record.plaintextLen
  let stop ← okOr (checkedAdd 32 record.reference.physicalOffset storedLen) .invalidPayloadPack
  return (record.reference.physicalOffset, stop)

/-- One round of the coverage check: the next span starts where the one before it ended. -/
def coverSpan (expectedStart : ℕ) (span : ℕ × ℕ) : Except V3FormatError ℕ := do
  ensure (span.1 = expectedStart ∧ span.1 < span.2 ∧ span.2 ≤ facts.storedLen) .invalidPayloadPack
  return span.2

/-- The order of pairs. -/
def SpanLe (a b : ℕ × ℕ) : Prop := a.1 < b.1 ∨ a.1 = b.1 ∧ a.2 ≤ b.2

instance : DecidableRel SpanLe := fun _ _ => inferInstanceAs (Decidable (_ ∨ _))

def validateRecordCoverage (records : List V3PayloadPackRecord) : Except V3FormatError Unit := do
  let spans ← records.mapM V3PayloadPackRecord.span
  let stop ← (spans.insertionSort SpanLe).foldlM (coverSpan facts) 0
  ensure (stop = facts.storedLen) .invalidPayloadPack

end

structure V3PayloadPackLayout where
  facts : V3PayloadPackFacts
  records : List V3PayloadPackRecord

def V3PayloadPackLayout.new (facts : V3PayloadPackFacts) (records : List V3PayloadPackRecord) :
    Except V3FormatError V3PayloadPackLayout := do
  ensure (records.length = facts.recordCount) .invalidPayloadPack
  records.zipIdx.forM fun (record, ordinal) => do
    ensure (record.reference.recordOrdinal = ordinal) .invalidPayloadPack
    validateV3PayloadPackRecordRef facts record.reference record.plaintextLen
  validateRecordCoverage facts records
  return ⟨facts, records⟩

/-! ## Sealing -/

structure PayloadPackContext where
  repositoryContext : Bytes
  containingObject : BackendObjectId
  sectionOrdinal : ℕ

def validatePublicContext (repositoryContext : Bytes) (containingObject : BackendObjectId) :
    Except V3FormatError Unit :=
  ensure (repositoryContext ≠ [] ∧ repositoryContext.length ≤ 1024 ∧ containingObject.asStr.utf8ByteSize ≤ 1024)
    .payloadPackLimitExceeded

/-- `validate_physical_order`: a permutation of the ordinals. -/
def validatePhysicalOrder (order : List ℕ) (count : ℕ) : Except V3FormatError Unit :=
  ensure (order.length = count ∧ order.Nodup ∧ ∀ ordinal ∈ order, ordinal < count) .invalidPayloadPack

section

variable (object : PayloadPackContext) (facts : V3PayloadPackFacts) (record : V3PayloadPackRecordRef)

def segmentAssociatedData (plaintextLen segmentOrdinal segmentLen : ℕ) : Except V3FormatError Bytes := do
  let offset ← segmentCiphertextOffset segmentOrdinal
  let storedLen ← okOr (checkedAdd 64 segmentLen tagLen) .invalidPayloadPack
  let count ← segmentCount plaintextLen
  return utf8 "rs3:payload-pack-segment-aad:v3\n" ++ toBe 4 facts.storedLen ++ toBe 4 facts.recordCount ++
    toBe 4 record.recordOrdinal ++ toBe 4 record.physicalOffset ++ toBe 8 plaintextLen ++ toBe 8 segmentOrdinal ++
    toBe 8 offset ++ toBe 8 segmentLen ++ toBe 8 storedLen ++
    [if checkedAdd 64 segmentOrdinal 1 = some count then 1 else 0]

def cryptoSegmentContext (segmentOrdinal plaintextLen : ℕ) (isFinal : Bool) (layoutContext : Bytes) :
    PayloadSegmentContext where
  repositoryContext := object.repositoryContext
  containingObject := object.containingObject
  sectionOrdinal := some object.sectionOrdinal
  carrierId := facts.packId
  attemptId := facts.attemptId
  partOrdinal := record.recordOrdinal
  segmentOrdinal := segmentOrdinal
  plaintextLen := plaintextLen
  isFinal := isFinal
  layoutContext := layoutContext

/-- Everything that the sealing or opening of one segment is bound to.  The comparison with the count adds one
without a check. -/
def segmentContext (plaintextLen segmentOrdinal segmentLen : ℕ) : Except V3FormatError PayloadSegmentContext := do
  let aad ← segmentAssociatedData facts record plaintextLen segmentOrdinal segmentLen
  let count ← segmentCount plaintextLen
  return cryptoSegmentContext object facts record segmentOrdinal segmentLen
    ((segmentOrdinal + 1) % 2 ^ 64 = count) aad

end

section Seal

variable {K : Type} (aead : Aead K) (keyring : KeyRing K)

section

variable (object : PayloadPackContext) (facts : V3PayloadPackFacts) (record : V3PayloadPackRecord) (plaintext : Bytes)
  (pack : Bytes)

/-- One round of `seal_record_into`. -/
def sealSegmentInto (segmentOrdinal : ℕ) : Except V3FormatError Bytes := do
  let start ← okOr (checkedMul 64 segmentOrdinal segmentBytes) .payloadPackLimitExceeded
  let segmentLen ← segmentPlaintextLen record.plaintextLen segmentOrdinal
  let stop ← okOr (checkedAdd 64 start segmentLen) .payloadPackLimitExceeded
  let segment ← okOr (getRange plaintext start stop) .invalidPayloadPack
  let context ← segmentContext object facts record.reference record.plaintextLen segmentOrdinal segmentLen
  let sealed ← sealPayloadSegment aead keyring context segment
  ensure (sealed.keyId = facts.contentKeyId ∧ checkedAdd 64 segmentLen tagLen = some sealed.ciphertext.length)
    .cryptoOperation
  let offset ← segmentCiphertextOffset segmentOrdinal
  let packStart ← okOr (checkedAdd 64 record.reference.physicalOffset offset) .payloadPackLimitExceeded
  let packStop ← okOr (checkedAdd 64 packStart sealed.ciphertext.length) .payloadPackLimitExceeded
  ensure (packStop ≤ pack.length) .invalidPayloadPack
  return overwrite pack packStart sealed.ciphertext

def sealRecordInto : Except V3FormatError Bytes := do
  ensure (plaintext.length = record.plaintextLen) .invalidPayloadPack
  let count ← segmentCount record.plaintextLen
  (List.range count).foldlM (sealSegmentInto aead keyring object facts record plaintext) pack

end

/-- The records before their physical offsets are known. -/
def inputRecord (plaintext : Bytes) (ordinal : ℕ) : Except V3FormatError V3PayloadPackRecord := do
  let plaintextLen ← okOr (tryFrom 64 plaintext.length) .payloadPackLimitExceeded
  let _ ← recordStoredLen plaintextLen
  let ordinal ← okOr (tryFrom 32 ordinal) .payloadPackLimitExceeded
  return ⟨⟨ordinal, 0⟩, plaintextLen⟩

/-- Place the next record of the physical order at the end of what is placed. -/
def placeRecord (state : List V3PayloadPackRecord × ℕ) (logicalOrdinal : ℕ) :
    Except V3FormatError (List V3PayloadPackRecord × ℕ) := do
  let record ← okOr state.1[logicalOrdinal]? .invalidPayloadPack
  let storedLen ← recordStoredLen record.plaintextLen
  let stop ← okOr (checkedAdd 32 state.2 storedLen) .payloadPackLimitExceeded
  return (state.1.set logicalOrdinal { record with reference := { record.reference with physicalOffset := state.2 } },
    stop)

structure V3SealedPayloadPack where
  layout : V3PayloadPackLayout
  bytes : Bytes

def sealV3PayloadPackWithLayout (object : PayloadPackContext) (inputs : List Bytes) (packId attemptId : Digest)
    (physicalOrder : List ℕ) : Except V3FormatError V3SealedPayloadPack := do
  validatePublicContext object.repositoryContext object.containingObject
  ensure (inputs ≠ [] ∧ inputs.length ≤ maxPackRecords) .payloadPackLimitExceeded
  validatePhysicalOrder physicalOrder inputs.length
  let contentKey ← keyring.primaryKey .content
  ensure (contentKey.id.asStr.utf8ByteSize ≤ 255) .payloadPackLimitExceeded
  let records ← inputs.zipIdx.mapM fun (plaintext, ordinal) => inputRecord plaintext ordinal
  let (records, storedLen) ← physicalOrder.foldlM placeRecord (records, 0)
  ensure (storedLen ≤ maxPackBytes) .payloadPackLimitExceeded
  let recordCount ← okOr (tryFrom 32 records.length) .payloadPackLimitExceeded
  let facts ← V3PayloadPackFacts.new packId attemptId contentKey.id storedLen recordCount
  let layout ← V3PayloadPackLayout.new facts records
  let bytes ← inputs.zipIdx.foldlM (fun pack (plaintext, ordinal) => do
    let record ← okOr layout.records[ordinal]? .invalidPayloadPack
    sealRecordInto aead keyring object layout.facts record plaintext pack) (List.replicate storedLen 0)
  return ⟨layout, bytes⟩

end Seal

/-! ## Planning -/

/-- The ciphertext that a plaintext range needs. -/
structure V3PayloadPackRecordSpan where
  offset : ℕ
  storedLen : ℕ
  startSegment : ℕ
  segmentCount : ℕ
  recordOrdinal : ℕ
  requested : ℕ × ℕ
  deriving DecidableEq

def planV3PayloadPackRecordRange (facts : V3PayloadPackFacts) (record : V3PayloadPackRecordRef) (plaintextLen : ℕ)
    (requested : ℕ × ℕ) : Except V3FormatError V3PayloadPackRecordSpan := do
  validateV3PayloadPackRecordRef facts record plaintextLen
  let emptyRecord := plaintextLen = 0
  ensure (¬ (emptyRecord ∧ requested ≠ (0, 0)) ∧
      ¬ (¬ emptyRecord ∧ (requested.2 ≤ requested.1 ∨ plaintextLen < requested.2))) .invalidPayloadPack
  let startSegment := if emptyRecord then 0 else requested.1 / segmentBytes
  let endSegment ← if emptyRecord then pure 0
    else (okOr (checkedSub requested.2 1) .invalidPayloadPack).map (· / segmentBytes)
  let segmentCount ← okOr ((checkedSub endSegment startSegment).bind (checkedAdd 64 · 1)) .invalidPayloadPack
  let relativeStart ← segmentCiphertextOffset startSegment
  let endOffset ← segmentCiphertextOffset endSegment
  let endLen ← segmentPlaintextLen plaintextLen endSegment
  let relativeEnd ← okOr ((checkedAdd 64 endOffset endLen).bind (checkedAdd 64 · tagLen)) .invalidPayloadPack
  let offset ← okOr (checkedAdd 64 record.physicalOffset relativeStart) .invalidPayloadPack
  let storedLen ← okOr (checkedSub relativeEnd relativeStart) .invalidPayloadPack
  -- an absent end compares below every present one
  ensure ((checkedAdd 64 offset storedLen).all fun stop => stop ≤ facts.storedLen) .invalidPayloadPack
  let startSegment ← okOr (tryFrom 32 startSegment) .invalidPayloadPack
  let segmentCount ← okOr (tryFrom 32 segmentCount) .invalidPayloadPack
  return ⟨offset, storedLen, startSegment, segmentCount, record.recordOrdinal, requested⟩

/-! ## Opening -/

/-- Everything needed to open one record. -/
structure V3PayloadPackRecordContext where
  object : PayloadPackContext
  facts : V3PayloadPackFacts
  record : V3PayloadPackRecordRef
  plaintextLen : ℕ

def V3PayloadPackRecordContext.new (object : PayloadPackContext) (facts : V3PayloadPackFacts)
    (record : V3PayloadPackRecordRef) (plaintextLen : ℕ) : Except V3FormatError V3PayloadPackRecordContext := do
  validatePublicContext object.repositoryContext object.containingObject
  validateV3PayloadPackRecordRef facts record plaintextLen
  return ⟨object, facts, record, plaintextLen⟩

structure V3OpenedPayloadPackRecordSpan where
  plaintext : Bytes
  segments : List (ℕ × Bytes)
  deriving DecidableEq

/-- `finish_opened_span`: cut the request out of the selected segments. -/
def finishOpenedSpan (span : V3PayloadPackRecordSpan) (selectedPlaintext : Bytes) (segments : List (ℕ × Bytes)) :
    Except V3FormatError V3OpenedPayloadPackRecordSpan := do
  let selectedStart ← okOr (checkedMul 64 span.startSegment segmentBytes) .invalidPayloadPack
  let trimStart ← okOr (checkedSub span.requested.1 selectedStart) .invalidPayloadPack
  let requestedLen ← okOr (checkedSub span.requested.2 span.requested.1) .invalidPayloadPack
  let trimEnd ← okOr (checkedAdd 64 trimStart requestedLen) .invalidPayloadPack
  let plaintext ← okOr (getRange selectedPlaintext trimStart trimEnd) .invalidPayloadPack
  return ⟨plaintext, segments⟩

/-- The loop state while a span is opened. -/
structure OpenState where
  cursor : ℕ
  plaintext : Bytes
  segments : List (ℕ × Bytes)

section Open

variable {K : Type} (aead : Aead K) (keyring : KeyRing K)

variable (context : V3PayloadPackRecordContext)

def openSegment (startSegment : ℕ) (ciphertextSpan : Bytes) (state : OpenState)
    (relativeSegment : ℕ) : Except V3FormatError OpenState := do
  let segmentOrdinal ← okOr (checkedAdd 64 startSegment relativeSegment) .invalidPayloadPack
  let segmentLen ← segmentPlaintextLen context.plaintextLen segmentOrdinal
  let storedLen ← okOr (checkedAdd 64 segmentLen tagLen) .invalidPayloadPack
  let stop ← okOr (checkedAdd 64 state.cursor storedLen) .invalidPayloadPack
  let ciphertext ← okOr (getRange ciphertextSpan state.cursor stop) .truncatedBody
  let segmentContext ← segmentContext context.object context.facts context.record context.plaintextLen segmentOrdinal
    segmentLen
  let plaintext ← openPayloadSegment aead keyring segmentContext context.facts.contentKeyId ciphertext
  ensure (plaintext.length = segmentLen) .invalidPayloadPack
  let ordinal ← okOr (tryFrom 32 segmentOrdinal) .invalidPayloadPack
  return ⟨stop, state.plaintext ++ plaintext, state.segments ++ [(ordinal, plaintext)]⟩

/-- `open_v3_payload_pack_record_span_with_segments`. -/
def openV3PayloadPackRecordSpan (span : V3PayloadPackRecordSpan)
    (ciphertextSpan : Bytes) : Except V3FormatError V3OpenedPayloadPackRecordSpan := do
  let expected ← planV3PayloadPackRecordRange context.facts context.record context.plaintextLen span.requested
  ensure (expected = span ∧ span.recordOrdinal = context.record.recordOrdinal ∧
    span.storedLen = ciphertextSpan.length) .invalidPayloadPack
  let state ← (List.range span.segmentCount).foldlM
    (openSegment aead keyring context span.startSegment ciphertextSpan) ⟨0, [], []⟩
  ensure (state.cursor = ciphertextSpan.length) .invalidPayloadPack
  finishOpenedSpan span state.plaintext state.segments

end Open

def cachedSegment (plaintextLen startSegment : ℕ) (selected : Bytes) (segment : Bytes × ℕ) :
    Except V3FormatError Bytes := do
  let segmentOrdinal ← okOr (checkedAdd 64 startSegment segment.2) .invalidPayloadPack
  let segmentLen ← segmentPlaintextLen plaintextLen segmentOrdinal
  ensure (segment.1.length = segmentLen) .invalidPayloadPack
  return selected ++ segment.1

/-- `open_v3_payload_pack_cached_record_span`. -/
def openV3PayloadPackCachedRecordSpan (facts : V3PayloadPackFacts) (record : V3PayloadPackRecordRef)
    (plaintextLen : ℕ) (span : V3PayloadPackRecordSpan) (plaintextSegments : List Bytes) :
    Except V3FormatError Bytes := do
  let expected ← planV3PayloadPackRecordRange facts record plaintextLen span.requested
  ensure (expected = span ∧ plaintextSegments.length = span.segmentCount) .invalidPayloadPack
  let selected ← plaintextSegments.zipIdx.foldlM (cachedSegment plaintextLen span.startSegment) []
  let opened ← finishOpenedSpan span selected []
  return opened.plaintext

/-! ## Reads of a packed object

`read_pack_range_from_commit` of `v3/service.rs`.  The cache of decrypted segments is keyed by every fact of the
record, so the cache of one record is a partial map from segment ordinals; an entry may be evicted at any time.
-/

inductive ByteRange where
  | full
  | slice (offset len : ℕ)
  deriving DecidableEq

inductive ReadError where
  | format (error : V3FormatError)
  | invalidRange
  deriving DecidableEq

structure V3CommitPackRead where
  commitKey : BackendObjectId
  commitStoredLen : ℕ
  packSectionOrdinal : ℕ
  packOffset : ℕ
  length : ℕ
  packId : Digest
  attemptId : Digest
  contentKeyId : KeyId
  packRecordCount : ℕ
  recordOrdinal : ℕ
  recordOffset : ℕ
  contentLen : ℕ

abbrev SegmentCache := ℕ → Option Bytes

def SegmentCache.evict (cache : SegmentCache) (ordinal : ℕ) : SegmentCache :=
  fun j => if j = ordinal then none else cache j

/-- All of the selected segments, or a miss. -/
def cachedDecryptedSegmentSpan (cache : SegmentCache) (startSegment segmentCount : ℕ) : Option (List Bytes) :=
  (List.range segmentCount).mapM fun relative => cache (startSegment + relative)

def cacheDecryptedSegmentSpan (cache : SegmentCache) (segments : List (ℕ × Bytes)) : SegmentCache :=
  segments.foldl (fun cache segment j => if j = segment.1 then some segment.2 else cache j) cache

/-- The plaintext range of a request; nothing is read for an empty one. -/
def requestedRange (contentLen : ℕ) : ByteRange → Except ReadError (Option (ℕ × ℕ))
  | .full => .ok (some (0, contentLen))
  | .slice offset len =>
    if len = 0 then
      if offset ≤ contentLen then .ok none else .error .invalidRange
    else do
      let stop ← okOr ((checkedAdd 64 offset len).filter fun stop => stop ≤ contentLen) .invalidRange
      return some (offset, stop)

section Read

variable {K : Type} (aead : Aead K) (keyring : KeyRing K)

/-- Read the planned ciphertext from the commit object, open it and keep its segments. -/
def readPlannedSpan (repositoryContext : Bytes) (pack : V3CommitPackRead) (facts : V3PayloadPackFacts)
    (record : V3PayloadPackRecordRef) (span : V3PayloadPackRecordSpan) (commit : Bytes) (cache : SegmentCache) :
    Except V3FormatError (Bytes × SegmentCache) := do
  let offset ← okOr (checkedAdd 64 pack.packOffset span.offset) .sectionBounds
  let ciphertext ← okOr (getRange commit offset (offset + span.storedLen)) .truncatedBody
  let context ← V3PayloadPackRecordContext.new ⟨repositoryContext, pack.commitKey, pack.packSectionOrdinal⟩ facts record
    pack.contentLen
  let opened ← openV3PayloadPackRecordSpan aead keyring context span ciphertext
  return (opened.plaintext, cacheDecryptedSegmentSpan cache opened.segments)

/-- The pack facts of a read whose pack lies inside its commit. -/
def V3CommitPackRead.facts (pack : V3CommitPackRead) : Except V3FormatError V3PayloadPackFacts := do
  ensure ((checkedAdd 64 pack.packOffset pack.length).any fun stop => stop ≤ pack.commitStoredLen) .sectionBounds
  let storedLen ← okOr (tryFrom 32 pack.length) .invalidPayloadPack
  V3PayloadPackFacts.new pack.packId pack.attemptId pack.contentKeyId storedLen pack.packRecordCount

def readPackRangeFromCommit (repositoryContext : Bytes) (pack : V3CommitPackRead) (commit : Bytes)
    (cache : SegmentCache) (range : ByteRange) : Except ReadError (Bytes × SegmentCache) := do
  let facts ← pack.facts.mapError .format
  let record : V3PayloadPackRecordRef := ⟨pack.recordOrdinal, pack.recordOffset⟩
  match ← requestedRange pack.contentLen range with
  | none => return ([], cache)
  | some requested =>
    let span ← (planV3PayloadPackRecordRange facts record pack.contentLen requested).mapError .format
    match cachedDecryptedSegmentSpan cache span.startSegment span.segmentCount with
    | some segments =>
      let plaintext ← (openV3PayloadPackCachedRecordSpan facts record pack.contentLen span segments).mapError .format
      return (plaintext, cache)
    | none =>
      (readPlannedSpan aead keyring repositoryContext pack facts record span commit cache).mapError .format

end Read

end Rs3.Payload
