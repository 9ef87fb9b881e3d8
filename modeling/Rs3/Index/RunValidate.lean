/-
# Rs3.Index.RunValidate — the limits of an index run and the checks both sides of its codec share.

The validators of `run.rs` in `rs3-index`.  The writer runs them over a whole run before it encodes anything; the
reader runs the same ones, or streaming versions of them, while it decodes frames.  Each validator that has a
streaming twin is characterised here by a proposition, so that the two sides can be compared.
-/
import Rs3.Index.ObjectCodec
import Mathlib.Data.List.Chain

namespace Rs3.Index

/-! ## Limits and errors -/

/-- Decoder and encoder resource limits; every field is a `usize`. -/
structure IndexRunLimits where
  maxTotalBytes : ℕ
  maxFrameBytes : ℕ
  maxRecordBytes : ℕ
  maxContainers : ℕ
  maxMutations : ℕ
  maxPathBytes : ℕ
  maxKeyIdBytes : ℕ
  maxObjectIdBytes : ℕ
  maxVersionIdBytes : ℕ
  usize : ∀ n ∈ [maxTotalBytes, maxFrameBytes, maxRecordBytes, maxContainers, maxMutations, maxPathBytes,
    maxKeyIdBytes, maxObjectIdBytes, maxVersionIdBytes], n < 2 ^ 64

/-- `IndexRunLimits::default`. -/
def IndexRunLimits.default : IndexRunLimits where
  maxTotalBytes := 7 * 1024 * 1024
  maxFrameBytes := 1024 * 1024 - 1024
  maxRecordBytes := 16 * 1024
  maxContainers := 4096
  maxMutations := 65536
  maxPathBytes := 1024
  maxKeyIdBytes := 256
  maxObjectIdBytes := 1024
  maxVersionIdBytes := 1024
  usize := by decide

/-- Encoding or validation error; the two numbers of `LimitExceeded` are left out. -/
inductive IndexRunError where
  | invalidDomain
  | unsupportedVersion (version : ℕ)
  | unexpectedEof
  | trailingBytes
  | nonCanonicalVarint
  | invalidPathPrefix
  | integerOverflow
  | limitExceeded (field : String)
  | invalidUtf8 (field : String)
  | invalidValue (field : String)
  | invalidTag (field : String) (value : UInt8)
  | recordLengthMismatch
  | invalidMutationOrdinal (expected actual : ℕ)
  | duplicateContainer
  | invalidContainerOrder
  | invalidPackRecordCount
  | invalidPackRecordRange
  | packRecordFactsMismatch
  | unusedContainer (ordinal : ℕ)
  | unusedStandaloneStreamContainer (ordinal : ℕ)
  | invalidNamespaceKeyOrder
  | duplicateNamespaceKey
  | unusedNamespaceKey (ordinal : ℕ)
  | invalidNamespaceKeyOrdinal (ordinal : ℕ)
  | invalidContainerRange
  | invalidStandaloneStreamContainer
  | invalidContainerOrdinal (ordinal : ℕ)
  | invalidEmptyPayload
  | invalidProjectionOrder (projection : String)
  | duplicateProjectionOrdinal (projection : String) (ordinal : ℕ)
  | invalidProjectionOrdinal (projection : String) (ordinal : ℕ)
  | projectionMismatch (ordinal : ℕ)
  | invalidFrameOrder
  | frameFactsMismatch
  deriving DecidableEq, Repr

/-- `validate_count`. -/
def validateCount (field : String) (actual maximum : ℕ) : Except IndexRunError Unit :=
  ensure (actual ≤ maximum) (.limitExceeded field)

@[simp]
theorem validateCount_eq_ok {field : String} {actual maximum : ℕ} {u : Unit} :
    validateCount field actual maximum = .ok u ↔ actual ≤ maximum := ensure_eq_ok

/-- `as_str().len()`. -/
def textLen (text : String) : ℕ := (utf8 text).length

/-! ## Payload layouts -/

/-- `MAX_PAYLOAD_PARTS`. -/
def maxPayloadParts : ℕ := 10000

/-- `div_ceil`. -/
def divCeil (a b : ℕ) : ℕ := a / b + if a % b = 0 then 0 else 1

namespace PayloadLayout

/-- Running totals of `stored_len`: the previous part number, plaintext bytes, stored bytes. -/
structure Totals where
  previous : ℕ
  plaintext : ℕ
  stored : ℕ

/-- One part of `stored_len`. -/
def addPart (chunkSize : ℕ) (totals : Totals) (part : PayloadPart) : Option Totals :=
  if part.partNumber ≤ totals.previous ∨ maxPayloadParts < part.partNumber ∨ part.plaintextLen = 0 then none
  else do
    let plaintext ← checkedAdd 64 totals.plaintext part.plaintextLen
    let tags ← checkedMul 64 (divCeil part.plaintextLen chunkSize) 16
    let sealedLen ← checkedAdd 64 part.plaintextLen tags
    let stored ← checkedAdd 64 totals.stored sealedLen
    return ⟨part.partNumber, plaintext, stored⟩

/-- `PayloadLayout::stored_len`. -/
def storedLen (layout : PayloadLayout) : Option ℕ :=
  if layout.chunkSize = 0 ∨ 64 * 1024 * 1024 < layout.chunkSize ∨ layout.plaintextLen = 0 ∨ layout.parts = [] ∨
      maxPayloadParts < layout.parts.length ∨ textLen layout.keyId.asStr = 0 ∨ 255 < textLen layout.keyId.asStr then none
  else do
    let totals ← layout.parts.foldlM (addPart layout.chunkSize) ⟨0, 0, 0⟩
    if totals.plaintext = layout.plaintextLen then some totals.stored else none

theorem bounds_of_storedLen {layout : PayloadLayout} (h : layout.storedLen = some len) :
    layout.parts.length ≤ maxPayloadParts ∧ textLen layout.keyId.asStr ≤ 255 := by
  unfold storedLen at h
  split at h
  · cases h
  · rename_i hbounds
    push Not at hbounds
    exact ⟨hbounds.2.2.2.2.1, hbounds.2.2.2.2.2.2⟩

end PayloadLayout

variable (limits : IndexRunLimits)

/-- `validate_payload_layout`. -/
def validatePayloadLayout (layout : PayloadLayout) : Except IndexRunError Unit := do
  validateCount "content key id" (textLen layout.keyId.asStr) limits.maxKeyIdBytes
  let _ ← okOr layout.storedLen .invalidStandaloneStreamContainer
  return ()

/-! ## Containers -/

/-- `INDEX_PACK_MAX_STORED_BYTES`. -/
def packMaxStoredBytes : ℕ := 32 * 1024 * 1024

/-- `INDEX_PACK_MAX_RECORDS`. -/
def packMaxRecords : ℕ := 4096

/-- The exact object a container-table entry names. -/
abbrev ExactObject := BackendObjectId × Option BackendVersionId

def IndexRunContainer.exact (container : IndexRunContainer) : ExactObject := (container.objectId, container.versionId)

def IndexRunStandaloneStreamContainer.exact (container : IndexRunStandaloneStreamContainer) : ExactObject :=
  (container.objectId, container.versionId)

def compareExact (a b : ExactObject) : Ordering := (compare a.1 b.1).then (compare a.2 b.2)

/-- `validate_container_order`. -/
def validateContainerOrder (previous : Option ExactObject) (key : ExactObject) : Except IndexRunError Unit :=
  match previous.map fun previous => compareExact previous key with
  | some .eq => .error .duplicateContainer
  | some .gt => .error .invalidContainerOrder
  | _ => .ok ()

/-- `validate_container_range`. -/
def validateContainerRange (container : IndexRunContainer) : Except IndexRunError Unit := do
  let sectionEnd ← okOr (checkedAdd 64 container.packSectionOffset container.packSectionLen) .invalidContainerRange
  ensure (¬(container.packSectionLen = 0 ∨ packMaxStoredBytes < container.packSectionLen ∨
    container.packRecordCount = 0 ∨ packMaxRecords < container.packRecordCount ∨ container.storedLen < sectionEnd))
    .invalidContainerRange

/-- `validate_exact_container`. -/
def validateExactContainer (exact : ExactObject) (keyring : IndexRunKeyringRef) : Except IndexRunError Unit := do
  validateCount "object id" (textLen exact.1.asStr) limits.maxObjectIdBytes
  match exact.2 with
  | some versionId => validateCount "version id" (textLen versionId.asStr) limits.maxVersionIdBytes
  | none => pure ()
  validateCount "keyring envelope object id" (textLen keyring.objectId.asStr) limits.maxObjectIdBytes

/-- The texts of an exact container are within the limits. -/
structure ExactFits (exact : ExactObject) (keyring : IndexRunKeyringRef) : Prop where
  objectId : textLen exact.1.asStr ≤ limits.maxObjectIdBytes
  versionId : ∀ versionId ∈ exact.2, textLen versionId.asStr ≤ limits.maxVersionIdBytes
  keyring : textLen keyring.objectId.asStr ≤ limits.maxObjectIdBytes

/-- One entry of `validate_containers`. -/
def validateContainer (previous : Option ExactObject) (container : IndexRunContainer) :
    Except IndexRunError (Option ExactObject) := do
  validateExactContainer limits container.exact container.keyringEnvelope
  validateCount "content key id" (textLen container.contentKeyId.asStr) limits.maxKeyIdBytes
  validateContainerRange container
  validateContainerOrder previous container.exact
  return some container.exact

/-- `validate_containers`. -/
def validateContainers (containers : List IndexRunContainer) : Except IndexRunError Unit := do
  let _ ← containers.foldlM (validateContainer limits) none
  return ()

/-- `validate_standalone_stream_container`. -/
def validateStandaloneStreamContainer (container : IndexRunStandaloneStreamContainer) : Except IndexRunError Unit := do
  (validatePayloadLayout limits container.payloadLayout).mapError fun _ =>
    .invalidStandaloneStreamContainer
  let storedLen ← okOr container.payloadLayout.storedLen .invalidStandaloneStreamContainer
  ensure (storedLen = container.storedLen) .invalidStandaloneStreamContainer

/-- One entry of `validate_standalone_stream_containers`. -/
def validateNextStandaloneStream (previous : Option ExactObject)
    (container : IndexRunStandaloneStreamContainer) : Except IndexRunError (Option ExactObject) := do
  validateExactContainer limits container.exact container.keyringEnvelope
  validateStandaloneStreamContainer limits container
  validateContainerOrder previous container.exact
  return some container.exact

/-- `validate_standalone_stream_containers`. -/
def validateStandaloneStreamContainers (containers : List IndexRunStandaloneStreamContainer) :
    Except IndexRunError Unit := do
  let _ ← containers.foldlM (validateNextStandaloneStream limits) none
  return ()

/-- What the checks of one pack container say. -/
structure ContainerFits (container : IndexRunContainer) : Prop where
  exact : ExactFits limits container.exact container.keyringEnvelope
  contentKeyId : textLen container.contentKeyId.asStr ≤ limits.maxKeyIdBytes
  range : validateContainerRange container = .ok ()

/-- `validate_distinct_container_objects`. -/
def validateDistinctContainerObjects (pack : List IndexRunContainer)
    (standaloneStream : List IndexRunStandaloneStreamContainer) : Except IndexRunError Unit :=
  ensure (pack.map (·.exact) ++ standaloneStream.map (·.exact)).Nodup .duplicateContainer

/-- `validate_self_pack`. -/
def validateSelfPack : Option IndexRunSelfPack → Except IndexRunError Unit
  | none => .ok ()
  | some pack => do
    validateCount "content key id" (textLen pack.contentKeyId.asStr) limits.maxKeyIdBytes
    ensure (¬(pack.storedLen = 0 ∨ packMaxStoredBytes < pack.storedLen ∨ pack.recordCount = 0 ∨
      packMaxRecords < pack.recordCount)) .invalidPackRecordCount

/-! ## Payload pointers -/

/-- The tables that payload pointers refer to. -/
structure PayloadTables where
  selfPack : Option IndexRunSelfPack
  containers : List IndexRunContainer
  standaloneStreamContainers : List IndexRunStandaloneStreamContainer

def IndexRun.tables (run : IndexRun) : PayloadTables := ⟨run.selfPack, run.containers, run.standaloneStreamContainers⟩

/-- `validate_empty_payload`. -/
def validateEmptyPayload (pointer : IndexPayloadPointer) (contentLen : ℕ) : Except IndexRunError Unit :=
  match pointer with
  | .empty => ensure (contentLen = 0) .invalidEmptyPayload
  | .externalStandaloneStream _ => .ok ()
  | .selfPack _ | .externalPack _ _ => ensure (contentLen ≠ 0) .invalidEmptyPayload

/-- `derived_record_stored_len`: the bytes and a tag of 16 for each segment of 64 KiB. -/
def derivedRecordStoredLen (contentLen : ℕ) : Except IndexRunError ℕ := do
  let tags ← okOr (checkedMul 64 (divCeil contentLen (64 * 1024)) 16) .invalidPackRecordRange
  okOr (checkedAdd 64 contentLen tags) .invalidPackRecordRange

/-- The end of `validate_payload_pointer`: the record lies inside its pack. -/
def validateRecordRange (record : IndexPackRecordPointer) (contentLen packStoredLen : ℕ) : Except IndexRunError Unit := do
  let storedLen ← derivedRecordStoredLen contentLen
  let stop ← okOr (checkedAdd 64 record.physicalOffset storedLen) .invalidPackRecordRange
  ensure (¬(contentLen = 0 ∨ packStoredLen < stop)) .invalidPackRecordRange

/-- `validate_payload_pointer`. -/
def validatePayloadPointer (tables : PayloadTables) (pointer : IndexPayloadPointer) (contentLen : ℕ) :
    Except IndexRunError Unit :=
  match pointer with
  | .empty => .ok ()
  | .selfPack record => do
    let pack ← okOr tables.selfPack .invalidPackRecordCount
    validateRecordRange record contentLen pack.storedLen
  | .externalPack ordinal record => do
    let container ← okOr tables.containers[ordinal]? (.invalidContainerOrdinal ordinal)
    validateRecordRange record contentLen container.packSectionLen
  | .externalStandaloneStream ordinal => do
    let container ← okOr tables.standaloneStreamContainers[ordinal]? (.invalidContainerOrdinal ordinal)
    ensure (container.payloadLayout.plaintextLen = contentLen) .invalidStandaloneStreamContainer

/-- The table entry exists and the record is one of the pack's. -/
def PayloadTables.Holds (tables : PayloadTables) : IndexPayloadPointer → Prop
  | .empty => True
  | .selfPack record => ∃ pack, tables.selfPack = some pack ∧ record.recordOrdinal < pack.recordCount
  | .externalPack ordinal record =>
    ∃ container, tables.containers[ordinal]? = some container ∧ record.recordOrdinal < container.packRecordCount
  | .externalStandaloneStream ordinal => ordinal < tables.standaloneStreamContainers.length

/-- The table entries that some pointers use; of the source's ordered sets only membership is asked. -/
structure PayloadUses where
  containers : List ℕ := []
  standaloneStreamContainers : List ℕ := []
  selfPack : Bool := false

def PayloadUses.insert (uses : PayloadUses) : IndexPayloadPointer → PayloadUses
  | .empty => uses
  | .selfPack _ => { uses with selfPack := true }
  | .externalPack ordinal _ => { uses with containers := ordinal :: uses.containers }
  | .externalStandaloneStream ordinal =>
    { uses with standaloneStreamContainers := ordinal :: uses.standaloneStreamContainers }

/-- Every entry of a table is used. -/
def validateUsed (unused : ℕ → IndexRunError) (count : ℕ) (used : List ℕ) : Except IndexRunError Unit :=
  (List.range count).forM fun index => do
    let ordinal ← okOr (tryFrom 32 index) .integerOverflow
    ensure (ordinal ∈ used) (unused ordinal)

/-- `validate_container_use`. -/
def validateContainerUse (containerCount : ℕ) (used : List ℕ) (usesSelfPack : Bool)
    (selfPack : Option IndexRunSelfPack) : Except IndexRunError Unit := do
  ensure (¬(usesSelfPack ≠ selfPack.isSome ∨ selfPack.any fun pack => pack.recordCount = 0)) .invalidPackRecordCount
  validateUsed .unusedContainer containerCount used

/-- `validate_standalone_stream_container_use`. -/
def validateStandaloneStreamContainerUse (containerCount : ℕ) (used : List ℕ) : Except IndexRunError Unit :=
  validateUsed .unusedStandaloneStreamContainer containerCount used

/-- `validate_namespace_key_use`. -/
def validateNamespaceKeyUse (namespaceKeyCount : ℕ) (used : List ℕ) : Except IndexRunError Unit :=
  validateUsed .unusedNamespaceKey namespaceKeyCount used

/-! ## Mutations -/

namespace IndexMutation

/-- `IndexMutation::ordinal`. -/
def ordinal : IndexMutation → ℕ
  | upsert u => u.mutationOrdinal
  | tombstone t => t.mutationOrdinal

/-- `mutation_namespace_key_id`. -/
def namespaceKeyId : IndexMutation → KeyId
  | upsert u => u.namespaceKeyId
  | tombstone t => t.namespaceKeyId

/-- The payload of an upsert; a tombstone uses none. -/
def payload : IndexMutation → IndexPayloadPointer
  | upsert u => u.payload
  | tombstone _ => .empty

end IndexMutation

/-- A tombstone of `validate_completion_receipt`: the same path and generation, a new key each time. -/
def validateReceiptTombstone (upsert : IndexUpsert) (seen : List KeyId × List BlindIndexKey) :
    IndexMutation → Except IndexRunError (List KeyId × List BlindIndexKey)
  | .upsert _ => .ok seen
  | .tombstone t => do
    ensure (t.path = upsert.path ∧ t.generation = upsert.generation ∧ t.namespaceKeyId ∉ seen.1 ∧
      t.blindKey ∉ seen.2) .frameFactsMismatch
    return (t.namespaceKeyId :: seen.1, t.blindKey :: seen.2)

/-- `validate_completion_receipt`. -/
def validateCompletionReceipt (run : IndexRun) : Except IndexRunError Unit :=
  match run.completionReceipt with
  | none => .ok ()
  | some receipt => do
    ensure (receipt.validate = true) .frameFactsMismatch
    let upserts := run.mutations.filterMap fun
      | .upsert u => some u
      | .tombstone _ => none
    match upserts with
    | [upsert] => do
      ensure (upsert.path = receipt.key ∧ upsert.contentLen = receipt.contentLen ∧ upsert.etag = receipt.etag ∧
        upsert.checksum = receipt.checksum) .frameFactsMismatch
      let _ ← run.mutations.foldlM (validateReceiptTombstone upsert) ([upsert.namespaceKeyId], [upsert.blindKey])
      return ()
    | _ => .error .frameFactsMismatch

/-- What `validate_repeated_record_facts` has seen: facts by source and record ordinal, and record spans. -/
structure RecordFacts where
  facts : List ((ℕ × ℕ) × IndexPackRecordPointer × ℕ) := []
  spans : List (ℕ × ℕ × ℕ × ℕ) := []

/-- One upsert of `validate_repeated_record_facts`. -/
def RecordFacts.insert (seen : RecordFacts) (source : ℕ) (record : IndexPackRecordPointer) (contentLen : ℕ) :
    Except IndexRunError RecordFacts :=
  match seen.facts.lookup (source, record.recordOrdinal) with
  | some previous => do
    ensure (previous = (record, contentLen)) .packRecordFactsMismatch
    return seen
  | none => do
    let storedLen ← derivedRecordStoredLen contentLen
    let stop ← okOr (checkedAdd 64 record.physicalOffset storedLen) .invalidPackRecordRange
    return ⟨((source, record.recordOrdinal), record, contentLen) :: seen.facts,
      seen.spans ++ [(source, record.physicalOffset, stop, record.recordOrdinal)]⟩

def RecordFacts.insertMutation (seen : RecordFacts) : IndexMutation → Except IndexRunError RecordFacts
  | .tombstone _ => .ok seen
  | .upsert upsert =>
    match upsert.payload with
    | .empty | .externalStandaloneStream _ => .ok seen
    | .selfPack record => seen.insert 0 record upsert.contentLen
    | .externalPack ordinal record => do
      let source ← okOr (checkedAdd 32 ordinal 1) .integerOverflow
      seen.insert source record upsert.contentLen

/-- `sort_unstable` on tuples. -/
def spanLe (a b : ℕ × ℕ × ℕ × ℕ) : Prop :=
  a.1 < b.1 ∨ a.1 = b.1 ∧ (a.2.1 < b.2.1 ∨ a.2.1 = b.2.1 ∧ (a.2.2.1 < b.2.2.1 ∨ a.2.2.1 = b.2.2.1 ∧ a.2.2.2 ≤ b.2.2.2))

instance : DecidableRel spanLe := fun _ _ => inferInstanceAs (Decidable (_ ∨ _))

/-- Two adjacent spans of one pack do not overlap. -/
def spansApart (left right : ℕ × ℕ × ℕ × ℕ) : Bool :=
  !(left.1 == right.1 && left.2.2.2 != right.2.2.2 && decide (right.2.1 < left.2.2.1))

/-- `validate_repeated_record_facts`. -/
def validateRepeatedRecordFacts (mutations : List IndexMutation) : Except IndexRunError Unit := do
  let seen ← mutations.foldlM RecordFacts.insertMutation {}
  let spans := seen.spans.insertionSort spanLe
  ensure ((spans.zip spans.tail).all fun pair => spansApart pair.1 pair.2) .packRecordFactsMismatch

/-- The composite-checksum check of `validate_mutations`. -/
def compositeAgrees (upsert : IndexUpsert) : Bool :=
  match upsert.checksum with
  | some ⟨_, .composite parts, _⟩ => upsert.etag.partCount = some parts
  | _ => true

/-- The part of `validate_mutations` after the pointer check: the record ordinal, then the use of the table entry. -/
def validatePointerUse (tables : PayloadTables) (uses : PayloadUses) (pointer : IndexPayloadPointer) :
    Except IndexRunError PayloadUses := do
  match pointer with
  | .empty => pure ()
  | .selfPack record => do
    let count ← okOr (tables.selfPack.map (·.recordCount)) .invalidPackRecordCount
    ensure (record.recordOrdinal < count) .invalidPackRecordCount
  | .externalPack ordinal record => do
    let container ← okOr tables.containers[ordinal]? (.invalidContainerOrdinal ordinal)
    ensure (record.recordOrdinal < container.packRecordCount) .invalidPackRecordCount
  | .externalStandaloneStream ordinal =>
    ensure (ordinal < tables.standaloneStreamContainers.length) (.invalidContainerOrdinal ordinal)
  return uses.insert pointer

/-- One mutation of `validate_mutations`. -/
def validateMutation (tables : PayloadTables) (uses : PayloadUses)
    (entry : IndexMutation × ℕ) : Except IndexRunError PayloadUses := do
  let expected ← okOr (tryFrom 32 entry.2) .integerOverflow
  ensure (entry.1.ordinal = expected) (.invalidMutationOrdinal expected entry.1.ordinal)
  validateCount "namespace key id" (textLen entry.1.namespaceKeyId.asStr) limits.maxKeyIdBytes
  validateCount "logical path" (textLen entry.1.path.asStr) limits.maxPathBytes
  match entry.1 with
  | .upsert upsert => do
    validateEmptyPayload upsert.payload upsert.contentLen
    ensure (compositeAgrees upsert = true) .frameFactsMismatch
    validatePayloadPointer tables upsert.payload upsert.contentLen
    validatePointerUse tables uses upsert.payload
  | .tombstone _ => return uses

/-- `validate_mutations`. -/
def validateMutations (run : IndexRun) : Except IndexRunError Unit := do
  validateCompletionReceipt run
  let uses ← run.mutations.zipIdx.foldlM (validateMutation limits run.tables) {}
  validateContainerUse run.containers.length uses.containers uses.selfPack run.selfPack
  validateStandaloneStreamContainerUse run.standaloneStreamContainers.length uses.standaloneStreamContainers
  validateRepeatedRecordFacts run.mutations

end Rs3.Index
