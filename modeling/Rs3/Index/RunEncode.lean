/-
# Rs3.Index.RunEncode — the canonical frames of an index run.

`encode_index_run_frames` of `rs3-index/src/run.rs`: the checks on the run, then the records of each role in their
order, packed greedily into frames.  A `Writer` refuses the write that passes its maximum, which is the same as
checking the length of what it finished (`finishWriter`); when a record is both too long and holds a text that is too
long, only which of the two refusals is reported can differ.  The search bounds that the frames also carry serve the
directory of the sealed run and are left out.
-/
import Rs3.Index.RunFrames

namespace Rs3.Index

/-! ## Records -/

/-- A record before its frame is known; a listing record is written after the front-coded path. -/
structure PreparedRecord where
  bytes : Bytes
  listingPath : Option Bytes := none

section Records

variable (limits : IndexRunLimits)

def containerRecord (container : IndexRunContainer) : Except IndexRunError PreparedRecord := do
  let exact ← encodeExactContainer limits container.exactContainer
  let _ ← writeText "content key id" container.contentKeyId.asStr limits.maxKeyIdBytes
  let bytes ← finishWriter limits.maxRecordBytes (0 :: (exact ++ container.wireFields))
  return { bytes := bytes }

def standaloneRecord (container : IndexRunStandaloneStreamContainer) : Except IndexRunError PreparedRecord := do
  let exact ← encodeExactContainer limits container.exactContainer
  let layout ← encodePayloadLayout container.payloadLayout
  let bytes ← finishWriter (min standaloneContainerMaxBytes limits.maxFrameBytes) (2 :: (exact ++ layout))
  return { bytes := bytes }

def namespaceKeyRecord (namespaceKeyId : KeyId) : Except IndexRunError PreparedRecord := do
  let text ← writeText "namespace key id" namespaceKeyId.asStr limits.maxKeyIdBytes
  let bytes ← finishWriter limits.maxRecordBytes (3 :: text)
  return { bytes := bytes }

def receiptRecord (receipt : CompletionReceipt) : Except IndexRunError PreparedRecord := do
  let encoded ← receipt.encode.mapError fun _ => .frameFactsMismatch
  let bytes ← finishWriter limits.maxRecordBytes (4 :: encoded)
  return { bytes := bytes }

def IndexMutation.names : IndexMutation → NamespaceProjection
  | upsert u => .upsert ⟨u.blindKey, u.namespaceKeyId, u.generation, u.payload, u.contentLen, u.modifiedAtMs,
      u.retention, u.legalHold, u.checksum, u.etag⟩
  | tombstone t => .tombstone t.blindKey t.namespaceKeyId t.generation

def IndexMutation.listing : IndexMutation → ListingProjection
  | upsert u => .upsert ⟨u.path, u.generation, u.contentLen, u.modifiedAtMs⟩
  | tombstone t => .tombstone t.path t.generation

/-- `namespace_key_ordinal`. -/
def namespaceKeyOrdinal (namespaceKeyIds : List KeyId) (namespaceKeyId : KeyId) : Except IndexRunError ℕ :=
  okOr (namespaceKeyIds.idxOf? namespaceKeyId) (.invalidValue "namespace key id")

/-- The checksum is the only part of a namespace record that can be refused. -/
def namespaceRecord (namespaceKeyIds : List KeyId) (mutation : IndexMutation) : Except IndexRunError PreparedRecord := do
  let keyOrdinal ← namespaceKeyOrdinal namespaceKeyIds mutation.namespaceKeyId
  match mutation with
  | .upsert u => discard (encodeChecksum u.checksum)
  | .tombstone _ => pure ()
  let bytes ← finishWriter limits.maxRecordBytes (varint mutation.ordinal ++ mutation.names.wire keyOrdinal)
  return { bytes := bytes }

def listingRecord (mutation : IndexMutation) : Except IndexRunError PreparedRecord := do
  let bytes ← finishWriter limits.maxRecordBytes (varint mutation.ordinal ++ mutation.listing.wire)
  return { bytes := bytes, listingPath := some (utf8 mutation.path.asStr) }

/-- `PreparedRecord::encode`; `encoded_len` is the length of what it writes. -/
def PreparedRecord.encode (record : PreparedRecord) (previousPath : Bytes) : Bytes :=
  match record.listingPath with
  | none => record.bytes
  | some path =>
    varint (sharedPrefixLen previousPath path) ++ (varint (path.length - sharedPrefixLen previousPath path) ++
      (path.drop (sharedPrefixLen previousPath path) ++ record.bytes))

/-- `unwrap_or_default` of the record's path. -/
def PreparedRecord.path (record : PreparedRecord) : Bytes := record.listingPath.getD []

/-! ## Frames -/

/-- What the frames of one role share. -/
structure FrameFacts where
  role : IndexRunFrameRole
  sequence : Sequence
  mutationCount : ℕ
  roleRecordCount : ℕ
  selfPack : Option IndexRunSelfPack
  namespaceKeyCount : ℕ

def wireSelfPack : Option IndexRunSelfPack → Bytes
  | none => [0]
  | some pack => 1 :: (pack.packId.toList ++ (pack.attemptId.toList ++ (wireText pack.contentKeyId.asStr ++
      (toBe 8 pack.storedLen ++ varint pack.recordCount))))

/-- `encode_frame_header`. -/
def FrameFacts.header (facts : FrameFacts) (roleOrdinal frameRecordCount : ℕ) : Bytes :=
  indexRunPlaintextDomain ++ (toBe 2 indexRunWireVersion ++ (UInt8.ofNat facts.role.tag :: (varint roleOrdinal ++
    (toBe 8 facts.sequence.get ++ (varint facts.mutationCount ++ (varint facts.roleRecordCount ++
      (varint frameRecordCount ++
        if facts.role = .metadata then wireSelfPack facts.selfPack ++ varint facts.namespaceKeyCount else [])))))))

/-- `frame_header_len`; of lengths far below the range of `usize`, so that no sum is refused. -/
def FrameFacts.headerLen (facts : FrameFacts) (roleOrdinal frameRecordCount : ℕ) : ℕ :=
  indexRunPlaintextDomain.length + 2 + 1 + varintLen roleOrdinal + 8 + varintLen facts.mutationCount +
    varintLen facts.roleRecordCount + varintLen frameRecordCount +
    if facts.role = .metadata then
      1 + (match facts.selfPack with
        | none => 0
        | some pack => 64 + varintLen (textLen pack.contentKeyId.asStr) + textLen pack.contentKeyId.asStr + 8 +
            varintLen pack.recordCount) + varintLen facts.namespaceKeyCount
    else 0

/-- How many of the records fit into the next frame. -/
def fittingRecords (facts : FrameFacts) (roleOrdinal : ℕ) : List PreparedRecord → ℕ → ℕ → Bytes → ℕ
  | [], count, _, _ => count
  | record :: rest, count, payloadLen, previousPath =>
    let encodedLen := (record.encode previousPath).length
    let candidate := payloadLen + (varintLen encodedLen + encodedLen)
    if limits.maxFrameBytes < facts.headerLen roleOrdinal (count + 1) + candidate then count
    else fittingRecords facts roleOrdinal rest (count + 1) candidate record.path

def encodeRecords (role : IndexRunFrameRole) : List PreparedRecord → Bytes → Except IndexRunError Bytes
  | [], _ => .ok []
  | record :: rest, previousPath => do
    let encoded ← finishWriter (recordLimit limits role record.bytes.head?) (record.encode previousPath)
    let others ← encodeRecords role rest record.path
    return sized encoded ++ others

def encodeFrame (facts : FrameFacts) (roleOrdinal : ℕ) (records : List PreparedRecord) :
    Except IndexRunError Bytes := do
  let body ← encodeRecords limits facts.role records []
  let bytes ← finishWriter limits.maxFrameBytes (facts.header roleOrdinal records.length ++ body)
  let _ ← okOr (tryFrom 32 records.length) .integerOverflow
  return bytes

/-- The loop of `pack_prepared_frames`; every round takes at least one record, or is the only one. -/
def packFrames (facts : FrameFacts) : ℕ → ℕ → List PreparedRecord → Except IndexRunError (List Bytes)
  | 0, _, _ => .error .integerOverflow
  | fuel + 1, roleOrdinal, records => do
    let ordinal ← okOr (tryFrom 32 roleOrdinal) .integerOverflow
    let count := fittingRecords limits facts ordinal records 0 0 []
    ensure (¬(count = 0 ∧ records ≠ [])) (.limitExceeded "frame bytes")
    let frame ← encodeFrame limits facts ordinal (records.take count)
    if count = records.length then return [frame]
    else do
      let others ← packFrames facts fuel (roleOrdinal + 1) (records.drop count)
      return frame :: others

variable {facts : FrameFacts} {roleOrdinal : ℕ} {records : List PreparedRecord}

/-- The loop never runs out of rounds: one more than there are records is enough, and more change nothing. -/
theorem packFrames_fuel (h : records.length < fuel) (h' : records.length < fuel') :
    packFrames limits facts fuel roleOrdinal records = packFrames limits facts fuel' roleOrdinal records := by
  induction fuel generalizing fuel' roleOrdinal records with
  | zero => omega
  | succ fuel ih =>
    obtain ⟨fuel', rfl⟩ : ∃ n, fuel' = n + 1 := ⟨fuel' - 1, by omega⟩
    simp only [packFrames]
    refine bind_congr fun ordinal => ?_
    by_cases hnone : fittingRecords limits facts ordinal records 0 0 [] = 0 ∧ records ≠ []
    · -- the first record alone is too large
      rw [ensure, if_neg (not_not.mpr hnone)]
      rfl
    · refine bind_congr fun _ => bind_congr fun frame => ?_
      split
      · rfl
      · rename_i hrest
        have hdrop : (records.drop (fittingRecords limits facts ordinal records 0 0 [])).length < records.length := by
          cases records with
          | nil => exact absurd rfl hrest
          | cons record rest =>
            rw [List.length_drop]
            exact Nat.sub_lt rest.length.succ_pos (Nat.pos_of_ne_zero fun hzero => hnone ⟨hzero, List.cons_ne_nil _ _⟩)
        rw [ih (Nat.lt_of_lt_of_le hdrop (Nat.le_of_lt_succ h)) (Nat.lt_of_lt_of_le hdrop (Nat.le_of_lt_succ h'))]

/-- `pack_prepared_frames`. -/
def packPreparedFrames (facts : FrameFacts) (records : List PreparedRecord) : Except IndexRunError (List Bytes) :=
  if records = [] ∧ facts.role ≠ .metadata then .ok []
  else packFrames limits facts (records.length + 1) 0 records

end Records

/-! ## Runs -/

section Runs

variable (limits : IndexRunLimits) (run : IndexRun)

/-- The namespace keys of a run, each once, in order. -/
def IndexRun.namespaceKeyIds : List KeyId := sortOn KeyId.asStr (run.mutations.map IndexMutation.namespaceKeyId).dedup

/-- The order of a projection: by the bytes of its key, then by the ordinal. -/
def inKeyOrder (key : IndexMutation → Bytes) (mutations : List IndexMutation) : List IndexMutation :=
  mutations.insertionSort fun a b => key a < key b ∨ key a = key b ∧ a.ordinal ≤ b.ordinal

/-- The checks before anything is written, up to the count of the metadata records. -/
def validateRun : Except IndexRunError ℕ := do
  let containerCount ← okOr (checkedAdd 64 run.containers.length run.standaloneStreamContainers.length) .integerOverflow
  validateCount "container count" containerCount limits.maxContainers
  validateCount "mutation count" run.mutations.length limits.maxMutations
  validateSelfPack limits run.selfPack
  validateContainers limits run.containers
  validateStandaloneStreamContainers limits run.standaloneStreamContainers
  validateDistinctContainerObjects run.containers run.standaloneStreamContainers
  validateMutations limits run
  validateCount "namespace key count" run.namespaceKeyIds.length limits.maxMutations
  okOr ((checkedAdd 64 containerCount run.namespaceKeyIds.length).bind (checkedAdd 64 · run.completionReceipt.toList.length))
    .integerOverflow

/-- The metadata records: containers, standalone containers, namespace keys, the receipt. -/
def metadataRecords : Except IndexRunError (List PreparedRecord) := do
  let containers ← run.containers.mapM (containerRecord limits)
  let standalone ← run.standaloneStreamContainers.mapM (standaloneRecord limits)
  let keys ← run.namespaceKeyIds.mapM (namespaceKeyRecord limits)
  let receipt ← run.completionReceipt.toList.mapM (receiptRecord limits)
  return containers ++ standalone ++ keys ++ receipt

/-- `encode_index_run_frames`. -/
def encodeIndexRunFrames : Except IndexRunError (List Bytes) := do
  let _ ← validateRun limits run
  let metadata ← metadataRecords limits run
  let names ← (inKeyOrder (fun m => m.blindKey.raw) run.mutations).mapM (namespaceRecord limits run.namespaceKeyIds)
  let listing ← (inKeyOrder (fun m => utf8 m.path.asStr) run.mutations).mapM (listingRecord limits)
  let mutationCount ← okOr (tryFrom 32 run.mutations.length) .integerOverflow
  let facts (role : IndexRunFrameRole) (records : List PreparedRecord) : FrameFacts :=
    ⟨role, run.sequence, mutationCount, records.length, run.selfPack, run.namespaceKeyIds.length⟩
  let first ← packPreparedFrames limits (facts .metadata metadata) metadata
  let second ← packPreparedFrames limits (facts .namespaces names) names
  let third ← packPreparedFrames limits (facts .listing listing) listing
  let frames := first ++ second ++ third
  let total ← frames.foldlM (fun total frame => okOr (checkedAdd 64 total frame.length) .integerOverflow) 0
  validateCount "total frame bytes" total limits.maxTotalBytes
  return frames

theorem validateRun_of_encode (h : encodeIndexRunFrames limits run = .ok frames) :
    ∃ count, validateRun limits run = .ok count := by
  simp only [encodeIndexRunFrames, bind_eq_ok] at h
  obtain ⟨count, hcount, -⟩ := h
  exact ⟨count, hcount⟩

/-- No object version has two containers in an encoded run. -/
theorem distinct_of_encode (h : encodeIndexRunFrames limits run = .ok frames) :
    (run.containers.map (·.exact) ++ run.standaloneStreamContainers.map (·.exact)).Nodup := by
  obtain ⟨count, hcount⟩ := validateRun_of_encode limits run h
  simp only [validateRun, bind_eq_ok, validateDistinctContainerObjects, ensure_eq_ok] at hcount
  obtain ⟨_, -, _, -, _, -, _, -, _, -, _, -, _, hdistinct, -⟩ := hcount
  exact hdistinct

end Runs

end Rs3.Index
