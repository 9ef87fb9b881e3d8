/-
# Rs3.Index.RootCodec — the canonical plaintext of an index root.

`V3IndexRoot::new`, the `validate_*` functions, `encode_root` and `decode_root` of `v3/index_root.rs`.  Decoding and
encoding are inverse to each other on the nose: `decodeRoot` returns a root exactly when the input is the wire form
of that root and the root is acceptable, and `encodeRoot` emits that same wire form.  The only texts whose length
`validateRoot` does not bound are the listing bounds of the runs; the decoder bounds them too.

Paths and blind keys are compared as texts: the order of texts is the order of their UTF-8 bytes, and the lowercase
hex form of a key keeps the order of its bytes.
-/
import Rs3.Index.ObjectCodec
import Rs3.Index.Commit
import Mathlib.Data.List.Sort

namespace Rs3.IndexRoot

open List V3FormatError Text

open Index
open Repository (V3KeyringEnvelopeRef)

/-! ## Limits -/

/-- `V3_INDEX_ROOT_MAX_BYTES`. -/
def maxBytes : ℕ := 8 * 1024 * 1024

/-- `V3_INDEX_ROOT_MAX_RUNS`. -/
def maxRuns : ℕ := 1024

/-- `V3_INDEX_ROOT_MAX_TOTAL_MUTATIONS`. -/
def maxTotalMutations : ℕ := 16 * 1024 * 1024

/-- `V3_INDEX_ROOT_MAX_TOTAL_RUN_BYTES`. -/
def maxTotalRunBytes : ℕ := 8 * 1024 * 1024 * 1024

/-- `V3_INDEX_ROOT_MAX_LEVEL`. -/
def maxLevel : ℕ := 1

/-- `INDEX_ROOT_MAX_OBJECT_ID_LEN`, `INDEX_ROOT_MAX_VERSION_ID_LEN` and `INDEX_ROOT_MAX_PATH_LEN`. -/
def maxTextLen : ℕ := 1024

/-- `INDEX_ROOT_MAX_RUN_RECORD_LEN`. -/
def maxRunRecordLen : ℕ := 8 * 1024

/-- `INDEX_ROOT_MAX_RUN_BYTES`. -/
def maxRunBytes : ℕ := 8 * 1024 * 1024

/-- `INDEX_ROOT_MAX_FRAMES_PER_RUN`. -/
def maxFramesPerRun : ℕ := 4096

/-- `INDEX_ROOT_MAX_MUTATIONS_PER_RUN`. -/
def maxMutationsPerRun : ℕ := 65536

/-! ## Validation -/

def validateLen (actual maximum : ℕ) : Except V3FormatError Unit :=
  ensure (actual ≠ 0 ∧ actual ≤ maximum) .indexRootLimitExceeded

def validateVersionId (versionId : Option BackendVersionId) : Except V3FormatError Unit :=
  match versionId with
  | none => pure ()
  | some versionId => validateLen versionId.asStr.utf8ByteSize maxTextLen

def validateRunLocation (location : V3EmbeddedIndexRunLocation) : Except V3FormatError Unit := do
  validateLen location.commitKey.asStr.utf8ByteSize maxTextLen
  validateVersionId location.versionId
  let sectionStart ← okOr (checkedAdd 64 location.sectionsStart location.sectionOffset) .invalidIndexRoot
  let sectionEnd ← okOr (checkedAdd 64 sectionStart location.sectionLen) .invalidIndexRoot
  ensure (location.commitStoredLen ≠ 0 ∧ location.sectionLen ≠ 0 ∧ location.sectionLen ≤ maxRunBytes ∧
    sectionEnd ≤ location.commitStoredLen ∧ location.sectionOrdinal < 65) .invalidIndexRoot

def validateFormatRef (reference : V3FormatRef) : Except V3FormatError Unit := do
  validateLen reference.objectId.asStr.utf8ByteSize maxTextLen
  validateVersionId reference.versionId
  let digest ← okOr (Text.hexDecode reference.digest) .invalidIndexRoot
  ensure (digest.length = 32 ∧ Text.hexEncode digest = reference.digest) .invalidIndexRoot

def validateKeyringRef (reference : V3KeyringEnvelopeRef) : Except V3FormatError Unit :=
  validateLen reference.objectId.asStr.utf8ByteSize maxTextLen

/-- The variables of the loop of `validate_runs`. -/
structure RunTotals where
  previousId : Option Digest
  locations : List (BackendObjectId × Option BackendVersionId × ℕ)
  totalStoredRunBytes : ℕ
  totalFrameCount : ℕ
  totalMutationCount : ℕ
  maximumLevel : ℕ
  maximumRunGeneration : Option Sequence

def RunTotals.start : RunTotals := ⟨none, [], 0, 0, 0, 0, none⟩

section

variable (coveredGeneration : Sequence)

/-- The facts of one run that are checked without looking at the others. -/
def validateRunFacts (run : V3IndexRootRunRef) : Except V3FormatError Unit :=
  ensure (run.runId ≠ Vector.replicate 32 0 ∧ run.mutationCount ≠ 0 ∧ run.mutationCount ≤ maxMutationsPerRun ∧
    run.frameCount ≠ 0 ∧ run.frameCount ≤ maxFramesPerRun ∧ run.minimumGeneration ≠ 0 ∧
    run.minimumGeneration ≤ run.maximumGeneration ∧ run.maximumGeneration = run.runSequence ∧
    run.runSequence ≤ coveredGeneration ∧ run.level ≤ maxLevel ∧
    (run.level = 0 ↔ run.compactionGeneration = 0) ∧
    compare run.namespaceBounds.1 run.namespaceBounds.2 ≠ .gt ∧
    compare run.listingBounds.1 run.listingBounds.2 ≠ .gt) .invalidIndexRoot

def validateRunStep (s : RunTotals) (run : V3IndexRootRunRef) : Except V3FormatError RunTotals := do
  ensure (∀ previous, s.previousId = some previous → compare previous run.runId = .lt) .invalidIndexRoot
  validateRunFacts coveredGeneration run
  validateKeyringRef run.keyringEnvelopeRef
  validateRunLocation run.location
  let place := (run.location.commitKey, run.location.versionId, run.location.sectionOrdinal)
  ensure (place ∉ s.locations) .invalidIndexRoot
  let totalStoredRunBytes ← okOr (checkedAdd 64 s.totalStoredRunBytes run.location.sectionLen) .indexRootLimitExceeded
  let totalFrameCount ← okOr (checkedAdd 64 s.totalFrameCount run.frameCount) .indexRootLimitExceeded
  let totalMutationCount ← okOr (checkedAdd 64 s.totalMutationCount run.mutationCount) .indexRootLimitExceeded
  return {
    previousId := some run.runId
    locations := place :: s.locations
    totalStoredRunBytes := totalStoredRunBytes
    totalFrameCount := totalFrameCount
    totalMutationCount := totalMutationCount
    maximumLevel := max s.maximumLevel run.level
    maximumRunGeneration := some (match s.maximumRunGeneration with
      | none => run.maximumGeneration
      | some current => if current ≤ run.maximumGeneration then run.maximumGeneration else current) }

/-- The key of `generation_order`. -/
def generationLe (a b : V3IndexRootRunRef) : Bool :=
  ((compare a.minimumGeneration b.minimumGeneration).then
    ((compare a.runSequence b.runSequence).then (compare a.runId b.runId))).isLE

/-- No two neighbours overlap. -/
def generationsApart : List V3IndexRootRunRef → Bool
  | a :: b :: rest => a.maximumGeneration < b.minimumGeneration && generationsApart (b :: rest)
  | _ => true

def validateRuns (expectedLiveObjectCount : ℕ) (runs : List V3IndexRootRunRef) :
    Except V3FormatError V3IndexRootClaims := do
  ensure (runs.length ≤ maxRuns) .indexRootLimitExceeded
  let totals ← runs.foldlM (validateRunStep coveredGeneration) .start
  ensure (generationsApart (runs.insertionSort fun a b => generationLe a b = true) = true) .invalidIndexRoot
  ensure (totals.totalStoredRunBytes ≤ maxTotalRunBytes ∧ totals.totalMutationCount ≤ maxTotalMutations ∧
    expectedLiveObjectCount ≤ totals.totalMutationCount) .indexRootLimitExceeded
  ensure (totals.maximumRunGeneration = some coveredGeneration ∨
    (runs = [] ∧ coveredGeneration = 0 ∧ expectedLiveObjectCount = 0)) .invalidIndexRoot
  let runCount ← okOr (tryFrom 32 runs.length) .indexRootLimitExceeded
  return ⟨runCount, totals.totalStoredRunBytes, totals.totalFrameCount, totals.totalMutationCount, totals.maximumLevel⟩

def validateRoot (root : V3IndexRoot) : Except V3FormatError Unit := do
  ensure (root.requiredCapabilities = 0) .invalidIndexRoot
  validateFormatRef root.formatRef
  validateKeyringRef root.keyringEnvelopeRef
  let claims ← validateRuns root.coveredGeneration root.expectedLiveObjectCount root.runs
  ensure (claims = root.claims) .invalidIndexRoot

/-- `V3IndexRoot::new`. -/
def new (expectedLiveObjectCount : ℕ) (formatRef : V3FormatRef)
    (keyringEnvelopeRef : V3KeyringEnvelopeRef) (runs : List V3IndexRootRunRef) : Except V3FormatError V3IndexRoot := do
  let runs := runs.insertionSort fun a b => (compare a.runId b.runId).isLE = true
  let claims ← validateRuns coveredGeneration expectedLiveObjectCount runs
  validateFormatRef formatRef
  validateKeyringRef keyringEnvelopeRef
  let root : V3IndexRoot := {
    completionReceipts := .default
    coveredGeneration := coveredGeneration
    expectedLiveObjectCount := expectedLiveObjectCount
    requiredCapabilities := 0
    formatRef := formatRef
    keyringEnvelopeRef := keyringEnvelopeRef
    claims := claims
    runs := runs }
  validateRoot root
  return root

end

def withCompletionReceipts (root : V3IndexRoot) (receipts : CompletionReceipts) : V3IndexRoot :=
  { root with completionReceipts := receipts }

/-! ## Encoding -/

def pushString (value : String) : Except V3FormatError Bytes := do
  let len ← okOr (tryFrom 16 value.utf8ByteSize) .indexRootLimitExceeded
  return toBe 2 len ++ utf8 value

def pushOptionalString (value : Option String) : Except V3FormatError Bytes :=
  match value with
  | none => return [0]
  | some value => do
    let bytes ← pushString value
    return 1 :: bytes

def encodeRunRef (run : V3IndexRootRunRef) : Except V3FormatError Bytes := do
  let firstPath ← pushString run.listingBounds.1.asStr
  let lastPath ← pushString run.listingBounds.2.asStr
  let keyringObject ← pushString run.keyringEnvelopeRef.objectId.asStr
  let commitKey ← pushString run.location.commitKey.asStr
  let versionId ← pushOptionalString (run.location.versionId.map BackendVersionId.asStr)
  return run.runId.toList ++ (toBe 8 run.runSequence.get ++ (toBe 8 run.minimumGeneration.get ++
    (toBe 8 run.maximumGeneration.get ++ (toBe 4 run.mutationCount ++ (toBe 4 run.frameCount ++ (toBe 2 run.level ++
    (toBe 8 run.compactionGeneration ++ (run.namespaceBounds.1.raw ++ (run.namespaceBounds.2.raw ++ (firstPath ++
    (lastPath ++ ((keyringObject ++ run.keyringEnvelopeRef.digest.toList) ++ (commitKey ++ (versionId ++
    (toBe 8 run.location.commitStoredLen ++ (run.location.commitBodyDigest.toList ++
    (toBe 8 run.location.sectionsStart ++ (toBe 4 run.location.sectionOrdinal ++ (toBe 8 run.location.sectionOffset ++
    (toBe 8 run.location.sectionLen ++ run.location.sectionDigest.toList))))))))))))))))))))

/-- `INDEX_ROOT_PLAINTEXT_DOMAIN`. -/
def plaintextDomain : Bytes := utf8 "rs3:index-root-plaintext:v02\n"

/-- `INDEX_ROOT_WIRE_VERSION`. -/
def wireVersion : ℕ := 6

def encodeRunRecord (run : V3IndexRootRunRef) : Except V3FormatError Bytes := do
  let record ← encodeRunRef run
  ensure (record.length ≤ maxRunRecordLen) .indexRootLimitExceeded
  let len ← okOr (tryFrom 32 record.length) .indexRootLimitExceeded
  return toBe 4 len ++ record

def encodeReceiptRecord (receipt : CompletionReceipt) : Except V3FormatError Bytes := do
  let bytes ← receipt.encode.mapError fun _ => .invalidIndexRoot
  let len ← okOr (tryFrom 32 bytes.length) .indexRootLimitExceeded
  return toBe 4 len ++ bytes

def encodeRoot (root : V3IndexRoot) : Except V3FormatError Bytes := do
  let formatDigest ← okOr (Text.hexDecode root.formatRef.digest) .invalidIndexRoot
  let formatObject ← pushString root.formatRef.objectId.asStr
  let formatVersion ← pushOptionalString (root.formatRef.versionId.map BackendVersionId.asStr)
  let keyringObject ← pushString root.keyringEnvelopeRef.objectId.asStr
  let runs ← root.runs.mapM encodeRunRecord
  let receiptCount ← okOr (tryFrom 32 root.completionReceipts.iter.length) .indexRootLimitExceeded
  let receipts ← root.completionReceipts.iter.mapM encodeReceiptRecord
  let output := plaintextDomain ++ (toBe 2 wireVersion ++ (toBe 8 root.coveredGeneration.get ++
    (toBe 8 root.expectedLiveObjectCount ++ (toBe 8 root.requiredCapabilities ++
    ((toBe 8 root.formatRef.generation.get ++ (formatDigest ++ (formatObject ++ formatVersion))) ++
    ((keyringObject ++ root.keyringEnvelopeRef.digest.toList) ++
    ((toBe 4 root.claims.runCount ++ (toBe 8 root.claims.totalStoredRunBytes ++ (toBe 8 root.claims.totalFrameCount ++
      (toBe 8 root.claims.totalMutationCount ++ toBe 2 root.claims.maximumLevel)))) ++
    (runs.flatten ++ (toBe 4 receiptCount ++ receipts.flatten)))))))))
  ensure (output.length ≤ maxBytes) .indexRootLimitExceeded
  return output

/-! ### Wire forms

What the encoders emit once no limit is exceeded.
-/

def stringWire (value : String) : Bytes := toBe 2 (utf8 value).length ++ utf8 value

def optionWire {α : Type} (wire : α → Bytes) : Option α → Bytes
  | none => [0]
  | some a => 1 :: wire a

def objectIdWire (id : BackendObjectId) : Bytes := stringWire id.asStr

def versionIdWire (versionId : Option BackendVersionId) : Bytes := optionWire (fun id => stringWire id.asStr) versionId

def keyringRefWire (reference : V3KeyringEnvelopeRef) : Bytes := objectIdWire reference.objectId ++ reference.digest.toList

def locationWire (location : V3EmbeddedIndexRunLocation) : Bytes :=
  objectIdWire location.commitKey ++ (versionIdWire location.versionId ++ (toBe 8 location.commitStoredLen ++
    (location.commitBodyDigest.toList ++ (toBe 8 location.sectionsStart ++ (toBe 4 location.sectionOrdinal ++
    (toBe 8 location.sectionOffset ++ (toBe 8 location.sectionLen ++ location.sectionDigest.toList)))))))

def runRefWire (run : V3IndexRootRunRef) : Bytes :=
  run.runId.toList ++ (toBe 8 run.runSequence.get ++ (toBe 8 run.minimumGeneration.get ++
    (toBe 8 run.maximumGeneration.get ++ (toBe 4 run.mutationCount ++ (toBe 4 run.frameCount ++ (toBe 2 run.level ++
    (toBe 8 run.compactionGeneration ++ (run.namespaceBounds.1.raw ++ (run.namespaceBounds.2.raw ++
    (stringWire run.listingBounds.1.asStr ++ (stringWire run.listingBounds.2.asStr ++
    (keyringRefWire run.keyringEnvelopeRef ++ locationWire run.location))))))))))))

def formatRefWire (reference : V3FormatRef) : Bytes :=
  toBe 8 reference.generation.get ++ ((Text.hexDecode reference.digest).getD [] ++ (objectIdWire reference.objectId ++
    versionIdWire reference.versionId))

def claimsWire (claims : V3IndexRootClaims) : Bytes :=
  toBe 4 claims.runCount ++ (toBe 8 claims.totalStoredRunBytes ++ (toBe 8 claims.totalFrameCount ++
    (toBe 8 claims.totalMutationCount ++ toBe 2 claims.maximumLevel)))

def recordWire {α : Type} (wire : α → Bytes) (a : α) : Bytes := toBe 4 (wire a).length ++ wire a

def rootWire (root : V3IndexRoot) : Bytes :=
  plaintextDomain ++ (toBe 2 wireVersion ++ (toBe 8 root.coveredGeneration.get ++
    (toBe 8 root.expectedLiveObjectCount ++ (toBe 8 root.requiredCapabilities ++ (formatRefWire root.formatRef ++
    (keyringRefWire root.keyringEnvelopeRef ++ (claimsWire root.claims ++ (root.runs.flatMap (recordWire runRefWire) ++
    (toBe 4 root.completionReceipts.iter.length ++
      root.completionReceipts.iter.flatMap (recordWire CompletionReceipt.encodeFields))))))))))

/-! ## Decoding -/

/-- An integer of `k` bytes. -/
def readInt (k : ℕ) : Reader V3FormatError ℕ := Reader.be .invalidIndexRoot k

def readSequence : Reader V3FormatError Sequence := do
  let value ← readInt 8
  okOr (U64.ofNat? value) invalidIndexRoot

def readArray32 : Reader V3FormatError Digest := do
  let bytes ← Reader.take .invalidIndexRoot 32
  okOr (exactly 32 bytes) invalidIndexRoot

def readString (maximum : ℕ) : Reader V3FormatError String := do
  let len ← readInt 2
  ensure (len ≠ 0 ∧ len ≤ maximum) indexRootLimitExceeded
  let bytes ← Reader.take .invalidIndexRoot len
  okOr (fromUtf8 bytes) invalidIndexRoot

/-- A tag, then a value when the tag is one. -/
def readOption {α : Type} (p : Reader V3FormatError α) : Reader V3FormatError (Option α) := do
  let tag ← Reader.byte .invalidIndexRoot
  if tag = 0 then return none
  else if tag = 1 then do
    let value ← p
    return some value
  else throw .invalidIndexRoot

def readObjectId : Reader V3FormatError BackendObjectId := do
  let value ← readString maxTextLen
  okOr (BackendObjectId.new? value) typeValidation

def readVersionId : Reader V3FormatError BackendVersionId := do
  let value ← readString maxTextLen
  okOr (BackendVersionId.new? value) typeValidation

def readPath : Reader V3FormatError LogicalPath := do
  let value ← readString maxTextLen
  okOr (LogicalPath.new? value) typeValidation

def readBlindKey : Reader V3FormatError BlindIndexKey := do
  let raw ← readArray32
  return .ofRaw raw

def readKeyringRef : Reader V3FormatError V3KeyringEnvelopeRef := do
  let objectId ← readObjectId
  let digest ← readArray32
  return ⟨objectId, digest⟩

def readLocation : Reader V3FormatError V3EmbeddedIndexRunLocation := do
  let commitKey ← readObjectId
  let versionId ← readOption readVersionId
  let commitStoredLen ← readInt 8
  let commitBodyDigest ← readArray32
  let sectionsStart ← readInt 8
  let sectionOrdinal ← readInt 4
  let sectionOffset ← readInt 8
  let sectionLen ← readInt 8
  let sectionDigest ← readArray32
  return ⟨commitKey, versionId, commitStoredLen, commitBodyDigest, sectionsStart, sectionOrdinal, sectionOffset,
    sectionLen, sectionDigest⟩

def readRunRef : Reader V3FormatError V3IndexRootRunRef := do
  let runId ← readArray32
  let runSequence ← readSequence
  let minimumGeneration ← readSequence
  let maximumGeneration ← readSequence
  let mutationCount ← readInt 4
  let frameCount ← readInt 4
  let level ← readInt 2
  let compactionGeneration ← readInt 8
  let firstKey ← readBlindKey
  let lastKey ← readBlindKey
  let firstPath ← readPath
  let lastPath ← readPath
  let keyringEnvelopeRef ← readKeyringRef
  let location ← readLocation
  return ⟨runId, runSequence, minimumGeneration, maximumGeneration, mutationCount, frameCount, level,
    compactionGeneration, (firstKey, lastKey), (firstPath, lastPath), keyringEnvelopeRef, location⟩

def decodeRunRef (input : Bytes) : Except V3FormatError V3IndexRootRunRef :=
  Reader.whole readRunRef .invalidIndexRoot input

def readFormatRef : Reader V3FormatError V3FormatRef := do
  let generation ← readSequence
  let digest ← readArray32
  let objectId ← readObjectId
  let versionId ← readOption readVersionId
  return ⟨generation, Text.hexEncode digest.toList, objectId, versionId⟩

def readClaims : Reader V3FormatError V3IndexRootClaims := do
  let runCount ← readInt 4
  let totalStoredRunBytes ← readInt 8
  let totalFrameCount ← readInt 8
  let totalMutationCount ← readInt 8
  let maximumLevel ← readInt 2
  return ⟨runCount, totalStoredRunBytes, totalFrameCount, totalMutationCount, maximumLevel⟩

def readRunRecord : Reader V3FormatError V3IndexRootRunRef :=
  Reader.framed .invalidIndexRoot .indexRootLimitExceeded 4 (fun len => len ≠ 0 ∧ len ≤ maxRunRecordLen) decodeRunRef

def readReceiptRecord : Reader V3FormatError CompletionReceipt :=
  Reader.framed .invalidIndexRoot .indexRootLimitExceeded 4 (fun len => len ≠ 0 ∧ len ≤ maxCompletionReceiptBytes)
    fun bytes => (CompletionReceipt.decode bytes).mapError fun _ => .invalidIndexRoot

def readRoot : Reader V3FormatError V3IndexRoot := do
  let domain ← Reader.take .invalidIndexRoot plaintextDomain.length
  ensure (domain = plaintextDomain) invalidIndexRoot
  let version ← readInt 2
  ensure (version = wireVersion) invalidIndexRoot
  let coveredGeneration ← readSequence
  let expectedLiveObjectCount ← readInt 8
  let requiredCapabilities ← readInt 8
  let formatRef ← readFormatRef
  let keyringEnvelopeRef ← readKeyringRef
  let claims ← readClaims
  ensure (claims.runCount ≤ maxRuns) indexRootLimitExceeded
  let runs ← Reader.many readRunRecord claims.runCount
  let receiptCount ← readInt 4
  ensure (receiptCount ≤ maxCompletionReceipts) indexRootLimitExceeded
  let receipts ← Reader.many readReceiptRecord receiptCount
  let completionReceipts ← (CompletionReceipts.fromSnapshot receipts).mapError fun _ => invalidIndexRoot
  return ⟨completionReceipts, coveredGeneration, expectedLiveObjectCount, requiredCapabilities, formatRef,
    keyringEnvelopeRef, claims, runs⟩

def decodeRoot (input : Bytes) : Except V3FormatError V3IndexRoot := do
  ensure (input.length ≤ maxBytes) .indexRootLimitExceeded
  let root ← Reader.whole readRoot .invalidIndexRoot input
  validateRoot root
  return root

/-! ## What the readers accept -/

variable {id : BackendObjectId} {reference : V3FormatRef} {location : V3EmbeddedIndexRunLocation}
  {claims : V3IndexRootClaims}

section Readers

theorem readInt_eq_ok : (readInt k).run input = .ok (n, rest) ↔ n < 256 ^ k ∧ input = toBe k n ++ rest := Reader.be_eq_ok

theorem readSequence_eq_ok {sequence : Sequence} :
    readSequence.run input = .ok (sequence, rest) ↔ input = toBe 8 sequence.get ++ rest := by
  simp only [readSequence, Reader.ok_iff, readInt_eq_ok, okOr_eq_ok, U64.ofNat?_eq_some, Reader.exists_converted]
  exact and_iff_right (sequence.isLt.trans_le (by decide))

theorem readArray32_eq_ok : readArray32.run input = .ok (digest, rest) ↔ input = digest.toList ++ rest := by
  simp only [readArray32, Reader.ok_iff, Reader.take_eq_ok, okOr_eq_ok, exactly_eq_some, Reader.exists_converted]
  exact and_iff_right digest.length_toList

theorem readString_eq_ok {maximum : ℕ} (hmax : maximum < 2 ^ 16) {text : String} :
    (readString maximum).run input = .ok (text, rest) ↔
      (utf8 text ≠ [] ∧ (utf8 text).length ≤ maximum) ∧ input = stringWire text ++ rest := by
  simp only [readString, Reader.ok_iff, readInt_eq_ok, ok_iff, Reader.take_eq_ok, fromUtf8_eq_some, stringWire,
    append_assoc]
  constructor
  · rintro ⟨_, _, ⟨-, rfl⟩, _, ⟨⟨hne, hle⟩, rfl⟩, _, _, ⟨rfl, rfl⟩, rfl, rfl⟩
    exact ⟨⟨fun hnil => hne (by rw [hnil]; rfl), hle⟩, rfl⟩
  · rintro ⟨⟨hne, hle⟩, rfl⟩
    exact ⟨_, _, ⟨by omega, rfl⟩, _, ⟨⟨fun hzero => hne (length_eq_zero_iff.mp hzero), hle⟩, rfl⟩, _, rest,
      ⟨rfl, rfl⟩, rfl, rfl⟩

theorem readOption_reads {α : Type} {p : Reader V3FormatError α} {valid : α → Prop} {wire : α → Bytes}
    (hp : Reader.Reads p valid wire) :
    Reader.Reads (readOption p) (fun x => ∀ a, x = some a → valid a) (optionWire wire) := by
  intro input x rest
  simp only [readOption, Reader.bind_eq_ok, Reader.byte_eq_ok]
  constructor
  · rintro ⟨tag, _, rfl, h⟩
    split_ifs at h with h0 h1
    · obtain ⟨rfl, rfl⟩ := Reader.pure_eq_ok.mp h
      exact ⟨fun _ hnone => (by cases hnone), by rw [h0]; rfl⟩
    · simp only [Reader.ok_iff, hp _ _ _] at h
      obtain ⟨a, _, ⟨ha, rfl⟩, rfl, rfl⟩ := h
      exact ⟨fun b hb => by cases hb; exact ha, by rw [h1]; rfl⟩
    · cases h
  · rintro ⟨hvalid, rfl⟩
    rcases x with _ | a
    · exact ⟨0, rest, rfl, Reader.pure_eq_ok.mpr ⟨rfl, rfl⟩⟩
    · refine ⟨1, wire a ++ rest, rfl, ?_⟩
      rw [if_neg (by decide), if_pos rfl, Reader.bind_eq_ok]
      exact ⟨a, rest, (hp _ _ _).mpr ⟨hvalid a rfl, rfl⟩, Reader.pure_eq_ok.mpr ⟨rfl, rfl⟩⟩

/-- A text of at most 1024 bytes. -/
def Short (text : String) : Prop := (utf8 text).length ≤ maxTextLen

theorem readObjectId_eq_ok : readObjectId.run input = .ok (id, rest) ↔
    Short id.asStr ∧ input = objectIdWire id ++ rest := by
  simp only [readObjectId, Reader.ok_iff, readString_eq_ok (show maxTextLen < 2 ^ 16 by decide), okOr_eq_ok,
    BackendObjectId.new?_eq_some, Short, objectIdWire, Reader.exists_converted]
  rw [and_iff_right (utf8_ne_nil id.valid)]

theorem readVersionId_reads :
    Reader.Reads readVersionId (fun id => Short id.asStr) (fun id => stringWire id.asStr) := by
  intro input id rest
  simp only [readVersionId, Reader.ok_iff, readString_eq_ok (show maxTextLen < 2 ^ 16 by decide), okOr_eq_ok,
    BackendVersionId.new?_eq_some, Short, Reader.exists_converted]
  rw [and_iff_right (utf8_ne_nil id.valid)]

/-- An absent version, or one of at most 1024 bytes. -/
def ShortVersion (versionId : Option BackendVersionId) : Prop := ∀ id, versionId = some id → Short id.asStr

theorem readOptionalVersionId_eq_ok {versionId : Option BackendVersionId} :
    (readOption readVersionId).run input = .ok (versionId, rest) ↔
      ShortVersion versionId ∧ input = versionIdWire versionId ++ rest :=
  readOption_reads readVersionId_reads input versionId rest

theorem readPath_eq_ok : readPath.run input = .ok (path, rest) ↔
    Short path.asStr ∧ input = stringWire path.asStr ++ rest := by
  simp only [readPath, Reader.ok_iff, readString_eq_ok (show maxTextLen < 2 ^ 16 by decide), okOr_eq_ok,
    LogicalPath.new?_eq_some, Short, Reader.exists_converted]
  rw [and_iff_right (utf8_ne_nil path.valid)]

theorem readBlindKey_eq_ok : readBlindKey.run input = .ok (key, rest) ↔ key.IsRaw ∧ input = key.raw ++ rest := by
  simp only [readBlindKey, Reader.ok_iff, readArray32_eq_ok]
  constructor
  · rintro ⟨raw, _, rfl, rfl, rfl⟩
    exact ⟨⟨raw, rfl⟩, by rw [BlindIndexKey.raw_ofRaw]⟩
  · rintro ⟨⟨raw, rfl⟩, rfl⟩
    exact ⟨raw, rest, by rw [BlindIndexKey.raw_ofRaw], rfl, rfl⟩

theorem readKeyringRef_eq_ok {reference : V3KeyringEnvelopeRef} :
    readKeyringRef.run input = .ok (reference, rest) ↔
      Short reference.objectId.asStr ∧ input = keyringRefWire reference ++ rest := by
  simp only [readKeyringRef, Reader.ok_iff, readObjectId_eq_ok, readArray32_eq_ok, keyringRefWire, append_assoc]
  constructor
  · rintro ⟨_, _, ⟨hshort, rfl⟩, _, _, rfl, rfl, rfl⟩
    exact ⟨hshort, rfl⟩
  · rintro ⟨hshort, rfl⟩
    exact ⟨_, _, ⟨hshort, rfl⟩, _, rest, rfl, rfl, rfl⟩

/-- The ranges of the machine fields of a location. -/
structure LocationTyped (location : V3EmbeddedIndexRunLocation) : Prop where
  commitStoredLen : location.commitStoredLen < 2 ^ 64
  sectionsStart : location.sectionsStart < 2 ^ 64
  sectionOrdinal : location.sectionOrdinal < 2 ^ 32
  sectionOffset : location.sectionOffset < 2 ^ 64
  sectionLen : location.sectionLen < 2 ^ 64

theorem readLocation_eq_ok : readLocation.run input = .ok (location, rest) ↔
      (LocationTyped location ∧ Short location.commitKey.asStr ∧ ShortVersion location.versionId) ∧
        input = locationWire location ++ rest := by
  cases location
  simp only [readLocation, Reader.ok_iff, readObjectId_eq_ok, readOptionalVersionId_eq_ok, readInt_eq_ok,
    readArray32_eq_ok, locationWire, append_assoc, V3EmbeddedIndexRunLocation.mk.injEq, existsAndEq, true_and, and_true]
  constructor
  · rintro ⟨⟨hkey, rfl⟩, hversion, h1, h2, h3, h4, h5⟩
    exact ⟨⟨⟨h1, h2, h3, h4, h5⟩, hkey, hversion⟩, rfl⟩
  · rintro ⟨⟨⟨h1, h2, h3, h4, h5⟩, hkey, hversion⟩, rfl⟩
    exact ⟨⟨hkey, rfl⟩, hversion, h1, h2, h3, h4, h5⟩

/-- The ranges of the machine fields of a run reference, with its blind keys of 32 bytes. -/
structure RunRefTyped (run : V3IndexRootRunRef) : Prop where
  mutationCount : run.mutationCount < 2 ^ 32
  frameCount : run.frameCount < 2 ^ 32
  level : run.level < 2 ^ 16
  compactionGeneration : run.compactionGeneration < 2 ^ 64
  firstKey : run.namespaceBounds.1.IsRaw
  lastKey : run.namespaceBounds.2.IsRaw
  location : LocationTyped run.location

/-- The texts of a run reference that `validateRuns` bounds. -/
structure RunRefShort (run : V3IndexRootRunRef) : Prop where
  keyring : Short run.keyringEnvelopeRef.objectId.asStr
  commitKey : Short run.location.commitKey.asStr
  versionId : ShortVersion run.location.versionId

/-- The listing bounds of a run, which it does not bound. -/
def ListingShort (run : V3IndexRootRunRef) : Prop := Short run.listingBounds.1.asStr ∧ Short run.listingBounds.2.asStr

theorem decodeRunRef_eq_ok {run : V3IndexRootRunRef} : decodeRunRef input = .ok run ↔
    (RunRefTyped run ∧ RunRefShort run ∧ ListingShort run) ∧ input = runRefWire run := by
  cases run
  simp only [decodeRunRef, Reader.whole_eq_ok, readRunRef, Reader.ok_iff, readArray32_eq_ok, readSequence_eq_ok,
    readInt_eq_ok, readBlindKey_eq_ok, readPath_eq_ok, readKeyringRef_eq_ok, readLocation_eq_ok, runRefWire,
    V3IndexRootRunRef.mk.injEq, existsAndEq, true_and, and_true, append_nil]
  constructor
  · rintro ⟨_, _, _, _, rfl, h1, h2, h3, h4, hfirst, hlast, hpath, hpath', hkeyring, ⟨hlocation, hkey, hversion⟩, rfl, rfl⟩
    exact ⟨⟨⟨h1, h2, h3, h4, hfirst, hlast, hlocation⟩, ⟨hkeyring, hkey, hversion⟩, hpath, hpath'⟩, rfl⟩
  · rintro ⟨⟨⟨h1, h2, h3, h4, hfirst, hlast, hlocation⟩, ⟨hkeyring, hkey, hversion⟩, hpath, hpath'⟩, rfl⟩
    exact ⟨_, _, _, _, rfl, h1, h2, h3, h4, hfirst, hlast, hpath, hpath', hkeyring, ⟨hlocation, hkey, hversion⟩, rfl, rfl⟩

/-- The digest of a format reference is the text of 32 bytes. -/
def FormatDigestText (reference : V3FormatRef) : Prop := ∃ digest : Digest, reference.digest = Text.hexEncode digest.toList

theorem readFormatRef_eq_ok : readFormatRef.run input = .ok (reference, rest) ↔
    (FormatDigestText reference ∧ Short reference.objectId.asStr ∧ ShortVersion reference.versionId) ∧
      input = formatRefWire reference ++ rest := by
  simp only [readFormatRef, Reader.ok_iff, readSequence_eq_ok, readArray32_eq_ok, readObjectId_eq_ok,
    readOptionalVersionId_eq_ok, formatRefWire, append_assoc]
  constructor
  · rintro ⟨_, _, rfl, digest, _, rfl, _, _, ⟨hid, rfl⟩, _, _, ⟨hversion, rfl⟩, rfl, rfl⟩
    refine ⟨⟨⟨digest, rfl⟩, hid, hversion⟩, ?_⟩
    rw [hexDecode_hexEncode, Option.getD_some]
  · rintro ⟨⟨⟨digest, hdigest⟩, hid, hversion⟩, rfl⟩
    rcases reference with ⟨generation, text, objectId, versionId⟩
    obtain rfl : text = hexEncode digest.toList := hdigest
    refine ⟨_, _, rfl, digest, _, ?_, _, _, ⟨hid, rfl⟩, _, _, ⟨hversion, rfl⟩, rfl, rfl⟩
    rw [hexDecode_hexEncode, Option.getD_some]

/-- The ranges of the machine fields of the claims. -/
structure ClaimsTyped (claims : V3IndexRootClaims) : Prop where
  runCount : claims.runCount < 2 ^ 32
  totalStoredRunBytes : claims.totalStoredRunBytes < 2 ^ 64
  totalFrameCount : claims.totalFrameCount < 2 ^ 64
  totalMutationCount : claims.totalMutationCount < 2 ^ 64
  maximumLevel : claims.maximumLevel < 2 ^ 16

theorem readClaims_eq_ok : readClaims.run input = .ok (claims, rest) ↔
    ClaimsTyped claims ∧ input = claimsWire claims ++ rest := by
  cases claims
  simp only [readClaims, Reader.ok_iff, readInt_eq_ok, claimsWire, append_assoc, V3IndexRootClaims.mk.injEq,
    existsAndEq, and_true]
  constructor
  · rintro ⟨⟨h1, rfl⟩, h2, h3, h4, h5⟩
    exact ⟨⟨h1, h2, h3, h4, h5⟩, rfl⟩
  · rintro ⟨⟨h1, h2, h3, h4, h5⟩, rfl⟩
    exact ⟨⟨h1, rfl⟩, h2, h3, h4, h5⟩

/-! ## Roots -/

theorem readRunRecord_reads : Reader.Reads readRunRecord
    (fun run => (RunRefTyped run ∧ RunRefShort run ∧ ListingShort run) ∧
      decide ((runRefWire run).length ≠ 0 ∧ (runRefWire run).length ≤ maxRunRecordLen) = true ∧
        (runRefWire run).length < 256 ^ 4) (recordWire runRefWire) :=
  Reader.framed_eq_ok fun _ _ => decodeRunRef_eq_ok

theorem readReceiptRecord_reads : Reader.Reads readReceiptRecord
    (fun receipt => (receipt.WellFormed ∧ receipt.validate = true) ∧
      decide (receipt.encodeFields.length ≠ 0 ∧ receipt.encodeFields.length ≤ maxCompletionReceiptBytes) = true ∧
        receipt.encodeFields.length < 256 ^ 4) (recordWire CompletionReceipt.encodeFields) :=
  Reader.framed_eq_ok fun _ _ => by rw [mapError_eq_ok, CompletionReceipt.decode_eq_ok]

end Readers

/-! ### What validation guarantees -/

variable {text : String}

theorem short_of_validateLen (h : validateLen text.utf8ByteSize maxTextLen = .ok u) : Short text := by
  rw [validateLen, ensure_eq_ok] at h
  rw [Short, length_utf8]
  exact h.2

variable {run : V3IndexRootRunRef} {root : V3IndexRoot}

theorem shortVersion_of_validateVersionId (h : validateVersionId versionId = .ok u) : ShortVersion versionId := by
  rintro id rfl
  exact short_of_validateLen h

theorem validateFormatRef_facts (h : validateFormatRef reference = .ok u) :
    FormatDigestText reference ∧ Short reference.objectId.asStr ∧ ShortVersion reference.versionId := by
  simp only [validateFormatRef, ok_iff] at h
  obtain ⟨_, hid, _, hversion, digest, -, hlen, hdigest⟩ := h
  refine ⟨⟨⟨digest.toArray, by simpa using hlen⟩, ?_⟩, short_of_validateLen hid,
    shortVersion_of_validateVersionId hversion⟩
  rw [← hdigest]
  rfl

variable {runs : List V3IndexRootRunRef}

/-- What one round of `validate_runs` has checked, and the range of its sums. -/
theorem validateRunStep_facts (h : validateRunStep coveredGeneration s run = .ok s') : RunRefShort run ∧
      s'.totalStoredRunBytes < 2 ^ 64 ∧ s'.totalFrameCount < 2 ^ 64 ∧ s'.totalMutationCount < 2 ^ 64 ∧
        s'.maximumLevel = max s.maximumLevel run.level ∧ run.level ≤ maxLevel := by
  simp only [validateRunStep, validateRunFacts, ok_iff, checkedAdd_eq_some, validateRunLocation] at h
  obtain ⟨-, hfacts, _, hkeyring, ⟨_, hkey, _, hversion, -⟩, -, _, ⟨hbytes, rfl⟩, _, ⟨hframes, rfl⟩, _,
    ⟨hmutations, rfl⟩, rfl⟩ := h
  exact ⟨⟨short_of_validateLen hkeyring, short_of_validateLen hkey, shortVersion_of_validateVersionId hversion⟩,
    hbytes, hframes, hmutations, rfl, hfacts.2.2.2.2.2.2.2.2.2.1⟩

/-- The sums stay in their machine types through the whole loop. -/
theorem foldlM_validateRunStep_facts (h : runs.foldlM (validateRunStep coveredGeneration) s = .ok s')
    (hs : s.totalStoredRunBytes < 2 ^ 64 ∧ s.totalFrameCount < 2 ^ 64 ∧ s.totalMutationCount < 2 ^ 64 ∧
      s.maximumLevel ≤ maxLevel) : (∀ run ∈ runs, RunRefShort run) ∧
      s'.totalStoredRunBytes < 2 ^ 64 ∧ s'.totalFrameCount < 2 ^ 64 ∧ s'.totalMutationCount < 2 ^ 64 ∧
        s'.maximumLevel ≤ maxLevel := by
  induction runs generalizing s with
  | nil =>
    rw [foldlM_nil, pure_eq_ok] at h
    subst h
    exact ⟨fun _ hmem => absurd hmem not_mem_nil, hs⟩
  | cons run runs ih =>
    rw [foldlM_cons, bind_eq_ok] at h
    obtain ⟨middle, hstep, hrest⟩ := h
    obtain ⟨hshort, hbytes, hframes, hmutations, hlevel, hle⟩ := validateRunStep_facts hstep
    obtain ⟨hruns, hfinal⟩ := ih hrest ⟨hbytes, hframes, hmutations, hlevel ▸ max_le hs.2.2.2 hle⟩
    exact ⟨forall_mem_cons.mpr ⟨hshort, hruns⟩, hfinal⟩

theorem validateRuns_facts (h : validateRuns coveredGeneration expectedLiveObjectCount runs = .ok claims) :
    runs.length ≤ maxRuns ∧ claims.runCount = runs.length ∧ ClaimsTyped claims ∧ ∀ run ∈ runs, RunRefShort run := by
  simp only [validateRuns, ok_iff, tryFrom_eq_some] at h
  obtain ⟨hlen, totals, hloop, -, -, -, _, ⟨hcount, rfl⟩, rfl⟩ := h
  obtain ⟨hruns, hbytes, hframes, hmutations, hlevel⟩ :=
    foldlM_validateRunStep_facts hloop ⟨by decide, by decide, by decide, by decide⟩
  exact ⟨hlen, rfl, ⟨hcount, hbytes, hframes, hmutations, hlevel.trans_lt (by decide)⟩, hruns⟩

/-- The part of `validateRoot` that the codec relies on. -/
structure RootChecked (root : V3IndexRoot) : Prop where
  requiredCapabilities : root.requiredCapabilities = 0
  format : FormatDigestText root.formatRef ∧ Short root.formatRef.objectId.asStr ∧ ShortVersion root.formatRef.versionId
  keyring : Short root.keyringEnvelopeRef.objectId.asStr
  runs_le : root.runs.length ≤ maxRuns
  runCount : root.claims.runCount = root.runs.length
  claims : ClaimsTyped root.claims
  runs : ∀ run ∈ root.runs, RunRefShort run

theorem rootChecked_of_validateRoot (h : validateRoot root = .ok u) : RootChecked root := by
  simp only [validateRoot, ok_iff] at h
  obtain ⟨hcapabilities, _, hformat, _, hkeyring, claims, hruns, rfl⟩ := h
  obtain ⟨hle, hcount, htyped, hshort⟩ := validateRuns_facts hruns
  exact ⟨hcapabilities, validateFormatRef_facts hformat, short_of_validateLen hkeyring, hle, hcount, htyped, hshort⟩

/-! ### Sizes -/

theorem length_stringWire (text : String) : (stringWire text).length = 2 + (utf8 text).length := by
  simp [stringWire]

theorem length_objectIdWire (h : Short id.asStr) : (objectIdWire id).length ≤ 1026 := by
  rw [objectIdWire, length_stringWire]
  have : (utf8 id.asStr).length ≤ 1024 := h
  omega

theorem length_versionIdWire (h : ShortVersion versionId) : (versionIdWire versionId).length ≤ 1027 := by
  rcases versionId with _ | id
  · decide
  · have : (utf8 id.asStr).length ≤ 1024 := h id rfl
    rw [versionIdWire, optionWire, length_cons, length_stringWire]
    omega

theorem length_locationWire (hkey : Short location.commitKey.asStr)
    (hversion : ShortVersion location.versionId) : (locationWire location).length ≤ 2153 := by
  have h1 := length_objectIdWire hkey
  have h2 := length_versionIdWire hversion
  simp only [locationWire, length_append, length_toBe, Vector.length_toList]
  omega

/-- A run record without its listing bounds stays below 3361 bytes. -/
theorem length_runRefWire (htyped : RunRefTyped run) (hshort : RunRefShort run) :
    0 < (runRefWire run).length ∧ (runRefWire run).length ≤
      3353 + (utf8 run.listingBounds.1.asStr).length + (utf8 run.listingBounds.2.asStr).length := by
  have h1 := length_objectIdWire hshort.keyring
  have h2 := length_locationWire hshort.commitKey hshort.versionId
  simp only [runRefWire, keyringRefWire, length_append, length_toBe, Vector.length_toList, length_stringWire,
    htyped.firstKey.length_raw, htyped.lastKey.length_raw]
  omega

/-! ### Both directions -/

/-- The ranges of the machine fields of a root, with receipts that make up a snapshot. -/
structure RootTyped (root : V3IndexRoot) : Prop where
  expectedLiveObjectCount : root.expectedLiveObjectCount < 2 ^ 64
  runs : ∀ run ∈ root.runs, RunRefTyped run
  receipts : ∀ receipt ∈ root.completionReceipts.iter, receipt.WellFormed
  snapshot : CompletionReceipts.fromSnapshot root.completionReceipts.iter = .ok root.completionReceipts

theorem RootTyped.canonical (h : RootTyped root) :
    root.completionReceipts.iter.length ≤ maxCompletionReceipts ∧
      CompletionReceipts.Canonical root.completionReceipts.iter :=
  (CompletionReceipts.fromSnapshot_eq_ok.mp h.snapshot).1

theorem runRecord_fits (htyped : RunRefTyped run) (hshort : RunRefShort run)
    (hlisting : ListingShort run) : 0 < (runRefWire run).length ∧ (runRefWire run).length ≤ 5401 := by
  obtain ⟨hpos, hle⟩ := length_runRefWire htyped hshort
  have h1 : (utf8 run.listingBounds.1.asStr).length ≤ 1024 := hlisting.1
  have h2 : (utf8 run.listingBounds.2.asStr).length ≤ 1024 := hlisting.2
  omega

/-- The size of a plaintext, given a bound for its run records. -/
theorem length_rootWire_le (htyped : RootTyped root) (hchecked : RootChecked root)
    (hrecords : ∀ run ∈ root.runs, (runRefWire run).length ≤ c) :
    (rootWire root).length ≤ root.runs.length * (c + 4) + 1324816 := by
  have hruns : (root.runs.flatMap (recordWire runRefWire)).length ≤ root.runs.length * (c + 4) := by
    refine length_flatMap_le fun run hrun => ?_
    have := hrecords run hrun
    rw [recordWire, length_append, length_toBe]
    omega
  have hreceipts : (root.completionReceipts.iter.flatMap (recordWire CompletionReceipt.encodeFields)).length ≤
      root.completionReceipts.iter.length * 1284 := by
    refine length_flatMap_le fun receipt hreceipt => ?_
    have := CompletionReceipt.length_encodeFields_le (htyped.receipts receipt hreceipt)
      (htyped.canonical.2.valid receipt hreceipt)
    rw [recordWire, length_append, length_toBe]
    omega
  have hcount : root.completionReceipts.iter.length ≤ 1024 := htyped.canonical.1
  have hdomain : plaintextDomain.length = 29 := by decide +kernel
  have hobject := length_objectIdWire hchecked.format.2.1
  have hversion := length_versionIdWire hchecked.format.2.2
  have hkeyring := length_objectIdWire hchecked.keyring
  obtain ⟨digest, hdigest⟩ := hchecked.format.1
  simp only [rootWire, formatRefWire, keyringRefWire, claimsWire, hdigest, hexDecode_hexEncode, Option.getD_some,
    length_append, length_toBe, Vector.length_toList, hdomain]
  omega

theorem length_rootWire (htyped : RootTyped root) (hchecked : RootChecked root)
    (hlisting : ∀ run ∈ root.runs, ListingShort run) : (rootWire root).length ≤ 6900000 := by
  have hlen := length_rootWire_le htyped hchecked fun run hrun =>
    (runRecord_fits (htyped.runs run hrun) (hchecked.runs run hrun) (hlisting run hrun)).2
  have hcount : root.runs.length ≤ 1024 := hchecked.runs_le
  omega

theorem iter_of_fromSnapshot (h : CompletionReceipts.fromSnapshot list = .ok receipts) : receipts.iter = list := by
  rw [CompletionReceipts.iter, (CompletionReceipts.fromSnapshot_eq_ok.mp h).2, map_map]
  exact map_id list

theorem readRoot_eq_ok (hchecked : RootChecked root) :
    readRoot.run input = .ok (root, []) ↔
      (RootTyped root ∧ ∀ run ∈ root.runs, ListingShort run) ∧ input = rootWire root := by
  simp only [readRoot, Reader.ok_iff, Reader.take_eq_ok, ok_iff, readInt_eq_ok, readSequence_eq_ok, readFormatRef_eq_ok,
    readKeyringRef_eq_ok, readClaims_eq_ok, Reader.many_eq_ok readRunRecord_reads,
    Reader.many_eq_ok readReceiptRecord_reads, rootWire]
  constructor
  · rintro ⟨_, _, ⟨-, rfl⟩, _, ⟨rfl, rfl⟩, _, _, ⟨-, rfl⟩, _, ⟨rfl, rfl⟩, _, _, rfl, _, _, ⟨hlive, rfl⟩, _, _, ⟨-, rfl⟩,
      _, _, ⟨-, rfl⟩, _, _, ⟨-, rfl⟩, _, _, ⟨-, rfl⟩, _, ⟨-, rfl⟩, runs, _, ⟨-, hruns, rfl⟩, _, _, ⟨-, rfl⟩, _, ⟨-, rfl⟩,
      list, _, ⟨rfl, hlist, rfl⟩, receipts, _, ⟨hsnapshot, rfl⟩, rfl, rfl⟩
    have hiter := iter_of_fromSnapshot hsnapshot
    refine ⟨⟨⟨hlive, fun run hrun => (hruns run hrun).1.1, ?_, ?_⟩, fun run hrun => (hruns run hrun).1.2.2⟩, ?_⟩
    · rw [hiter]
      exact fun receipt hreceipt => (hlist receipt hreceipt).1.1
    · rw [hiter]
      exact hsnapshot
    · rw [hiter, append_nil]
  -- each count is checked against its limit before its records are read
  · rintro ⟨⟨htyped, hlisting⟩, rfl⟩
    obtain ⟨hlen, hcanonical⟩ := htyped.canonical
    have hlen' : root.completionReceipts.iter.length ≤ 1024 := hlen
    have hcount : root.claims.runCount ≤ maxRuns := hchecked.runCount ▸ hchecked.runs_le
    refine ⟨plaintextDomain, _, ⟨rfl, rfl⟩, _, ⟨rfl, rfl⟩, wireVersion, _, ⟨by decide, rfl⟩, _, ⟨rfl, rfl⟩, _, _, rfl, _, _,
      ⟨htyped.expectedLiveObjectCount, rfl⟩, _, _, ⟨?_, rfl⟩, _, _, ⟨hchecked.format, rfl⟩, _, _,
      ⟨hchecked.keyring, rfl⟩, _, _, ⟨hchecked.claims, rfl⟩, _, ⟨hcount, rfl⟩, root.runs, _,
      ⟨hchecked.runCount.symm, fun run hrun => ⟨⟨htyped.runs run hrun, hchecked.runs run hrun, hlisting run hrun⟩, ?_⟩,
        rfl⟩, root.completionReceipts.iter.length, _, ⟨by omega, rfl⟩, _, ⟨hlen, rfl⟩, root.completionReceipts.iter, _,
      ⟨rfl, fun receipt hreceipt => ⟨⟨htyped.receipts receipt hreceipt, hcanonical.valid receipt hreceipt⟩, ?_⟩,
        (append_nil _).symm⟩, _, _, ⟨htyped.snapshot, rfl⟩, rfl, rfl⟩
    · rw [hchecked.requiredCapabilities]
      decide
    · obtain ⟨hpos, hle⟩ := runRecord_fits (htyped.runs run hrun) (hchecked.runs run hrun) (hlisting run hrun)
      exact ⟨decide_eq_true ⟨hpos.ne', hle.trans (by decide)⟩, hle.trans_lt (by decide)⟩
    · have hle := CompletionReceipt.length_encodeFields_le (htyped.receipts receipt hreceipt)
        (hcanonical.valid receipt hreceipt)
      have hpos : receipt.encodeFields.length ≠ 0 := by
        have := Cbor.length_le_writeBytes receipt.uploadId.toList
        rw [Vector.length_toList] at this
        rw [CompletionReceipt.encodeFields, length_append, length_append]
        omega
      exact ⟨decide_eq_true ⟨hpos, hle.trans (by decide)⟩, hle.trans_lt (by decide)⟩

/-- The decoder accepts exactly the wire forms of acceptable roots. -/
theorem decodeRoot_eq_ok : decodeRoot input = .ok root ↔
    (RootTyped root ∧ (∀ run ∈ root.runs, ListingShort run) ∧ validateRoot root = .ok ()) ∧ input = rootWire root := by
  simp only [decodeRoot, ok_iff, Reader.whole_eq_ok]
  constructor
  · rintro ⟨-, _, hread, _, hvalid, rfl⟩
    obtain ⟨⟨htyped, hlisting⟩, rfl⟩ := (readRoot_eq_ok (rootChecked_of_validateRoot hvalid)).mp hread
    exact ⟨⟨htyped, hlisting, hvalid⟩, rfl⟩
  · rintro ⟨⟨htyped, hlisting, hvalid⟩, rfl⟩
    have hchecked := rootChecked_of_validateRoot hvalid
    exact ⟨(length_rootWire htyped hchecked hlisting).trans (by decide), root,
      (readRoot_eq_ok hchecked).mpr ⟨⟨htyped, hlisting⟩, rfl⟩, (), hvalid, rfl⟩

theorem pushString_eq_ok : pushString text = .ok bytes ↔ (utf8 text).length < 2 ^ 16 ∧ stringWire text = bytes := by
  simp only [pushString, ok_iff, tryFrom_eq_some, stringWire, length_utf8]
  constructor
  · rintro ⟨_, ⟨hlt, rfl⟩, rfl⟩
    exact ⟨hlt, rfl⟩
  · rintro ⟨hlt, rfl⟩
    exact ⟨_, ⟨hlt, rfl⟩, rfl⟩

theorem pushString_of_short (h : Short text) : pushString text = .ok (stringWire text) :=
  pushString_eq_ok.mpr ⟨lt_of_le_of_lt h (by decide), rfl⟩

theorem pushOptionalString_of_short (h : ShortVersion versionId) :
    pushOptionalString (versionId.map BackendVersionId.asStr) = .ok (versionIdWire versionId) := by
  rcases versionId with _ | id
  · rfl
  · rw [Option.map_some, pushOptionalString, pushString_of_short (h id rfl)]
    rfl

/-- A run record is emitted when its texts and the whole record fit. -/
theorem encodeRunRecord_of (hshort : RunRefShort run) (hfirst : (utf8 run.listingBounds.1.asStr).length < 2 ^ 16)
    (hlast : (utf8 run.listingBounds.2.asStr).length < 2 ^ 16) (hlen : (runRefWire run).length ≤ maxRunRecordLen) :
    encodeRunRecord run = .ok (recordWire runRefWire run) := by
  have hencode : encodeRunRef run = .ok (runRefWire run) := by
    rw [encodeRunRef, pushString_eq_ok.mpr ⟨hfirst, rfl⟩, ok_bind, pushString_eq_ok.mpr ⟨hlast, rfl⟩, ok_bind,
      pushString_of_short hshort.keyring, ok_bind, pushString_of_short hshort.commitKey, ok_bind,
      pushOptionalString_of_short hshort.versionId, ok_bind]
    rfl
  rw [encodeRunRecord, hencode, ok_bind, ensure_of hlen, ok_bind,
    tryFrom_eq_some.mpr ⟨lt_of_le_of_lt hlen (by decide), rfl⟩]
  rfl

theorem encodeReceiptRecord_of (hwf : receipt.WellFormed) (hvalid : receipt.validate = true) :
    encodeReceiptRecord receipt = .ok (recordWire CompletionReceipt.encodeFields receipt) := by
  have hlen := CompletionReceipt.length_encodeFields_le hwf hvalid
  rw [encodeReceiptRecord, (CompletionReceipt.encode_eq_ok hwf).mpr ⟨hvalid, rfl⟩]
  simp only [ok_iff, tryFrom_eq_some]
  exact ⟨_, rfl, _, ⟨lt_of_le_of_lt hlen (by decide), rfl⟩, rfl⟩

/-- The encoder emits the wire form when the records and the whole fit. -/
theorem encodeRoot_of (htyped : RootTyped root) (hchecked : RootChecked root)
    (hruns : ∀ run ∈ root.runs, encodeRunRecord run = .ok (recordWire runRefWire run))
    (hlen : (rootWire root).length ≤ maxBytes) : encodeRoot root = .ok (rootWire root) := by
  obtain ⟨digest, hdigest⟩ := hchecked.format.1
  have hcount : root.completionReceipts.iter.length < 2 ^ 32 := lt_of_le_of_lt htyped.canonical.1 (by decide)
  have hreceipts : root.completionReceipts.iter.mapM encodeReceiptRecord =
      .ok (root.completionReceipts.iter.map (recordWire CompletionReceipt.encodeFields)) :=
    mapM_of_forall fun receipt hreceipt => encodeReceiptRecord_of (htyped.receipts receipt hreceipt)
      (htyped.canonical.2.valid receipt hreceipt)
  simp only [encodeRoot, ok_iff, pushString_of_short hchecked.format.2.1,
    pushOptionalString_of_short hchecked.format.2.2, pushString_of_short hchecked.keyring, mapM_of_forall hruns,
    hreceipts, tryFrom_eq_some, Except.ok.injEq]
  refine ⟨digest.toList, by rw [hdigest, hexDecode_hexEncode], _, rfl, _, rfl, _, rfl, _, rfl, _, ⟨hcount, rfl⟩, _,
    rfl, ?_⟩
  rw [rootWire, formatRefWire, hdigest, hexDecode_hexEncode, Option.getD_some] at hlen
  rw [rootWire, formatRefWire, hdigest, hexDecode_hexEncode, Option.getD_some]
  exact ⟨hlen, rfl⟩

/-- Everything the decoder accepts is encoded back to the same bytes. -/
theorem encodeRoot_decodeRoot (h : decodeRoot input = .ok root) : encodeRoot root = .ok input := by
  obtain ⟨⟨htyped, hlisting, hvalid⟩, rfl⟩ := decodeRoot_eq_ok.mp h
  have hchecked := rootChecked_of_validateRoot hvalid
  refine encodeRoot_of htyped hchecked (fun run hrun => ?_)
    ((length_rootWire htyped hchecked hlisting).trans (by decide))
  have hfits := (runRecord_fits (htyped.runs run hrun) (hchecked.runs run hrun) (hlisting run hrun)).2
  exact encodeRunRecord_of (hchecked.runs run hrun) (lt_of_le_of_lt (hlisting run hrun).1 (by decide))
    (lt_of_le_of_lt (hlisting run hrun).2 (by decide)) (hfits.trans (by decide))

end Rs3.IndexRoot
