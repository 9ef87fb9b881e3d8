/-
# Rs3.Index.Commit — commit objects with their sections, and references to the runs inside them.

`V3ReplayCommit`, `build_section_region` and `write_prepared_child_commit_with` of `v3/repository.rs`, the sections
of `v3/commit.rs` and the reference types of `v3/index_root.rs`.  A section holds its opened content next to the
length and digest of its stored bytes: what was sealed in a place is what opens there.
-/
import Rs3.Index.State
import Rs3.Repository.CommitKey

namespace Rs3.Index

open Repository (V3CommitHeader V3CommitKind V3CommitParentRef V3CommitKey V3KeyringEnvelopeRef)

/-! ## References to runs -/

/-- Exact commit section that contains one run. -/
structure V3EmbeddedIndexRunLocation where
  commitKey : BackendObjectId
  versionId : Option BackendVersionId
  commitStoredLen : ℕ
  commitBodyDigest : Digest
  sectionsStart : ℕ
  sectionOrdinal : ℕ
  sectionOffset : ℕ
  sectionLen : ℕ
  sectionDigest : Digest
  deriving DecidableEq

/-- Catalog facts of one active run. -/
structure V3IndexRootRunRef where
  runId : Digest
  runSequence : Sequence
  minimumGeneration : Sequence
  maximumGeneration : Sequence
  mutationCount : ℕ
  frameCount : ℕ
  level : ℕ
  compactionGeneration : ℕ
  namespaceBounds : BlindIndexKey × BlindIndexKey
  listingBounds : LogicalPath × LogicalPath
  keyringEnvelopeRef : V3KeyringEnvelopeRef
  location : V3EmbeddedIndexRunLocation
  deriving DecidableEq

/-- Recomputed resource claims of a root. -/
structure V3IndexRootClaims where
  runCount : ℕ
  totalStoredRunBytes : ℕ
  totalFrameCount : ℕ
  totalMutationCount : ℕ
  maximumLevel : ℕ
  deriving DecidableEq

/-- Catalog of the active runs. -/
structure V3IndexRoot where
  completionReceipts : CompletionReceipts
  coveredGeneration : Sequence
  expectedLiveObjectCount : ℕ
  requiredCapabilities : ℕ
  formatRef : V3FormatRef
  keyringEnvelopeRef : V3KeyringEnvelopeRef
  claims : V3IndexRootClaims
  runs : List V3IndexRootRunRef

/-! ## Sections -/

/-- Layout facts of a sealed payload pack. -/
structure V3PayloadPackLayout where
  packId : Digest
  attemptId : Digest
  contentKeyId : KeyId
  storedLen : ℕ
  records : List IndexPackRecordPointer
  deriving DecidableEq

/-- `layout.record(ordinal)` with `index_pack_record_pointer`. -/
def V3PayloadPackLayout.record (layout : V3PayloadPackLayout) (ordinal : ℕ) : Option IndexPackRecordPointer :=
  layout.records[ordinal]?

/-- `index_run_self_pack`. -/
def indexRunSelfPack (layout : V3PayloadPackLayout) : IndexRunSelfPack :=
  ⟨layout.packId, layout.attemptId, layout.contentKeyId, layout.storedLen, layout.records.length⟩

/-- A sealed run: its random identity, the number of its frames, and the run that opening it returns. -/
structure V3SealedIndexRun where
  runId : Digest
  frameCount : ℕ
  run : IndexRun
  deriving DecidableEq

inductive V3SectionType where
  | payloadPack
  | indexRun
  | indexRoot
  | recovery
  deriving DecidableEq, Repr

inductive V3SectionContent where
  | payloadPack (layout : V3PayloadPackLayout)
  | indexRun (sealedRun : V3SealedIndexRun)
  | indexRoot (root : V3IndexRoot)
  | recovery

def V3SectionContent.sectionType : V3SectionContent → V3SectionType
  | payloadPack _ => .payloadPack
  | indexRun _ => .indexRun
  | indexRoot _ => .indexRoot
  | recovery => .recovery

/-- A section to be written, with the length and digest of its bytes. -/
structure V3CommitSection where
  content : V3SectionContent
  len : ℕ
  digest : Digest

structure V3SectionDescriptor where
  sectionType : V3SectionType
  offset : ℕ
  length : ℕ
  digest : Digest
  deriving DecidableEq

/-- A stored section under its signed descriptor. -/
structure V3StoredSection where
  descriptor : V3SectionDescriptor
  content : V3SectionContent

/-- `build_section_region`: sections follow each other without gaps. -/
def buildSectionRegion (offset : ℕ) : List V3CommitSection → List V3StoredSection
  | [] => []
  | stored :: rest =>
    ⟨⟨stored.content.sectionType, offset, stored.len, stored.digest⟩, stored.content⟩ ::
      buildSectionRegion (offset + stored.len) rest

def sectionRegionLen (sections : List V3CommitSection) : ℕ := (sections.map V3CommitSection.len).sum

/-! ## Commits -/

/-- One verified commit as replay reads it. -/
structure V3ReplayCommit where
  header : V3CommitHeader
  sections : List V3StoredSection
  sectionsStart : ℕ
  versionId : Option BackendVersionId
  objectLen : ℕ

def V3ReplayCommit.sectionIndex (commit : V3ReplayCommit) : List V3SectionDescriptor :=
  commit.sections.map V3StoredSection.descriptor

def V3ReplayCommit.anchorState (commit : V3ReplayCommit) (formatRef : V3FormatRef) : V3AnchorState :=
  commit.header.anchorState commit.versionId formatRef

/-- What a write learns or chooses outside the sections: the random key, the provider's version, the digest of the
section region, the length of the signed header and the publication time. -/
structure V3CommitUpload where
  commitKey : V3CommitKey
  versionId : Option BackendVersionId
  bodyDigest : Digest
  sectionsStart : ℕ
  publishTimeMs : Int
  signingKeyId : KeyId

/-- `write_prepared_child_commit_with`, once the sections are built for the key of `upload`. -/
def writeChildCommit (parent : V3AnchorState) (keyringEnvelopeRef : V3KeyringEnvelopeRef) (kind : V3CommitKind)
    (sections : List V3CommitSection) (upload : V3CommitUpload) : Except V3FormatError V3ReplayCommit := do
  let sequence ← okOr parent.sequence.checkedNext .invalidHeaderField
  ensure (upload.commitKey.sequence = sequence) .invalidCommitKey
  return {
    header := {
      selfRef := ⟨sequence, upload.commitKey.objectId⟩
      parent := some (.ofAnchor parent)
      publishTimeMs := upload.publishTimeMs
      kind := kind
      keyringEnvelopeRef := keyringEnvelopeRef
      bodyDigest := upload.bodyDigest
      signingKeyId := upload.signingKeyId }
    sections := buildSectionRegion 0 sections
    sectionsStart := upload.sectionsStart
    versionId := upload.versionId
    objectLen := upload.sectionsStart + sectionRegionLen sections }

/-- The first check of `validate_commit_section_semantics`: a commit without a parent is the first one, and a child
follows its parent's sequence. -/
def V3ReplayCommit.followsParent (commit : V3ReplayCommit) : Bool :=
  match commit.header.parent with
  | none => commit.header.selfRef.sequence = 1
  | some parent => parent.sequence.checkedNext = some commit.header.selfRef.sequence

/-- The object store: `read_commit_facts_at` finds the commit with this key and version and parses its header. -/
def readCommitFactsAt (store : List V3ReplayCommit) (commitKey : BackendObjectId)
    (versionId : Option BackendVersionId) : Except V3FormatError V3ReplayCommit := do
  let commit ← okOr (store.find? fun commit => commit.header.selfRef.commitKey = commitKey ∧ commit.versionId = versionId)
    .storageOperationFailed
  ensure commit.followsParent .invalidHeaderField
  return commit

/-! ## Carriers and containers -/

def indexRunPackContainer (carrier : V3PackCarrierReference) : IndexRunContainer where
  objectId := carrier.commitKey
  versionId := carrier.commitVersionId
  storedLen := carrier.commitStoredLen
  commitBodyDigest := carrier.bodyDigest
  keyringEnvelope := ⟨carrier.keyringEnvelopeObjectId, carrier.keyringEnvelopeDigest⟩
  packSectionOffset := carrier.packOffset
  packSectionOrdinal := carrier.packSectionOrdinal
  packSectionLen := carrier.length
  packId := carrier.packId
  attemptId := carrier.attemptId
  contentKeyId := carrier.contentKeyId
  packRecordCount := carrier.packRecordCount

def packCarrierFromIndexRun (container : IndexRunContainer) : V3PackCarrierReference where
  commitKey := container.objectId
  commitVersionId := container.versionId
  bodyDigest := container.commitBodyDigest
  commitStoredLen := container.storedLen
  packSectionOrdinal := container.packSectionOrdinal
  packOffset := container.packSectionOffset
  length := container.packSectionLen
  packId := container.packId
  attemptId := container.attemptId
  contentKeyId := container.contentKeyId
  keyringEnvelopeObjectId := container.keyringEnvelope.objectId
  keyringEnvelopeDigest := container.keyringEnvelope.digest
  packRecordCount := container.packRecordCount

def indexRunStandaloneStreamContainer (carrier : V3StandaloneStreamCarrierReference) :
    IndexRunStandaloneStreamContainer where
  objectId := carrier.objectId
  versionId := carrier.versionId
  storedLen := carrier.storedLen
  objectDigest := carrier.objectDigest
  keyringEnvelope := ⟨carrier.keyringEnvelopeObjectId, carrier.keyringEnvelopeDigest⟩
  payloadLayout := carrier.payloadLayout

def standaloneStreamCarrierFromIndexRun (container : IndexRunStandaloneStreamContainer) :
    V3StandaloneStreamCarrierReference where
  objectId := container.objectId
  versionId := container.versionId
  objectDigest := container.objectDigest
  storedLen := container.storedLen
  keyringEnvelopeObjectId := container.keyringEnvelope.objectId
  keyringEnvelopeDigest := container.keyringEnvelope.digest
  payloadLayout := container.payloadLayout

/-- `pack_record_reference`. -/
def packRecordReference (record : IndexPackRecordPointer) : V3PackRecordReference :=
  ⟨record.recordOrdinal, record.physicalOffset⟩

end Rs3.Index
