/-
# Rs3.Index.Publication — publishing a batch of staged mutations.

`pending_packed_sections_for_commit` and `resolve_pending_pack_refs` of `v3/service/packed.rs`, and
`publish_pending_snapshot`, `prepare_pending_install`, `install_pending_commit`, the standalone and the multipart
publication of `v3/service.rs` and `v3/service/multipart.rs`.  Sealing is a parameter: it chooses random identities
and produces bytes, of which only the length, the digest and what opens from them are used.  The upload and the
anchor advance between preparing and installing are those of `Rs3.Repository.Anchor`; a publication here is one
that was adopted.
-/
import Rs3.Index.CompactionPlan
import Rs3.Index.Staging

namespace Rs3.Index

open KeyedLog (lastFor)
open Repository (V3CommitKey V3KeyringEnvelopeRef)

/-! ## Sealing -/

/-- A sealed run section with the length and digest of its bytes. -/
structure V3SealedRunSection where
  sealedRun : V3SealedIndexRun
  len : ℕ
  digest : Digest
  deriving DecidableEq

/-- `IndexRunLimits::default().max_mutations`. -/
def maxRunMutations : ℕ := 65536

/-- `V3_INDEX_RUN_MAX_FRAME_COUNT`. -/
def maxRunFrames : ℕ := 4096

/-- `V3_INDEX_RUN_MAX_OBJECT_BYTES`. -/
def maxRunObjectBytes : ℕ := 8 * 1024 * 1024

/-- What sealing a run guarantees. -/
structure V3SealedRunSection.Seals (sealed : V3SealedRunSection) (run : IndexRun) : Prop where
  opens : sealed.sealedRun.run = run
  mutations : run.mutations.length ≤ maxRunMutations
  frames : 1 ≤ sealed.sealedRun.frameCount ∧ sealed.sealedRun.frameCount ≤ maxRunFrames
  len : 0 < sealed.len ∧ sealed.len ≤ maxRunObjectBytes

/-- One use of the sealing functions.  `encodes` is `encode_index_run` with the default limits. -/
structure Sealer where
  encodes : IndexRun → Bool
  sealV3PayloadPack : List (List UInt8) → Except V3FormatError (V3PayloadPackLayout × Digest)
  sealV3IndexRun : IndexRun → Except V3FormatError V3SealedRunSection
  seals : ∀ {run section'}, sealV3IndexRun run = .ok section' → section'.Seals run

/-! ## Building the sections -/

/-- The set operation of `BTreeSet::insert` on its sorted elements. -/
def setInsert {α : Type} [Ord α] (a : α) : List α → List α
  | [] => [a]
  | b :: rest =>
    match compare a b with
    | .lt => a :: b :: rest
    | .eq => b :: rest
    | .gt => b :: setInsert a rest

/-- Number the payloads with a body; empty ones need no record. -/
def recordOrdinals (ordinal : ℕ) : List PendingV3Payload → List (ManifestId × Option ℕ)
  | [] => []
  | payload :: rest =>
    if payload.body = [] then (payload.manifestId, none) :: recordOrdinals ordinal rest
    else (payload.manifestId, some ordinal) :: recordOrdinals (ordinal + 1) rest

def packInputs (payloads : List PendingV3Payload) : List (List UInt8) :=
  (payloads.map PendingV3Payload.body).filter fun body => body ≠ []

/-- A lookup in the map of record ordinals. -/
def recordOrdinal (ordinals : List (ManifestId × Option ℕ)) (manifestId : ManifestId) : Option (Option ℕ) :=
  (ordinals.find? fun record => record.1 = manifestId).map Prod.snd

/-- Errors of the section builder; `none` is its answer `Ok(None)`: the batch does not fit in one commit. -/
abbrev PackError := Option V3FormatError

/-- The containers of the payloads that lie outside the commit. -/
def externalContainers (ordinals : List (ManifestId × Option ℕ)) : List IndexDelta →
    Except PackError (List IndexRunContainer × List IndexRunStandaloneStreamContainer)
  | [] => .ok ([], [])
  | .tombstone .. :: rest => externalContainers ordinals rest
  | .upsert entry :: rest => do
    let sets ← externalContainers ordinals rest
    if recordOrdinal ordinals entry.manifestId ≠ none ∨ entry.contentLen = 0 then return sets
    else
      match entry.payloadRef with
      | some (.v3Pack carrier _) => return (setInsert (indexRunPackContainer carrier) sets.1, sets.2)
      | some (.v3StandaloneStream carrier) =>
        return (sets.1, setInsert (indexRunStandaloneStreamContainer carrier) sets.2)
      | _ => .error (some .invalidHeaderField)

/-- Everything the mutations of one run refer to. -/
structure PackingContext where
  ordinals : List (ManifestId × Option ℕ)
  layout : Option V3PayloadPackLayout
  containers : List IndexRunContainer
  standaloneStreamContainers : List IndexRunStandaloneStreamContainer

namespace PackingContext

variable (context : PackingContext)

/-- The pointer to a payload outside the commit. -/
def externalPointer : Option PayloadReference → Except PackError IndexPayloadPointer
  | some (.v3Pack carrier record) => do
    let ordinal ← okOr (context.containers.idxOf? (indexRunPackContainer carrier)) (some .invalidHeaderField)
    return .externalPack ordinal ⟨record.recordOrdinal, record.recordOffset⟩
  | some (.v3StandaloneStream carrier) => do
    let ordinal ← okOr (context.standaloneStreamContainers.idxOf? (indexRunStandaloneStreamContainer carrier))
      (some .invalidHeaderField)
    return .externalStandaloneStream ordinal
  | _ => .error none

def payloadPointer (entry : NamespaceEntry) : Except PackError IndexPayloadPointer :=
  if entry.contentLen = 0 then .ok .empty
  else
    match recordOrdinal context.ordinals entry.manifestId with
    | some (some ordinal) => do
      let record ← okOr (context.layout.bind fun layout => layout.record ordinal) (some .invalidPayloadPack)
      return .selfPack record
    | _ => context.externalPointer entry.payloadRef

def packedMutation (manifestOf : ManifestId → Option TrustedManifest) (delta : IndexDelta × ℕ) :
    Except PackError IndexMutation :=
  match delta with
  | (.upsert entry, ordinal) => do
    let manifest ← okOr (manifestOf entry.manifestId) (some .invalidHeaderField)
    let payload ← context.payloadPointer entry
    return .upsert {
      mutationOrdinal := ordinal
      blindKey := entry.blindKey
      namespaceKeyId := entry.namespaceKeyId
      path := manifest.key
      generation := entry.generation
      payload := payload
      contentLen := entry.contentLen
      modifiedAtMs := entry.modifiedAtMs
      retention := entry.retention
      legalHold := entry.legalHold
      etag := manifest.etag
      checksum := manifest.checksum }
  | (.tombstone namespaceKeyId blindKey path generation, ordinal) =>
    .ok (.tombstone ⟨ordinal, blindKey, namespaceKeyId, path, generation⟩)

end PackingContext

/-- Where a staged payload went. -/
structure PendingV3PackRecordLocation where
  manifestId : ManifestId
  packSectionOrdinal : Option ℕ
  pack : Option IndexRunSelfPack
  record : Option IndexPackRecordPointer
  offset : ℕ
  length : ℕ
  deriving DecidableEq

def packRecordLocation (layout : Option V3PayloadPackLayout) (record : ManifestId × Option ℕ) :
    PendingV3PackRecordLocation :=
  let pointer := record.2.bind fun ordinal => layout.bind fun layout => layout.record ordinal
  { manifestId := record.1
    packSectionOrdinal := record.2.map fun _ => 0
    pack := pointer.bind fun _ => layout.map indexRunSelfPack
    record := pointer
    offset := 0
    length := (record.2.bind fun _ => layout.map V3PayloadPackLayout.storedLen).getD 0 }

structure PendingV3IndexRunFacts where
  runId : Digest
  runSequence : Sequence
  bounds : IndexRunBounds
  mutationCount : ℕ
  frameCount : ℕ
  keyringEnvelopeRef : V3KeyringEnvelopeRef
  sectionOrdinal : ℕ
  sectionOffset : ℕ
  sectionLen : ℕ
  sectionDigest : Digest
  deriving DecidableEq

structure PendingV3PackedCommitSections where
  sections : List V3CommitSection
  locations : List PendingV3PackRecordLocation
  run : PendingV3IndexRunFacts

namespace Sealer

variable (sealer : Sealer)

/-- A pack is sealed only when some payload has a body. -/
def sealPack (inputs : List (List UInt8)) : Except PackError (Option (V3PayloadPackLayout × Digest)) :=
  if inputs = [] then .ok none
  else
    match sealer.sealV3PayloadPack inputs with
    | .ok pack => .ok (some pack)
    | .error .payloadPackLimitExceeded => .error none
    | .error error => .error (some error)

def sealRun (run : IndexRun) : Except PackError V3SealedRunSection :=
  match sealer.sealV3IndexRun run with
  | .ok sealed => .ok sealed
  | .error .indexRunLimitExceeded => .error none
  | .error error => .error (some error)

end Sealer

def packSection (pack : Option (V3PayloadPackLayout × Digest)) : List V3CommitSection :=
  pack.toList.map fun pack => ⟨.payloadPack pack.1, pack.1.storedLen, pack.2⟩

def packedRun (pending : PendingV3Snapshot) (sequence : Sequence) (context : PackingContext)
    (mutations : List IndexMutation) : IndexRun where
  completionReceipt := pending.completionReceipt
  sequence := sequence
  selfPack := (context.ordinals.map (packRecordLocation context.layout)).findSome? PendingV3PackRecordLocation.pack
  containers := context.containers
  standaloneStreamContainers := context.standaloneStreamContainers
  mutations := mutations

/-- What the builder has settled before it seals the run. -/
structure PackedBatch where
  context : PackingContext
  pack : Option (V3PayloadPackLayout × Digest)
  mutations : List IndexMutation
  sequence : Sequence
  bounds : IndexRunBounds

def packBatch (service : V3Repository) (sealer : Sealer) (commitKey : V3CommitKey) (pending : PendingV3Snapshot) :
    Except PackError PackedBatch := do
  ensure (pending.completionReceipt.all fun receipt => receipt.commitSequence = commitKey.sequence)
    (some .invalidIndexRun)
  let deltas := KeyedLog.coalesce IndexDelta.blindKey pending.deltas
  let payloads := pending.payloads.filter fun payload => payload.manifestId ∈ liveManifests deltas
  ensure (payloads.map PendingV3Payload.manifestId).Nodup (some .invalidHeaderField)
  let ordinals := recordOrdinals 0 payloads
  let containers ← externalContainers ordinals deltas
  let pack ← sealer.sealPack (packInputs payloads)
  let context : PackingContext := ⟨ordinals, pack.map Prod.fst, containers.1, containers.2⟩
  let mutations ← deltas.zipIdx.mapM
    (context.packedMutation (pending.manifest service.accepted.repository))
  let sequence ← okOr pending.commitSequence (some .invalidHeaderField)
  let bounds ← (indexRunBounds mutations).mapError some
  return ⟨context, pack, mutations, sequence, bounds⟩

def pendingPackedSectionsForCommit (service : V3Repository) (sealer : Sealer) (commitKey : V3CommitKey)
    (pending : PendingV3Snapshot) : Except PackError PendingV3PackedCommitSections := do
  let batch ← packBatch service sealer commitKey pending
  let sealed ← sealer.sealRun (packedRun pending batch.sequence batch.context batch.mutations)
  return {
    sections := packSection batch.pack ++ [⟨.indexRun sealed.sealedRun, sealed.len, sealed.digest⟩]
    locations := batch.context.ordinals.map (packRecordLocation batch.context.layout)
    run := {
      runId := sealed.sealedRun.runId
      runSequence := batch.sequence
      bounds := batch.bounds
      mutationCount := batch.mutations.length
      frameCount := sealed.sealedRun.frameCount
      keyringEnvelopeRef := service.options.keyringEnvelopeRef
      sectionOrdinal := (packSection batch.pack).length
      sectionOffset := sectionRegionLen (packSection batch.pack)
      sectionLen := sealed.len
      sectionDigest := sealed.digest } }

/-! ## Resolving the staged payloads -/

/-- The commit as the store knows it after the upload. -/
def acceptedRunRef (run : PendingV3IndexRunFacts) (uploaded : V3ReplayCommit) : V3IndexRootRunRef where
  runId := run.runId
  runSequence := run.runSequence
  minimumGeneration := run.bounds.minimumGeneration
  maximumGeneration := run.bounds.maximumGeneration
  mutationCount := run.mutationCount
  frameCount := run.frameCount
  level := 0
  compactionGeneration := 0
  namespaceBounds := run.bounds.namespaceBounds
  listingBounds := run.bounds.listing
  keyringEnvelopeRef := run.keyringEnvelopeRef
  location := {
    commitKey := uploaded.header.selfRef.commitKey
    versionId := uploaded.versionId
    commitStoredLen := uploaded.objectLen
    commitBodyDigest := uploaded.header.bodyDigest
    sectionsStart := uploaded.sectionsStart
    sectionOrdinal := run.sectionOrdinal
    sectionOffset := run.sectionOffset
    sectionLen := run.sectionLen
    sectionDigest := run.sectionDigest }

variable (keyringEnvelopeRef : V3KeyringEnvelopeRef)

/-- The carrier of a record in the pack of the uploaded commit. -/
def resolvedCarrier (stored : V3ReplayCommit) (sectionOrdinal : ℕ)
    (pack : IndexRunSelfPack) (location : PendingV3PackRecordLocation) : V3PackCarrierReference where
  commitKey := stored.header.selfRef.commitKey
  commitVersionId := stored.versionId
  bodyDigest := stored.header.bodyDigest
  commitStoredLen := stored.objectLen
  packSectionOrdinal := sectionOrdinal
  packOffset := stored.sectionsStart + location.offset
  length := location.length
  packId := pack.packId
  attemptId := pack.attemptId
  contentKeyId := pack.contentKeyId
  keyringEnvelopeObjectId := keyringEnvelopeRef.objectId
  keyringEnvelopeDigest := keyringEnvelopeRef.digest
  packRecordCount := pack.recordCount

def resolvedPayloadRef (stored : V3ReplayCommit) (contentLen : ℕ)
    (location : PendingV3PackRecordLocation) : Except V3FormatError (Option PayloadReference) :=
  match location.packSectionOrdinal, location.pack, location.record with
  | some sectionOrdinal, some pack, some record => do
    ensure (stored.sectionsStart + location.offset < 2 ^ 64) .sectionBounds
    return some (.v3Pack (resolvedCarrier keyringEnvelopeRef stored sectionOrdinal pack location)
      (packRecordReference record))
  | none, none, none => if contentLen = 0 then .ok none else .error .invalidHeaderField
  | _, _, _ => .error .invalidHeaderField

/-- One delta of `resolve_pending_pack_refs`. -/
def resolveDelta (stored : V3ReplayCommit)
    (locations : List PendingV3PackRecordLocation) : IndexDelta → Except V3FormatError IndexDelta
  | .upsert entry =>
    match locations.find? fun location => location.manifestId = entry.manifestId with
    | none => .ok (.upsert entry)
    | some location => do
      let payloadRef ← resolvedPayloadRef keyringEnvelopeRef stored entry.contentLen location
      return .upsert { entry with
        objectId := stored.header.selfRef.commitKey
        objectVersionId := stored.versionId
        payloadRef := payloadRef }
  | delta => .ok delta

/-- The upserts that a location belongs to. -/
def resolvedCount (locations : List PendingV3PackRecordLocation) (deltas : List IndexDelta) : ℕ :=
  deltas.countP fun
    | .upsert entry => locations.any fun location => location.manifestId = entry.manifestId
    | .tombstone .. => false

def unresolved : IndexDelta → Bool
  | .upsert entry => entry.payloadRef = some .pending
  | .tombstone .. => false

/-- The pack carrier of a resolved delta that a location belongs to. -/
def sharedCarrier (locations : List PendingV3PackRecordLocation) : IndexDelta → Option V3PackCarrierReference
  | .upsert entry =>
    match locations.any (fun location => location.manifestId = entry.manifestId), entry.payloadRef with
    | true, some (.v3Pack carrier _) => some carrier
    | _, _ => none
  | .tombstone .. => none

/-- All records of the batch share one carrier, every location was used, and nothing is left pending. -/
def resolvePendingPackRefs (pending : PendingV3Snapshot)
    (stored : V3ReplayCommit) (locations : List PendingV3PackRecordLocation) :
    Except V3FormatError PendingV3Snapshot := do
  let deltas ← pending.deltas.mapM (resolveDelta keyringEnvelopeRef stored locations)
  ensure ((deltas.filterMap (sharedCarrier locations)).Pairwise (· = ·)) .invalidHeaderField
  ensure (resolvedCount locations pending.deltas = locations.length ∧ ¬ deltas.any unresolved) .invalidHeaderField
  return { pending with deltas := deltas }

/-! ## Installation -/

inductive PendingV3InstallMutation where
  | upsert (entry : NamespaceEntry) (manifest : TrustedManifest)
  | tombstone (blindKey : BlindIndexKey)
  deriving DecidableEq

structure PendingV3Install where
  completionReceipts : Option (Sequence × CompletionReceipts)
  sequence : Sequence
  mutations : List PendingV3InstallMutation
  run : V3IndexRootRunRef

def installMutation (pending : PendingV3Snapshot) (sequence : Sequence) :
    IndexDelta → Except V3FormatError PendingV3InstallMutation
  | .upsert entry => do
    let manifest ← okOr (pending.stagedManifest entry.manifestId) .invalidHeaderField
    ensure (entry.payloadRef ≠ some .pending ∧ entry.generation ≤ sequence) .invalidHeaderField
    return .upsert entry manifest
  | .tombstone _ blindKey _ _ => .ok (.tombstone blindKey)

/-- The receipts after a publication that carries one. -/
def installReceipts (receipts : CompletionReceipts) :
    Option CompletionReceipt → Except V3FormatError (Option (Sequence × CompletionReceipts))
  | none => .ok none
  | some receipt => do
    let inserted ← okOr (receipts.insert receipt) .invalidIndexRun
    return some (receipt.commitSequence, inserted)

def preparePendingInstall (accepted : RepositoryState) (pending : PendingV3Snapshot) (sequence : Sequence)
    (run : V3IndexRootRunRef) : Except V3FormatError PendingV3Install := do
  ensure (pending.commitSequence = some sequence) .invalidHeaderField
  let mutations ← pending.deltas.mapM (installMutation pending sequence)
  ensure (accepted.nextSequence < sequence) .invalidHeaderField
  let completionReceipts ← installReceipts accepted.completionReceipts pending.completionReceipt
  return ⟨completionReceipts, sequence, mutations, run⟩

def PendingV3InstallMutation.apply (state : RepositoryState) : PendingV3InstallMutation → RepositoryState
  | .upsert entry manifest => state.upsertObject entry manifest
  | .tombstone blindKey => state.removeNamespaceEntry blindKey

def installPendingCommit (accepted : V3AcceptedState) (install : PendingV3Install) (anchor : V3AnchorState) :
    Except V3FormatError V3AcceptedState := do
  ensure (install.completionReceipts.all fun receipts => receipts.1 = anchor.sequence) .invalidIndexRun
  let applied := install.mutations.foldl PendingV3InstallMutation.apply accepted.repository
  return {
    repository := { applied with
      completionReceipts := (install.completionReceipts.map Prod.snd).getD applied.completionReceipts
      nextSequence := install.sequence }
    runs := accepted.runs ++ [install.run]
    anchor := anchor }

/-! ## Publication -/

/-- `V3_INDEX_ROOT_MAX_RUNS`. -/
def maxRootRuns : ℕ := 1024

/-- `validate_accepted_run_append`. -/
def validateAcceptedRunAppend (runs : List V3IndexRootRunRef) (run : V3IndexRootRunRef) :
    Except V3FormatError Unit := do
  ensure (runs.length < maxRootRuns) .indexRootLimitExceeded
  ensure (runs.getLast?.all fun previous => previous.maximumGeneration < run.minimumGeneration) .invalidIndexRun

def recoverySection (recovery : Option (ℕ × Digest)) : List V3CommitSection :=
  recovery.toList.map fun stored => ⟨.recovery, stored.1, stored.2⟩

/-- What a publication takes from outside the service. -/
structure PublicationInputs where
  sealer : Sealer
  upload : V3CommitUpload
  recovery : Option (ℕ × Digest)

namespace V3Repository

variable (service : V3Repository) (inputs : PublicationInputs)

/-- Build the commit of a batch on top of the accepted anchor; `unfit` is the error of a batch that does not fit. -/
def writeBatchCommit (pending : PendingV3Snapshot) (unfit : V3FormatError) :
    Except V3FormatError (PendingV3PackedCommitSections × V3ReplayCommit) := do
  let packed ← (pendingPackedSectionsForCommit service inputs.sealer inputs.upload.commitKey pending).mapError
    fun error => error.elim unfit fun _ => .invalidHeaderField
  let commit ← writeChildCommit service.accepted.anchor service.options.keyringEnvelopeRef .delta
    (packed.sections ++ recoverySection inputs.recovery) inputs.upload
  return (packed, commit)

/-- Install the commit of a batch and consume the published operations. -/
def finishPublication (published : ℕ) (install : PendingV3Install) (commit : V3ReplayCommit) :
    Except V3FormatError V3Repository := do
  let accepted ← installPendingCommit service.accepted install (commit.anchorState service.options.formatRef)
  return { service with accepted := accepted, pending := service.pending.finishPublication published }

/-- `publish_pending_snapshot` for a batch that has a commit sequence. -/
def publishPendingSnapshot (pending : PendingV3Snapshot) (published : ℕ) :
    Except V3FormatError (V3Repository × V3ReplayCommit) := do
  let sequence ← okOr pending.commitSequence .invalidHeaderField
  let written ← service.writeBatchCommit inputs pending .objectTooLarge
  let run := acceptedRunRef written.1.run written.2
  validateAcceptedRunAppend service.accepted.runs run
  let resolved ← resolvePendingPackRefs service.options.keyringEnvelopeRef pending written.2 written.1.locations
  let install ← preparePendingInstall service.accepted.repository resolved sequence run
  let service' ← service.finishPublication published install written.2
  return (service', written.2)

variable {service inputs} {service' : V3Repository} {commit : V3ReplayCommit} {pending : PendingV3Snapshot} {published : ℕ}

theorem finishPublication_eq_ok (h : service.finishPublication published install commit = .ok service') :
    (∀ receipts ∈ install.completionReceipts, receipts.1 = (commit.anchorState service.options.formatRef).sequence) ∧
      service' = { service with
        accepted := {
          repository := {
            install.mutations.foldl PendingV3InstallMutation.apply service.accepted.repository with
            completionReceipts := (install.completionReceipts.map Prod.snd).getD
              (install.mutations.foldl PendingV3InstallMutation.apply service.accepted.repository).completionReceipts
            nextSequence := install.sequence }
          runs := service.accepted.runs ++ [install.run]
          anchor := commit.anchorState service.options.formatRef }
        pending := service.pending.finishPublication published } := by
  simp only [finishPublication, installPendingCommit, ok_iff] at h
  obtain ⟨_, ⟨hsequence, rfl⟩, rfl⟩ := h
  refine ⟨fun receipts hreceipts => ?_, rfl⟩
  rw [show install.completionReceipts = some receipts from hreceipts] at hsequence
  exact of_decide_eq_true hsequence

theorem publishPendingSnapshot_eq_ok (h : service.publishPendingSnapshot inputs pending published = .ok (service', commit)) :
    ∃ sequence packed resolved install, pending.commitSequence = some sequence ∧
      service.writeBatchCommit inputs pending .objectTooLarge = .ok (packed, commit) ∧
      validateAcceptedRunAppend service.accepted.runs (acceptedRunRef packed.run commit) = .ok () ∧
      resolvePendingPackRefs service.options.keyringEnvelopeRef pending commit packed.locations = .ok resolved ∧
      preparePendingInstall service.accepted.repository resolved sequence (acceptedRunRef packed.run commit) = .ok install ∧
      service.finishPublication published install commit = .ok service' := by
  simp only [publishPendingSnapshot, ok_iff, Prod.mk.injEq] at h
  obtain ⟨sequence, hsequence, ⟨packed, written⟩, hwritten, _, hruns, resolved, hresolved, install, hinstall, _,
    hfinish, rfl,
    rfl⟩ := h
  exact ⟨sequence, packed, resolved, install, hsequence, hwritten, hruns, hresolved, hinstall, hfinish⟩

end V3Repository

def substituteCarrier (manifestId : ManifestId) (carrier : V3StandaloneStreamCarrierReference) : IndexDelta → IndexDelta
  | .upsert entry =>
    if entry.manifestId = manifestId then
      .upsert { entry with
        objectId := carrier.objectId
        objectVersionId := carrier.versionId
        payloadRef := some (.v3StandaloneStream carrier) }
    else .upsert entry
  | delta => delta

def PendingV3Snapshot.substituteCarrier (pending : PendingV3Snapshot) (manifestId : ManifestId)
    (carrier : V3StandaloneStreamCarrierReference) : PendingV3Snapshot :=
  { pending with deltas := pending.deltas.map (Index.substituteCarrier manifestId carrier) }

def entriesOf (manifestId : ManifestId) (deltas : List IndexDelta) : List NamespaceEntry :=
  deltas.filterMap fun
    | .upsert entry => if entry.manifestId = manifestId then some entry else none
    | .tombstone .. => none

/-- A detached payload that was uploaded and verified.  Its layout is never empty. -/
structure V3StoredStandalonePayload where
  objectId : BackendObjectId
  versionId : Option BackendVersionId
  objectDigest : Digest
  objectLen : ℕ
  payloadLayout : PayloadLayout
  etag : ObjectEtag
  nonempty : payloadLayout.plaintextLen ≠ 0

/-- The carrier of an upload under the service's keyring envelope. -/
def V3Repository.standaloneCarrier (service : V3Repository) (stored : V3StoredStandalonePayload) :
    V3StandaloneStreamCarrierReference where
  objectId := stored.objectId
  versionId := stored.versionId
  objectDigest := stored.objectDigest
  storedLen := stored.objectLen
  keyringEnvelopeObjectId := service.options.keyringEnvelopeRef.objectId
  keyringEnvelopeDigest := service.options.keyringEnvelopeRef.digest
  payloadLayout := stored.payloadLayout

namespace V3Repository

variable (service : V3Repository) (prf : Prf) (inputs : PublicationInputs)

/-- `publish_staged_standalone_locked`. -/
def publishStagedStandalone (staged : StagedV3Put) (carrier : V3StandaloneStreamCarrierReference) :
    Except V3FormatError (V3Repository × V3ReplayCommit) := do
  validateV3StandaloneObject carrier.objectId carrier.storedLen
  ensure (carrier.payloadLayout.plaintextLen = staged.contentLen) .invalidHeaderField
  let published := service.pending.operations.length
  let pending := service.pending.snapshot published
  ensure ((entriesOf staged.manifestId pending.deltas).map NamespaceEntry.contentLen = [staged.contentLen])
    .invalidHeaderField
  let pending := pending.substituteCarrier staged.manifestId carrier
  let written ← service.writeBatchCommit inputs pending .invalidHeaderField
  let run := acceptedRunRef written.1.run written.2
  validateAcceptedRunAppend service.accepted.runs run
  let install ← preparePendingInstall service.accepted.repository pending staged.sequence run
  let service' ← service.finishPublication published install written.2
  return (service', written.2)

/-- A completed multipart upload; `stored` is absent when all parts were empty. -/
structure PreparedMultipartCompletion where
  id : Digest
  key : LogicalPath
  options : RepositoryPutOptions
  protection : Option RetentionPolicy × Option LegalHoldStatus
  selectionDigest : Digest
  attemptsDigest : Digest
  etag : ObjectEtag
  stored : Option V3StoredStandalonePayload

namespace PreparedMultipartCompletion

variable (completion : PreparedMultipartCompletion)

/-- `verified.plaintext_len()`. -/
def plaintextLen : ℕ := (completion.stored.map fun stored => stored.payloadLayout.plaintextLen).getD 0

def stagedPayload : StagedPayload := if completion.plaintextLen = 0 then .buffered [] else .detached

def receipt (commitSequence : Sequence) (staged : StagedV3Put) : CompletionReceipt where
  uploadId := completion.id
  commitSequence := commitSequence
  selectionDigest := completion.selectionDigest
  attemptsDigest := completion.attemptsDigest
  key := staged.metadata.key
  contentLen := completion.plaintextLen
  etag := staged.metadata.etag
  checksum := staged.metadata.checksum

end PreparedMultipartCompletion

def multipartSnapshot (completion : PreparedMultipartCompletion) (commitSequence : Sequence) (staged : StagedV3Put) :
    PendingV3Snapshot :=
  let pending := service.pending.snapshot service.pending.operations.length
  let resolved := match completion.stored with
    | some stored => pending.substituteCarrier staged.manifestId (service.standaloneCarrier stored)
    | none => pending
  { resolved with completionReceipt := some (completion.receipt commitSequence staged) }

def publishMultipartCompletion (nowMs : Int) (completion : PreparedMultipartCompletion) :
    Except RepositoryError (V3Repository × V3ReplayCommit) := do
  ensure (service.effectivePutProtection completion.options = completion.protection ∧
      service.accepted.repository.completionReceipts.get completion.id = none)
    (.v3 .invalidHeaderField)
  let commitSequence ← okOr service.accepted.anchor.sequence.checkedNext (.v3 .invalidHeaderField)
  let staged ← service.stagePutMetadata prf nowMs completion.key completion.plaintextLen completion.options
    completion.stagedPayload completion.etag
  (staged.1.publishPendingSnapshot inputs (staged.1.multipartSnapshot completion commitSequence staged.2)
    staged.1.pending.operations.length).mapError .v3

end V3Repository

end Rs3.Index
