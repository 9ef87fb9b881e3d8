/-
# Rs3.Index.Staging — speculative mutations and the operations that stage them.

`v3/service/staging.rs` and the staging operations of `v3/service.rs`.  The overlay is kept as the list of its
operations, so that a checkpoint is a position between two of them; the source keeps the three vectors that
`deltas`, `manifests` and `payloads` read off here, and truncates them together.  Revisions only guard a
publication against staging that runs beside it, and are left out.
-/
import Rs3.Index.RunReplay

namespace Rs3.Index

open KeyedLog (replay lastFor coalesce)
open Repository (V3KeyringEnvelopeRef)

inductive RepositoryError where
  | contentMd5Mismatch
  | legalHoldUnsupported
  | retentionExtensionUnsupported
  | objectChecksumUnavailable
  | preconditionFailed
  | invalidCopyOptions
  | commitBackpressure
  | sequenceOverflow
  | typeValidation
  | commitFailed (reason : String)
  | alreadyExists (key : LogicalPath)
  | notFound (key : LogicalPath)
  | statePoisoned
  | acceptedRecoveryRequired
  | v3 (error : V3FormatError)
  deriving DecidableEq

/-! ## Protection -/

/-- `active_retention`. -/
def activeRetention (policy : Option RetentionPolicy) : Option RetentionPolicy :=
  policy.filter fun p => p.mode ≠ .none ∧ 0 < p.retainDays

def retentionModeStrength : RetentionMode → ℕ
  | .none => 0
  | .governance => 1
  | .compliance => 2

def strongerRetentionMode (left right : RetentionMode) : RetentionMode :=
  if retentionModeStrength right ≤ retentionModeStrength left then left else right

def strongestRetentionPolicy (left right : Option RetentionPolicy) : Option RetentionPolicy :=
  match activeRetention left, activeRetention right with
  | some left, some right =>
    some ⟨strongerRetentionMode left.mode right.mode, max left.retainDays right.retainDays⟩
  | some policy, none => some policy
  | none, some policy => some policy
  | none, none => none

/-! ## The overlay -/

/-- The object half of a staged put; `body` is present when the payload is still to be packed. -/
structure StagedPut where
  entry : NamespaceEntry
  manifest : TrustedManifest
  body : Option (List UInt8)
  deriving DecidableEq

/-- One staged put, copy or deletion: tombstones for blind keys of the path and, unless it deletes, the object. -/
structure StagedOperation where
  path : LogicalPath
  generation : Sequence
  tombstones : List (BlindIndexKey × KeyId)
  put : Option StagedPut
  deriving DecidableEq

structure PendingV3Payload where
  manifestId : ManifestId
  body : List UInt8
  deriving DecidableEq

namespace StagedOperation

variable (operation : StagedOperation)

def deltas : List IndexDelta :=
  (operation.tombstones.map fun t => .tombstone t.2 t.1 operation.path operation.generation) ++
    operation.put.toList.map fun put => .upsert put.entry

def manifest : Option (ManifestId × TrustedManifest) :=
  operation.put.map fun put => (put.entry.manifestId, put.manifest)

def payload : Option PendingV3Payload :=
  operation.put.bind fun put => put.body.map (PendingV3Payload.mk put.entry.manifestId)

end StagedOperation

/-- `V3_MAX_PENDING_OPERATIONS`. -/
def maxPendingOperations : ℕ := 4096

structure PendingV3State where
  allocationSequence : Sequence
  operations : List StagedOperation
  deriving DecidableEq

/-- Resolution of a namespace key through the overlay. -/
inductive PendingV3EffectiveHead where
  | live (entry : NamespaceEntry)
  | tombstoned
  | absent
  deriving DecidableEq

def PendingV3EffectiveHead.entry : PendingV3EffectiveHead → Option NamespaceEntry
  | live entry => some entry
  | tombstoned => none
  | absent => none

/-- Input of one publication. -/
structure PendingV3Snapshot where
  completionReceipt : Option CompletionReceipt
  deltas : List IndexDelta
  manifests : List (ManifestId × TrustedManifest)
  payloads : List PendingV3Payload
  deriving DecidableEq

namespace PendingV3State

variable (pending : PendingV3State)

def deltas : List IndexDelta := pending.operations.flatMap StagedOperation.deltas

def manifests : List (ManifestId × TrustedManifest) := pending.operations.filterMap StagedOperation.manifest

def payloads : List PendingV3Payload := pending.operations.filterMap StagedOperation.payload

def allocateSequence : Option (Sequence × PendingV3State) :=
  pending.allocationSequence.checkedNext.map fun next => (next, { pending with allocationSequence := next })

/-- Each of the three vectors stays bounded. -/
def appendOperation (operation : StagedOperation) : Except RepositoryError PendingV3State := do
  ensure (pending.deltas.length + operation.deltas.length ≤ maxPendingOperations) .commitBackpressure
  ensure (pending.manifests.length + operation.manifest.toList.length ≤ maxPendingOperations) .commitBackpressure
  ensure (pending.payloads.length + operation.payload.toList.length ≤ maxPendingOperations) .commitBackpressure
  return { pending with operations := pending.operations ++ [operation] }

def finishPublication (published : ℕ) : PendingV3State :=
  { pending with operations := pending.operations.drop published }

/-- The newest staged mutation of the key decides, then the accepted state. -/
def effectiveHead (accepted : RepositoryState) (blindKey : BlindIndexKey) : PendingV3EffectiveHead :=
  match lastFor IndexDelta.blindKey blindKey pending.deltas with
  | some (.upsert entry) => .live entry
  | some (.tombstone ..) => .tombstoned
  | none =>
    match accepted.namespaceIndex.head blindKey with
    | some entry => .live entry
    | none => .absent

end PendingV3State

def liveManifests (deltas : List IndexDelta) : List ManifestId :=
  deltas.filterMap fun
    | .upsert entry => some entry.manifestId
    | .tombstone .. => none

namespace PendingV3Snapshot

variable (snapshot : PendingV3Snapshot)

/-- Keep the last mutation of every key, and what it still needs. -/
def coalesce : PendingV3Snapshot where
  completionReceipt := snapshot.completionReceipt
  deltas := KeyedLog.coalesce IndexDelta.blindKey snapshot.deltas
  manifests := snapshot.manifests.filter fun m =>
    m.1 ∈ liveManifests (KeyedLog.coalesce IndexDelta.blindKey snapshot.deltas)
  payloads := snapshot.payloads.filter fun p =>
    p.manifestId ∈ liveManifests (KeyedLog.coalesce IndexDelta.blindKey snapshot.deltas)

/-- The highest generation in the draft. -/
def commitSequence : Option Sequence := maximumGeneration (snapshot.deltas.map IndexDelta.generation)

def stagedManifest (manifestId : ManifestId) : Option TrustedManifest :=
  (lastFor Prod.fst manifestId snapshot.manifests).map Prod.snd

def manifest (accepted : RepositoryState) (manifestId : ManifestId) : Option TrustedManifest :=
  (snapshot.stagedManifest manifestId).or accepted.manifests[manifestId]?

end PendingV3Snapshot

/-- The snapshot of the first operations of the overlay: all of them, or the prefix that was frozen. -/
def PendingV3State.snapshot (pending : PendingV3State) (frozen : ℕ) : PendingV3Snapshot :=
  let captured : PendingV3State := { pending with operations := pending.operations.take frozen }
  PendingV3Snapshot.coalesce ⟨none, captured.deltas, captured.manifests, captured.payloads⟩

/-! ## The service -/

/-- The options that the modelled functions read. -/
structure V3CommitStoreOptions where
  providerProfile : V3ProviderProfile
  retentionPolicy : Option RetentionPolicy
  legalHold : Option LegalHoldStatus
  formatRef : V3FormatRef
  keyringEnvelopeRef : V3KeyringEnvelopeRef
  /-- `replay_limits.max_commits`. -/
  maxCommits : ℕ
  /-- `replay_limits.max_total_commit_bytes`. -/
  maxTotalCommitBytes : ℕ
  deriving DecidableEq

structure V3AcceptedState where
  repository : RepositoryState
  runs : List V3IndexRootRunRef
  anchor : V3AnchorState

structure V3Repository where
  keyring : KeyRing
  options : V3CommitStoreOptions
  defaultRetention : Option RetentionPolicy
  accepted : V3AcceptedState
  pending : PendingV3State

structure RepositoryPutOptions where
  expectedMd5 : Option Md5Digest
  /-- An `UploadChecksum`, once or not yet resolved. -/
  checksum : Option (Option ObjectChecksum)
  createOnly : Bool
  retention : Option RetentionPolicy
  legalHold : Option LegalHoldStatus
  deriving DecidableEq

/-- An accepted object; its metadata are those of the manifest. -/
structure V3ResolvedObject where
  metadata : TrustedManifest
  entry : NamespaceEntry
  deriving DecidableEq

inductive StagedPayload where
  | buffered (body : List UInt8)
  | detached
  | copy (source : V3ResolvedObject) (modifiedAtMs : Int)
  deriving DecidableEq

structure StagedV3Put where
  metadata : TrustedManifest
  manifestId : ManifestId
  contentLen : ℕ
  sequence : Sequence
  deriving DecidableEq

namespace V3Repository

variable (service : V3Repository) (prf : Prf)

def effectiveStoredProtection (retention : Option RetentionPolicy) (legalHold : Option LegalHoldStatus) :
    Option RetentionPolicy × Option LegalHoldStatus :=
  (strongestRetentionPolicy service.options.retentionPolicy retention,
    if service.options.legalHold = some .on ∨ legalHold = some .on then some .on else none)

def effectivePutProtection (options : RepositoryPutOptions) : Option RetentionPolicy × Option LegalHoldStatus :=
  service.effectiveStoredProtection (strongestRetentionPolicy service.defaultRetention options.retention)
    options.legalHold

def validateClientObjectLock (options : RepositoryPutOptions) : Except RepositoryError Unit := do
  let protection := service.effectivePutProtection options
  ensure (protection.2 ≠ some .on) .legalHoldUnsupported
  ensure (activeRetention protection.1 = none ∨ service.options.providerProfile = .retainedVersionObjectLock)
    .retentionExtensionUnsupported

/-- The blind keys of a path that are live in the effective view, with the keys of their entries. -/
def liveLookup (key : LogicalPath) : List (BlindIndexKey × KeyId) :=
  (service.keyring.deriveBlindIndexKeysForLookup prf key).filterMap fun candidate =>
    (service.pending.effectiveHead service.accepted.repository candidate.blindKey).entry.map fun entry =>
      (candidate.blindKey, entry.namespaceKeyId)

/-- All staged objects must have the protection that is asked for now. -/
def sameCohort (protection : Option RetentionPolicy × Option LegalHoldStatus) : IndexDelta → Bool
  | .upsert entry => service.effectiveStoredProtection entry.retention entry.legalHold = protection
  | .tombstone .. => true

/-- The object, version and payload that a staged entry names. -/
def stagedCarrier (sequence : Sequence) :
    StagedPayload → Except RepositoryError (BackendObjectId × Option BackendVersionId × Option PayloadReference)
  | .copy source _ => .ok (source.entry.objectId, source.entry.objectVersionId, source.entry.payloadRef)
  | _ => do
    let objectId ← okOr (BackendObjectId.new? ("v2-pending/" ++ toString sequence.get)) .typeValidation
    return (objectId, none, some .pending)

def resolveChecksum : Option (Option ObjectChecksum) → Except RepositoryError (Option ObjectChecksum)
  | none => .ok none
  | some checksum => do
    let verified ← okOr checksum .objectChecksumUnavailable
    return some verified

def stagedBody : StagedPayload → Option (List UInt8)
  | .buffered body => some body
  | .detached => none
  | .copy .. => none

def stagedTime (nowMs : Int) : StagedPayload → Int
  | .copy _ modifiedAtMs => modifiedAtMs
  | _ => nowMs

/-- `stage_put_metadata_sync_with_rollback`. -/
def stagePutMetadata (nowMs : Int) (key : LogicalPath) (plaintextLen : ℕ) (options : RepositoryPutOptions)
    (payload : StagedPayload) (etag : ObjectEtag) : Except RepositoryError (V3Repository × StagedV3Put) := do
  ensure (options.expectedMd5.all fun expected => etag.partCount = none ∧ expected = etag.digest) .contentMd5Mismatch
  service.validateClientObjectLock options
  let retention := strongestRetentionPolicy service.defaultRetention options.retention
  ensure (service.pending.deltas.all
      (service.sameCohort (service.effectiveStoredProtection retention options.legalHold)))
    (.commitFailed "v03 pending batch contains an incompatible protection cohort")
  let primary := service.keyring.derivePrimaryBlindIndexKey prf key
  let existing := service.liveLookup prf key
  ensure (¬ (options.createOnly ∧ existing ≠ [])) (.alreadyExists key)
  let checksum ← resolveChecksum options.checksum
  let allocated ← okOr service.pending.allocateSequence .sequenceOverflow
  let carrier ← stagedCarrier allocated.1 payload
  let manifestId := service.keyring.deriveManifestId prf (objectMaterial key allocated.1)
  let modifiedAtMs := stagedTime nowMs payload
  let manifest : TrustedManifest := ⟨etag, checksum, key, plaintextLen, modifiedAtMs, retention, options.legalHold⟩
  let entry : NamespaceEntry := {
    namespaceKeyId := primary.keyId
    blindKey := primary.blindKey
    objectId := carrier.1
    objectVersionId := carrier.2.1
    payloadRef := carrier.2.2
    manifestId := manifestId
    contentLen := plaintextLen
    modifiedAtMs := modifiedAtMs
    generation := allocated.1
    retention := retention
    legalHold := options.legalHold }
  let pending ← allocated.2.appendOperation {
    path := key
    generation := allocated.1
    tombstones := existing.filter fun stale => stale.1 ≠ primary.blindKey
    put := some ⟨entry, manifest, stagedBody payload⟩ }
  return ({ service with pending := pending }, ⟨manifest, manifestId, plaintextLen, allocated.1⟩)

end V3Repository

end Rs3.Index
