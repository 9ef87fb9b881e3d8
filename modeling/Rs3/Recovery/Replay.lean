/-
# Rs3.Recovery.Replay — replaying the recovery history of a chain, and the chains that publications build.

`v3/recovery/replay.rs`, `verify_recovery_publication` of `v3/service/recovery.rs` and the genesis of
`v3/repository/genesis.rs`.  A stored commit is its signed header, its provider version and its opened recovery
section with the section's ordinal; sealing, signatures and the lengths of reads are not modelled.
-/
import Rs3.Recovery.Capture
import Rs3.Repository.Anchor

namespace Rs3.Recovery

open Repository (V3CommitHeader V3CommitKind V3CommitParentRef V3KeyringEnvelopeRef V3StoredCommit adoptable)

/-- One verified commit with what `decode_recovery_section` returns for it. -/
structure V3ReplayCommit where
  header : V3CommitHeader
  versionId : Option BackendVersionId
  recovery : Option (ℕ × RecoverySection)
  deriving DecidableEq

def V3ReplayCommit.anchorState (commit : V3ReplayCommit) (formatRef : V3FormatRef) : V3AnchorState :=
  commit.header.anchorState commit.versionId formatRef

/-- The options the modelled functions read. -/
structure V3CommitStoreOptions where
  formatRef : V3FormatRef
  keyringEnvelopeRef : V3KeyringEnvelopeRef
  recoveryPolicy : Option RecoveryPolicy

/-! ## Replay -/

/-- The variables of the replay loop. -/
structure ReplayState where
  accepted : Option AcceptedRecoveryState
  previous : Option (V3AnchorState × Int)

section

variable (sha256 : List UInt8 → Digest) (options : V3CommitStoreOptions)

/-- One round of the loop: the registry after one more commit. -/
def replayAccepted (state : ReplayState)
    (commit : V3ReplayCommit) : Except V3FormatError (Option AcceptedRecoveryState) :=
  match commit.recovery, state.accepted, state.previous with
  | none, none, _ => do
    ensure (options.recoveryPolicy = none) .invalidRecoveryHistory
    return none
  -- the first commit of the chain: only a root can stand here
  | some (ordinal, history), none, none => do
    history.validateForHeader commit.header.parent commit.header.publishTimeMs
      (commit.header.kind = .root)
    let snapshot ← history.normalizedSnapshot (commit.anchorState options.formatRef) ordinal
    let snapshot ← okOr snapshot .invalidRecoveryHistory
    return some ⟨history.currentPolicy, snapshot⟩
  | some (ordinal, history), some accepted, some (parent, time) => do
    history.validateForCommit sha256 (some (parent, time, accepted.policy)) commit.header.publishTimeMs
      (commit.header.kind = .root) (history.delta.expireBeforeMs.getD accepted.snapshot.expireBeforeMs)
    let snapshot ← history.applyDelta accepted.snapshot (commit.anchorState options.formatRef) ordinal
    return some ⟨history.currentPolicy, snapshot⟩
  | _, _, _ => .error .invalidRecoveryHistory

def replayCommit (state : ReplayState) (commit : V3ReplayCommit) : Except V3FormatError ReplayState := do
  let accepted ← replayAccepted sha256 options state commit
  return ⟨accepted, some (commit.anchorState options.formatRef, commit.header.publishTimeMs)⟩

def replayCommits (sha256 : List UInt8 → Digest) (options : V3CommitStoreOptions) :
    List V3ReplayCommit → Except V3FormatError ReplayState
  | [] => .ok ⟨none, none⟩
  | commit :: older => do
    let state ← replayCommits sha256 options older
    replayCommit sha256 options state commit

def replayRecoveryHistory (commitsNewestFirst : List V3ReplayCommit) :
    Except V3FormatError (Option AcceptedRecoveryState) := do
  let state ← replayCommits sha256 options commitsNewestFirst
  return state.accepted

/-! ## Pages in earlier commits -/

/-- Decodes only the referenced page. -/
def decodeRecoveryPage (reference : RecoveryPageRef) (facts : V3ReplayCommit) : Except V3FormatError RecoveryPage :=
  match reference.location with
  | .thisSection _ => .error .invalidRecoveryHistory
  | .exact anchor sectionOrdinal pageIndex => do
    ensure (facts.versionId = anchor.versionId ∧ facts.header.selfRef.commitKey = anchor.commitKey ∧
      facts.header.selfRef.sequence = anchor.sequence ∧ facts.header.bodyDigest = anchor.bodyDigest ∧
      facts.header.signingKeyId = anchor.signingKeyId) .invalidRecoveryHistory
    let (ordinal, history) ← okOr facts.recovery .invalidRecoveryHistory
    ensure (ordinal = sectionOrdinal) .invalidRecoveryHistory
    let page ← history.page pageIndex
    reference.verifyPage page
    return page

/-- `read_recovery_page`; the store is the list of stored commits. -/
def readRecoveryPage (stored : List V3ReplayCommit) (reference : RecoveryPageRef) : Except V3FormatError RecoveryPage :=
  match reference.location with
  | .thisSection _ => .error .invalidRecoveryHistory
  | .exact anchor _ _ => do
    let facts ← okOr (stored.find? fun commit => commit.header.selfRef.commitKey = anchor.commitKey ∧
      commit.versionId = anchor.versionId) .storageOperationFailed
    decodeRecoveryPage reference facts

/-! ## Publication -/

/-- The genesis section of `prepare_genesis_snapshot`. -/
def genesisSection (policy : RecoveryPolicy) : RecoverySection := ⟨policy, .default, some .default, []⟩

/-- The time choice of `prepare_child_publication`; `parentTime` is the verified publication time of `parent`. -/
def prepareChildPublication (parent : V3AnchorState) (parentTime sampledNowMs : Int) :
    Except V3FormatError V3PublicationPlan := do
  let publishTimeMs ← choosePublishTime sampledNowMs (some parentTime)
  return ⟨sampledNowMs, parent, parentTime, publishTimeMs⟩

/-- `read_published_recovery`; `commit` is the object stored under the uploaded key and version. -/
def readPublishedRecovery (uploaded : V3StoredCommit)
    (plan : V3PublicationPlan) (commit : V3ReplayCommit) : Except V3FormatError (ℕ × RecoverySection) := do
  ensure (commit.header.selfRef.commitKey = uploaded.anchorState.commitKey ∧
    commit.versionId = uploaded.versionId) .invalidCommitKey
  ensure (commit.header.selfRef.sequence = uploaded.anchorState.sequence ∧
    commit.header.bodyDigest = uploaded.anchorState.bodyDigest ∧
    commit.header.signingKeyId = uploaded.anchorState.signingKeyId ∧
    commit.header.publishTimeMs = uploaded.publishTimeMs ∧
    commit.header.publishTimeMs = plan.publishTimeMs ∧
    commit.header.keyringEnvelopeRef = options.keyringEnvelopeRef ∧
    commit.header.parent = some (.ofAnchor plan.parent)) .invalidRecoveryHistory
  okOr commit.recovery .invalidRecoveryHistory

/-- `verify_recovery_publication` without provider protection: the registry the publication will install. -/
def verifyRecoveryPublication (capture : CapturedRecoveryPublication) (uploaded : V3StoredCommit)
    (commit : V3ReplayCommit) : Except V3FormatError AcceptedRecoveryState := do
  let (ordinal, history) ← readPublishedRecovery options uploaded capture.publication commit
  ensure (history = capture.capturedSection) .invalidRecoveryHistory
  let cutoff ← capture.currentPolicy.expiryCutoffMs capture.publication.sampledNowMs
  history.validateForCommit sha256
    (some (capture.publication.parent, capture.publication.parentPublishTimeMs, capture.previous.policy))
    capture.publication.publishTimeMs (commit.header.kind = .root)
    (max capture.previous.snapshot.expireBeforeMs cutoff)
  let snapshot ← history.applyDelta capture.previous.snapshot uploaded.anchorState ordinal
  return ⟨history.currentPolicy, snapshot⟩

/-- The clock sample and the policy of one publication. -/
structure PublicationSample where
  sampledNowMs : Int
  policy : RecoveryPolicy

end

/-- The chains, newest commit first, that accepted publications build on a genesis commit, with the samples of
those publications and the registry installed by the last. -/
inductive Accepted (sha256 : List UInt8 → Digest) (formatRef : V3FormatRef) :
    List V3ReplayCommit → List PublicationSample → AcceptedRecoveryState → Prop
  | genesis {now : Int} {commit : V3ReplayCommit} {policy : RecoveryPolicy}
      (parent : commit.header.parent = none) (kind : commit.header.kind = .root)
      (anchor : validateAnchor (commit.anchorState formatRef) = .ok ())
      (time : choosePublishTime now none = .ok commit.header.publishTimeMs)
      (recovery : commit.recovery = some (1, genesisSection policy)) :
      Accepted sha256 formatRef [commit] [] ⟨policy, .default⟩
  | publish {options : V3CommitStoreOptions} {head commit : V3ReplayCommit} {older : List V3ReplayCommit}
      {samples : List PublicationSample} {state next : AcceptedRecoveryState} {policy : RecoveryPolicy}
      {plan : V3PublicationPlan} {isRoot : Bool} {capture : CapturedRecoveryPublication}
      {uploaded : V3StoredCommit} {now : Int}
      (accepted : Accepted sha256 formatRef (head :: older) samples state)
      (format : options.formatRef = formatRef) (configured : options.recoveryPolicy = some policy)
      (prepare : prepareChildPublication (head.anchorState formatRef) head.header.publishTimeMs now = .ok plan)
      (captured : CapturedRecoveryPublication.new sha256 plan state policy isRoot = .ok capture)
      (verified : verifyRecoveryPublication sha256 options capture uploaded commit = .ok next)
      (adopted : adoptable formatRef (some plan.parent) plan.parent uploaded) :
      Accepted sha256 formatRef (commit :: head :: older) (⟨now, policy⟩ :: samples) next

/-! ## A chain of two roots -/

def sampleDigest : Digest := Vector.replicate 32 0

/-- The chain below does not depend on the digests of policies. -/
def sampleSha256 : List UInt8 → Digest := fun _ => sampleDigest

def sampleFormat : V3FormatRef :=
  ⟨1, "0000000000000000000000000000000000000000000000000000000000000000",
    ⟨"format-root", by decide⟩, some ⟨"f1", by decide⟩⟩

theorem sampleKeyring_valid : validateNonEmpty "keyring" = true := by decide

theorem sampleSigningKey_valid : validateNonEmpty "signing" = true := by decide

def sampleKeyring : V3KeyringEnvelopeRef := ⟨⟨"keyring", sampleKeyring_valid⟩, sampleDigest⟩

def sampleOptions : V3CommitStoreOptions := ⟨sampleFormat, sampleKeyring, some .preset⟩

def sampleKey1 : BackendObjectId :=
  ⟨"commits/v03/00000000000000000001/AAAAAAAAAAAAAAAAAAAAAAAAAAAAAAAAAAAAAAAAAAA", by decide⟩

def sampleKey2 : BackendObjectId :=
  ⟨"commits/v03/00000000000000000002/AAAAAAAAAAAAAAAAAAAAAAAAAAAAAAAAAAAAAAAAAAA", by decide⟩

def sampleGenesis : V3ReplayCommit :=
  ⟨⟨⟨1, sampleKey1⟩, none, 1000, .root, sampleKeyring, sampleDigest, ⟨"signing", sampleSigningKey_valid⟩⟩,
    some ⟨"c1", by decide⟩, some (1, genesisSection .preset)⟩

/-- The second root is published 99 seconds later. -/
def samplePlan : V3PublicationPlan := ⟨100000, sampleGenesis.anchorState sampleFormat, 1000, 100000⟩

/-- The genesis commit is promised the preset's thirty days and one minute. -/
def samplePoint : RecoveryPoint := ⟨samplePlan.parent, 1000, 2592160000, sampleDigest⟩

def sampleState : AcceptedRecoveryState := ⟨.preset, ⟨[], [samplePoint], 40000⟩⟩

def sampleCapture : CapturedRecoveryPublication :=
  ⟨samplePlan, ⟨.preset, .default⟩, .preset, 2678620000,
    ⟨.preset, ⟨some samplePoint, some 40000, none⟩, some sampleState.snapshot, []⟩⟩

def sampleRoot : V3ReplayCommit :=
  ⟨⟨⟨2, sampleKey2⟩, some (.ofAnchor samplePlan.parent), 100000, .root, sampleKeyring,
    sampleDigest, ⟨"signing", sampleSigningKey_valid⟩⟩, some ⟨"c2", by decide⟩, some (1, sampleCapture.capturedSection)⟩

def sampleUploaded : V3StoredCommit :=
  ⟨none, 100000, sampleRoot.anchorState sampleFormat, ⟨2, sampleDigest, sampleKey2⟩, some ⟨"c2", by decide⟩, 0, 0⟩

theorem sampleGenesis_accepted : Accepted sampleSha256 sampleFormat [sampleGenesis] [] ⟨.preset, .default⟩ := by
  have htime : choosePublishTime 1000 none = .ok sampleGenesis.header.publishTimeMs := rfl
  exact .genesis rfl rfl (by decide +kernel) htime rfl

theorem sampleCapture_new :
    CapturedRecoveryPublication.new sampleSha256 samplePlan ⟨.preset, .default⟩ .preset true = .ok sampleCapture := rfl

theorem sampleChain_accepted :
    Accepted sampleSha256 sampleFormat [sampleRoot, sampleGenesis] [⟨100000, .preset⟩] sampleState := by
  have hplan : prepareChildPublication (sampleGenesis.anchorState sampleFormat)
      sampleGenesis.header.publishTimeMs 100000 = .ok samplePlan := rfl
  have hverify : verifyRecoveryPublication sampleSha256 sampleOptions sampleCapture sampleUploaded sampleRoot =
      .ok sampleState := rfl
  exact .publish sampleGenesis_accepted rfl rfl hplan sampleCapture_new hverify (by decide)

end Rs3.Recovery
