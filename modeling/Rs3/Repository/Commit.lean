/-
# Rs3.Repository.Commit — the signed facts of a commit header.

The part of `V3CommitHeader` in `v3/commit.rs` that replay, recovery and maintenance read.  Sections, algorithm
identifiers and the signature itself are checked when a header is parsed and play no further role.
-/
import Rs3.Types

namespace Rs3.Repository

/-- Semantic role of a commit in the authenticated history. -/
inductive V3CommitKind where
  /-- An incremental mutation commit that links to a parent. -/
  | delta
  /-- A self-contained repository root used for genesis or checkpoints. -/
  | root
  deriving DecidableEq, Repr

structure V3CommitSelfRef where
  sequence : Sequence
  commitKey : BackendObjectId
  deriving DecidableEq

/-- Signed parent reference, absent only for the genesis commit. -/
structure V3CommitParentRef where
  sequence : Sequence
  commitKey : BackendObjectId
  bodyDigest : Digest
  versionId : Option BackendVersionId
  deriving DecidableEq

/-- The reference to a parent known by its anchor state. -/
def V3CommitParentRef.ofAnchor (anchor : V3AnchorState) : V3CommitParentRef :=
  ⟨anchor.sequence, anchor.commitKey, anchor.bodyDigest, anchor.versionId⟩

/-- Signed reference to the encrypted keyring envelope active for a commit. -/
structure V3KeyringEnvelopeRef where
  objectId : BackendObjectId
  digest : Digest
  deriving DecidableEq

structure V3CommitHeader where
  selfRef : V3CommitSelfRef
  parent : Option V3CommitParentRef
  publishTimeMs : Int
  kind : V3CommitKind
  keyringEnvelopeRef : V3KeyringEnvelopeRef
  bodyDigest : Digest
  signingKeyId : KeyId
  deriving DecidableEq

/-- The anchor state of a commit read at one provider version. -/
def V3CommitHeader.anchorState (header : V3CommitHeader) (versionId : Option BackendVersionId)
    (formatRef : V3FormatRef) : V3AnchorState :=
  ⟨header.selfRef.sequence, header.selfRef.commitKey, header.bodyDigest, versionId, header.signingKeyId, formatRef⟩

end Rs3.Repository
