/-
# Rs3.Repository.Anchor — adopting an uploaded child commit on the accepted anchor.

`adopt_verified_unanchored_child` of `v3/repository.rs`, generic over the anchor as in the source.  What the
function reads from the object store between its anchor operations touches neither the anchor nor
any shared state, so those results are inputs (`AdoptReads`).
-/
import Rs3.Recovery.Time
import Rs3.Repository.CommitKey

namespace Rs3.Repository

/-- A commit the store has written and verified. -/
structure V3StoredCommit where
  verifiedRetainUntilMs : Option Int
  publishTimeMs : Int
  anchorState : V3AnchorState
  commitKey : V3CommitKey
  versionId : Option BackendVersionId
  objectLen : ℕ
  sectionsStart : ℕ
  deriving DecidableEq

/-- The `V3CommitAnchor` trait. -/
structure V3CommitAnchor (M : Type → Type) where
  readV3 : M (Except V3FormatError (Option V3AnchorState))
  compareAndAdvanceV3 : Option V3AnchorState → V3AnchorState → M (Except V3FormatError V3AnchorState)
  fenceAndReadV3 : M (Except V3FormatError (Option V3AnchorState))

/-- What one adoption learns from the object store and the clock. -/
structure AdoptReads where
  /-- `verified_parent_publish_time(expected_parent)`. -/
  parentTime : Except V3FormatError Int
  publicationNowMs : Int
  /-- `verify_existing_commit_postconditions`. -/
  retainUntilMs : Except V3FormatError (Option Int)
  /-- `verified_parent_header_facts(uploaded.anchor_state).0`. -/
  headerTime : Except V3FormatError Int
  historyNowMs : Int

/-- The checks on the read anchor and on the typed upload result. -/
def adoptable (formatRef : V3FormatRef) (current : Option V3AnchorState)
    (expectedParent : V3AnchorState) (uploaded : V3StoredCommit) : Prop :=
  current = some expectedParent ∧
  expectedParent.sequence.checkedNext = some uploaded.anchorState.sequence ∧
  uploaded.commitKey.sequence = uploaded.anchorState.sequence ∧
  uploaded.commitKey.objectId = uploaded.anchorState.commitKey ∧
  uploaded.versionId = uploaded.anchorState.versionId ∧
  uploaded.anchorState.formatRef = expectedParent.formatRef ∧
  uploaded.anchorState.formatRef = formatRef ∧
  uploaded.sectionsStart ≤ uploaded.objectLen

instance (formatRef : V3FormatRef) (current : Option V3AnchorState) (expectedParent : V3AnchorState)
    (uploaded : V3StoredCommit) : Decidable (adoptable formatRef current expectedParent uploaded) :=
  inferInstanceAs (Decidable (_ ∧ _))

/-- Everything before the compare-and-swap; returns the verified protection. -/
def adoptChecks (formatRef : V3FormatRef) (current : Option V3AnchorState)
    (expectedParent : V3AnchorState) (uploaded : V3StoredCommit) (reads : AdoptReads)
    (historyUncertaintyMs : Option ℕ) : Except V3FormatError (Option Int) := do
  ensure (adoptable formatRef current expectedParent uploaded) .staleAnchor
  let parentTime ← reads.parentTime
  Recovery.validateParentTime (some parentTime) uploaded.publishTimeMs
  Recovery.validatePublicationTime reads.publicationNowMs uploaded.publishTimeMs
  let retainUntilMs ← reads.retainUntilMs
  let headerTime ← reads.headerTime
  ensure (headerTime = uploaded.publishTimeMs) .staleAnchor
  match historyUncertaintyMs with
  | some uncertainty =>
    Recovery.validateHistoryPublicationFreshness reads.historyNowMs uploaded.publishTimeMs uncertainty
  | none => pure ()
  return retainUntilMs

/-- Settle an advance that did not report its own state: only what a fencing write observes counts. -/
def settleAdvance (expectedParent : V3AnchorState) (uploaded : V3StoredCommit) (retained : Option Int)
    (result : Except V3FormatError V3AnchorState) :
    Except V3FormatError (Option V3AnchorState) → Except V3FormatError V3StoredCommit
  | .ok (some accepted) =>
    if accepted = uploaded.anchorState then .ok { uploaded with verifiedRetainUntilMs := retained }
    else if accepted = expectedParent then
      match result with
      | .error e => .error e
      | .ok _ => .error .staleAnchor
    else .error .anchorReconciliationRequired
  | _ => .error .anchorReconciliationRequired

section

variable {M : Type → Type} [Monad M]

/-- The compare-and-swap and, unless it reports `uploaded`, the fencing write after it. -/
def adoptAdvance (anchor : V3CommitAnchor M) (expectedParent : V3AnchorState) (uploaded : V3StoredCommit)
    (retained : Option Int) : M (Except V3FormatError V3StoredCommit) := do
  let result ← anchor.compareAndAdvanceV3 (some expectedParent) uploaded.anchorState
  if result = .ok uploaded.anchorState then
    return .ok { uploaded with verifiedRetainUntilMs := retained }
  else
    let fenced ← anchor.fenceAndReadV3
    return settleAdvance expectedParent uploaded retained result fenced

def adoptVerifiedUnanchoredChild (anchor : V3CommitAnchor M) (formatRef : V3FormatRef)
    (expectedParent : V3AnchorState) (uploaded : V3StoredCommit) (reads : AdoptReads)
    (historyUncertaintyMs : Option ℕ) : M (Except V3FormatError V3StoredCommit) := do
  match ← anchor.readV3 with
  | .error e => return .error e
  | .ok current =>
    match adoptChecks formatRef current expectedParent uploaded reads historyUncertaintyMs with
    | .error e => return .error e
    | .ok retained => adoptAdvance anchor expectedParent uploaded retained

end

end Rs3.Repository
