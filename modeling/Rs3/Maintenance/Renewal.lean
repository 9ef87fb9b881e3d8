/-
# Rs3.Maintenance.Renewal — planning and executing renewals of retention.

`v3/maintenance.rs`, `maintenance/coverage.rs` and `maintenance/introduced.rs`.  A renewal target carries what is
required of one object version: a policy, a legal hold and an absolute deadline.  The provider takes whole days from now,
so a deadline is translated right before the provider is asked, and what it did is read back and checked.
-/
import Rs3.Storage.Retention
import Rs3.Recovery.Policy

namespace Rs3.Maintenance

open Storage Recovery
open Rs3.Index (RetentionMode RetentionPolicy LegalHoldStatus V3ProviderProfile NamespaceEntry PayloadReference
  activeRetention retentionModeStrength strongestRetentionPolicy)

/-- `BlobMetadata`, as far as retention reads it. -/
structure BlobMetadata where
  objectId : BackendObjectId
  contentLen : ℕ
  versionId : Option BackendVersionId
  retention : Option RetentionPolicy
  retainUntilMs : Option ℤ
  legalHold : Option LegalHoldStatus
  deriving DecidableEq

structure V3RetentionTarget where
  objectId : BackendObjectId
  versionId : Option BackendVersionId
  storedLen : ℕ
  requiredRetention : Option RetentionPolicy
  requiredLegalHold : Option LegalHoldStatus
  requiredDeadline : Option ℤ
  currentRecoveryDependency : Bool
  deriving DecidableEq

/-- The settings of the commit store that renewal reads. -/
structure RetentionStore where
  profile : V3ProviderProfile
  retentionPolicy : Option RetentionPolicy
  formatRef : V3FormatRef
  keyringRoot : Option (BackendObjectId × Option BackendVersionId)
  /-- Whether the root reference of the keyring envelope is the one that commits name. -/
  keyringRootMatches : Except V3FormatError Unit
  contentKeyEnabled : KeyId → Bool

/-! ## Deadlines and days -/

/-- `ceil_physical_deadline_ms`. -/
def ceilPhysicalDeadlineMs (requiredUntilMs : ℤ) : Except V3FormatError ℤ := do
  ensure (0 ≤ requiredUntilMs) .invalidPublicationTime
  let rounded := requiredUntilMs + (dayMs - requiredUntilMs % dayMs) % dayMs
  ensure (fitsI64 rounded) .invalidPublicationTime
  return rounded

/-- Whole days that reach over a span of time. -/
def ceilDays (remainingMs : ℤ) : ℤ := remainingMs / dayMs + if remainingMs % dayMs ≠ 0 then 1 else 0

/-- `physical_retention_for_deadline`. -/
def physicalRetentionForDeadline (retention : Option RetentionPolicy) (requiredUntilMs : Option ℤ) (nowMs : ℤ) :
    Except V3FormatError (Option RetentionPolicy) :=
  match requiredUntilMs with
  | none => .ok retention
  | some required => do
    let policy ← okOr (activeRetention retention) .providerProfileFailed
    ensure (0 ≤ required ∧ 0 ≤ nowMs) .invalidPublicationTime
    let days := ceilDays (max (required - nowMs) 0)
    ensure (days < 2 ^ 32) .invalidRecoveryPolicy
    return some ⟨policy.mode, max policy.retainDays days.toNat⟩

/-- `required_retain_until_ms`. -/
def requiredRetainUntilMs (policy : RetentionPolicy) (nowMs : ℤ) : Except V3FormatError ℤ := do
  ensure (fitsI64 (policy.retainDays * 86400000)) .providerProfileFailed
  ensure (fitsI64 (nowMs + policy.retainDays * 86400000)) .providerProfileFailed
  return nowMs + policy.retainDays * 86400000

/-- `planned_retain_until_ms_at`. -/
def plannedRetainUntilMsAt (policy : RetentionPolicy) (nowMs : ℤ) : Except V3FormatError ℤ := do
  ceilPhysicalDeadlineMs (← requiredRetainUntilMs policy nowMs)

/-! ## One extension -/

/-- What one call of `extend_and_verify_retention_target` sees: the guard, the anchor, the clock read twice, and what
the provider answers to the extension and to the HEAD after it. -/
structure ExtendAnswers where
  guard : Except V3FormatError Unit
  anchor : Except V3FormatError (Option V3AnchorState)
  nowMs : ℤ
  translatedAtMs : ℤ
  extendRetentionAt : RetentionPolicy → Except V3FormatError Unit
  headAt : Except V3FormatError BlobMetadata

/-- The deadline of a target; without one, it moves with the clock. -/
def absoluteDeadline (target : V3RetentionTarget) (requestedPolicy : RetentionPolicy) (nowMs : ℤ) :
    Except V3FormatError ℤ :=
  match target.requiredDeadline with
  | some deadline => do
    ensure (0 ≤ deadline) .providerProfileFailed
    return deadline
  | none => requiredRetainUntilMs requestedPolicy nowMs

/-- The deadline that is required, and the policy the provider is asked for. -/
def extensionRequest (store : RetentionStore) (answers : ExtendAnswers) (baseAnchor : Option V3AnchorState)
    (target : V3RetentionTarget) : Except V3FormatError (ℤ × RetentionPolicy) := do
  answers.guard
  let current ← answers.anchor
  ensure (current = baseAnchor) .staleAnchor
  ensure (¬(store.profile = .retainedVersionObjectLock ∧ target.versionId = none)) .providerProfileFailed
  let requestedPolicy ← okOr target.requiredRetention .providerProfileFailed
  let requiredDeadline ← absoluteDeadline target requestedPolicy answers.nowMs
  let physical ← physicalRetentionForDeadline (some requestedPolicy) target.requiredDeadline answers.translatedAtMs
  let policy ← okOr physical .providerProfileFailed
  return (requiredDeadline, policy)

/-- What is read back after an extension, against the target. -/
structure ExtensionVerified (target : V3RetentionTarget) (requiredDeadline : ℤ) (policy : RetentionPolicy)
    (exact : BlobMetadata) : Prop where
  object_matches : exact.objectId = target.objectId
  version_matches : exact.versionId = target.versionId
  length_matches : exact.contentLen = target.storedLen
  retention_matches : RetentionSatisfies exact.retention policy
  legal_hold_matches : target.requiredLegalHold ≠ some .on ∨ exact.legalHold = some .on
  deadline_matches : ∃ actual ∈ exact.retainUntilMs, requiredDeadline ≤ actual

instance (target : V3RetentionTarget) (requiredDeadline : ℤ) (policy : RetentionPolicy) (exact : BlobMetadata) :
    Decidable (ExtensionVerified target requiredDeadline policy exact) :=
  decidable_of_iff (exact.objectId = target.objectId ∧ exact.versionId = target.versionId ∧
    exact.contentLen = target.storedLen ∧ RetentionSatisfies exact.retention policy ∧
    (target.requiredLegalHold ≠ some .on ∨ exact.legalHold = some .on) ∧
    ∃ actual ∈ exact.retainUntilMs, requiredDeadline ≤ actual)
    ⟨fun ⟨h1, h2, h3, h4, h5, h6⟩ => ⟨h1, h2, h3, h4, h5, h6⟩, fun h => ⟨h.1, h.2, h.3, h.4, h.5, h.6⟩⟩

/-- `extend_and_verify_retention_target`: the retain-until date that was verified. -/
def extendAndVerifyRetentionTarget (store : RetentionStore) (answers : ExtendAnswers)
    (baseAnchor : Option V3AnchorState) (target : V3RetentionTarget) : Except V3FormatError ℤ := do
  let (requiredDeadline, policy) ← extensionRequest store answers baseAnchor target
  (answers.extendRetentionAt policy).mapError fun _ => .storageOperationFailed
  let exact ← answers.headAt.mapError fun _ => .providerProfileFailed
  ensure (ExtensionVerified target requiredDeadline policy exact) .providerProfileFailed
  okOr exact.retainUntilMs .providerProfileFailed

/-! ## Planning -/

def satAdd (bits a b : ℕ) : ℕ := min (a + b) (2 ^ bits - 1)

def satI64 (x : ℤ) : ℤ := max (-2 ^ 63) (min x (2 ^ 63 - 1))

structure V3RetentionRenewalPlan where
  commitCount : ℕ
  bytes : ℕ
  blockedCount : ℕ
  blockedBytes : ℕ
  headCount : ℕ
  extendCount : ℕ
  nearestRetainUntilMs : Option ℤ
  targets : List V3RetentionTarget

def V3RetentionRenewalPlan.default : V3RetentionRenewalPlan := ⟨0, 0, 0, 0, 0, 0, none, []⟩

def V3RetentionRenewalPlan.block (plan : V3RetentionRenewalPlan) (target : V3RetentionTarget) : V3RetentionRenewalPlan :=
  { plan with
    blockedCount := satAdd 64 plan.blockedCount 1
    blockedBytes := satAdd 64 plan.blockedBytes target.storedLen }

structure V3MaintenanceBudgets where
  maxRequestCount : Option ℕ
  maxHeadCount : Option ℕ
  maxRetentionExtendCount : Option ℕ

/-- `ensure_next_budgeted_operation`. -/
def ensureNextBudgetedOperation (limit : Option ℕ) (used : ℕ) : Except V3FormatError Unit :=
  ensure (∀ most ∈ limit, used < most) .maintenanceBudgetExceeded

/-- `retention_renewal_needed`. -/
def RetentionRenewalNeeded (metadata : BlobMetadata) (requested : RetentionPolicy) (renewBeforeMs : ℤ) : Prop :=
  ¬ RetentionSatisfies metadata.retention requested ∨ ∀ retainUntil ∈ metadata.retainUntilMs, retainUntil ≤ renewBeforeMs

instance (metadata : BlobMetadata) (requested : RetentionPolicy) (renewBeforeMs : ℤ) :
    Decidable (RetentionRenewalNeeded metadata requested renewBeforeMs) := inferInstanceAs (Decidable (_ ∨ _))

/-- `planned_renewal_requirements`. -/
def plannedRenewalRequirements (target : V3RetentionTarget) (metadata : BlobMetadata) (policy : RetentionPolicy)
    (nowMs : ℤ) : Except V3FormatError (ℤ × Option LegalHoldStatus) := do
  let planned ← plannedRetainUntilMsAt policy nowMs
  let requiredDeadline := target.requiredDeadline.getD planned
  let requiredDeadline := match metadata.retainUntilMs with
    | some observed => max observed requiredDeadline
    | none => requiredDeadline
  let requiredLegalHold :=
    if target.requiredLegalHold = some .on ∨ metadata.legalHold = some .on then some LegalHoldStatus.on else none
  return (requiredDeadline, requiredLegalHold)

/-- What the provider answers to the HEAD of the `i`-th target. -/
structure RenewalHeads where
  head : ℕ → BackendObjectId → Except V3FormatError BlobMetadata
  headAt : ℕ → BackendObjectId → Option BackendVersionId → Except V3FormatError BlobMetadata

structure PlanState where
  usedRequestCount : ℕ
  usedHeadCount : ℕ
  plan : V3RetentionRenewalPlan

/-- The metadata of a target blocks its renewal. -/
def Mismatched (target : V3RetentionTarget) (metadata : BlobMetadata) : Prop :=
  metadata.objectId ≠ target.objectId ∨ metadata.versionId ≠ target.versionId ∨
    metadata.contentLen ≠ target.storedLen ∨ (target.requiredLegalHold = some .on ∧ metadata.legalHold ≠ some .on)

instance (target : V3RetentionTarget) (metadata : BlobMetadata) : Decidable (Mismatched target metadata) := by
  unfold Mismatched
  infer_instance

/-- The renewal of an observed target, if it is due. -/
def renewalOf (target : V3RetentionTarget) (metadata : BlobMetadata) (requested : RetentionPolicy)
    (nowMs renewBeforeMs : ℤ) : Except V3FormatError (Option V3RetentionTarget) :=
  match activeRetention (strongestRetentionPolicy (some requested) (activeRetention metadata.retention)) with
  | none => .ok none
  | some policy =>
    if RetentionRenewalNeeded metadata policy renewBeforeMs ∨
        ∃ deadline ∈ target.requiredDeadline, ∀ retainUntil ∈ metadata.retainUntilMs, retainUntil < deadline then do
      let (requiredDeadline, requiredLegalHold) ← plannedRenewalRequirements target metadata policy nowMs
      return some ⟨metadata.objectId, metadata.versionId, metadata.contentLen, some policy, requiredLegalHold,
        some requiredDeadline, target.currentRecoveryDependency⟩
    else .ok none

/-- The nearest date of the observed objects that a policy applies to. -/
def nearest (plan : V3RetentionRenewalPlan) (requested : Option RetentionPolicy) (metadata : BlobMetadata) : Option ℤ :=
  match requested, metadata.retainUntilMs with
  | some _, some retainUntil => some ((plan.nearestRetainUntilMs.map (min · retainUntil)).getD retainUntil)
  | _, _ => plan.nearestRetainUntilMs

section Plan

variable (store : RetentionStore) (nowMs renewBeforeMs : ℤ) (budgets : V3MaintenanceBudgets) (heads : RenewalHeads)

/-- One target of `plan_retention_renewal`. -/
def planRenewalTarget (state : PlanState) (entry : V3RetentionTarget × ℕ) : Except V3FormatError PlanState := do
  let (target, i) := entry
  let requested := activeRetention (strongestRetentionPolicy store.retentionPolicy target.requiredRetention)
  if (∃ deadline ∈ target.requiredDeadline, deadline < 0) ∨ (target.requiredDeadline.isSome = true ∧ requested = none) then
    return { state with plan := state.plan.block target }
  else if requested = none ∧ target.requiredLegalHold ≠ some .on then return state
  else if store.profile = .retainedVersionObjectLock ∧ target.versionId = none then
    return { state with plan := state.plan.block target }
  else do
    ensureNextBudgetedOperation budgets.maxRequestCount state.usedRequestCount
    ensureNextBudgetedOperation budgets.maxHeadCount state.usedHeadCount
    let plan := { state.plan with headCount := satAdd 64 state.plan.headCount 1 }
    let used : ℕ × ℕ := (satAdd 64 state.usedRequestCount 1, satAdd 64 state.usedHeadCount 1)
    let metadata ← (if store.profile = .retainedVersionObjectLock then heads.headAt i target.objectId target.versionId
      else heads.head i target.objectId).mapError fun _ => .storageOperationFailed
    if Mismatched target metadata then return ⟨used.1, used.2, plan.block target⟩
    else
      match requested with
      | none => return ⟨used.1, used.2, plan⟩
      | some policy => do
        let plan := { plan with nearestRetainUntilMs := nearest plan requested metadata }
        match ← renewalOf target metadata policy nowMs renewBeforeMs with
        | none => return ⟨used.1, used.2, plan⟩
        | some renewal =>
          return ⟨used.1, used.2, { plan with
            commitCount := satAdd 64 plan.commitCount 1
            bytes := satAdd 64 plan.bytes metadata.contentLen
            extendCount := satAdd 64 plan.extendCount 1
            headCount := satAdd 64 plan.headCount 1
            targets := plan.targets ++ [renewal] }⟩

end Plan

variable (store : RetentionStore)

/-- `plan_retention_renewal`. -/
def planRetentionRenewal (nowMs : ℤ) (heads : RenewalHeads) (targets : List V3RetentionTarget)
    (horizonMs : ℕ) (budgets : V3MaintenanceBudgets) (usedRequestCount usedHeadCount : ℕ) :
    Except V3FormatError V3RetentionRenewalPlan := do
  let state ← targets.zipIdx.foldlM (planRenewalTarget store nowMs (satI64 (nowMs + satI64 horizonMs)) budgets heads)
    ⟨usedRequestCount, usedHeadCount, .default⟩
  return state.plan

/-! ## Copies, genesis and introduced objects -/

/-- What one step of a protection loop sees. -/
structure StepAnswers where
  guard : Except V3FormatError Unit
  anchor : Except V3FormatError (Option V3AnchorState)
  headAt : Except V3FormatError BlobMetadata
  extension : ExtendAnswers

structure CopyTarget where
  objectId : BackendObjectId
  versionId : Option BackendVersionId
  storedLen : Option ℕ
  deriving DecidableEq

/-- The fence and the anchor before a step. -/
def checkStep (answers : StepAnswers) (baseAnchor : Option V3AnchorState) : Except V3FormatError Unit := do
  answers.guard
  let current ← answers.anchor
  ensure (current = baseAnchor) .staleAnchor

/-- What is required of an observed source of a copy; none when it is protected already. -/
def copyRenewal (policy : RetentionPolicy) (deadline : ℤ) (target : CopyTarget) (observed : BlobMetadata) :
    Except V3FormatError (ℤ × Option V3RetentionTarget) := do
  ensure (¬(observed.objectId ≠ target.objectId ∨ observed.versionId ≠ target.versionId ∨ observed.contentLen = 0 ∨
    ∃ length ∈ target.storedLen, length ≠ observed.contentLen)) .providerProfileFailed
  let observedDeadline ← okOr observed.retainUntilMs .providerProfileFailed
  let observedPolicy ← okOr (activeRetention observed.retention) .providerProfileFailed
  let requiredPolicy ← okOr (strongestRetentionPolicy (some policy) (some observedPolicy)) .providerProfileFailed
  if deadline ≤ observedDeadline ∧ RetentionSatisfies observed.retention requiredPolicy then
    return (observedDeadline, none)
  else
    return (observedDeadline, some ⟨target.objectId, target.versionId, observed.contentLen, some requiredPolicy,
      observed.legalHold, some (max deadline observedDeadline), false⟩)

/-- One target of `protect_copy_source`: the date that protects it. -/
def protectCopyTarget (baseAnchor : V3AnchorState) (policy : RetentionPolicy) (deadline : ℤ)
    (answers : StepAnswers) (target : CopyTarget) : Except V3FormatError ℤ := do
  checkStep answers (some baseAnchor)
  let observed ← answers.headAt.mapError fun _ => .storageOperationFailed
  let (observedDeadline, renewal) ← copyRenewal policy deadline target observed
  match renewal with
  | none => return observedDeadline
  | some renewal => extendAndVerifyRetentionTarget store answers.extension (some baseAnchor) renewal

/-- The carrier of the content of a copy source. -/
def copyCarrier (source : NamespaceEntry) : Except V3FormatError (List CopyTarget) :=
  match source.payloadRef with
  | some (.v3Pack carrier _) => do
    ensure (store.contentKeyEnabled carrier.contentKeyId = true) .providerProfileFailed
    return [⟨carrier.commitKey, carrier.commitVersionId, some carrier.commitStoredLen⟩]
  | some (.v3StandaloneStream carrier) => do
    ensure (store.contentKeyEnabled carrier.payloadLayout.keyId = true) .providerProfileFailed
    return [⟨carrier.objectId, carrier.versionId, some carrier.storedLen⟩]
  | none => if source.contentLen = 0 then .ok [] else .error .invalidHeaderField
  | some .pending => .error .invalidHeaderField

/-- The objects a copy of a source depends on, with the policy and the deadline; none without active retention. -/
def copyTargets (source : NamespaceEntry) (modifiedAtMs : ℤ) :
    Except V3FormatError (Option (RetentionPolicy × ℤ × List CopyTarget)) := do
  ensure (source.legalHold ≠ some .on) .providerProfileFailed
  match activeRetention (strongestRetentionPolicy store.retentionPolicy source.retention) with
  | none => return none
  | some policy => do
    ensure (store.profile = .retainedVersionObjectLock) .providerProfileFailed
    ensure (fitsI64 (modifiedAtMs + policy.retainDays * 86400000) ∧ 0 ≤ modifiedAtMs) .providerProfileFailed
    let keyring ← okOr store.keyringRoot .providerProfileFailed
    store.keyringRootMatches
    let carrier ← copyCarrier store source
    let targets := carrier ++ [⟨store.formatRef.objectId, store.formatRef.versionId, none⟩, ⟨keyring.1, keyring.2, none⟩]
    ensure (∀ target ∈ targets, ¬(target.versionId = none ∨ target.storedLen = some 0)) .providerProfileFailed
    return some (policy, modifiedAtMs + policy.retainDays * 86400000, targets)

/-- `protect_copy_source`; the answers are those of each target and of the check at the end. -/
def protectCopySource (baseAnchor : V3AnchorState) (answers : ℕ → StepAnswers)
    (source : NamespaceEntry) (modifiedAtMs : ℤ) : Except V3FormatError Unit := do
  match ← copyTargets store source modifiedAtMs with
  | none => return ()
  | some (policy, deadline, targets) => do
    targets.zipIdx.forM fun entry => do
      let _ ← protectCopyTarget store baseAnchor policy deadline (answers entry.2) entry.1
      return ()
    checkStep (answers targets.length) (some baseAnchor)

/-- What `protect_recovery_genesis` requires of an observed object; none when it is protected already. -/
def genesisRenewal (policy : RetentionPolicy) (requiredUntilMs : ℤ) (target : CopyTarget) (exact : BlobMetadata) :
    Except V3FormatError (Option V3RetentionTarget) := do
  ensure (¬(exact.objectId ≠ target.objectId ∨ exact.versionId ≠ target.versionId ∨ exact.contentLen = 0 ∨
    ∃ length ∈ target.storedLen, length ≠ exact.contentLen)) .providerProfileFailed
  let required ← okOr (strongestRetentionPolicy (some policy) exact.retention) .providerProfileFailed
  if (∃ floor ∈ exact.retainUntilMs, requiredUntilMs ≤ floor) ∧ RetentionSatisfies exact.retention required then
    return none
  else
    return some ⟨target.objectId, target.versionId, exact.contentLen, some required, exact.legalHold,
      some (max requiredUntilMs (exact.retainUntilMs.getD 0)), false⟩

/-- What `protect_recovery_introduced` requires of an observed object, the date it has, and whether that protects it
already. -/
def introducedRenewal (requiredCoverageUntilMs : ℤ) (target : V3RetentionTarget) (observed : BlobMetadata) :
    Except V3FormatError (V3RetentionTarget × ℤ × Bool) := do
  ensure (¬(observed.objectId ≠ target.objectId ∨ observed.versionId ≠ target.versionId ∨
    observed.contentLen ≠ target.storedLen)) .providerProfileFailed
  let policy ← okOr (activeRetention (strongestRetentionPolicy target.requiredRetention observed.retention))
    .providerProfileFailed
  let observedFloor ← okOr observed.retainUntilMs .providerProfileFailed
  let renewal : V3RetentionTarget := { target with
    requiredRetention := some policy
    requiredDeadline := some (max requiredCoverageUntilMs observedFloor)
    requiredLegalHold := if observed.legalHold = some .on then observed.legalHold else target.requiredLegalHold }
  return (renewal, observedFloor, decide (requiredCoverageUntilMs ≤ observedFloor ∧
    RetentionSatisfies observed.retention policy ∧
    (renewal.requiredLegalHold ≠ some .on ∨ observed.legalHold = some .on)))

end Rs3.Maintenance
