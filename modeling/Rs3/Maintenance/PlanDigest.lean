/-
# Rs3.Maintenance.PlanDigest — what the digest of a collection plan binds.

`full_gc_plan_digest` of `v3/maintenance.rs` hashes five encoded fields: the options, the report, the base anchor with
the recovery cutoffs, the deletion candidates and the renewal targets.  The entries of a list are encoded one by one and
the encodings sorted, so the digest does not depend on the order of the inventory.  A renewal target is encoded without
its mark as a dependency of the current namespace; the base anchor, which is encoded, determines the marks.
-/
import Rs3.Lib.Delimited
import Rs3.Index.RunRecords
import Rs3.Maintenance.RenewalTargets

namespace Rs3.Maintenance

open List Delimited

open Index (RetentionPolicy RetentionMode LegalHoldStatus wireI64 i64Bits ofI64Bits_i64Bits)

/-! ## Plans -/

/-- `Duration`, in nanoseconds. -/
abbrev Duration := ℕ

/-- The budgets with the limits that renewal does not read. -/
@[ext]
structure V3PlanBudgets extends V3MaintenanceBudgets where
  maxVersionListCount : Option ℕ
  maxRangeReadBytes : Option ℕ
  maxWriteBytes : Option ℕ
  maxDeleteCount : Option ℕ
  maxInventoryPageCount : ℕ
  maxInventoryItemCount : ℕ
  maxHistoryMetadataBytes : ℕ
  maxHistoryPendingBytes : ℕ
  opPacingDelay : Option Duration

structure V3FullGcDryRunOptions where
  budgets : V3PlanBudgets
  retentionRenewalHorizon : Duration
  protectedRoots : List V3AnchorState

@[ext]
structure V3OrphanGcOptions where
  minAge : Duration
  deleteSameSequence : Bool

structure V3FullGcApplyOptions where
  dryRun : V3FullGcDryRunOptions
  orphanGc : V3OrphanGcOptions
  retainedProviderConformancePassed : Bool
  reclamationEnabled : Bool

inductive V3OrphanObjectClass where
  | commit
  | object
  deriving DecidableEq

@[ext]
structure V3OrphanCandidate where
  objectClass : V3OrphanObjectClass
  objectId : BackendObjectId
  versionId : Option BackendVersionId
  contentLen : ℕ
  modifiedAtMs : Option ℤ
  sequence : Option Sequence
  sameSequenceAsAnchor : Bool
  retention : Option RetentionPolicy
  retainUntilMs : Option ℤ
  deleteBlockedByRetention : Bool
  deleteBlockedByLegalHold : Bool
  deleteBlockedByUnknownProtection : Bool

structure V3MaintenancePlanCost where
  requestCount : ℕ
  versionListCount : ℕ
  headCount : ℕ
  rangeReadBytes : ℕ
  writeBytes : ℕ
  deleteCount : ℕ
  retentionExtendCount : ℕ
  inventoryPageCount : ℕ
  inventoryItemCount : ℕ

structure V3FullGcDryRunReport where
  baseSequence : Option Sequence
  chainLiveCommitCount : ℕ
  protectedRootCount : ℕ
  protectedCommitCount : ℕ
  candidateCommitCount : ℕ
  fullyDeadCommitCount : ℕ
  mixedCommitCount : ℕ
  deadBytesReclaimable : ℕ
  liveBytesToCopy : ℕ
  mixedDeadBytesRepackable : ℕ
  retentionBlockedBytes : ℕ
  legalHoldBlockedBytes : ℕ
  unknownProtectionBlockedBytes : ℕ
  retentionRenewalCommitCount : ℕ
  retentionRenewalBytes : ℕ
  retentionRenewalBlockedCount : ℕ
  retentionRenewalBlockedBytes : ℕ
  plannedCost : V3MaintenancePlanCost
  fitsBudgets : Bool
  exactVersionApplyReady : Bool

/-- The fields of `V3FullGcPlan` that the digest reads. -/
structure V3FullGcPlan where
  report : V3FullGcDryRunReport
  baseAnchor : Option V3AnchorState
  recoveryExpireBeforeMs : Option ℤ
  verifiedCurrentRecoveryFloorMs : Option ℤ
  targets : List V3RetentionTarget
  candidates : List V3OrphanCandidate

/-! ## Encodings -/

def pushPlanVersion (versionId : Option BackendVersionId) : Bytes :=
  optionFramed (fun versionId : BackendVersionId => textFramed 8 versionId.asStr) versionId

def pushPlanDuration (duration : Duration) : Bytes := toBe 8 (duration / 1000000000) ++ toBe 4 (duration % 1000000000)

def retentionModeByte : RetentionMode → UInt8
  | .none => 0
  | .governance => 1
  | .compliance => 2

def pushPlanRetention (retention : Option RetentionPolicy) : Bytes :=
  optionFramed (fun retention : RetentionPolicy => retentionModeByte retention.mode :: toBe 4 retention.retainDays)
    retention

def planLegalHoldByte : Option LegalHoldStatus → UInt8
  | none => 0
  | some .off => 1
  | some .on => 2

def encodePlanAnchor (anchor : V3AnchorState) : Bytes :=
  toBe 8 anchor.sequence.get ++ (textFramed 8 anchor.commitKey.asStr ++ (anchor.bodyDigest.toList ++
    (pushPlanVersion anchor.versionId ++ (textFramed 8 anchor.signingKeyId.asStr ++
    (toBe 8 anchor.formatRef.generation.get ++ (textFramed 8 anchor.formatRef.digest ++
    (textFramed 8 anchor.formatRef.objectId.asStr ++ pushPlanVersion anchor.formatRef.versionId)))))))

def encodePlanBudgets (budgets : V3PlanBudgets) : Bytes :=
  toBe 8 budgets.maxHistoryMetadataBytes ++ (toBe 8 budgets.maxHistoryPendingBytes ++
    (optionFramed (toBe 8) budgets.maxRequestCount ++ (optionFramed (toBe 8) budgets.maxVersionListCount ++
    (optionFramed (toBe 8) budgets.maxHeadCount ++ (optionFramed (toBe 8) budgets.maxRangeReadBytes ++
    (optionFramed (toBe 8) budgets.maxWriteBytes ++ (optionFramed (toBe 8) budgets.maxDeleteCount ++
    (optionFramed (toBe 8) budgets.maxRetentionExtendCount ++ (toBe 8 budgets.maxInventoryPageCount ++
    (toBe 8 budgets.maxInventoryItemCount ++ optionFramed pushPlanDuration budgets.opPacingDelay))))))))))

/-- Entries under their count, in the order of their encodings. -/
def sortedEntries (entries : List Bytes) : Bytes :=
  toBe 8 entries.length ++ (sortOn id entries).flatMap (lengthFramed 8)

def encodePlanOptions (options : V3FullGcApplyOptions) : Bytes :=
  encodePlanBudgets options.dryRun.budgets ++ (pushPlanDuration options.dryRun.retentionRenewalHorizon ++
    (sortedEntries (options.dryRun.protectedRoots.map encodePlanAnchor) ++ (pushPlanDuration options.orphanGc.minAge ++
    [flagByte options.orphanGc.deleteSameSequence, flagByte options.retainedProviderConformancePassed,
      flagByte options.reclamationEnabled])))

def encodePlanReport (report : V3FullGcDryRunReport) : Bytes :=
  optionFramed (fun sequence : Sequence => toBe 8 sequence.get) report.baseSequence ++
    ([report.chainLiveCommitCount, report.protectedRootCount, report.protectedCommitCount, report.candidateCommitCount,
      report.fullyDeadCommitCount, report.mixedCommitCount, report.deadBytesReclaimable, report.liveBytesToCopy,
      report.mixedDeadBytesRepackable, report.retentionBlockedBytes, report.legalHoldBlockedBytes,
      report.unknownProtectionBlockedBytes, report.retentionRenewalCommitCount, report.retentionRenewalBytes,
      report.retentionRenewalBlockedCount, report.retentionRenewalBlockedBytes, report.plannedCost.requestCount,
      report.plannedCost.versionListCount, report.plannedCost.headCount, report.plannedCost.rangeReadBytes,
      report.plannedCost.writeBytes, report.plannedCost.deleteCount, report.plannedCost.retentionExtendCount,
      report.plannedCost.inventoryPageCount, report.plannedCost.inventoryItemCount].flatMap (toBe 8) ++
    [flagByte report.fitsBudgets, flagByte report.exactVersionApplyReady])

def objectClassByte : V3OrphanObjectClass → UInt8
  | .commit => 0
  | .object => 1

def encodePlanOrphan (candidate : V3OrphanCandidate) : Bytes :=
  objectClassByte candidate.objectClass :: (textFramed 8 candidate.objectId.asStr ++
    (pushPlanVersion candidate.versionId ++ (toBe 8 candidate.contentLen ++ (optionFramed wireI64 candidate.modifiedAtMs ++
    (optionFramed (fun sequence : Sequence => toBe 8 sequence.get) candidate.sequence ++
    (flagByte candidate.sameSequenceAsAnchor :: (pushPlanRetention candidate.retention ++
    (optionFramed wireI64 candidate.retainUntilMs ++ [flagByte candidate.deleteBlockedByRetention,
      flagByte candidate.deleteBlockedByLegalHold, flagByte candidate.deleteBlockedByUnknownProtection]))))))))

def encodePlanRenewal (target : V3RetentionTarget) : Bytes :=
  textFramed 8 target.objectId.asStr ++ (pushPlanVersion target.versionId ++ (toBe 8 target.storedLen ++
    (pushPlanRetention target.requiredRetention ++ (planLegalHoldByte target.requiredLegalHold ::
    optionFramed wireI64 target.requiredDeadline))))

def encodePlanGroup (tag : String) (entries : List Bytes) : Bytes := textFramed 8 tag ++ sortedEntries entries

def encodePlanBase (plan : V3FullGcPlan) : Bytes :=
  optionFramed (fun anchor => lengthFramed 8 (encodePlanAnchor anchor)) plan.baseAnchor ++
    (optionFramed wireI64 plan.recoveryExpireBeforeMs ++ optionFramed wireI64 plan.verifiedCurrentRecoveryFloorMs)

def planFields (plan : V3FullGcPlan) (options : V3FullGcApplyOptions) : List Bytes :=
  [encodePlanOptions options, encodePlanReport plan.report, encodePlanBase plan,
    encodePlanGroup "orphans" (plan.candidates.map encodePlanOrphan),
    encodePlanGroup "renewals" (plan.targets.map encodePlanRenewal)]

/-- What `derive_public_fingerprint` hashes. -/
def fingerprintPreimage (domain : Bytes) (fields : List Bytes) : Bytes :=
  domain ++ (toBe 8 fields.length ++ fields.flatMap (lengthFramed 8))

/-- What the digest of a plan hashes. -/
def planPreimage (plan : V3FullGcPlan) (options : V3FullGcApplyOptions) : Bytes :=
  fingerprintPreimage (utf8 "rs3.full-gc.plan.v3-preview.v1") (planFields plan options)

/-- `full_gc_plan_digest`. -/
def fullGcPlanDigest (sha256 : Bytes → Digest) (plan : V3FullGcPlan) (options : V3FullGcApplyOptions) : String :=
  Text.hexEncode (sha256 (planPreimage plan options)).toList

/-! ## Sizes

The lengths are written as 64-bit integers and the integers have the widths of the source's types. -/

def TextFits (text : String) : Prop := text.utf8ByteSize < 256 ^ 8

def VersionFits (versionId : Option BackendVersionId) : Prop := ∀ v ∈ versionId, TextFits v.asStr

def OptionFits (value : Option ℕ) : Prop := ∀ n ∈ value, n < 256 ^ 8

def DurationFits (duration : Duration) : Prop := duration / 1000000000 < 256 ^ 8

def IsI64 (value : Option ℤ) : Prop := ∀ n ∈ value, -2 ^ 63 ≤ n ∧ n < 2 ^ 63

def RetentionFits (retention : Option RetentionPolicy) : Prop := ∀ r ∈ retention, r.retainDays < 256 ^ 4

structure AnchorFits (anchor : V3AnchorState) : Prop where
  commitKey : TextFits anchor.commitKey.asStr
  versionId : VersionFits anchor.versionId
  signingKeyId : TextFits anchor.signingKeyId.asStr
  digest : TextFits anchor.formatRef.digest
  objectId : TextFits anchor.formatRef.objectId.asStr
  formatVersion : VersionFits anchor.formatRef.versionId

structure BudgetsFit (budgets : V3PlanBudgets) : Prop where
  maxRequestCount : OptionFits budgets.maxRequestCount
  maxVersionListCount : OptionFits budgets.maxVersionListCount
  maxHeadCount : OptionFits budgets.maxHeadCount
  maxRangeReadBytes : OptionFits budgets.maxRangeReadBytes
  maxWriteBytes : OptionFits budgets.maxWriteBytes
  maxDeleteCount : OptionFits budgets.maxDeleteCount
  maxRetentionExtendCount : OptionFits budgets.maxRetentionExtendCount
  maxInventoryPageCount : budgets.maxInventoryPageCount < 256 ^ 8
  maxInventoryItemCount : budgets.maxInventoryItemCount < 256 ^ 8
  maxHistoryMetadataBytes : budgets.maxHistoryMetadataBytes < 256 ^ 8
  maxHistoryPendingBytes : budgets.maxHistoryPendingBytes < 256 ^ 8
  opPacingDelay : ∀ delay ∈ budgets.opPacingDelay, DurationFits delay

structure CandidateFits (candidate : V3OrphanCandidate) : Prop where
  objectId : TextFits candidate.objectId.asStr
  versionId : VersionFits candidate.versionId
  contentLen : candidate.contentLen < 256 ^ 8
  modifiedAtMs : IsI64 candidate.modifiedAtMs
  retention : RetentionFits candidate.retention
  retainUntilMs : IsI64 candidate.retainUntilMs

structure TargetFits (target : V3RetentionTarget) : Prop where
  objectId : TextFits target.objectId.asStr
  versionId : VersionFits target.versionId
  storedLen : target.storedLen < 256 ^ 8
  requiredRetention : RetentionFits target.requiredRetention
  requiredDeadline : IsI64 target.requiredDeadline

/-- Entries that can be counted and framed. -/
structure EntriesFit (entries : List Bytes) : Prop where
  count : entries.length < 256 ^ 8
  entry : ∀ entry ∈ entries, entry.length < 256 ^ 8

/-- A plan and its options as the process holds them. -/
structure PlanFits (plan : V3FullGcPlan) (options : V3FullGcApplyOptions) : Prop where
  budgets : BudgetsFit options.dryRun.budgets
  horizon : DurationFits options.dryRun.retentionRenewalHorizon
  minAge : DurationFits options.orphanGc.minAge
  roots : ∀ root ∈ options.dryRun.protectedRoots, AnchorFits root
  rootEntries : EntriesFit (options.dryRun.protectedRoots.map encodePlanAnchor)
  baseAnchor : ∀ anchor ∈ plan.baseAnchor, AnchorFits anchor ∧ (encodePlanAnchor anchor).length < 256 ^ 8
  expireBefore : IsI64 plan.recoveryExpireBeforeMs
  floor : IsI64 plan.verifiedCurrentRecoveryFloorMs
  candidates : ∀ candidate ∈ plan.candidates, CandidateFits candidate
  candidateEntries : EntriesFit (plan.candidates.map encodePlanOrphan)
  targets : ∀ target ∈ plan.targets, TargetFits target
  targetEntries : EntriesFit (plan.targets.map encodePlanRenewal)
  fields : ∀ field ∈ planFields plan options, field.length < 256 ^ 8

/-! ## What an encoding determines -/

theorem delimited_version : Delimited VersionFits pushPlanVersion :=
  option (comap (delimited_textFramed 8) BackendVersionId.asStr BackendVersionId.ext)

theorem delimited_objectId : Delimited (fun id : BackendObjectId => TextFits id.asStr) fun id => textFramed 8 id.asStr :=
  comap (delimited_textFramed 8) BackendObjectId.asStr BackendObjectId.ext

theorem delimited_keyId : Delimited (fun id : KeyId => TextFits id.asStr) fun id => textFramed 8 id.asStr :=
  comap (delimited_textFramed 8) KeyId.asStr KeyId.ext

theorem delimited_u64 : Delimited (fun _ : U64 => True) fun n => toBe 8 n.get := by
  intro a b rest rest' _ _ h
  obtain ⟨hget, hrest⟩ := delimited_toBe 8 a.isLt b.isLt h
  exact ⟨U64.ext hget, hrest⟩

theorem delimited_i64 : Delimited (fun n : ℤ => -2 ^ 63 ≤ n ∧ n < 2 ^ 63) wireI64 := by
  intro a b rest rest' ha hb h
  obtain ⟨hbits, hrest⟩ := delimited_toBe 8 (Index.i64Bits_lt a) (Index.i64Bits_lt b) h
  refine ⟨?_, hrest⟩
  rw [← ofI64Bits_i64Bits ha, hbits, ofI64Bits_i64Bits hb]

theorem delimited_optionI64 : Delimited IsI64 (optionFramed wireI64) := option delimited_i64

theorem delimited_limit : Delimited OptionFits (optionFramed (toBe 8)) := option (delimited_toBe 8)

theorem delimited_duration : Delimited DurationFits pushPlanDuration := by
  intro a b rest rest' ha hb h
  have hnanos (duration : Duration) : duration % 1000000000 < 256 ^ 4 :=
    Nat.lt_trans (Nat.mod_lt _ (by decide)) (by decide)
  simp only [pushPlanDuration, append_assoc] at h
  obtain ⟨hsecs, hrest⟩ := delimited_toBe 8 ha hb h
  obtain ⟨hsub, hrest⟩ := delimited_toBe 4 (hnanos a) (hnanos b) hrest
  refine ⟨?_, hrest⟩
  rw [← Nat.div_add_mod a 1000000000, hsecs, hsub, Nat.div_add_mod]

theorem delimited_retention : Delimited RetentionFits pushPlanRetention := by
  refine option fun {a b rest rest'} ha hb h => ?_
  obtain ⟨hmode, hdays⟩ := List.cons.inj h
  obtain ⟨hdays, hrest⟩ := delimited_toBe 4 ha hb hdays
  have hmode : a.mode = b.mode := by
    revert hmode
    cases a.mode <;> cases b.mode <;> decide
  exact ⟨RetentionPolicy.ext hmode hdays, hrest⟩

theorem legalHoldByte_inj (h : planLegalHoldByte a = planLegalHoldByte b) : a = b := by
  revert h
  rcases a with _ | _ | _ <;> rcases b with _ | _ | _ <;> decide

theorem delimited_anchor : Delimited AnchorFits encodePlanAnchor := by
  intro a b rest rest' ha hb h
  simp only [encodePlanAnchor, append_assoc] at h
  obtain ⟨hsequence, h⟩ := delimited_u64 trivial trivial h
  obtain ⟨hcommit, h⟩ := delimited_objectId ha.commitKey hb.commitKey h
  obtain ⟨hbody, h⟩ := delimited_vector 32 trivial trivial h
  obtain ⟨hversion, h⟩ := delimited_version ha.versionId hb.versionId h
  obtain ⟨hsigning, h⟩ := delimited_keyId ha.signingKeyId hb.signingKeyId h
  obtain ⟨hgeneration, h⟩ := delimited_u64 trivial trivial h
  obtain ⟨hdigest, h⟩ := delimited_textFramed 8 ha.digest hb.digest h
  obtain ⟨hobject, h⟩ := delimited_objectId ha.objectId hb.objectId h
  obtain ⟨hformat, hrest⟩ := delimited_version ha.formatVersion hb.formatVersion h
  have hformatRef : a.formatRef = b.formatRef := V3FormatRef.ext hgeneration hdigest hobject hformat
  exact ⟨V3AnchorState.ext hsequence hcommit hbody hversion hsigning hformatRef, hrest⟩

theorem delimited_budgets : Delimited BudgetsFit encodePlanBudgets := by
  intro a b rest rest' ha hb h
  simp only [encodePlanBudgets, append_assoc] at h
  obtain ⟨hmetadata, h⟩ := delimited_toBe 8 ha.maxHistoryMetadataBytes hb.maxHistoryMetadataBytes h
  obtain ⟨hpending, h⟩ := delimited_toBe 8 ha.maxHistoryPendingBytes hb.maxHistoryPendingBytes h
  obtain ⟨hrequest, h⟩ := delimited_limit ha.maxRequestCount hb.maxRequestCount h
  obtain ⟨hlist, h⟩ := delimited_limit ha.maxVersionListCount hb.maxVersionListCount h
  obtain ⟨hhead, h⟩ := delimited_limit ha.maxHeadCount hb.maxHeadCount h
  obtain ⟨hrange, h⟩ := delimited_limit ha.maxRangeReadBytes hb.maxRangeReadBytes h
  obtain ⟨hwrite, h⟩ := delimited_limit ha.maxWriteBytes hb.maxWriteBytes h
  obtain ⟨hdelete, h⟩ := delimited_limit ha.maxDeleteCount hb.maxDeleteCount h
  obtain ⟨hextend, h⟩ := delimited_limit ha.maxRetentionExtendCount hb.maxRetentionExtendCount h
  obtain ⟨hpages, h⟩ := delimited_toBe 8 ha.maxInventoryPageCount hb.maxInventoryPageCount h
  obtain ⟨hitems, h⟩ := delimited_toBe 8 ha.maxInventoryItemCount hb.maxInventoryItemCount h
  obtain ⟨hpacing, hrest⟩ := option delimited_duration ha.opPacingDelay hb.opPacingDelay h
  exact ⟨V3PlanBudgets.ext hrequest hhead hextend hlist hrange hwrite hdelete hpages hitems hmetadata hpending hpacing,
    hrest⟩

theorem encodePlanOrphan_inj (ha : CandidateFits a) (hb : CandidateFits b)
    (h : encodePlanOrphan a = encodePlanOrphan b) : a = b := by
  obtain ⟨hclass, h⟩ := List.cons.inj h
  obtain ⟨hobject, h⟩ := delimited_objectId ha.objectId hb.objectId h
  obtain ⟨hversion, h⟩ := delimited_version ha.versionId hb.versionId h
  obtain ⟨hlen, h⟩ := delimited_toBe 8 ha.contentLen hb.contentLen h
  obtain ⟨hmodified, h⟩ := delimited_optionI64 ha.modifiedAtMs hb.modifiedAtMs h
  obtain ⟨hsequence, h⟩ := option delimited_u64 (fun _ _ => trivial) (fun _ _ => trivial) h
  obtain ⟨hsame, h⟩ := List.cons.inj h
  obtain ⟨hretention, h⟩ := delimited_retention ha.retention hb.retention h
  obtain ⟨huntil, h⟩ := delimited_optionI64 ha.retainUntilMs hb.retainUntilMs h
  obtain ⟨hblocked, h⟩ := List.cons.inj h
  obtain ⟨hhold, h⟩ := List.cons.inj h
  obtain ⟨hunknown, -⟩ := List.cons.inj h
  have hclass : a.objectClass = b.objectClass := by
    revert hclass
    cases a.objectClass <;> cases b.objectClass <;> decide
  exact V3OrphanCandidate.ext hclass hobject hversion hlen hmodified hsequence (flagByte_inj hsame) hretention huntil
    (flagByte_inj hblocked) (flagByte_inj hhold) (flagByte_inj hunknown)

/-- A target without the mark that the digest leaves out. -/
def unmarked (target : V3RetentionTarget) : V3RetentionTarget := { target with currentRecoveryDependency := false }

theorem encodePlanRenewal_inj (ha : TargetFits a) (hb : TargetFits b)
    (h : encodePlanRenewal a = encodePlanRenewal b) : unmarked a = unmarked b := by
  obtain ⟨hobject, h⟩ := delimited_objectId ha.objectId hb.objectId h
  obtain ⟨hversion, h⟩ := delimited_version ha.versionId hb.versionId h
  obtain ⟨hlen, h⟩ := delimited_toBe 8 ha.storedLen hb.storedLen h
  obtain ⟨hretention, h⟩ := delimited_retention ha.requiredRetention hb.requiredRetention h
  obtain ⟨hhold, h⟩ := List.cons.inj h
  have hdeadline := Delimited.eq delimited_optionI64 ha.requiredDeadline hb.requiredDeadline h
  cases a
  cases b
  simp only [unmarked, V3RetentionTarget.mk.injEq]
  exact ⟨hobject, hversion, hlen, hretention, legalHoldByte_inj hhold, hdeadline, trivial⟩

variable {xs ys : List Bytes}

theorem perm_of_sortedEntries (hx : EntriesFit xs) (hy : EntriesFit ys)
    (h : sortedEntries xs ++ rest = sortedEntries ys ++ rest') : xs.Perm ys ∧ rest = rest' := by
  simp only [sortedEntries, append_assoc] at h
  obtain ⟨hcount, h⟩ := delimited_toBe 8 hx.count hy.count h
  have hsorted (zs : List Bytes) (hz : EntriesFit zs) : ∀ entry ∈ sortOn id zs, entry.length < 256 ^ 8 :=
    fun entry hentry => hz.entry entry (mem_sortOn.mp hentry)
  obtain ⟨hentries, hrest⟩ := flatMap (delimited_lengthFramed 8)
    (by rw [length_sortOn, length_sortOn, hcount]) (hsorted xs hx) (hsorted ys hy) h
  exact ⟨perm_of_sortOn_eq hentries, hrest⟩

theorem sortedEntries_eq_of_perm (h : xs.Perm ys) : sortedEntries xs = sortedEntries ys := by
  rw [sortedEntries, sortedEntries, h.length_eq, sortOn_id_eq_of_perm h]

/-! ## Digests -/

/-- The same options, whatever the order of the protected roots. -/
structure SameOptions (a b : V3FullGcApplyOptions) : Prop where
  budgets : a.dryRun.budgets = b.dryRun.budgets
  horizon : a.dryRun.retentionRenewalHorizon = b.dryRun.retentionRenewalHorizon
  protectedRoots : a.dryRun.protectedRoots.Perm b.dryRun.protectedRoots
  orphanGc : a.orphanGc = b.orphanGc
  conformance : a.retainedProviderConformancePassed = b.retainedProviderConformancePassed
  reclamation : a.reclamationEnabled = b.reclamationEnabled

/-- The same plan, whatever the order of its lists; `view` is what is compared of a renewal target. -/
structure SamePlan {α : Type} (view : V3RetentionTarget → α) (a b : V3FullGcPlan) : Prop where
  baseAnchor : a.baseAnchor = b.baseAnchor
  expireBefore : a.recoveryExpireBeforeMs = b.recoveryExpireBeforeMs
  floor : a.verifiedCurrentRecoveryFloorMs = b.verifiedCurrentRecoveryFloorMs
  candidates : a.candidates.Perm b.candidates
  targets : (a.targets.map view).Perm (b.targets.map view)

section

variable {plan plan' : V3FullGcPlan} {options options' : V3FullGcApplyOptions}

theorem sameOptions_of_encode (hfits : PlanFits plan options) (hfits' : PlanFits plan' options')
    (h : encodePlanOptions options = encodePlanOptions options') : SameOptions options options' := by
  obtain ⟨hbudgets, h⟩ := delimited_budgets hfits.budgets hfits'.budgets h
  obtain ⟨hhorizon, h⟩ := delimited_duration hfits.horizon hfits'.horizon h
  obtain ⟨hroots, h⟩ := perm_of_sortedEntries hfits.rootEntries hfits'.rootEntries h
  obtain ⟨hage, h⟩ := delimited_duration hfits.minAge hfits'.minAge h
  obtain ⟨hsame, h⟩ := List.cons.inj h
  obtain ⟨hpassed, h⟩ := List.cons.inj h
  obtain ⟨henabled, -⟩ := List.cons.inj h
  have hgc : options.orphanGc = options'.orphanGc := V3OrphanGcOptions.ext hage (flagByte_inj hsame)
  have hanchors : ∀ a ∈ options.dryRun.protectedRoots, ∀ b ∈ options'.dryRun.protectedRoots,
      encodePlanAnchor a = encodePlanAnchor b → a = b := by
    intro a ha b hb heq
    exact Delimited.eq delimited_anchor (hfits.roots a ha) (hfits'.roots b hb) heq
  exact ⟨hbudgets, hhorizon, perm_of_map_perm hanchors hroots, hgc, flagByte_inj hpassed, flagByte_inj henabled⟩

theorem base_of_encode (hfits : PlanFits plan options) (hfits' : PlanFits plan' options')
    (h : encodePlanBase plan = encodePlanBase plan') :
    plan.baseAnchor = plan'.baseAnchor ∧ plan.recoveryExpireBeforeMs = plan'.recoveryExpireBeforeMs ∧
      plan.verifiedCurrentRecoveryFloorMs = plan'.verifiedCurrentRecoveryFloorMs := by
  have hframed : Delimited (fun anchor => AnchorFits anchor ∧ (encodePlanAnchor anchor).length < 256 ^ 8)
      fun anchor => lengthFramed 8 (encodePlanAnchor anchor) := by
    intro a b rest rest' ha hb h
    obtain ⟨hbytes, hrest⟩ := delimited_lengthFramed 8 ha.2 hb.2 h
    exact ⟨Delimited.eq delimited_anchor ha.1 hb.1 hbytes, hrest⟩
  obtain ⟨hanchor, h⟩ := option hframed hfits.baseAnchor hfits'.baseAnchor h
  obtain ⟨hexpire, h⟩ := delimited_optionI64 hfits.expireBefore hfits'.expireBefore h
  exact ⟨hanchor, hexpire, Delimited.eq delimited_optionI64 hfits.floor hfits'.floor h⟩

theorem entries_of_group (hx : EntriesFit xs) (hy : EntriesFit ys)
    (h : encodePlanGroup tag xs = encodePlanGroup tag ys) : xs.Perm ys :=
  (perm_of_sortedEntries hx hy (congrArg (· ++ []) (append_cancel_left h))).1

/-- The preimage determines the options and the plan, up to order and to the mark of a target. -/
theorem same_of_planPreimage (hfits : PlanFits plan options) (hfits' : PlanFits plan' options')
    (h : planPreimage plan options = planPreimage plan' options') :
    SameOptions options options' ∧ SamePlan unmarked plan plan' := by
  have hbody := congrArg (· ++ []) (append_cancel_left (append_cancel_left h))
  have hcount : (planFields plan options).length = (planFields plan' options').length := rfl
  obtain ⟨hfields, -⟩ := flatMap (delimited_lengthFramed 8) hcount hfits.fields hfits'.fields hbody
  simp only [planFields, List.cons.injEq, and_true] at hfields
  obtain ⟨hoptions, -, hbase, horphans, hrenewals⟩ := hfields
  obtain ⟨hanchor, hexpire, hfloor⟩ := base_of_encode hfits hfits' hbase
  refine ⟨sameOptions_of_encode hfits hfits' hoptions, hanchor, hexpire, hfloor, ?_, ?_⟩
  · refine perm_of_map_perm (fun a ha b hb => ?_) (entries_of_group hfits.candidateEntries hfits'.candidateEntries horphans)
    exact encodePlanOrphan_inj (hfits.candidates a ha) (hfits'.candidates b hb)
  · -- the encoding of a target is one of its unmarked form
    have hunmarked (targets : List V3RetentionTarget) :
        targets.map encodePlanRenewal = (targets.map unmarked).map encodePlanRenewal := by
      rw [map_map]
      rfl
    have hperm := entries_of_group hfits.targetEntries hfits'.targetEntries hrenewals
    rw [hunmarked plan.targets, hunmarked plan'.targets] at hperm
    refine perm_of_map_perm (fun a ha b hb heq => ?_) hperm
    obtain ⟨a', ha', rfl⟩ := mem_map.mp ha
    obtain ⟨b', hb', rfl⟩ := mem_map.mp hb
    exact encodePlanRenewal_inj (hfits.targets a' ha') (hfits'.targets b' hb') heq

theorem planPreimage_eq_of_same (hoptions : SameOptions options options') (hplan : SamePlan id plan plan')
    (hreport : plan.report = plan'.report) : planPreimage plan options = planPreimage plan' options' := by
  have hfields : planFields plan options = planFields plan' options' := by
    have htargets : plan.targets.Perm plan'.targets := by
      have := hplan.targets
      rwa [map_id, map_id] at this
    simp only [planFields, encodePlanOptions, encodePlanBase, encodePlanGroup, hoptions.budgets, hoptions.horizon,
      hoptions.orphanGc, hoptions.conformance, hoptions.reclamation, hplan.baseAnchor, hplan.expireBefore, hplan.floor,
      hreport, sortedEntries_eq_of_perm (hoptions.protectedRoots.map encodePlanAnchor),
      sortedEntries_eq_of_perm (hplan.candidates.map encodePlanOrphan),
      sortedEntries_eq_of_perm (htargets.map encodePlanRenewal)]
  rw [planPreimage, planPreimage, hfields]

end

/-- A plan as `build_full_gc_plan_inner` prepares it: its targets are the renewals planned over the graph of its base
anchor, whose chain includes what that anchor determines. -/
def Prepared (chain : V3AnchorState → List Inclusion) (plan : V3FullGcPlan) : Prop :=
  ∃ walk targets ordered store nowMs heads horizonMs budgets requests headCount renewal,
    loadRenewalTargets (plan.baseAnchor.elim [] chain) walk = .ok targets ∧ List.Perm ordered targets ∧
      planRetentionRenewal store nowMs heads ordered horizonMs budgets requests headCount = .ok renewal ∧
      plan.targets = renewal.targets

/-- The marks of a prepared plan are those of the versions that the chain of its base anchor includes. -/
theorem Prepared.marks {chain : V3AnchorState → List Inclusion} {plan : V3FullGcPlan} (h : Prepared chain plan) :
    ∃ collected, includeTargets [] (plan.baseAnchor.elim [] chain) = .ok collected ∧
      ∀ target ∈ plan.targets,
        target.currentRecoveryDependency = true ↔ target.key ∈ collected.map V3RetentionTarget.key := by
  obtain ⟨walk, targets, ordered, store, nowMs, heads, horizonMs, budgets, requests, headCount, renewal, hload, hordered,
    hplan, htargets⟩ := h
  obtain ⟨collected, hcollected, hmarked⟩ := loadRenewalTargets_marked hload
  refine ⟨collected, hcollected, fun target htarget => ?_⟩
  rw [htargets] at htarget
  obtain ⟨original, horiginal, hkey, hmark⟩ := planRetentionRenewal_marks hplan target htarget
  rw [hkey, hmark]
  exact hmarked.marks original (hordered.mem_iff.mp horiginal)

/-- Prepared plans with one base anchor that agree but for the marks agree in the marks too. -/
theorem SamePlan.of_unmarked {chain : V3AnchorState → List Inclusion} {plan plan' : V3FullGcPlan}
    (hprepared : Prepared chain plan) (hprepared' : Prepared chain plan') (h : SamePlan unmarked plan plan') :
    SamePlan id plan plan' := by
  refine ⟨h.baseAnchor, h.expireBefore, h.floor, h.candidates, ?_⟩
  obtain ⟨collected, hcollected, hmarks⟩ := hprepared.marks
  obtain ⟨collected', hcollected', hmarks'⟩ := hprepared'.marks
  rw [← h.baseAnchor, hcollected] at hcollected'
  cases hcollected'
  rw [map_id, map_id]
  refine perm_of_map_perm (fun a ha b hb hsame => ?_) h.targets
  have hkey : (unmarked a).key = (unmarked b).key := congrArg V3RetentionTarget.key hsame
  have hmark : a.currentRecoveryDependency = b.currentRecoveryDependency := by
    rw [Bool.eq_iff_iff, hmarks a ha, hmarks' b hb, show a.key = b.key from hkey]
  cases a
  cases b
  simp only [unmarked, V3RetentionTarget.mk.injEq] at hsame hmark ⊢
  exact ⟨hsame.1, hsame.2.1, hsame.2.2.1, hsame.2.2.2.1, hsame.2.2.2.2.1, hsame.2.2.2.2.2.1, hmark⟩

/-- **The digest binds the plan.**  When the hash has no collision on the two preimages, equal digests of prepared plans
mean the same options, base anchor and cutoffs, the same deletion candidates with all their facts and the same renewal
targets; and the order of candidates, targets and protected roots does not matter. -/
theorem plan_digest_binds (sha256 : Bytes → Digest) (chain : V3AnchorState → List Inclusion) (plan plan' : V3FullGcPlan)
    (options options' : V3FullGcApplyOptions) (hprepared : Prepared chain plan) (hprepared' : Prepared chain plan')
    (hfits : PlanFits plan options) (hfits' : PlanFits plan' options')
    (hcollision : sha256 (planPreimage plan options) = sha256 (planPreimage plan' options') →
      planPreimage plan options = planPreimage plan' options') :
    (fullGcPlanDigest sha256 plan options = fullGcPlanDigest sha256 plan' options' →
      SameOptions options options' ∧ SamePlan id plan plan') ∧
    (SameOptions options options' → SamePlan id plan plan' → plan.report = plan'.report →
      fullGcPlanDigest sha256 plan options = fullGcPlanDigest sha256 plan' options') := by
  constructor
  · intro hdigest
    have hbytes := congrArg Text.hexDecode hdigest
    simp only [fullGcPlanDigest, Text.hexDecode_hexEncode, Option.some.injEq] at hbytes
    obtain ⟨hoptions, hsame⟩ := same_of_planPreimage hfits hfits' (hcollision (Vector.toList_inj.mp hbytes))
    exact ⟨hoptions, .of_unmarked hprepared hprepared' hsame⟩
  · intro hoptions hplan hreport
    rw [fullGcPlanDigest, fullGcPlanDigest, planPreimage_eq_of_same hoptions hplan hreport]

/-! ### A small plan -/

/-- Options without limits or protected roots. -/
def smallOptions : V3FullGcApplyOptions :=
  ⟨⟨⟨⟨none, none, none⟩, none, none, none, none, 1, 1, 1, 1, none⟩, 0, []⟩, ⟨0, false⟩, true, true⟩

def smallCandidate (contentLen : ℕ) : V3OrphanCandidate :=
  ⟨.object, ⟨"plan/candidate", by decide⟩, none, contentLen, none, none, false, none, none, false, false, false⟩

def currentObject : BackendObjectId := ⟨"plan/current", by decide⟩

def historicObject : BackendObjectId := ⟨"plan/historic", by decide⟩

def smallAnchor : V3AnchorState :=
  ⟨1, currentObject, Vector.replicate 32 0, none, ⟨"plan-signing", by decide⟩, ⟨1, "", currentObject, none⟩⟩

/-- The chain of every anchor has one object. -/
def smallChain (_ : V3AnchorState) : List Inclusion := [.target (currentObject, none) 7 none none none]

/-- The history has another one, and needs the first as well. -/
def smallWalk : RenewalWalk where
  protectedRoots := []
  history := [.target (historicObject, none) 7 none none (some 2000), .target (currentObject, none) 7 none none (some 2000)]
  protectedVersions := []
  representedRetention := none
  currentFloor := none
  restoreRoots := []

def smallStore : RetentionStore where
  profile := .dev
  retentionPolicy := some ⟨.governance, 1⟩
  formatRef := ⟨1, "", currentObject, none⟩
  keyringRoot := none
  keyringRootMatches := .ok ()
  contentKeyEnabled _ := true

/-- Objects of seven bytes without a retention. -/
def smallHeads : RenewalHeads where
  head _ objectId := .ok ⟨objectId, 7, none, none, none, none⟩
  headAt _ objectId versionId := .ok ⟨objectId, 7, versionId, none, none, none⟩

def smallTarget (objectId : BackendObjectId) (marked : Bool) : V3RetentionTarget :=
  ⟨objectId, none, 7, some ⟨.governance, 1⟩, none, some 2000, marked⟩

def smallTargets (swapped : Bool) : List V3RetentionTarget :=
  if swapped then [smallTarget historicObject false, smallTarget currentObject true]
  else [smallTarget currentObject true, smallTarget historicObject false]

/-- A plan with two candidates and two targets, in either order. -/
def smallPlan (swapped : Bool) : V3FullGcPlan where
  report := ⟨some 1, 1, 0, 0, 2, 2, 0, 3, 0, 0, 0, 0, 0, 2, 14, 0, 0, ⟨0, 0, 0, 0, 0, 2, 1, 0, 2⟩, true, true⟩
  baseAnchor := some smallAnchor
  recoveryExpireBeforeMs := none
  verifiedCurrentRecoveryFloorMs := none
  targets := smallTargets swapped
  candidates := if swapped then [smallCandidate 2, smallCandidate 1] else [smallCandidate 1, smallCandidate 2]

/-- The targets that the graph of the anchor has, in either order. -/
def loadedTargets (swapped : Bool) : List V3RetentionTarget :=
  let current : V3RetentionTarget := ⟨currentObject, none, 7, none, none, some 2000, true⟩
  let historic : V3RetentionTarget := ⟨historicObject, none, 7, none, none, some 2000, false⟩
  if swapped then [historic, current] else [current, historic]

theorem smallPlan_prepared (swapped : Bool) : Prepared smallChain (smallPlan swapped) := by
  have hload : loadRenewalTargets (smallChain smallAnchor) smallWalk = .ok (loadedTargets false) := by rfl
  have hordered : (loadedTargets swapped).Perm (loadedTargets false) := by
    cases swapped with
    | false => exact List.Perm.refl _
    | true => exact List.Perm.swap _ _ _
  have hrenewal : ((planRetentionRenewal smallStore 1000 smallHeads (loadedTargets swapped) 0 ⟨none, none, none⟩ 0
      0).toOption.map V3RetentionRenewalPlan.targets) = some (smallTargets swapped) := by
    cases swapped <;> decide +kernel
  cases hplan : planRetentionRenewal smallStore 1000 smallHeads (loadedTargets swapped) 0 ⟨none, none, none⟩ 0 0 with
  | error e =>
    rw [hplan] at hrenewal
    cases hrenewal
  | ok renewal =>
    rw [hplan] at hrenewal
    exact ⟨smallWalk, _, _, smallStore, 1000, smallHeads, 0, _, 0, 0, renewal, hload, hordered, hplan,
      (Option.some.inj hrenewal).symm⟩

theorem smallCandidate_fits (h : contentLen < 256 ^ 8) : CandidateFits (smallCandidate contentLen) where
  objectId := show "plan/candidate".utf8ByteSize < 256 ^ 8 by decide +kernel
  versionId := by simp [VersionFits, smallCandidate]
  contentLen := h
  modifiedAtMs := by simp [IsI64, smallCandidate]
  retention := by simp [RetentionFits, smallCandidate]
  retainUntilMs := by simp [IsI64, smallCandidate]

theorem smallTarget_fits (hobject : TextFits objectId.asStr) : TargetFits (smallTarget objectId marked) where
  objectId := hobject
  versionId := by simp [VersionFits, smallTarget]
  storedLen := show 7 < 256 ^ 8 by decide
  requiredRetention := by simp [RetentionFits, smallTarget]
  requiredDeadline := by simp [IsI64, smallTarget]

theorem smallAnchor_fits : AnchorFits smallAnchor where
  commitKey := show "plan/current".utf8ByteSize < 256 ^ 8 by decide +kernel
  versionId := by simp [VersionFits, smallAnchor]
  signingKeyId := show "plan-signing".utf8ByteSize < 256 ^ 8 by decide +kernel
  digest := show "".utf8ByteSize < 256 ^ 8 by decide +kernel
  objectId := show "plan/current".utf8ByteSize < 256 ^ 8 by decide +kernel
  formatVersion := by simp [VersionFits, smallAnchor]

theorem smallPlan_fits (swapped : Bool) : PlanFits (smallPlan swapped) smallOptions where
  budgets := by constructor <;> simp [OptionFits, smallOptions]
  horizon := by simp [DurationFits, smallOptions]
  minAge := by simp [DurationFits, smallOptions]
  roots := by simp [smallOptions]
  rootEntries := ⟨by simp [smallOptions], by simp [smallOptions]⟩
  baseAnchor := by
    rintro anchor ⟨⟩
    exact ⟨smallAnchor_fits, by decide +kernel⟩
  expireBefore := by simp [IsI64, smallPlan]
  floor := by simp [IsI64, smallPlan]
  candidates := by
    have hboth : ∀ candidate ∈ [smallCandidate 1, smallCandidate 2], CandidateFits candidate :=
      forall_mem_cons.mpr ⟨smallCandidate_fits (by decide), forall_mem_singleton.mpr (smallCandidate_fits (by decide))⟩
    intro candidate hmem
    cases swapped with
    | false => exact hboth candidate hmem
    | true => exact hboth candidate (mem_reverse.mp hmem)
  candidateEntries := by
    cases swapped <;> exact ⟨by decide +kernel, by decide +kernel⟩
  targets := by
    have hcurrent : TargetFits (smallTarget currentObject true) :=
      smallTarget_fits (show "plan/current".utf8ByteSize < 256 ^ 8 by decide +kernel)
    have hhistoric : TargetFits (smallTarget historicObject false) :=
      smallTarget_fits (show "plan/historic".utf8ByteSize < 256 ^ 8 by decide +kernel)
    have hboth : ∀ target ∈ smallTargets false, TargetFits target :=
      forall_mem_cons.mpr ⟨hcurrent, forall_mem_singleton.mpr hhistoric⟩
    intro target hmem
    cases swapped with
    | false => exact hboth target hmem
    | true => exact hboth target (mem_reverse.mp hmem)
  targetEntries := by
    cases swapped <;> exact ⟨by decide +kernel, by decide +kernel⟩
  fields := by
    cases swapped <;> decide +kernel

/-- The sum of the bytes, in the place of the hash. -/
def planSum (preimage : Bytes) : Digest := Vector.replicate 32 (preimage.foldl UInt8.add 0)

/-- Candidates and targets in the other order give the same digest, and the digest gives the plan back. -/
theorem plan_digest_binds_swapped :
    fullGcPlanDigest planSum (smallPlan false) smallOptions = fullGcPlanDigest planSum (smallPlan true) smallOptions ∧
      SamePlan id (smallPlan false) (smallPlan true) := by
  have hoptions : SameOptions smallOptions smallOptions := ⟨rfl, rfl, List.Perm.refl _, rfl, rfl, rfl⟩
  have hplan : SamePlan id (smallPlan false) (smallPlan true) :=
    ⟨rfl, rfl, rfl, List.Perm.swap _ _ _, List.Perm.swap _ _ _⟩
  obtain ⟨hbinds, hignores⟩ := plan_digest_binds planSum smallChain _ _ _ _ (smallPlan_prepared false)
    (smallPlan_prepared true) (smallPlan_fits false) (smallPlan_fits true)
    fun _ => planPreimage_eq_of_same hoptions hplan rfl
  have hdigest := hignores hoptions hplan rfl
  exact ⟨hdigest, (hbinds hdigest).2⟩

end Rs3.Maintenance
