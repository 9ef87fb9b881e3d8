/-
# Rs3.Maintenance.RenewalStrength — a renewal never weakens retention.

Every target that is planned or executed requires at least what was observed and what was asked for; the days that the
provider is asked for reach the deadline, whenever the request is made; and what is verified afterwards lies at or beyond
both deadlines.
-/
import Rs3.Maintenance.Renewal

namespace Rs3.Maintenance

open List Option

open Storage Recovery
open Rs3.Index (RetentionPolicy NamespaceEntry activeRetention retentionModeStrength strongestRetentionPolicy)

/-- A target that keeps what was observed and covers what is asked for: its deadline is not before the observed and the
required one, its policy covers every active one, and an observed legal hold is required again. -/
structure Strengthens (observed : BlobMetadata) (requirements : List (Option RetentionPolicy)) (requiredUntilMs : Option ℤ)
    (target : V3RetentionTarget) : Prop where
  deadline : ∃ deadline, target.requiredDeadline = some deadline ∧ (∀ required ∈ requiredUntilMs, required ≤ deadline) ∧
    ∀ retainUntil ∈ observed.retainUntilMs, retainUntil ≤ deadline
  policy : ∃ policy, target.requiredRetention = some policy ∧
    (∀ requirement ∈ requirements, ∀ active ∈ activeRetention requirement, Covers policy active) ∧
    ∀ active ∈ activeRetention observed.retention, Covers policy active
  hold : observed.legalHold = some .on → target.requiredLegalHold = some .on

/-! ## Policies -/

theorem activeRetention_idem : activeRetention (activeRetention policy) = activeRetention policy := by
  cases h : activeRetention policy with
  | none => rfl
  | some active =>
    have hactive := (mem_activeRetention.mp h).2
    unfold RetentionIsActive at hactive
    simp [activeRetention, Option.filter, hactive]

variable {policy : RetentionPolicy} {target : CopyTarget} {observed : BlobMetadata}

theorem active_strongest_covers (h : activeRetention (strongestRetentionPolicy left right) = some policy) :
    RetentionIsActive policy ∧ (∀ active ∈ activeRetention left, Covers policy active) ∧
      ∀ active ∈ activeRetention right, Covers policy active :=
  strongest_covers (mem_activeRetention.mp h).1

theorem mem_activeRetention_some (h : RetentionIsActive policy) : policy ∈ activeRetention (some policy) :=
  mem_activeRetention.mpr ⟨rfl, h⟩

/-! ## Days -/

theorem le_ceilDays_mul (remainingMs : ℤ) : remainingMs ≤ ceilDays remainingMs * dayMs := by
  unfold ceilDays dayMs
  split <;> omega

variable {nowMs deadline date requiredUntilMs : ℤ} {store : RetentionStore} {renewal : V3RetentionTarget}

/-- The days asked for reach the deadline from every later time. -/
theorem physicalRetentionForDeadline_reaches
    (h : physicalRetentionForDeadline retention (some required) nowMs = .ok physical) :
    ∃ policy ∈ activeRetention retention, ∃ extended, physical = some extended ∧ Covers extended policy ∧
      ∀ later, nowMs ≤ later → required ≤ later + extended.retainDays * dayMs := by
  simp only [physicalRetentionForDeadline, ok_iff] at h
  obtain ⟨policy, hpolicy, -, -, rfl⟩ := h
  refine ⟨policy, hpolicy, _, rfl, ⟨Nat.le_refl _, Nat.le_max_left _ _⟩, fun later hlater => ?_⟩
  have hreach := le_ceilDays_mul (max (required - nowMs) 0)
  have hdays : ceilDays (max (required - nowMs) 0) ≤
      ((max policy.retainDays (ceilDays (max (required - nowMs) 0)).toNat : ℕ) : ℤ) := by omega
  unfold dayMs at hreach ⊢
  dsimp only
  omega

/-- The rounded deadline is the first day boundary that is not before the deadline. -/
theorem ceilPhysicalDeadlineMs_eq_ok : ceilPhysicalDeadlineMs required = .ok rounded ↔
    (0 ≤ required ∧ fitsI64 rounded) ∧ rounded % dayMs = 0 ∧ required ≤ rounded ∧ rounded < required + dayMs := by
  simp only [ceilPhysicalDeadlineMs, ok_iff]
  unfold dayMs
  constructor
  · rintro ⟨hpos, hfits, rfl⟩
    exact ⟨⟨hpos, hfits⟩, by omega⟩
  · rintro ⟨⟨hpos, hfits⟩, hbounds⟩
    obtain rfl : required + (86400000 - required % 86400000) % 86400000 = rounded := by omega
    exact ⟨hpos, hfits, rfl⟩

theorem ceilDays_mul_lt {days : ℕ} (h : days < ceilDays remainingMs) : days * dayMs < remainingMs := by
  unfold ceilDays at h
  unfold dayMs at h ⊢
  split at h <;> omega

/-- **Rounding** never shortens a deadline, and the days asked for are the fewest that keep the policy and the deadline. -/
theorem deadline_rounding_minimal :
    (∀ required rounded, ceilPhysicalDeadlineMs required = .ok rounded →
      required ≤ rounded ∧ ceilPhysicalDeadlineMs rounded = .ok rounded ∧
      (∀ later rounded', required ≤ later → ceilPhysicalDeadlineMs later = .ok rounded' → rounded ≤ rounded') ∧
      fitsI64 (dayMs - required % dayMs) ∧ fitsI64 rounded) ∧
    ∀ retention required nowMs physical, physicalRetentionForDeadline retention (some required) nowMs = .ok physical →
      ∃ policy ∈ activeRetention retention, ∃ extended, physical = some extended ∧ Covers extended policy ∧
        required ≤ nowMs + extended.retainDays * dayMs ∧
        (∀ days < extended.retainDays, days < policy.retainDays ∨ nowMs + days * dayMs < required) ∧
        (policy.retainDays < 2 ^ 32 → extended.retainDays < 2 ^ 32) ∧
        (fitsI64 required → fitsI64 nowMs → fitsI64 (required - nowMs) ∧
          fitsI64 (ceilDays (max (required - nowMs) 0))) := by
  refine ⟨fun required rounded h => ?_, fun retention required nowMs physical h => ?_⟩
  · obtain ⟨⟨hpos, hfits⟩, hboundary, hle, hlt⟩ := ceilPhysicalDeadlineMs_eq_ok.mp h
    refine ⟨hle, ceilPhysicalDeadlineMs_eq_ok.mpr ⟨⟨hpos.trans hle, hfits⟩, hboundary, le_rfl, by unfold dayMs; omega⟩,
      fun later rounded' hlater h' => ?_, by unfold fitsI64 dayMs; omega, hfits⟩
    obtain ⟨-, hboundary', hle', -⟩ := ceilPhysicalDeadlineMs_eq_ok.mp h'
    unfold dayMs at *
    omega
  · obtain ⟨policy, hpolicy, extended, rfl, hcovers, hreach⟩ := physicalRetentionForDeadline_reaches h
    simp only [physicalRetentionForDeadline, ok_iff, some.injEq] at h
    obtain ⟨policy', hpolicy', ⟨hrequired, hnow⟩, hdays, rfl⟩ := h
    obtain rfl := some.inj (hpolicy'.symm.trans hpolicy)
    refine ⟨_, hpolicy, _, rfl, hcovers, hreach nowMs le_rfl, fun days hless => ?_, fun hmax => ?_, fun _ _ => ⟨?_, ?_⟩⟩
    · rcases lt_max_iff.mp hless with hshort | hshort
      · exact .inl hshort
      · have := ceilDays_mul_lt (Int.lt_toNat.mp hshort)
        unfold dayMs at *
        omega
    · exact max_lt hmax (by omega)
    · unfold fitsI64 at *
      omega
    · have := le_ceilDays_mul (max (required - nowMs) 0)
      unfold fitsI64 dayMs at *
      omega

/-! ## One extension -/

section Extension

variable {store : RetentionStore} {answers : ExtendAnswers} {baseAnchor : Option V3AnchorState}
  {target : V3RetentionTarget}

/-- What the provider is asked for covers the target's policy and reaches its deadline. -/
theorem extensionRequest_reaches (h : extensionRequest store answers baseAnchor target = .ok (deadline, policy)) :
    (∀ required ∈ target.requiredDeadline, deadline = required) ∧
      (∀ requested ∈ target.requiredRetention, Covers policy requested) ∧
      ∀ later, answers.nowMs ≤ later → answers.translatedAtMs ≤ later →
        deadline ≤ later + policy.retainDays * dayMs := by
  simp only [extensionRequest, ok_iff, Prod.mk.injEq] at h
  obtain ⟨_, -, _, -, -, -, requested, hrequested, deadline, hdeadline, _, hphysical, policy, rfl, rfl, rfl⟩ := h
  have hcovers : ∀ {covering : RetentionPolicy}, Covers covering requested →
      ∀ other ∈ target.requiredRetention, Covers covering other := by
    intro covering hcovering other hother
    obtain rfl := some.inj (hrequested.symm.trans hother)
    exact hcovering
  cases hrequired : target.requiredDeadline with
  | none =>
    rw [absoluteDeadline, hrequired] at hdeadline
    rw [hrequired] at hphysical
    cases hphysical
    simp only [requiredRetainUntilMs, ok_iff] at hdeadline
    obtain ⟨-, -, rfl⟩ := hdeadline
    refine ⟨fun required hnone => ?_, hcovers (Covers.refl _), fun later hlater _ => ?_⟩
    · cases hnone
    · unfold dayMs
      omega
  | some required =>
    rw [absoluteDeadline, hrequired] at hdeadline
    rw [hrequired] at hphysical
    simp only [ok_iff] at hdeadline
    obtain ⟨-, rfl⟩ := hdeadline
    obtain ⟨active, hactive, extended, hextended, hcovering, hreach⟩ := physicalRetentionForDeadline_reaches hphysical
    obtain rfl := some.inj hextended
    obtain rfl := some.inj (mem_activeRetention.mp hactive).1
    refine ⟨fun other hother => ?_, hcovers hcovering, fun later _ hlater => hreach later hlater⟩
    exact some.inj hother

theorem extendAndVerifyRetentionTarget_le
    (h : extendAndVerifyRetentionTarget store answers baseAnchor target = .ok verified) :
    ∀ required ∈ target.requiredDeadline, required ≤ verified := by
  simp only [extendAndVerifyRetentionTarget, ok_iff] at h
  obtain ⟨⟨deadline, policy⟩, hrequest, _, -, exact, -, hverified, hdate⟩ := h
  intro required hrequired
  obtain ⟨actual, hactual, hle⟩ := hverified.deadline_matches
  obtain rfl := some.inj (hdate.symm.trans hactual)
  rwa [(extensionRequest_reaches hrequest).1 required hrequired] at hle

theorem Strengthens.verified {observed : BlobMetadata} {requirements : List (Option RetentionPolicy)}
    {requiredUntilMs : Option ℤ} (htarget : Strengthens observed requirements requiredUntilMs target) {verified : ℤ}
    (h : extendAndVerifyRetentionTarget store answers baseAnchor target = .ok verified) :
    (∀ required ∈ requiredUntilMs, required ≤ verified) ∧
      ∀ retainUntil ∈ observed.retainUntilMs, retainUntil ≤ verified := by
  obtain ⟨deadline, hdeadline, hrequired, hobserved⟩ := htarget.deadline
  have hle := extendAndVerifyRetentionTarget_le h deadline hdeadline
  exact ⟨fun required hmem => (hrequired required hmem).trans hle,
    fun retainUntil hmem => (hobserved retainUntil hmem).trans hle⟩

end Extension

/-! ## Planned renewals -/

section Plan

variable {store : RetentionStore} {nowMs renewBeforeMs : ℤ} {budgets : V3MaintenanceBudgets} {heads : RenewalHeads}

theorem renewalOf_strengthens {target renewal : V3RetentionTarget} {metadata : BlobMetadata}
    (hrequested : activeRetention (strongestRetentionPolicy store.retentionPolicy target.requiredRetention) =
      some requested) (h : renewalOf target metadata requested nowMs renewBeforeMs = .ok (some renewal)) :
    Strengthens metadata [store.retentionPolicy, target.requiredRetention] target.requiredDeadline renewal := by
  obtain ⟨hactive, hstore, htarget⟩ := active_strongest_covers hrequested
  unfold renewalOf at h
  split at h
  · cases h
  · rename_i policy hpolicy
    obtain ⟨-, hcovers, hobserved⟩ := active_strongest_covers hpolicy
    rw [activeRetention_idem] at hobserved
    have hcovered := hcovers requested (mem_activeRetention_some hactive)
    split at h
    · simp only [plannedRenewalRequirements, ok_iff, Option.some.injEq] at h
      obtain ⟨_, ⟨planned, -, rfl⟩, rfl⟩ := h
      refine ⟨⟨_, rfl, ?_, ?_⟩, ⟨policy, rfl, ?_, hobserved⟩, fun hhold => if_pos (Or.inr hhold)⟩
      · intro required hrequired
        rw [show target.requiredDeadline = some required from hrequired]
        dsimp only [Option.getD]
        split <;> omega
      · intro retainUntil hretain
        rw [show metadata.retainUntilMs = some retainUntil from hretain]
        exact le_max_left _ _
      · intro requirement hmem active hactive
        rcases mem_pair.mp hmem with rfl | rfl
        · exact hcovered.trans (hstore active hactive)
        · exact hcovered.trans (htarget active hactive)
    · cases h

/-- A renewal of one of the targets, as it was observed. -/
def PlannedFrom (store : RetentionStore) (heads : RenewalHeads) (entries : List (V3RetentionTarget × ℕ))
    (renewal : V3RetentionTarget) : Prop :=
  ∃ entry ∈ entries, ∃ observed,
    (if store.profile = .retainedVersionObjectLock then heads.headAt entry.2 entry.1.objectId entry.1.versionId
      else heads.head entry.2 entry.1.objectId) = .ok observed ∧
    Strengthens observed [store.retentionPolicy, entry.1.requiredRetention] entry.1.requiredDeadline renewal

theorem planRenewalTarget_targets {state next : PlanState} {target : V3RetentionTarget} {i : ℕ}
    (h : planRenewalTarget store nowMs renewBeforeMs budgets heads state (target, i) = .ok next) :
    ∀ renewal ∈ next.plan.targets, renewal ∈ state.plan.targets ∨ PlannedFrom store heads [(target, i)] renewal := by
  unfold planRenewalTarget at h
  dsimp only at h
  iterate 3
    split at h
    · cases h
      exact fun renewal hmem => .inl hmem
  simp only [ok_iff] at h
  obtain ⟨_, -, _, -, metadata, hmetadata, h⟩ := h
  split at h
  · cases h
    exact fun renewal hmem => .inl hmem
  split at h
  · cases h
    exact fun renewal hmem => .inl hmem
  · rename_i policy hpolicy
    simp only [bind_eq_ok] at h
    obtain ⟨found, hfound, h⟩ := h
    cases found with
    | none =>
      cases h
      exact fun renewal hmem => .inl hmem
    | some planned =>
      cases h
      intro renewal hmem
      rcases mem_append.mp hmem with hold | hnew
      · exact .inl hold
      · obtain rfl := mem_singleton.mp hnew
        exact .inr ⟨_, mem_singleton.mpr rfl, metadata, hmetadata, renewalOf_strengthens hpolicy hfound⟩

theorem foldlM_planRenewalTarget {entries all : List (V3RetentionTarget × ℕ)} (hentries : entries ⊆ all)
    {state next : PlanState} (hstate : ∀ renewal ∈ state.plan.targets, PlannedFrom store heads all renewal)
    (h : entries.foldlM (planRenewalTarget store nowMs renewBeforeMs budgets heads) state = .ok next) :
    ∀ renewal ∈ next.plan.targets, PlannedFrom store heads all renewal := by
  induction entries generalizing state with
  | nil =>
    cases h
    exact hstate
  | cons entry entries ih =>
    rw [foldlM_cons, bind_eq_ok] at h
    obtain ⟨between, hbetween, hrest⟩ := h
    rw [cons_subset] at hentries
    refine ih hentries.2 (fun renewal hmem => ?_) hrest
    rcases planRenewalTarget_targets hbetween renewal hmem with hold | ⟨entry', hentry', hplanned⟩
    · exact hstate renewal hold
    · obtain rfl := mem_singleton.mp hentry'
      exact ⟨_, hentries.1, hplanned⟩

end Plan

theorem planRetentionRenewal_strengthens
    (h : planRetentionRenewal store nowMs heads targets horizonMs budgets requests headCount = .ok plan) :
    ∀ renewal ∈ plan.targets, PlannedFrom store heads targets.zipIdx renewal := by
  simp only [planRetentionRenewal, ok_iff] at h
  obtain ⟨state, hstate, rfl⟩ := h
  exact foldlM_planRenewalTarget (List.Subset.refl _) (fun renewal hmem => absurd hmem not_mem_nil) hstate

/-! ## Copies, genesis and introduced objects -/

/-- A renewal under one requirement that takes the later of two dates. -/
theorem Strengthens.of_max (hdeadline : renewal.requiredDeadline = some (max deadline date))
    (hdate : ∀ retainUntil ∈ observed.retainUntilMs, retainUntil ≤ date)
    (hpolicy : renewal.requiredRetention = some required)
    (hleft : ∀ active ∈ activeRetention requirement, Covers required active)
    (hright : ∀ active ∈ activeRetention observed.retention, Covers required active)
    (hhold : observed.legalHold = some .on → renewal.requiredLegalHold = some .on) :
    Strengthens observed [requirement] (some deadline) renewal := by
  refine ⟨⟨_, hdeadline, fun floor hfloor => ?_, fun retainUntil hretain => ?_⟩,
    ⟨required, hpolicy, forall_mem_singleton.mpr hleft, hright⟩, hhold⟩
  · obtain rfl := some.inj hfloor
    exact le_max_left _ _
  · exact (hdate retainUntil hretain).trans (le_max_right _ _)

theorem copyRenewal_strengthens {renewal : Option V3RetentionTarget}
    (h : copyRenewal policy deadline target observed = .ok (date, renewal)) :
    observed.retainUntilMs = some date ∧ (renewal = none → deadline ≤ date) ∧
      ∀ target ∈ renewal, Strengthens observed [some policy] (some deadline) target := by
  simp only [copyRenewal, ok_iff] at h
  obtain ⟨-, observedDate, hdate, observedPolicy, hobserved, required, hrequired, h⟩ := h
  obtain ⟨-, hleft, hright⟩ := strongest_covers hrequired
  split at h
  · rename_i hprotected
    cases h
    refine ⟨hdate, fun _ => hprotected.1, fun target hnone => ?_⟩
    cases hnone
  · cases h
    refine ⟨hdate, fun hsome => ?_, fun target htarget => ?_⟩
    · cases hsome
    obtain rfl := some.inj htarget
    refine .of_max rfl (fun retainUntil hretain => ?_) rfl hleft (fun active hactive => ?_) id
    · obtain rfl := some.inj (hdate.symm.trans hretain)
      exact le_refl _
    · obtain rfl := some.inj (hobserved.symm.trans hactive)
      exact hright _ (mem_activeRetention_some (mem_activeRetention.mp hactive).2)

theorem genesisRenewal_strengthens (h : genesisRenewal policy requiredUntilMs target observed = .ok (some renewal)) :
    Strengthens observed [some policy] (some requiredUntilMs) renewal := by
  simp only [genesisRenewal, ok_iff] at h
  obtain ⟨-, required, hrequired, h⟩ := h
  obtain ⟨-, hleft, hright⟩ := strongest_covers hrequired
  split at h
  · cases h
  · cases h
    refine .of_max rfl (fun retainUntil hretain => ?_) rfl hleft hright id
    rw [show observed.retainUntilMs = some retainUntil from hretain]
    exact le_refl _

theorem introducedRenewal_strengthens {target : V3RetentionTarget}
    (h : introducedRenewal requiredUntilMs target observed = .ok (renewal, floor, kept)) :
    observed.retainUntilMs = some floor ∧ (kept = true → requiredUntilMs ≤ floor) ∧
      Strengthens observed [target.requiredRetention] (some requiredUntilMs) renewal := by
  simp only [introducedRenewal, ok_iff, Prod.mk.injEq] at h
  obtain ⟨-, policy, hpolicy, observedFloor, hfloor, rfl, rfl, rfl⟩ := h
  obtain ⟨-, hleft, hright⟩ := active_strongest_covers hpolicy
  refine ⟨hfloor, fun hkept => (of_decide_eq_true hkept).1,
    .of_max rfl (fun retainUntil hretain => ?_) rfl hleft hright fun hhold => ?_⟩
  · obtain rfl := some.inj (hfloor.symm.trans hretain)
    exact le_refl _
  · dsimp only
    rw [if_pos hhold, hhold]

theorem protectCopyTarget_le (h : protectCopyTarget store baseAnchor policy deadline answers target = .ok verified) :
    ∃ observed, answers.headAt = .ok observed ∧ deadline ≤ verified ∧
      ∀ retainUntil ∈ observed.retainUntilMs, retainUntil ≤ verified := by
  simp only [protectCopyTarget, ok_iff] at h
  obtain ⟨_, -, observed, hobserved, ⟨date, renewal⟩, hrenewal, h⟩ := h
  obtain ⟨hdate, hkept, hstrengthens⟩ := copyRenewal_strengthens hrenewal
  refine ⟨observed, hobserved, ?_⟩
  cases renewal with
  | none =>
    cases h
    refine ⟨hkept rfl, fun retainUntil hretain => ?_⟩
    obtain rfl := some.inj (hdate.symm.trans hretain)
    exact le_refl _
  | some renewal =>
    obtain ⟨hrequired, hretained⟩ := (hstrengthens renewal rfl).verified h
    exact ⟨hrequired deadline rfl, hretained⟩

/-- **Retention is never weakened**, as far as what was observed is still active.  Every renewal that is planned, and every
target that the copy, genesis and publication paths build, requires at least the observed date, covers the observed and
the requested policies that are active, and keeps an observed hold.  The days the provider is asked for, at that time
or later, reach the required deadline.  What an extension or the protection of a copy source has verified is at or
beyond both the observed and the required deadline. -/
theorem retention_never_weakened (store : RetentionStore) :
    (∀ nowMs heads targets horizonMs budgets requests headCount plan,
      planRetentionRenewal store nowMs heads targets horizonMs budgets requests headCount = .ok plan →
        ∀ renewal ∈ plan.targets, PlannedFrom store heads targets.zipIdx renewal) ∧
      (∀ policy deadline target observed date renewal,
        copyRenewal policy deadline target observed = .ok (date, some renewal) →
          Strengthens observed [some policy] (some deadline) renewal) ∧
      (∀ policy requiredUntilMs target observed renewal,
        genesisRenewal policy requiredUntilMs target observed = .ok (some renewal) →
          Strengthens observed [some policy] (some requiredUntilMs) renewal) ∧
      (∀ requiredUntilMs target observed renewal floor kept,
        introducedRenewal requiredUntilMs target observed = .ok (renewal, floor, kept) →
          Strengthens observed [target.requiredRetention] (some requiredUntilMs) renewal) ∧
      (∀ answers baseAnchor target deadline policy,
        extensionRequest store answers baseAnchor target = .ok (deadline, policy) →
          (∀ required ∈ target.requiredDeadline, deadline = required) ∧
          (∀ requested ∈ target.requiredRetention, Covers policy requested) ∧
          ∀ later, answers.nowMs ≤ later → answers.translatedAtMs ≤ later →
            deadline ≤ later + policy.retainDays * dayMs) ∧
      (∀ answers baseAnchor target observed requirements requiredUntilMs verified,
        Strengthens observed requirements requiredUntilMs target →
          extendAndVerifyRetentionTarget store answers baseAnchor target = .ok verified →
            (∀ required ∈ requiredUntilMs, required ≤ verified) ∧
              ∀ retainUntil ∈ observed.retainUntilMs, retainUntil ≤ verified) ∧
      ∀ baseAnchor answers source modifiedAtMs policy deadline targets,
        copyTargets store source modifiedAtMs = .ok (some (policy, deadline, targets)) →
          protectCopySource store baseAnchor answers source modifiedAtMs = .ok () →
            ∀ entry ∈ targets.zipIdx, ∃ observed verified, (answers entry.2).headAt = .ok observed ∧
              protectCopyTarget store baseAnchor policy deadline (answers entry.2) entry.1 = .ok verified ∧
              deadline ≤ verified ∧ ∀ retainUntil ∈ observed.retainUntilMs, retainUntil ≤ verified := by
  refine ⟨fun _ _ _ _ _ _ _ _ h => planRetentionRenewal_strengthens h,
    fun _ _ _ _ _ renewal h => (copyRenewal_strengthens h).2.2 renewal rfl, fun _ _ _ _ _ h => genesisRenewal_strengthens h,
    fun _ _ _ _ _ _ h => (introducedRenewal_strengthens h).2.2, fun _ _ _ _ _ h => extensionRequest_reaches h,
    fun _ _ _ _ _ _ _ htarget h => htarget.verified h, ?_⟩
  intro baseAnchor answers source modifiedAtMs policy deadline targets htargets h entry hentry
  simp only [protectCopySource, htargets, ok_bind, bind_eq_ok, forM_eq_ok] at h
  obtain ⟨_, hall, -⟩ := h
  obtain ⟨verified, hverified, -⟩ := hall entry hentry
  obtain ⟨observed, hobserved, hle, hretained⟩ := protectCopyTarget_le hverified
  exact ⟨observed, verified, hobserved, hverified, hle, hretained⟩

/-! ## A retention that has expired -/

def expiredObject : BlobMetadata where
  objectId := ⟨"commits/expired", by decide⟩
  contentLen := 10
  versionId := some ⟨"version-1", by decide⟩
  retention := some ⟨.compliance, 0⟩
  retainUntilMs := some 5
  legalHold := none

def expiredTarget : V3RetentionTarget where
  objectId := expiredObject.objectId
  versionId := expiredObject.versionId
  storedLen := expiredObject.contentLen
  requiredRetention := none
  requiredLegalHold := none
  requiredDeadline := none
  currentRecoveryDependency := false

def governedStore : RetentionStore where
  profile := .retainedVersionObjectLock
  retentionPolicy := some ⟨.governance, 30⟩
  formatRef := ⟨1, "", expiredObject.objectId, none⟩
  keyringRoot := none
  keyringRootMatches := .ok ()
  contentKeyEnabled _ := true

/-- An observed retention whose date has passed keeps its mode, but the renewal does not take the mode over. -/
theorem expired_mode_dropped :
    (planRetentionRenewal governedStore 1000 ⟨fun _ _ => .ok expiredObject, fun _ _ _ => .ok expiredObject⟩
      [expiredTarget] 0 ⟨none, none, none⟩ 0 0).map (fun plan => plan.targets.map V3RetentionTarget.requiredRetention) =
        .ok [some ⟨.governance, 30⟩] ∧
      expiredObject.retention = some ⟨.compliance, 0⟩ ∧
      retentionModeStrength .governance < retentionModeStrength .compliance := by
  decide

end Rs3.Maintenance
