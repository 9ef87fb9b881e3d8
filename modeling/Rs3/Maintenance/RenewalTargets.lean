/-
# Rs3.Maintenance.RenewalTargets — collecting the object versions whose retention is renewed.

`include_renewal_target`, `include_required_protection`, `mark_current_recovery_dependencies` and
`load_reachability_from_state` of `v3/maintenance.rs`, as far as they build the map of renewal targets; what the walks
over commits, runs and history ask to include is an input.  A target is marked exactly when the chain of the base anchor
has asked for it, whatever the walks include afterwards, and a planned renewal keeps the mark of its target.
-/
import Rs3.Maintenance.Renewal

namespace Rs3.Maintenance

open List

open Storage
open Rs3.Index (RetentionPolicy LegalHoldStatus strongestRetentionPolicy)

/-! ## Targets by version -/

abbrev ExactVersion := BackendObjectId × Option BackendVersionId

def V3RetentionTarget.key (target : V3RetentionTarget) : ExactVersion := (target.objectId, target.versionId)

/-- The later of two deadlines, where none is the earliest. -/
def maxDeadline : Option ℤ → Option ℤ → Option ℤ
  | some a, some b => some (max a b)
  | some a, none => some a
  | none, b => b

/-- What the walks ask for: a target, or protection of a target that is there. -/
inductive Inclusion where
  | target (key : ExactVersion) (storedLen : ℕ) (retention : Option RetentionPolicy)
      (legalHold : Option LegalHoldStatus) (requiredDeadline : Option ℤ)
  | protection (key : ExactVersion) (retention : Option RetentionPolicy) (legalHold : Option LegalHoldStatus)

/-- A further requirement on a target. -/
def V3RetentionTarget.strengthen (target : V3RetentionTarget) (retention : Option RetentionPolicy)
    (legalHold : Option LegalHoldStatus) (requiredDeadline : Option ℤ) : V3RetentionTarget :=
  { target with
    requiredRetention := strongestRetentionPolicy target.requiredRetention retention
    requiredDeadline := maxDeadline target.requiredDeadline requiredDeadline
    requiredLegalHold := if legalHold = some .on then some .on else target.requiredLegalHold }

/-- `get_mut` of the map of targets; the order of the targets plays no role. -/
def atKey (key : ExactVersion) (found : V3RetentionTarget → Except V3FormatError V3RetentionTarget)
    (missing : Except V3FormatError (List V3RetentionTarget)) :
    List V3RetentionTarget → Except V3FormatError (List V3RetentionTarget)
  | [] => missing
  | target :: rest =>
    if target.key = key then do
      let target ← found target
      return target :: rest
    else do
      let rest ← atKey key found missing rest
      return target :: rest

/-- `include_renewal_target` and `include_required_protection`. -/
def includeTarget (targets : List V3RetentionTarget) : Inclusion → Except V3FormatError (List V3RetentionTarget)
  | .target key storedLen retention legalHold requiredDeadline =>
    atKey key
      (fun target => do
        ensure (target.storedLen = storedLen) .providerProfileFailed
        return target.strengthen retention legalHold requiredDeadline)
      (.ok [⟨key.1, key.2, storedLen, retention, legalHold, requiredDeadline, false⟩]) targets
  | .protection key retention legalHold =>
    atKey key (fun target => .ok (target.strengthen retention legalHold none)) (.error .invalidHeaderField) targets

def includeTargets (targets : List V3RetentionTarget) (inclusions : List Inclusion) :
    Except V3FormatError (List V3RetentionTarget) :=
  inclusions.foldlM includeTarget targets

/-- `mark_current_recovery_dependencies`. -/
def markCurrentRecoveryDependencies (targets : List V3RetentionTarget) : List V3RetentionTarget :=
  targets.map fun target => { target with currentRecoveryDependency := true }

/-! ## The graph of an anchor -/

/-- What is found besides the chain of the anchor: what the protected roots and the recovery history include, what the
history says about the versions it protects and about the current point, and the format root and keyring envelope. -/
structure RenewalWalk where
  protectedRoots : List Inclusion
  history : List Inclusion
  protectedVersions : List ExactVersion
  representedRetention : Option RetentionPolicy
  currentFloor : Option ℤ
  restoreRoots : List Inclusion

/-- The strongest retention that the history represents, for a version it protects. -/
def RenewalWalk.raiseProtected (walk : RenewalWalk) (target : V3RetentionTarget) : V3RetentionTarget :=
  if target.key ∈ walk.protectedVersions then
    { target with requiredRetention := strongestRetentionPolicy target.requiredRetention walk.representedRetention }
  else target

/-- The floor of the current point, for a version it depends on. -/
def RenewalWalk.raiseCurrent (walk : RenewalWalk) (target : V3RetentionTarget) : V3RetentionTarget :=
  if target.currentRecoveryDependency then
    { target with requiredDeadline := maxDeadline target.requiredDeadline walk.currentFloor }
  else target

/-- `load_reachability_from_state`, from what the chain of the anchor includes. -/
def loadRenewalTargets (current : List Inclusion) (walk : RenewalWalk) :
    Except V3FormatError (List V3RetentionTarget) := do
  let collected ← includeTargets [] current
  let protectedToo ← includeTargets (markCurrentRecoveryDependencies collected) walk.protectedRoots
  let walked ← includeTargets protectedToo walk.history
  includeTargets ((walked.map walk.raiseProtected).map walk.raiseCurrent) walk.restoreRoots

/-! ## Marks -/

theorem atKey_eq_ok (h : atKey key found missing targets = .ok targets') :
    (∃ before target after target', targets = before ++ target :: after ∧ target.key = key ∧
      found target = .ok target' ∧ targets' = before ++ target' :: after) ∨
    (∀ target ∈ targets, target.key ≠ key) ∧ ∃ added, missing = .ok added ∧ targets' = targets ++ added := by
  induction targets generalizing targets' with
  | nil => exact .inr ⟨by simp, targets', h, rfl⟩
  | cons first rest ih =>
    unfold atKey at h
    split at h
    · rename_i hkey
      simp only [ok_iff] at h
      obtain ⟨target', hfound, rfl⟩ := h
      exact .inl ⟨[], first, rest, target', rfl, hkey, hfound, rfl⟩
    · rename_i hkey
      simp only [ok_iff] at h
      obtain ⟨rest', hrest, rfl⟩ := h
      rcases ih hrest with ⟨before, target, after, target', rfl, hsame, hfound, rfl⟩ | ⟨hnone, added, hadded, rfl⟩
      · exact .inl ⟨first :: before, target, after, target', rfl, hsame, hfound, rfl⟩
      · exact .inr ⟨forall_mem_cons.mpr ⟨hkey, hnone⟩, added, hadded, rfl⟩

/-- A target is marked exactly when its version is one of these, and each of these has a target. -/
structure MarkedBy (current : List ExactVersion) (targets : List V3RetentionTarget) : Prop where
  marks : ∀ target ∈ targets, target.currentRecoveryDependency = true ↔ target.key ∈ current
  present : ∀ key ∈ current, ∃ target ∈ targets, target.key = key

section

variable {current : List ExactVersion} {targets targets' : List V3RetentionTarget}

theorem markedBy_mark : MarkedBy (targets.map V3RetentionTarget.key) (markCurrentRecoveryDependencies targets) := by
  constructor
  · intro target htarget
    obtain ⟨original, horiginal, rfl⟩ := mem_map.mp htarget
    exact ⟨fun _ => mem_map.mpr ⟨original, horiginal, rfl⟩, fun _ => rfl⟩
  · intro key hkey
    obtain ⟨original, horiginal, rfl⟩ := mem_map.mp hkey
    exact ⟨_, mem_map_of_mem horiginal, rfl⟩

/-- Requirements change neither versions nor marks. -/
theorem MarkedBy.map (h : MarkedBy current targets) {f : V3RetentionTarget → V3RetentionTarget}
    (hf : ∀ target, (f target).key = target.key ∧
      (f target).currentRecoveryDependency = target.currentRecoveryDependency) :
    MarkedBy current (targets.map f) := by
  constructor
  · intro target htarget
    obtain ⟨original, horiginal, rfl⟩ := mem_map.mp htarget
    rw [(hf original).1, (hf original).2]
    exact h.marks original horiginal
  · intro key hkey
    obtain ⟨original, horiginal, rfl⟩ := h.present key hkey
    exact ⟨f original, mem_map_of_mem horiginal, (hf original).1⟩

theorem MarkedBy.atKey (h : MarkedBy current targets) (hat : atKey key found missing targets = .ok targets')
    (hfound : ∀ target target', found target = .ok target' →
      target'.key = target.key ∧ target'.currentRecoveryDependency = target.currentRecoveryDependency)
    (hmissing : ∀ added, missing = .ok added → ∀ target ∈ added,
      target.key = key ∧ target.currentRecoveryDependency = false) : MarkedBy current targets' := by
  rcases atKey_eq_ok hat with ⟨before, target, after, target', rfl, rfl, hupdate, rfl⟩ | ⟨hnone, added, hadded, rfl⟩
  · obtain ⟨hkey, hmark⟩ := hfound target target' hupdate
    have hmarks := h.marks
    simp only [mem_append, mem_cons] at hmarks
    constructor
    · intro other hother
      rcases mem_append.mp hother with hbefore | hrest
      · exact hmarks other (.inl hbefore)
      · rcases mem_cons.mp hrest with rfl | hafter
        · rw [hkey, hmark]
          exact hmarks target (.inr (.inl rfl))
        · exact hmarks other (.inr (.inr hafter))
    · intro key hcurrent
      obtain ⟨other, hother, rfl⟩ := h.present key hcurrent
      rcases mem_append.mp hother with hbefore | hrest
      · exact ⟨other, mem_append_left _ hbefore, rfl⟩
      · rcases mem_cons.mp hrest with rfl | hafter
        · exact ⟨target', mem_append_right _ mem_cons_self, hkey⟩
        · exact ⟨other, mem_append_right _ (mem_cons_of_mem _ hafter), rfl⟩
  · constructor
    · intro other hother
      rcases mem_append.mp hother with hold | hnew
      · exact h.marks other hold
      · -- a version without a target is none of the marked ones
        obtain ⟨hkey, hmark⟩ := hmissing added hadded other hnew
        rw [hmark, hkey]
        refine ⟨nofun, fun hcurrent => ?_⟩
        obtain ⟨target, htarget, hsame⟩ := h.present key hcurrent
        exact absurd hsame (hnone target htarget)
    · intro key hcurrent
      obtain ⟨other, hother, rfl⟩ := h.present key hcurrent
      exact ⟨other, mem_append_left _ hother, rfl⟩

theorem MarkedBy.include (h : MarkedBy current targets) (hinclude : includeTarget targets inclusion = .ok targets') :
    MarkedBy current targets' := by
  cases inclusion with
  | target key storedLen retention legalHold requiredDeadline =>
    refine h.atKey hinclude (fun target target' hupdate => ?_) (fun added hadded target htarget => ?_)
    · simp only [ok_iff] at hupdate
      obtain ⟨-, rfl⟩ := hupdate
      exact ⟨rfl, rfl⟩
    · cases hadded
      rw [mem_singleton.mp htarget]
      exact ⟨rfl, rfl⟩
  | protection key retention legalHold =>
    refine h.atKey hinclude (fun target target' hupdate => ?_) nofun
    cases hupdate
    exact ⟨rfl, rfl⟩

theorem MarkedBy.includeAll (h : MarkedBy current targets)
    (hinclude : includeTargets targets inclusions = .ok targets') :
    MarkedBy current targets' := by
  unfold includeTargets at hinclude
  induction inclusions generalizing targets with
  | nil =>
    cases hinclude
    exact h
  | cons inclusion rest ih =>
    rw [foldlM_cons, bind_eq_ok] at hinclude
    obtain ⟨next, hnext, hrest⟩ := hinclude
    exact ih (h.include hnext) hrest

/-- The marks of a loaded graph: the versions that the chain of the anchor includes. -/
theorem loadRenewalTargets_marked {inclusions : List Inclusion} {walk : RenewalWalk}
    (h : loadRenewalTargets inclusions walk = .ok targets) :
    ∃ collected, includeTargets [] inclusions = .ok collected ∧
      MarkedBy (collected.map V3RetentionTarget.key) targets := by
  simp only [loadRenewalTargets, bind_eq_ok] at h
  obtain ⟨collected, hcollected, protectedToo, hprotected, walked, hwalked, hrestore⟩ := h
  have hmarked := (markedBy_mark.includeAll hprotected).includeAll hwalked
  have hprotects : MarkedBy _ (walked.map walk.raiseProtected) := hmarked.map fun target => by
    unfold RenewalWalk.raiseProtected
    split <;> exact ⟨rfl, rfl⟩
  have hraises : MarkedBy _ ((walked.map walk.raiseProtected).map walk.raiseCurrent) := hprotects.map fun target => by
    unfold RenewalWalk.raiseCurrent
    split <;> exact ⟨rfl, rfl⟩
  exact ⟨collected, hcollected, hraises.includeAll hrestore⟩

end

/-! ## Planned renewals -/

/-- A renewal of one of the targets, with its version and mark. -/
def RenewalOf (targets : List V3RetentionTarget) (renewal : V3RetentionTarget) : Prop :=
  ∃ target ∈ targets, renewal.key = target.key ∧
    renewal.currentRecoveryDependency = target.currentRecoveryDependency

section

variable {store : RetentionStore} {nowMs renewBeforeMs : ℤ} {budgets : V3MaintenanceBudgets} {heads : RenewalHeads}

theorem planRenewalTarget_marks {state next : PlanState} {target : V3RetentionTarget} {i : ℕ}
    (h : planRenewalTarget store nowMs renewBeforeMs budgets heads state (target, i) = .ok next) :
    ∀ renewal ∈ next.plan.targets, renewal ∈ state.plan.targets ∨ RenewalOf [target] renewal := by
  unfold planRenewalTarget at h
  dsimp only at h
  iterate 3
    split at h
    · cases h
      exact fun renewal hmem => .inl hmem
  simp only [ok_iff] at h
  obtain ⟨_, -, _, -, metadata, hmetadata, h⟩ := h
  split at h
  · cases h
    exact fun renewal hmem => .inl hmem
  rename_i hmatched
  split at h
  · cases h
    exact fun renewal hmem => .inl hmem
  · simp only [bind_eq_ok] at h
    obtain ⟨found, hfound, h⟩ := h
    cases found with
    | none =>
      cases h
      exact fun renewal hmem => .inl hmem
    | some planned =>
      cases h
      intro renewal hmem
      rcases mem_append.mp hmem with hold | hnew
      · exact .inl hold
      · obtain rfl := mem_singleton.mp hnew
        -- the observed version is that of the target
        unfold Mismatched at hmatched
        push Not at hmatched
        unfold renewalOf at hfound
        split at hfound
        · cases hfound
        · split at hfound
          · simp only [ok_iff, Option.some.injEq] at hfound
            obtain ⟨_, -, rfl⟩ := hfound
            exact .inr ⟨target, mem_singleton.mpr rfl, Prod.ext hmatched.1 hmatched.2.1, rfl⟩
          · cases hfound

theorem foldlM_planRenewalTarget_marks {entries : List (V3RetentionTarget × ℕ)} {targets : List V3RetentionTarget}
    (hentries : ∀ entry ∈ entries, entry.1 ∈ targets) {state next : PlanState}
    (hstate : ∀ renewal ∈ state.plan.targets, RenewalOf targets renewal)
    (h : entries.foldlM (planRenewalTarget store nowMs renewBeforeMs budgets heads) state = .ok next) :
    ∀ renewal ∈ next.plan.targets, RenewalOf targets renewal := by
  induction entries generalizing state with
  | nil =>
    cases h
    exact hstate
  | cons entry entries ih =>
    rw [foldlM_cons, bind_eq_ok] at h
    obtain ⟨between, hbetween, hrest⟩ := h
    rw [forall_mem_cons] at hentries
    refine ih hentries.2 (fun renewal hmem => ?_) hrest
    rcases planRenewalTarget_marks hbetween renewal hmem with hold | ⟨target, htarget, hsame⟩
    · exact hstate renewal hold
    · rw [mem_singleton.mp htarget] at hsame
      exact ⟨entry.1, hentries.1, hsame⟩

end

theorem planRetentionRenewal_marks
    (h : planRetentionRenewal store nowMs heads targets horizonMs budgets requests headCount = .ok plan) :
    ∀ renewal ∈ plan.targets, RenewalOf targets renewal := by
  simp only [planRetentionRenewal, ok_iff] at h
  obtain ⟨state, hstate, rfl⟩ := h
  exact foldlM_planRenewalTarget_marks (fun entry hentry => fst_mem_of_mem_zipIdx hentry)
    (fun renewal hmem => absurd hmem not_mem_nil) hstate

end Rs3.Maintenance
