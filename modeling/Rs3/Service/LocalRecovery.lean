/-
# Rs3.Service.LocalRecovery — blocking mutations after an undecided anchor advance.

An advance whose outcome even a fencing write could not settle ends in `AnchorReconciliationRequired`.  Whether the
service then stops admitting mutations depends on how the publishing function translates that error: the delta
publications go through `publication_error`, which sets `recovery_required`; the index root and the packed
compaction translate it like any other format error.

What a publication does before its advance (staging, uploads, read-backs, the guard) never touches the flag, so it
is an input here: either the error that stopped it or the verified child to adopt.
-/
import Rs3.Index.Staging
import Rs3.Repository.Anchor

namespace Rs3.Service

open Repository Index Steps

/-! ## The service state that admits mutations -/

/-- `mutation_owner`. -/
inductive MutationOwner where
  | idle
  | direct
  | coordinator
  deriving DecidableEq

/-- Which code made an anchor advance. -/
inductive AdvanceSite where
  | pendingDelta
  | standaloneDelta
  | indexRoot
  | compaction
  deriving DecidableEq

/-- The delta publications, as opposed to catalog maintenance. -/
def AdvanceSite.isDelta : AdvanceSite → Bool
  | .pendingDelta | .standaloneDelta => true
  | .indexRoot | .compaction => false

structure Advance where
  site : AdvanceSite
  outcome : Except V3FormatError V3StoredCommit
  deriving DecidableEq

def Advance.undecided (advance : Advance) : Prop := advance.outcome = .error .anchorReconciliationRequired

instance (advance : Advance) : Decidable advance.undecided := inferInstanceAs (Decidable (_ = _))

/-- `advances` is history: every advance the service has made, the newest first. -/
structure LocalState where
  recoveryRequired : Bool
  mutationOwner : MutationOwner
  advances : List Advance
  deriving DecidableEq

/-- A service in a new process. -/
def LocalState.new : LocalState := ⟨false, .idle, []⟩

abbrev ServiceM := ExceptT RepositoryError (StateM LocalState)

def markLocalRecoveryRequired : ServiceM Unit := modify fun s => { s with recoveryRequired := true }

def ensureLocalStateReady : ServiceM Unit := do
  if (← get).recoveryRequired then throw .acceptedRecoveryRequired

/-- `v3_repository_error`, for the errors of an advance. -/
def v3RepositoryError (error : V3FormatError) : RepositoryError := .v3 error

def publicationError (error : V3FormatError) : ServiceM RepositoryError := do
  if error = .anchorReconciliationRequired then
    markLocalRecoveryRequired
    return .acceptedRecoveryRequired
  else
    return v3RepositoryError error

/-! ## Publication -/

/-- A verified child commit at its advance.  `installed` is whether the accepted state takes the result afterwards. -/
structure UploadedChild where
  formatRef : V3FormatRef
  base : V3AnchorState
  uploaded : V3StoredCommit
  reads : AdoptReads
  historyUncertaintyMs : Option ℕ
  anchor : V3CommitAnchor Id
  installed : Bool

def UploadedChild.adopt (child : UploadedChild) : Except V3FormatError V3StoredCommit :=
  adoptVerifiedUnanchoredChild child.anchor child.formatRef child.base child.uploaded child.reads
    child.historyUncertaintyMs

/-- The advance, the translation of its error and the installation of its result. -/
def publishChild (site : AdvanceSite) (translate : V3FormatError → ServiceM RepositoryError) (child : UploadedChild) :
    ServiceM V3StoredCommit := do
  modify fun s => { s with advances := ⟨site, child.adopt⟩ :: s.advances }
  match child.adopt with
  | .error error => throw (← translate error)
  | .ok stored =>
    if child.installed then
      return stored
    else
      markLocalRecoveryRequired
      throw .acceptedRecoveryRequired

/-- `publish_pending_snapshot`: a snapshot without operations publishes nothing. -/
def publishPendingSnapshot (prepared : Except RepositoryError (Option UploadedChild)) :
    ServiceM (Option V3StoredCommit) := do
  match ← ExceptT.mk (pure prepared) with
  | none => return none
  | some child => return some (← publishChild .pendingDelta publicationError child)

def publishStagedStandaloneLocked (prepared : Except RepositoryError UploadedChild) : ServiceM V3StoredCommit := do
  publishChild .standaloneDelta publicationError (← ExceptT.mk (pure prepared))

/-- `write_index_snapshot_if_needed`: the pending delta first; no root when no expiry checkpoint is due. -/
def writeIndexSnapshotIfNeeded (delta root : Except RepositoryError (Option UploadedChild)) :
    ServiceM (Option V3StoredCommit) := do
  let _ ← publishPendingSnapshot delta
  match ← ExceptT.mk (pure root) with
  | none => return none
  | some child => return some (← publishChild .indexRoot (fun error => pure (v3RepositoryError error)) child)

def compactPackedIndexRunsInner (prepared : Except RepositoryError UploadedChild) : ServiceM V3StoredCommit := do
  publishChild .compaction (fun error => pure (v3RepositoryError error)) (← ExceptT.mk (pure prepared))

/-- A direct put or delete: any failed publication restores the overlay, and a failed restoration wins. -/
def publishOrRollback (prepared : Except RepositoryError (Option UploadedChild))
    (rollback : Except RepositoryError Unit) : ServiceM Unit :=
  tryCatch (do let _ ← publishPendingSnapshot prepared) fun error => do
    ExceptT.mk (pure rollback)
    throw error

/-- `publish_standalone_streaming`: an accepted publication that needs recovery is not rolled back. -/
def publishStandaloneStreaming (prepared : Except RepositoryError UploadedChild)
    (rollback : Except RepositoryError Unit) : ServiceM Unit :=
  tryCatch (do let _ ← publishStagedStandaloneLocked prepared) fun error => do
    if error = .acceptedRecoveryRequired then
      throw error
    else
      ExceptT.mk (pure rollback)
      throw error

/-! ## Admission -/

def claimDirectMutation : ServiceM Unit := do
  ensureLocalStateReady
  if (← get).mutationOwner = .idle then
    modify fun s => { s with mutationOwner := .direct }
  else
    throw (.commitFailed "v03 repository mutation is owned by the active commit coordinator")

def claimCommitCoordinator : ServiceM Unit := do
  ensureLocalStateReady
  if (← get).mutationOwner = .idle then
    modify fun s => { s with mutationOwner := .coordinator }
  else
    throw (.commitFailed "v03 repository already has an active mutation owner")

/-- The coordinator holds the lease of this repository, so only the owner is compared. -/
def validateCoordinatorLease : ServiceM Unit := do
  ensureLocalStateReady
  if (← get).mutationOwner = .coordinator then
    return ()
  else
    throw (.commitFailed "v03 commit coordinator does not own this repository")

/-- The ways into a mutation.  Object-lock validation, copy capture and the multipart calls go through `ready`. -/
inductive Admission where
  | direct
  | coordinator
  | coordinated
  | ready
  deriving DecidableEq

def Admission.enter : Admission → ServiceM Unit
  | .direct => claimDirectMutation
  | .coordinator => claimCommitCoordinator
  | .coordinated => validateCoordinatorLease
  | .ready => ensureLocalStateReady

/-! ## The running service -/

/-- The bodies of the mutating calls, after their admission. -/
inductive Mutation where
  | deltaBatch (prepared : Except RepositoryError (Option UploadedChild))
  | putOrDelete (prepared : Except RepositoryError (Option UploadedChild)) (rollback : Except RepositoryError Unit)
  | streamingPut (prepared : Except RepositoryError UploadedChild) (rollback : Except RepositoryError Unit)
  | multipartCompletion (prepared : Except RepositoryError (Option UploadedChild))
  | indexRoot (delta root : Except RepositoryError (Option UploadedChild))
  | compaction (prepared : Except RepositoryError UploadedChild)

def Mutation.publish : Mutation → ServiceM Unit
  | .deltaBatch prepared => do let _ ← publishPendingSnapshot prepared
  | .putOrDelete prepared rollback => publishOrRollback prepared rollback
  | .streamingPut prepared rollback => publishStandaloneStreaming prepared rollback
  | .multipartCompletion prepared => do let _ ← publishPendingSnapshot prepared
  | .indexRoot delta root => do let _ ← writeIndexSnapshotIfNeeded delta root
  | .compaction prepared => do let _ ← compactPackedIndexRunsInner prepared

/-- What happens on a service, in any order: a call is admitted, the body of an admitted call runs, a lease is dropped. -/
inductive Event where
  | enter (admission : Admission)
  | body (mutation : Mutation)
  | release

def Event.run : Event → ServiceM Unit
  | .enter admission => admission.enter
  | .body mutation => mutation.publish
  | .release => modify fun s => { s with mutationOwner := .idle }

def LocalState.step (s : LocalState) (event : Event) : LocalState := (event.run.run s).2

def LocalState.after (s : LocalState) (events : List Event) : LocalState := events.foldl LocalState.step s

/-! ## What every event keeps -/

/-- Every undecided advance of a delta publication has set the flag. -/
def Flagged (s : LocalState) : Prop :=
  ∀ advance ∈ s.advances, advance.site.isDelta = true → advance.undecided → s.recoveryRequired = true

/-- What any event may do: it never clears the flag, and leaves every undecided delta advance flagged. -/
def Evolves (s s' : LocalState) : Prop :=
  (s.recoveryRequired = true → s'.recoveryRequired = true) ∧ (Flagged s → Flagged s')

instance : IsPreorder LocalState Evolves where
  refl _ := ⟨id, id⟩
  trans _ _ _ hab hbc := ⟨hbc.1 ∘ hab.1, hbc.2 ∘ hab.2⟩

theorem Evolves.of_flag (h : s'.recoveryRequired = true) : Evolves s s' := ⟨fun _ => h, fun _ _ _ _ _ => h⟩

theorem markLocalRecoveryRequired_evolves : Steps Evolves markLocalRecoveryRequired := fun _ => Evolves.of_flag rfl

theorem setOwner_evolves : Steps Evolves (modify fun s => { s with mutationOwner := owner } : ServiceM Unit) :=
  fun _ => ⟨id, id⟩

theorem ensureLocalStateReady_evolves : Steps Evolves ensureLocalStateReady :=
  get.bind fun _ => ite (throw _) (pure _)

/-- Maintenance may translate the error of its advance in any way that keeps the state. -/
theorem publishChild_maintenance_evolves (hsite : site.isDelta = false) (child : UploadedChild) :
    Steps Evolves (publishChild site (fun error => pure (v3RepositoryError error)) child) := by
  refine bind (fun s => ⟨id, fun hflagged advance hmem hdelta => ?_⟩) fun _ => ?_
  · rcases List.mem_cons.mp hmem with rfl | hold
    · exact absurd (hsite.symm.trans hdelta) Bool.false_ne_true
    · exact hflagged advance hold hdelta
  · cases child.adopt with
    | error error => exact throw _
    | ok stored =>
      exact ite (pure _) (markLocalRecoveryRequired_evolves.bind fun _ => throw _)

/-- A delta publication whose advance stays undecided returns with the flag set. -/
theorem publishChild_delta_evolves : Steps Evolves (publishChild site publicationError child) := by
  by_cases hundecided : child.adopt = .error .anchorReconciliationRequired
  · intro s
    refine Evolves.of_flag ?_
    simp only [publishChild, hundecided]
    rfl
  · refine bind (fun s => ⟨id, fun hflagged advance hmem hdelta h => ?_⟩) fun _ => ?_
    · rcases List.mem_cons.mp hmem with rfl | hold
      · exact absurd h hundecided
      · exact hflagged advance hold hdelta h
    · cases hadopt : child.adopt with
      | error error =>
        have hother : error ≠ .anchorReconciliationRequired := fun h => hundecided (h ▸ hadopt)
        simp only [publicationError, hother, if_false]
        exact throw _
      | ok stored =>
        exact ite (pure _) (markLocalRecoveryRequired_evolves.bind fun _ => throw _)

theorem publishPendingSnapshot_evolves : Steps Evolves (publishPendingSnapshot prepared) := by
  refine (Steps.ofExcept prepared).bind fun child => ?_
  cases child with
  | none => exact Steps.pure _
  | some child => exact (publishChild_delta_evolves).bind fun _ => Steps.pure _

theorem writeIndexSnapshotIfNeeded_evolves : Steps Evolves (writeIndexSnapshotIfNeeded delta root) := by
  refine (publishPendingSnapshot_evolves).bind fun _ => (Steps.ofExcept root).bind fun child => ?_
  cases child with
  | none => exact Steps.pure _
  | some child => exact (publishChild_maintenance_evolves rfl child).bind fun _ => Steps.pure _

theorem Mutation.publish_evolves (mutation : Mutation) : Steps Evolves mutation.publish := by
  have hrollback : ∀ (rollback : Except RepositoryError Unit) (error : RepositoryError),
      Steps Evolves (do ExceptT.mk (pure rollback); throw error : ServiceM Unit) :=
    fun rollback error => (Steps.ofExcept rollback).bind fun _ => Steps.throw error
  cases mutation with
  | deltaBatch prepared => exact (publishPendingSnapshot_evolves).bind fun _ => Steps.pure _
  | putOrDelete prepared rollback =>
    exact ((publishPendingSnapshot_evolves).bind fun _ => Steps.pure _).tryCatch (hrollback rollback)
  | streamingPut prepared rollback =>
    refine Steps.tryCatch (Steps.bind ?_ fun _ => Steps.pure _) fun error =>
      Steps.ite (Steps.throw error) (hrollback rollback error)
    exact (Steps.ofExcept prepared).bind fun child => publishChild_delta_evolves
  | multipartCompletion prepared => exact (publishPendingSnapshot_evolves).bind fun _ => Steps.pure _
  | indexRoot delta root => exact (writeIndexSnapshotIfNeeded_evolves).bind fun _ => Steps.pure _
  | compaction prepared =>
    refine Steps.bind ((Steps.ofExcept prepared).bind fun child => ?_) fun _ => Steps.pure _
    exact publishChild_maintenance_evolves rfl child

variable (admission : Admission) (s : LocalState)

theorem Admission.enter_evolves : Steps Evolves admission.enter := by
  cases admission with
  | direct | coordinator =>
    exact ensureLocalStateReady_evolves.bind fun _ => get.bind fun _ =>
      ite (setOwner_evolves) (throw _)
  | coordinated =>
    exact ensureLocalStateReady_evolves.bind fun _ => get.bind fun _ =>
      ite (pure _) (throw _)
  | ready => exact ensureLocalStateReady_evolves

theorem LocalState.step_evolves (event : Event) : Evolves s (s.step event) := by
  cases event with
  | enter admission => exact admission.enter_evolves s
  | body mutation => exact mutation.publish_evolves s
  | release => exact setOwner_evolves s

theorem LocalState.after_evolves (events : List Event) : Evolves s (s.after events) := by
  induction events generalizing s with
  | nil => exact refl_of Evolves s
  | cons event events ih => exact trans_of Evolves (s.step_evolves event) (ih (s.step event))

/-- A flagged service refuses every admission and stays as it is. -/
theorem Admission.enter_of_flag {s : LocalState} (h : s.recoveryRequired = true) :
    admission.enter.run s = (.error .acceptedRecoveryRequired, s) := by
  have hready : ensureLocalStateReady.run s = (.error .acceptedRecoveryRequired, s) := by
    rw [ensureLocalStateReady, run_bind_state]
    show (if s.recoveryRequired = true then (throw .acceptedRecoveryRequired : ServiceM Unit) else pure ()).run s = _
    rw [if_pos h]
    rfl
  cases admission with
  | direct => rw [enter, claimDirectMutation, run_bind_state, hready]
  | coordinator => rw [enter, claimCommitCoordinator, run_bind_state, hready]
  | coordinated => rw [enter, validateCoordinatorLease, run_bind_state, hready]
  | ready => exact hready

/-- **Undecided delta advances block mutations.**  Once the advance of a delta publication (a batch, a put, copy or
delete, a streaming put, a multipart completion, or the delta an index root publishes first) ended undecided, the
flag is set when that call has returned, and whatever happens afterwards no mutation is admitted. -/
theorem undecided_delta_advance_blocks_mutations (before later : List Event)
    (hundecided : ∃ advance ∈ (LocalState.new.after before).advances, advance.site.isDelta = true ∧ advance.undecided) :
    (LocalState.new.after before).recoveryRequired = true ∧
    ∀ admission : Admission,
      admission.enter.run ((LocalState.new.after before).after later) =
        (.error .acceptedRecoveryRequired, (LocalState.new.after before).after later) := by
  obtain ⟨advance, hmem, hdelta, hopen⟩ := hundecided
  have hnew : Flagged LocalState.new := fun _ hnone => absurd hnone List.not_mem_nil
  have hflag := (LocalState.new.after_evolves before).2 hnew advance hmem hdelta hopen
  exact ⟨hflag, fun admission => admission.enter_of_flag ((LocalState.after_evolves _ later).1 hflag)⟩

/-! ## A lost advance -/

def lostBase : V3AnchorState where
  sequence := 1
  commitKey := ⟨"commits/lost-base", by decide⟩
  bodyDigest := Vector.replicate 32 0
  versionId := none
  signingKeyId := ⟨"lost-signing-key", by decide⟩
  formatRef := ⟨1, "format", ⟨"format/lost", by decide⟩, none⟩

def lostCommit : V3StoredCommit where
  verifiedRetainUntilMs := none
  publishTimeMs := 2
  anchorState := { lostBase with sequence := 2, commitKey := ⟨"commits/lost-child", by decide⟩ }
  commitKey := ⟨2, Vector.replicate 32 0, ⟨"commits/lost-child", by decide⟩⟩
  versionId := none
  objectLen := 10
  sectionsStart := 5

/-- The reply of the advance is lost and the fencing write fails as well. -/
def lostChild : UploadedChild where
  formatRef := lostBase.formatRef
  base := lostBase
  uploaded := lostCommit
  reads := ⟨.ok 1, 2, .ok none, .ok 2, 2⟩
  historyUncertaintyMs := none
  anchor := ⟨.ok (some lostBase), fun _ _ => .error .anchorAdvanceFailed, .error .anchorReadFailed⟩
  installed := true

theorem undecided_delta_advance_blocks_mutations_batch :
    (LocalState.new.after [.enter .direct, .body (.deltaBatch (.ok (some lostChild)))]).recoveryRequired = true ∧
    Admission.ready.enter.run
        ((LocalState.new.after [.enter .direct, .body (.deltaBatch (.ok (some lostChild)))]).after [.release]) =
      (.error .acceptedRecoveryRequired,
        (LocalState.new.after [.enter .direct, .body (.deltaBatch (.ok (some lostChild)))]).after [.release]) := by
  have h := undecided_delta_advance_blocks_mutations
    [.enter .direct, .body (.deltaBatch (.ok (some lostChild)))] [.release]
    ⟨⟨.pendingDelta, .error .anchorReconciliationRequired⟩, by decide, by decide, by decide⟩
  exact ⟨h.1, h.2 .ready⟩

/-- Catalog maintenance leaves the flag clear: after an undecided advance of a manual compaction, or of an index
root, the next direct mutation is admitted. -/
theorem undecided_maintenance_advance_admits_mutations :
    (∀ event ∈ [Event.body (.compaction (.ok lostChild)), .body (.indexRoot (.ok none) (.ok (some lostChild)))],
      ∃ advance ∈ (LocalState.new.after [.enter .direct, event, .release]).advances, advance.undecided) ∧
    (∀ event ∈ [Event.body (.compaction (.ok lostChild)), .body (.indexRoot (.ok none) (.ok (some lostChild)))],
      (LocalState.new.after [.enter .direct, event, .release]).recoveryRequired = false ∧
      (Admission.direct.enter.run (LocalState.new.after [.enter .direct, event, .release])).1 = .ok ()) := by
  simp only [List.forall_mem_cons, List.not_mem_nil, false_implies, implies_true, and_true]
  refine ⟨⟨?_, ?_⟩, ⟨rfl, rfl⟩, rfl, rfl⟩
  · exact ⟨⟨.compaction, .error .anchorReconciliationRequired⟩, by decide, rfl⟩
  · exact ⟨⟨.indexRoot, .error .anchorReconciliationRequired⟩, by decide, rfl⟩

end Rs3.Service
