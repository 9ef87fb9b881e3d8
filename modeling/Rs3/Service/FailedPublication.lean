/-
# Rs3.Service.FailedPublication — attempts that fail before their compare-and-swap leave no trace.

`publish_pending_snapshot` as the commit coordinator runs it, for any number of stores that share one
`V3MemoryAnchor`.  An attempt is cut at its accesses to the shared anchor: it reads the anchor and prepares the child
(against a temporary anchor of its own), reads it again and checks the upload, swaps, and after a refused swap reads
it once more.  Other stores move between any two of these, and the writers of the same store too unless the publication
holds the stage lock.

What an attempt learns from sealing, from the object store and from the clock is input (`Attempt`, `AdoptReads`).
After a failure the coordinator rolls back the operations of the batch and of its successors, the newest first,
unless the failure is `AcceptedRecoveryRequired`.
-/
import Mathlib.Data.List.Infix
import Rs3.Recovery.Publication
import Rs3.Index.ReplayBudget
import Rs3.Service.LocalRecovery
import Rs3.Service.PendingOverlay

namespace Rs3.Service

open List PendingV3State

open Repository Index
open Recovery (AcceptedRecoveryState)

/-! ## The shared anchor -/

/-- `V3MemoryAnchor::compare_and_advance_v3`: the answer and the state after it. -/
def compareAndAdvance (state expected : Option V3AnchorState) (next : V3AnchorState) :
    Except V3FormatError V3AnchorState × Option V3AnchorState :=
  if state ≠ expected then (.error .staleAnchor, state)
  else if state.any fun current => next.sequence ≤ current.sequence then (.error .staleAnchor, state)
  else (.ok next, some next)

/-- Where a state of the anchor stands among those it can pass through. -/
def anchorRank : Option V3AnchorState → ℕ
  | none => 0
  | some state => state.sequence.get + 1

theorem compareAndAdvance_cases (state expected : Option V3AnchorState) (next : V3AnchorState) :
    compareAndAdvance state expected next = (.error .staleAnchor, state) ∨
      compareAndAdvance state expected next = (.ok next, some next) ∧ state = expected ∧
        anchorRank state < anchorRank (some next) := by
  unfold compareAndAdvance
  split
  · exact Or.inl rfl
  rename_i hexpected
  split
  · exact Or.inl rfl
  rename_i hsequence
  refine Or.inr ⟨rfl, not_not.mp hexpected, ?_⟩
  cases state with
  | none => exact Nat.succ_pos _
  | some current =>
    simp only [Option.any_some, decide_eq_true_eq, U64.le_def, not_le] at hsequence
    exact Nat.succ_lt_succ hsequence

/-! ## Rolling back -/

/-- `rollback_staged_puts`: the newest checkpoint first. -/
def rollbackStagedPuts (rollbacks : List PendingV3Checkpoint) : PendingM Unit := forM rollbacks.reverse rollback

namespace PendingV3State

/-- The checkpoint that the coordinator logs for a call. -/
def staged (s : PendingV3State) : PendingCall → List PendingV3Checkpoint
  | .append deltas manifest payload => ((appendOperation deltas manifest payload).run s).1.toOption.toList
  | _ => []

def checkpoints : PendingV3State → List PendingCall → List PendingV3Checkpoint
  | _, [] => []
  | s, call :: calls => s.staged call ++ checkpoints (s.step call) calls

/-- A publication in flight finishes. -/
def settling (s : PendingV3State) : List PendingCall := if s.frozen.isSome then [.finishPublication] else []

/-- What remains once a publication in flight has finished. -/
def published (s : PendingV3State) : PendingV3State :=
  match s.frozen with
  | some frozen => s.finished frozen.endPos
  | none => s

/-- The overlay apart from the allocated sequences and the count of its changes. -/
def forgetCounters (s : PendingV3State) : PendingV3State := { s with revision := 0, allocationSequence := 0 }

end PendingV3State

/-! ## One attempt -/

/-- What an attempt learns outside the service before it adopts its child. -/
structure Attempt where
  /-- `prepare_service_publication`, with the uncertainty of the captured history. -/
  prepared : Except RepositoryError (Option ℕ)
  inputs : PublicationInputs
  /-- The upload and its read-back, with the verified protection. -/
  written : Except V3FormatError (Option Int)
  /-- `verify_recovery_publication`. -/
  verified : Except RepositoryError (Option AcceptedRecoveryState)
  /-- `validate_recovery_publication_freshness`. -/
  fresh : Except RepositoryError Unit

/-- A verified child that is not the anchor yet, and the installation prepared for it. -/
structure Publication where
  base : V3AnchorState
  uploaded : V3StoredCommit
  install : PendingV3Install
  recovery : Option AcceptedRecoveryState
  historyUncertaintyMs : Option ℕ

/-- How far the attempt of a store has come. -/
inductive Phase where
  | idle
  /-- The batch is taken. -/
  | taken (snapshot : PendingV3Snapshot)
  /-- The child is uploaded and verified. -/
  | verified (publication : Publication)
  /-- The checks of the adoption have passed. -/
  | checked (publication : Publication) (retained : Option Int)
  /-- The swap was refused. -/
  | refused (publication : Publication) (retained : Option Int) (error : V3FormatError)
  /-- The child is the anchor. -/
  | adopted (publication : Publication) (stored : V3StoredCommit)
  /-- The child is installed. -/
  | accepted
  | failed (error : RepositoryError)

/-- The state of one store.  The operations of `service.pending` are those of `overlay`, which is what this module
follows. -/
structure Store where
  service : V3Repository
  recovery : Option AcceptedRecoveryState
  overlay : PendingV3State
  /-- The checkpoints of the batch that was taken, and those of the open one. -/
  rollbackLog : List PendingV3Checkpoint
  batchLog : List PendingV3Checkpoint
  phase : Phase
  /-- The publication keeps the writers out. -/
  stageLocked : Bool

namespace Store

variable (store : Store)

section

variable (current : Option V3AnchorState)

def ensureAcceptedAnchorMatches : Except RepositoryError V3AnchorState := do
  let current ← okOr current (v3RepositoryError .missingAnchor)
  ensure (store.service.accepted.anchor = current) (v3RepositoryError .staleAnchor)
  return current

def storedCommit (attempt : Attempt) (commit : V3ReplayCommit) (retained : Option Int) : V3StoredCommit where
  verifiedRetainUntilMs := retained
  publishTimeMs := commit.header.publishTimeMs
  anchorState := commit.anchorState store.service.options.formatRef
  commitKey := attempt.inputs.upload.commitKey
  versionId := commit.versionId
  objectLen := commit.objectLen
  sectionsStart := commit.sectionsStart

/-- `publish_pending_snapshot` up to the adoption; `none` for a batch without a commit sequence. -/
def preparePublication (snapshot : PendingV3Snapshot) (attempt : Attempt) :
    Except RepositoryError (Option Publication) :=
  match snapshot.commitSequence with
  | none => .ok none
  | some sequence => do
    let base ← store.ensureAcceptedAnchorMatches current
    let historyUncertaintyMs ← attempt.prepared
    let written ← (store.service.writeBatchCommit attempt.inputs snapshot.toPendingV3Snapshot
      .objectTooLarge).mapError v3RepositoryError
    let retained ← attempt.written.mapError v3RepositoryError
    let uploaded := store.storedCommit attempt written.2 retained
    -- the write advances a temporary anchor that starts at the base
    let _ ← (compareAndAdvance (some base) (some base) uploaded.anchorState).1.mapError v3RepositoryError
    let run := acceptedRunRef written.1.run written.2
    (validateAcceptedRunAppend store.service.accepted.runs run).mapError v3RepositoryError
    let resolved ← (resolvePendingPackRefs store.service.options.keyringEnvelopeRef snapshot.toPendingV3Snapshot
      written.2 written.1.locations).mapError v3RepositoryError
    let install ← (preparePendingInstall store.service.accepted.repository resolved sequence run).mapError
      v3RepositoryError
    store.overlay.validateSnapshot snapshot
    let recovery ← attempt.verified
    attempt.fresh
    return some ⟨base, uploaded, install, recovery, historyUncertaintyMs⟩

def prepared (snapshot : PendingV3Snapshot) (attempt : Attempt) : Phase :=
  match store.preparePublication current snapshot attempt with
  | .ok (some publication) => .verified publication
  | .ok none => .failed (.commitFailed "v03 commit batch had no pending index delta")
  | .error error => .failed error

/-- `publication_error`, without the flag it sets. -/
def adoptionError (error : V3FormatError) : RepositoryError :=
  if error = .anchorReconciliationRequired then .acceptedRecoveryRequired else v3RepositoryError error

/-- The phase after the first half of the adoption. -/
def checkedPhase (publication : Publication) (reads : AdoptReads) : Phase :=
  match adoptChecks store.service.options.formatRef current publication.base publication.uploaded reads
      publication.historyUncertaintyMs with
  | .ok retained => .checked publication retained
  | .error error => .failed (adoptionError error)

end

/-- The phase after the swap was answered. -/
def answered (publication : Publication) (retained : Option Int) : Except V3FormatError V3AnchorState → Phase
  | .ok _ => .adopted publication { publication.uploaded with verifiedRetainUntilMs := retained }
  | .error error => .refused publication retained error

/-- The phase after the fencing read. -/
def settled (publication : Publication) (retained : Option Int) (error : V3FormatError)
    (current : Option V3AnchorState) : Phase :=
  match settleAdvance publication.base publication.uploaded retained (.error error) (.ok current) with
  | .ok stored => .adopted publication stored
  | .error error => .failed (adoptionError error)

/-- `install_pending_commit`: both locks are held, and the checks precede every write. -/
def installed (publication : Publication) (stored : V3StoredCommit) : Store :=
  match installPendingCommit store.service.accepted publication.install stored.anchorState,
      finishPublication.run store.overlay with
  | .ok accepted, (.ok (), overlay) =>
    { store with
      service := { store.service with accepted := accepted }
      recovery := publication.recovery
      overlay := overlay
      phase := .accepted }
  | _, _ => { store with phase := .failed .acceptedRecoveryRequired }

/-- A call of a writer, with its checkpoint. -/
def stage (call : PendingCall) : Store :=
  { store with overlay := store.overlay.step call, batchLog := store.batchLog ++ store.overlay.staged call }

/-- `freeze_pending_publication`, after the batch was taken. -/
def froze : Store :=
  match Service.freeze.run store.overlay with
  | (.ok snapshot, overlay) =>
    { store with overlay := overlay, rollbackLog := store.batchLog, batchLog := [], phase := .taken snapshot }
  | (.error error, overlay) =>
    { store with overlay := overlay, rollbackLog := store.batchLog, batchLog := [], phase := .failed error }

/-- `publish_locked_batch`: the overlay is copied as it is, under the stage lock. -/
def locked : Store :=
  { store with
    rollbackLog := store.batchLog
    batchLog := []
    phase := .taken store.overlay.snapshot
    stageLocked := true }

/-- `finish_v3_waiters` after a failure: the batch and its successors are rolled back. -/
def rolledBack (error : RepositoryError) : Store :=
  if error = .acceptedRecoveryRequired then store
  else
    match (rollbackStagedPuts (store.rollbackLog ++ store.batchLog)).run store.overlay with
    | (.ok (), overlay) =>
      { store with overlay := overlay, rollbackLog := [], batchLog := [], phase := .idle, stageLocked := false }
    | (.error _, overlay) => { store with overlay := overlay }

end Store

/-- What happens at one store. -/
inductive StoreEvent where
  | allocate
  | append (deltas : List IndexDelta) (manifest : Option (ManifestId × TrustedManifest))
      (payload : Option PendingV3Payload)
  /-- The open batch is taken: by the publisher, which freezes it, or under the stage lock. -/
  | take (frozen : Bool)
  | prepare (attempt : Attempt)
  | check (reads : AdoptReads)
  | advance
  | fence
  | install
  /-- The coordinator answers the waiters. -/
  | finish

/-- A store and the anchor after an event; an event out of its phase does not happen. -/
def Store.step (store : Store) (anchor : Option V3AnchorState) : StoreEvent → Store × Option V3AnchorState
  | .allocate => (if store.stageLocked then store else store.stage .allocate, anchor)
  | .append deltas manifest payload =>
    (if store.stageLocked then store else store.stage (.append deltas manifest payload), anchor)
  | .take frozen =>
    match store.phase, store.batchLog with
    | .idle, _ :: _ => (if frozen then store.froze else store.locked, anchor)
    | _, _ => (store, anchor)
  | .prepare attempt =>
    match store.phase with
    | .taken snapshot => ({ store with phase := store.prepared anchor snapshot attempt }, anchor)
    | _ => (store, anchor)
  | .check reads =>
    match store.phase with
    | .verified publication => ({ store with phase := store.checkedPhase anchor publication reads }, anchor)
    | _ => (store, anchor)
  | .advance =>
    match store.phase with
    | .checked publication retained =>
      let answer := compareAndAdvance anchor (some publication.base) publication.uploaded.anchorState
      ({ store with phase := Store.answered publication retained answer.1 }, answer.2)
    | _ => (store, anchor)
  | .fence =>
    match store.phase with
    | .refused publication retained error =>
      ({ store with phase := Store.settled publication retained error anchor }, anchor)
    | _ => (store, anchor)
  | .install =>
    match store.phase with
    | .adopted publication stored => (store.installed publication stored, anchor)
    | _ => (store, anchor)
  | .finish =>
    match store.phase with
    | .accepted => ({ store with rollbackLog := [], phase := .idle, stageLocked := false }, anchor)
    | .failed error => (store.rolledBack error, anchor)
    | _ => (store, anchor)

/-! ## Several stores -/

/-- One change of the anchor: the store that made it and the states around it. -/
structure AnchorChange (ι : Type) where
  store : ι
  parent : Option V3AnchorState
  child : Option V3AnchorState

/-- `changes` is history, the newest first. -/
structure World (ι : Type) where
  anchor : Option V3AnchorState
  stores : ι → Store
  changes : List (AnchorChange ι)

section Worlds

variable {ι : Type} [DecidableEq ι]

namespace World

def step (w : World ι) (event : ι × StoreEvent) : World ι :=
  let next := (w.stores event.1).step w.anchor event.2
  { anchor := next.2
    stores := Function.update w.stores event.1 next.1
    changes := if next.2 = w.anchor then w.changes else ⟨event.1, w.anchor, next.2⟩ :: w.changes }

def run (w : World ι) (events : List (ι × StoreEvent)) : World ι := events.foldl step w

end World

/-- A step moves the anchor forward or leaves it. -/
theorem Store.step_anchor (store : Store) (anchor : Option V3AnchorState) (event : StoreEvent) :
    (store.step anchor event).2 = anchor ∨ anchorRank anchor < anchorRank (store.step anchor event).2 := by
  cases event with
  | advance =>
    cases hphase : store.phase with
    | checked publication retained =>
      simp only [Store.step, hphase]
      rcases compareAndAdvance_cases anchor (some publication.base) publication.uploaded.anchorState with
        hrefused | ⟨hdone, _, hrank⟩
      · rw [hrefused]
        exact Or.inl rfl
      · rw [hdone]
        exact Or.inr hrank
    | _ =>
      refine Or.inl ?_
      simp only [Store.step, hphase]
  | allocate => exact Or.inl rfl
  | append deltas manifest payload => exact Or.inl rfl
  | take frozen =>
    refine Or.inl ?_
    simp only [Store.step]
    split <;> rfl
  | _ =>
    refine Or.inl ?_
    cases hphase : store.phase <;> simp only [Store.step, hphase]

/-- The parents in the history lie below the present anchor, the newer above the older. -/
structure World.Ordered (w : World ι) : Prop where
  below : ∀ change ∈ w.changes, anchorRank change.parent < anchorRank w.anchor
  descending : w.changes.Pairwise fun newer older => anchorRank older.parent < anchorRank newer.parent

theorem World.step_ordered {w : World ι} (h : w.Ordered) (event : ι × StoreEvent) : (w.step event).Ordered := by
  have hanchor := Store.step_anchor (w.stores event.1) w.anchor event.2
  by_cases hsame : ((w.stores event.1).step w.anchor event.2).2 = w.anchor
  · unfold World.step
    simp only [if_pos hsame]
    refine ⟨?_, h.descending⟩
    show ∀ change ∈ w.changes, _ < anchorRank ((w.stores event.1).step w.anchor event.2).2
    rw [hsame]
    exact h.below
  · have hrank := hanchor.resolve_left hsame
    unfold World.step
    simp only [if_neg hsame]
    refine ⟨?_, pairwise_cons.mpr ⟨h.below, h.descending⟩⟩
    rw [forall_mem_cons]
    exact ⟨hrank, fun change hchange => (h.below change hchange).trans hrank⟩

theorem World.run_ordered {w : World ι} (h : w.Ordered) (events : List (ι × StoreEvent)) : (w.run events).Ordered := by
  induction events generalizing w with
  | nil => exact h
  | cons event events ih => exact ih (World.step_ordered h event)

omit [DecidableEq ι] in
theorem World.Ordered.nodup {w : World ι} (h : w.Ordered) : (w.changes.map AnchorChange.parent).Nodup := by
  refine pairwise_map.mpr (h.descending.imp fun hlt heq => ?_)
  rw [heq] at hlt
  exact lt_irrefl _ hlt

end Worlds

/-! ## The checkpoints of a batch -/

/-- No component exceeds that of the other position. -/
def PendingV3Checkpoint.Le (position later : PendingV3Checkpoint) : Prop :=
  position.deltasLen ≤ later.deltasLen ∧ position.manifestsLen ≤ later.manifestsLen ∧
    position.payloadsLen ≤ later.payloadsLen

namespace PendingV3Checkpoint.Le

variable {a b c : PendingV3Checkpoint}

theorem refl (a : PendingV3Checkpoint) : a.Le a := ⟨le_rfl, le_rfl, le_rfl⟩

theorem trans (h : a.Le b) (h' : b.Le c) : a.Le c := ⟨h.1.trans h'.1, h.2.1.trans h'.2.1, h.2.2.trans h'.2.2⟩

theorem within (h : a.Le b) (h' : b.Le c) : Within a b c := ⟨⟨h.1, h'.1⟩, ⟨h.2.1, h'.2.1⟩, h.2.2, h'.2.2⟩

end PendingV3Checkpoint.Le

theorem Within.le {base position stop : PendingV3Checkpoint} (h : Within base position stop) : base.Le position :=
  ⟨h.1.1, h.2.1.1, h.2.2.1⟩

/-- The calls that never shorten the overlay. -/
def PendingCall.Forward : PendingCall → Prop
  | .rollback _ => False
  | _ => True

theorem PendingCall.IsSuccessor.forward {call : PendingCall} (h : call.IsSuccessor) : call.Forward := by
  cases call with
  | rollback _ => exact h
  | _ => exact trivial

section Checkpoints

variable {s : PendingV3State}

theorem append_staged (deltas : List IndexDelta) (manifest : Option (ManifestId × TrustedManifest))
    (payload : Option PendingV3Payload) :
    let call := PendingCall.append deltas manifest payload
    s.staged call = [] ∧ (s.step call).endPos = s.endPos ∨
      s.staged call = [s.endPos] ∧ s.endPos.Le (s.step call).endPos := by
  intro call
  have hstep : s.step call = ((appendOperation deltas manifest payload).run s).2 :=
    run_map_snd _ (appendOperation deltas manifest payload) s
  have hstaged : s.staged call = ((appendOperation deltas manifest payload).run s).1.toOption.toList := rfl
  have hspec := appendOperation_spec s deltas manifest payload
  rw [hstep, hstaged]
  rcases hrun : (appendOperation deltas manifest payload).run s with ⟨e | checkpoint, s'⟩
  · rw [hspec.unchanged hrun]
    exact Or.inl ⟨rfl, rfl⟩
  · obtain ⟨_, rfl, rfl⟩ := hspec.result hrun
    exact Or.inr ⟨rfl, Nat.le_add_right _ _, Nat.le_add_right _ _, Nat.le_add_right _ _⟩

theorem finishPublication_endPos (h : s.WellFormed) : (s.step .finishPublication).endPos = s.endPos := by
  have hstep : s.step .finishPublication = (finishPublication.run s).2 := run_map_snd _ finishPublication s
  rw [hstep]
  cases hfrozen : s.frozen with
  | none => rw [finishPublication_run_open s hfrozen]; rfl
  | some frozen => rw [finishPublication_run_frozen s hfrozen (h.frozen _ hfrozen)]; rfl

theorem freeze_step : s.step .freeze = s ∨ s.step .freeze = s.froze := by
  have hstep : s.step .freeze = (freeze.run s).2 := run_map_snd _ freeze s
  rw [hstep]
  exact (freeze_spec s).state_cases.imp_right fun h => h.choose_spec.2.2

/-- A forward call logs the end of the overlay and moves it on, or does neither. -/
theorem step_staged (h : s.WellFormed) (hcall : call.Forward) :
    s.staged call = [] ∧ (s.step call).endPos = s.endPos ∨
      s.staged call = [s.endPos] ∧ s.endPos.Le (s.step call).endPos := by
  cases call with
  | allocate =>
    refine Or.inl ⟨rfl, ?_⟩
    have hstep : s.step .allocate = (allocateSequence.run s).2 := run_map_snd _ allocateSequence s
    rw [hstep]
    rcases (allocateSequence_spec s).state_cases with hsame | ⟨_, _, hstate⟩
    · rw [hsame]
    · rw [hstate]
  | append deltas manifest payload => exact append_staged deltas manifest payload
  | freeze =>
    refine Or.inl ⟨rfl, ?_⟩
    rcases freeze_step with hsame | hfroze
    · rw [hsame]
    · rw [hfroze]
      rfl
  | rollback position => exact absurd hcall not_false
  | finishPublication => exact Or.inl ⟨rfl, finishPublication_endPos h⟩
  | clear => exact Or.inl ⟨rfl, rfl⟩

/-- A log of checkpoints taken in order between two positions, the first of them at the start. -/
structure Logged (start stop : PendingV3Checkpoint) (log : List PendingV3Checkpoint) : Prop where
  le : start.Le stop
  within : ∀ position ∈ log, start.Le position ∧ position.Le stop
  sorted : log.Pairwise PendingV3Checkpoint.Le
  first : ∀ position ∈ log.head?, position = start

theorem checkpoints_logged (h : s.WellFormed) (hcalls : ∀ call ∈ calls, call.Forward) :
    Logged s.endPos (s.after calls).endPos (s.checkpoints calls) := by
  induction calls generalizing s with
  | nil => exact ⟨.refl _, by simp [checkpoints], .nil, by simp [checkpoints]⟩
  | cons call calls ih =>
    rw [forall_mem_cons] at hcalls
    have hrest := ih (after_wellFormed h [call]) hcalls.2
    show Logged s.endPos ((s.step call).after calls).endPos (s.staged call ++ (s.step call).checkpoints calls)
    rcases step_staged h hcalls.1 with ⟨hnone, hsame⟩ | ⟨hone, hle⟩
    · rw [hnone, nil_append, ← hsame]
      exact hrest
    · rw [hone, singleton_append]
      have hstop := hle.trans hrest.le
      refine ⟨hstop, ?_, ?_, ?_⟩
      · rw [forall_mem_cons]
        exact ⟨⟨.refl _, hstop⟩, fun position hmem => (hrest.within position hmem).imp_left hle.trans⟩
      · exact pairwise_cons.mpr ⟨fun position hmem => hle.trans (hrest.within position hmem).1, hrest.sorted⟩
      · intro position hfirst
        exact (Option.mem_some.mp hfirst).symm

theorem checkpoints_append {s : PendingV3State} :
    s.checkpoints (calls ++ more) = s.checkpoints calls ++ (s.after calls).checkpoints more := by
  induction calls generalizing s with
  | nil => rfl
  | cons call calls ih =>
    show s.staged call ++ (s.step call).checkpoints (calls ++ more) = _
    rw [ih, ← append_assoc]
    rfl

theorem after_append {s : PendingV3State} : s.after (calls ++ more) = (s.after calls).after more := foldl_append

/-! ## Rolling back a log -/

theorem rolledBack_rolledBack (h : first.Le second) (revision : ℕ) :
    ({ s.rolledBack second with revision := revision }).rolledBack first =
      { s.rolledBack first with revision := revision + 1 } := by
  unfold rolledBack PendingV3Checkpoint.since
  simp only [take_take, Nat.sub_le_sub_right h.1, Nat.sub_le_sub_right h.2.1, Nat.sub_le_sub_right h.2.2, min_eq_left]

theorem rollbackStagedPuts_cons (hothers : (rollbackStagedPuts others).run s = (.ok (), t))
    (hposition : (rollback position).run t = (.ok (), t')) :
    (rollbackStagedPuts (position :: others)).run s = (.ok (), t') := by
  unfold rollbackStagedPuts at hothers ⊢
  rw [reverse_cons, forM_append, run_bind_state, hothers]
  show ExceptT.run (rollback position >>= fun _ => pure ()) t = _
  rw [run_bind_state, hposition]
  rfl

/-- Only the oldest checkpoint of a log shows in the result. -/
theorem rollbackStagedPuts_run (hsorted : (first :: rest).Pairwise PendingV3Checkpoint.Le)
    (hwithin : ∀ position ∈ first :: rest, Within s.base position s.endPos)
    (hrevision : s.revision + (first :: rest).length < 2 ^ 64) :
    (rollbackStagedPuts (first :: rest)).run s =
      (.ok (), { s.rolledBack first with revision := s.revision + (first :: rest).length }) := by
  induction rest generalizing first with
  | nil =>
    have hrun := rollback_run s (hwithin first mem_cons_self) hrevision
    exact rollbackStagedPuts_cons rfl hrun
  | cons second rest ih =>
    simp only [length_cons] at hrevision
    obtain ⟨hfirst, hsorted⟩ := pairwise_cons.mp hsorted
    have hle := hfirst second mem_cons_self
    have hothers := ih hsorted (fun position hmem => hwithin position (mem_cons_of_mem _ hmem))
      (by simp only [length_cons]; omega)
    have hbase := (hwithin first mem_cons_self).le
    refine rollbackStagedPuts_cons hothers ?_
    have hrun := rollback_run { s.rolledBack second with revision := s.revision + (second :: rest).length }
      (hbase.within hle) (by simp only [length_cons]; omega)
    rw [hrun, rolledBack_rolledBack hle]
    rfl

theorem Retained.take_retained {α : Type} {base stop : ℕ} {items more : List α} (h : Retained base stop items)
    (hmore : items <+: more) : more.take (stop - base) = items := by
  have hcount := h.count
  have hlength : stop - base = items.length := by omega
  rw [hlength]
  exact (prefix_iff_eq_take.mp hmore).symm

/-- The overlay holds the operations of another, perhaps with more behind them, whatever is frozen. -/
structure Holds (s s' : PendingV3State) : Prop where
  base : s'.base = s.base
  deltas : s.deltas <+: s'.deltas
  manifests : s.manifests <+: s'.manifests
  payloads : s.payloads <+: s'.payloads

theorem Holds.trans_extends (h : Holds s₁ s₂) (h' : Extends s₂ s₃) : Holds s₁ s₃ :=
  ⟨h'.base.trans h.base, h.deltas.trans h'.deltas, h.manifests.trans h'.manifests, h.payloads.trans h'.payloads⟩

theorem Holds.freeze {s₁ s₂ : PendingV3State} (h : Holds s₁ s₂) : Holds s₁ (s₂.step .freeze) := by
  rcases freeze_step with hsame | hfroze
  · rw [hsame]
    exact h
  · rw [hfroze]
    exact ⟨h.base, h.deltas, h.manifests, h.payloads⟩

theorem published_wellFormed (h : s.WellFormed) : s.published.WellFormed := by
  unfold published
  cases hfrozen : s.frozen with
  | none => exact h
  | some frozen => exact (Step.finished (h.frozen _ hfrozen)).wellFormed h

theorem published_endPos (s : PendingV3State) : s.published.endPos = s.endPos := by
  unfold published
  cases s.frozen <;> rfl

theorem published_frozen (s : PendingV3State) : s.published.frozen = none := by
  unfold published
  cases hfrozen : s.frozen with
  | none => exact hfrozen
  | some frozen => rfl

/-- When the publication in flight finishes, the operations staged since stay behind what remains. -/
theorem settling_holds (h' : s'.WellFormed) (hext : Extends s s') : Holds s.published (s'.after s.settling) := by
  unfold published settling
  cases hfrozen : s.frozen with
  | none => exact ⟨hext.base, hext.deltas, hext.manifests, hext.payloads⟩
  | some frozen =>
    have hfrozen' : s'.frozen = some frozen := hext.frozen.trans hfrozen
    have hstep : s'.after [.finishPublication] = s'.finished frozen.endPos := by
      show (PendingCall.finishPublication.run.run s').2 = _
      rw [PendingCall.run, run_map_snd, finishPublication_run_frozen s' hfrozen' (h'.frozen _ hfrozen')]
    simp only [Option.isSome_some, if_true]
    rw [hstep]
    unfold finished
    rw [hext.base]
    exact ⟨rfl, List.IsPrefix.drop hext.deltas _, List.IsPrefix.drop hext.manifests _,
      List.IsPrefix.drop hext.payloads _⟩

end Checkpoints

/-- The overlay calls by which a batch is taken. -/
def takingCalls (frozen : Bool) : List PendingCall := if frozen then [.freeze] else []

/-- The calls around the batch that fails: `before` and `middle` stage it, while a publication in flight finishes in
between; `later` stages its successors. -/
structure FailedBatch where
  before : List PendingCall
  middle : List PendingCall
  frozen : Bool
  later : List PendingCall
  beforeSuccessors : ∀ call ∈ before, call.IsSuccessor
  middleSuccessors : ∀ call ∈ middle, call.IsSuccessor
  laterSuccessors : ∀ call ∈ later, call.IsSuccessor

namespace FailedBatch

variable {s : PendingV3State} (batch : FailedBatch)

def opening (s : PendingV3State) : List PendingCall := batch.before ++ s.settling ++ batch.middle

def calls (s : PendingV3State) : List PendingCall := batch.opening s ++ (takingCalls batch.frozen ++ batch.later)

theorem forward (s : PendingV3State) : ∀ call ∈ batch.calls s, call.Forward := by
  intro call hcall
  simp only [calls, opening, mem_append] at hcall
  rcases hcall with ((hbefore | hsettling) | hmiddle) | htaking | hlater
  · exact (batch.beforeSuccessors call hbefore).forward
  · unfold settling at hsettling
    split at hsettling
    · rw [mem_singleton.mp hsettling]
      exact trivial
    · exact absurd hsettling not_mem_nil
  · exact (batch.middleSuccessors call hmiddle).forward
  · unfold takingCalls at htaking
    split at htaking
    · rw [mem_singleton.mp htaking]
      exact trivial
    · exact absurd htaking not_mem_nil
  · exact (batch.laterSuccessors call hlater).forward

theorem holds (h : s.WellFormed) : Holds s.published (s.after (batch.calls s)) := by
  unfold calls opening
  rw [after_append, after_append, after_append, after_append]
  have hbefore := settling_holds (after_wellFormed h batch.before) (after_extends batch.beforeSuccessors)
  have hmiddle := hbefore.trans_extends (after_extends batch.middleSuccessors)
  refine Holds.trans_extends ?_ (after_extends batch.laterSuccessors)
  cases hfrozen : batch.frozen with
  | false => exact hmiddle
  | true => exact hmiddle.freeze

/-- Rolling back the log restores everything but the counters. -/
theorem restores (h : s.WellFormed) (hlog : s.checkpoints (batch.calls s) ≠ [])
    (hrevision : (s.after (batch.calls s)).revision + (s.checkpoints (batch.calls s)).length < 2 ^ 64) :
    ∃ undone, (rollbackStagedPuts (s.checkpoints (batch.calls s))).run (s.after (batch.calls s)) = (.ok (), undone) ∧
      undone.forgetCounters = s.published.forgetCounters := by
  have hlogged := checkpoints_logged h (batch.forward s)
  have hholds := batch.holds h
  have hpublished := published_wellFormed h
  obtain ⟨first, rest, hcons⟩ := exists_cons_of_ne_nil hlog
  rw [hcons] at hlogged hrevision ⊢
  have hfirst : first = s.endPos := hlogged.first first rfl
  have hbase : (s.after (batch.calls s)).base.Le s.endPos := by
    rw [hholds.base, ← published_endPos s]
    exact hpublished.within.le
  have hwithin : ∀ position ∈ first :: rest,
      Within (s.after (batch.calls s)).base position (s.after (batch.calls s)).endPos := by
    intro position hmem
    have hposition := hlogged.within position hmem
    exact (hbase.trans hposition.1).within hposition.2
  refine ⟨_, rollbackStagedPuts_run hlogged.sorted hwithin hrevision, ?_⟩
  have hfrozen := published_frozen s
  have hend := published_endPos s
  -- what is left of each vector is the part that the overlay held before
  unfold forgetCounters rolledBack PendingV3Checkpoint.since
  simp only [hfirst, hholds.base, ← hend, hfrozen, hpublished.deltas.take_retained hholds.deltas,
    hpublished.manifests.take_retained hholds.manifests, hpublished.payloads.take_retained hholds.payloads]

end FailedBatch

/-! ## An attempt that fails -/

/-- What a failed attempt has left alone; `calls` are those its store has made on the overlay. -/
structure Untouched (before after : Store) (calls : List PendingCall) : Prop where
  service : after.service = before.service
  recovery : after.recovery = before.recovery
  overlay : after.overlay = before.overlay.after calls
  log : after.rollbackLog ++ after.batchLog = before.batchLog ++ before.overlay.checkpoints calls

/-- Writers have staged successors of the batch, and nothing else has happened. -/
def Waiting (before after : Store) (taking : List PendingCall) : Prop :=
  ∃ later, (∀ call ∈ later, PendingCall.IsSuccessor call) ∧ Untouched before after (taking ++ later)

/-- The attempt has installed its child, or has touched nothing but its phase, while writers staged successors. -/
def Attempting (before after : Store) (taking : List PendingCall) : Prop :=
  after.phase = .accepted ∨ after.phase ≠ .idle ∧ Waiting before after taking

section Attempts

variable {before after : Store} {calls taking : List PendingCall}

theorem Untouched.withPhase (h : Untouched before after calls) (phase : Phase) :
    Untouched before { after with phase := phase } calls :=
  ⟨h.service, h.recovery, h.overlay, h.log⟩

theorem Untouched.stage (h : Untouched before after calls) (call : PendingCall) :
    Untouched before (after.stage call) (calls ++ [call]) := by
  refine ⟨h.service, h.recovery, ?_, ?_⟩
  · rw [after_append, ← h.overlay]
    rfl
  · show after.rollbackLog ++ (after.batchLog ++ after.overlay.staged call) = _
    rw [checkpoints_append, ← append_assoc, ← append_assoc, h.log, ← h.overlay]
    show _ = _ ++ (after.overlay.staged call ++ [])
    rw [append_nil]

theorem Attempting.withPhase (h : Waiting before after taking) {phase : Phase} (hphase : phase ≠ .idle) :
    Attempting before { after with phase := phase } taking :=
  .inr ⟨hphase, h.imp fun _ hlater => ⟨hlater.1, hlater.2.withPhase phase⟩⟩

/-- A writer stages a successor, or waits for the stage lock. -/
theorem Attempting.stage (hphase : after.phase ≠ .idle) (h : Waiting before after taking) {call : PendingCall}
    (hcall : call.IsSuccessor) :
    Attempting before (if after.stageLocked then after else after.stage call) taking := by
  split
  · exact .inr ⟨hphase, h⟩
  · obtain ⟨later, hlater, huntouched⟩ := h
    refine .inr ⟨hphase, later ++ [call], fun other hother => ?_, ?_⟩
    · rcases mem_append.mp hother with hold | hnew
      · exact hlater other hold
      · rwa [mem_singleton.mp hnew]
    · rw [← append_assoc]
      exact huntouched.stage call

/-- Until its child is installed an attempt changes only its phase. -/
theorem Attempting.step (h : Attempting before after taking) (anchor : Option V3AnchorState) {event : StoreEvent}
    (hevent : event ≠ .finish) : Attempting before (after.step anchor event).1 taking := by
  rcases h with haccepted | ⟨hphase, huntouched⟩
  · refine Or.inl ?_
    cases event with
    | finish => exact absurd rfl hevent
    | allocate | append =>
      simp only [Store.step]
      split <;> exact haccepted
    | _ => simp only [Store.step, haccepted]
  cases event with
  | finish => exact absurd rfl hevent
  | allocate => exact Attempting.stage hphase huntouched trivial
  | append deltas manifest payload => exact Attempting.stage hphase huntouched trivial
  | take frozen =>
    simp only [Store.step]
    split
    · rename_i hidle _
      exact absurd hidle hphase
    · exact .inr ⟨hphase, huntouched⟩
  | prepare | check | advance | fence =>
    simp only [Store.step]
    split
    · refine Attempting.withPhase huntouched ?_
      simp only [Store.prepared, Store.checkedPhase, Store.answered, Store.settled]
      split <;> simp
    · exact .inr ⟨hphase, huntouched⟩
  | install =>
    simp only [Store.step]
    split
    · unfold Store.installed
      split
      · exact Or.inl rfl
      · exact Attempting.withPhase huntouched nofun
    · exact .inr ⟨hphase, huntouched⟩

theorem Store.take_attempting {store : Store} (hidle : store.phase = .idle) (hbatch : store.batchLog ≠ [])
    (frozen : Bool) (anchor : Option V3AnchorState) :
    Attempting store (store.step anchor (.take frozen)).1 (takingCalls frozen) := by
  obtain ⟨first, rest, hlog⟩ := exists_cons_of_ne_nil hbatch
  simp only [Store.step, hidle, hlog]
  cases frozen with
  | false =>
    refine .inr ⟨nofun, [], by simp, rfl, rfl, rfl, ?_⟩
    simp [Store.locked, takingCalls, checkpoints]
  | true =>
    have hoverlay : store.overlay.after [.freeze] = (Service.freeze.run store.overlay).2 :=
      run_map_snd _ Service.freeze store.overlay
    simp only [if_true, Store.froze, takingCalls]
    rcases hfreeze : Service.freeze.run store.overlay with ⟨_ | _, overlay⟩
    all_goals
      rw [hfreeze] at hoverlay
      refine Or.inr ⟨?_, [], by simp, rfl, rfl, hoverlay.symm, rfl⟩
      simp

end Attempts

section Failures

variable {ι : Type} [DecidableEq ι]

theorem World.run_attempting {before : Store} {taking : List PendingCall} {w : World ι} {i : ι}
    (h : Attempting before (w.stores i) taking) {events : List (ι × StoreEvent)}
    (hevents : ∀ event ∈ events, event ≠ (i, .finish)) :
    Attempting before ((w.run events).stores i) taking := by
  induction events generalizing w with
  | nil => exact h
  | cons event events ih =>
    rw [forall_mem_cons] at hevents
    refine ih ?_ hevents.2
    by_cases hi : event.1 = i
    · have hfinish : event.2 ≠ .finish := fun heq => hevents.1 (Prod.ext hi heq)
      rw [← hi] at h ⊢
      show Attempting before (Function.update w.stores event.1 _ event.1) _
      rw [Function.update_self]
      exact h.step w.anchor hfinish
    · show Attempting before (Function.update w.stores event.1 _ i) _
      rw [Function.update_of_ne (Ne.symm hi)]
      exact h

theorem World.failed_untouched {w : World ι} {i : ι} {frozen : Bool} {events : List (ι × StoreEvent)}
    {error : RepositoryError} (hidle : (w.stores i).phase = .idle) (hbatch : (w.stores i).batchLog ≠ [])
    (hevents : ∀ event ∈ events, event ≠ (i, .finish))
    (hfailed : ((w.run ((i, .take frozen) :: events)).stores i).phase = .failed error) :
    Waiting (w.stores i) ((w.run ((i, .take frozen) :: events)).stores i) (takingCalls frozen) := by
  have hstart : Attempting (w.stores i) ((w.step (i, .take frozen)).stores i) (takingCalls frozen) := by
    show Attempting _ (Function.update w.stores i _ i) _
    rw [Function.update_self]
    exact Store.take_attempting hidle hbatch frozen w.anchor
  rcases World.run_attempting hstart hevents with haccepted | ⟨_, huntouched⟩
  · cases haccepted.symm.trans hfailed
  · exact huntouched

/-- The store after the coordinator has answered a failed attempt. -/
theorem Store.rolledBack_restores {before failed : Store} {s : PendingV3State} (batch : FailedBatch)
    (hs : s.WellFormed) (herror : error ≠ .acceptedRecoveryRequired)
    (huntouched : Untouched before failed (takingCalls batch.frozen ++ batch.later))
    (hoverlay : before.overlay = s.after (batch.opening s)) (hlog : before.batchLog = s.checkpoints (batch.opening s))
    (hstaged : before.batchLog ≠ [])
    (hrevision : failed.overlay.revision + (failed.rollbackLog ++ failed.batchLog).length < 2 ^ 64) :
    (failed.rolledBack error).phase = .idle ∧ (failed.rolledBack error).service = before.service ∧
      (failed.rolledBack error).recovery = before.recovery ∧
      (failed.rolledBack error).overlay.forgetCounters = s.published.forgetCounters := by
  have hfailed : failed.overlay = s.after (batch.calls s) := by
    rw [huntouched.overlay, hoverlay, ← after_append]
    rfl
  have hlogged : failed.rollbackLog ++ failed.batchLog = s.checkpoints (batch.calls s) := by
    rw [huntouched.log, hlog, hoverlay, ← checkpoints_append]
    rfl
  have hne : s.checkpoints (batch.calls s) ≠ [] := by
    rw [← hlogged, huntouched.log]
    exact append_ne_nil_of_left_ne_nil hstaged _
  rw [hlogged, hfailed] at hrevision
  obtain ⟨undone, hrun, hundone⟩ := batch.restores hs hne hrevision
  unfold Store.rolledBack
  rw [if_neg herror, hlogged, hfailed, hrun]
  exact ⟨rfl, huntouched.service, huntouched.recovery, hundone⟩

/-- **Failed publications are invisible.**  Between the taking of a batch and the failure of its attempt the accepted
state and the recovery history of its store stay as they are, whatever the other stores and the writers do.  When the
coordinator rolls the attempt back, the overlay is what it was before the first operation of the batch (without a
publication that was in flight then and has finished since), apart from the allocated sequences and the revision.
And the anchor moves away from each of its states at most once. -/
theorem failed_publications_invisible :
    (∀ (w : World ι) (i : ι) (frozen : Bool) (events : List (ι × StoreEvent)) (error : RepositoryError),
      (w.stores i).phase = .idle → (w.stores i).batchLog ≠ [] → (∀ event ∈ events, event ≠ (i, .finish)) →
      let failed := w.run ((i, .take frozen) :: events)
      (failed.stores i).phase = .failed error →
        (failed.stores i).service = (w.stores i).service ∧ (failed.stores i).recovery = (w.stores i).recovery ∧
        ∀ (s : PendingV3State) (before middle : List PendingCall), s.WellFormed → error ≠ .acceptedRecoveryRequired →
          (∀ call ∈ before, call.IsSuccessor) → (∀ call ∈ middle, call.IsSuccessor) →
          (w.stores i).overlay = s.after (before ++ s.settling ++ middle) →
          (w.stores i).batchLog = s.checkpoints (before ++ s.settling ++ middle) →
          (failed.stores i).overlay.revision +
            ((failed.stores i).rollbackLog ++ (failed.stores i).batchLog).length < 2 ^ 64 →
          let undone := (failed.step (i, .finish)).stores i
          undone.phase = .idle ∧ undone.service = (w.stores i).service ∧ undone.recovery = (w.stores i).recovery ∧
            undone.overlay.forgetCounters = s.published.forgetCounters) ∧
    ∀ (w : World ι) (events : List (ι × StoreEvent)), w.changes = [] →
      ((w.run events).changes.map AnchorChange.parent).Nodup := by
  refine ⟨?_, ?_⟩
  · intro w i frozen events error hidle hbatch hevents failed hfailed
    obtain ⟨later, hlater, huntouched⟩ := World.failed_untouched hidle hbatch hevents hfailed
    refine ⟨huntouched.service, huntouched.recovery, ?_⟩
    intro s before middle hs herror hbefore hmiddle hoverlay hlog hrevision undone
    have hundone : undone = (failed.stores i).rolledBack error := by
      show Function.update failed.stores i _ i = _
      rw [Function.update_self]
      simp only [Store.step, failed, hfailed]
    rw [hundone]
    let batch : FailedBatch := ⟨before, middle, frozen, later, hbefore, hmiddle, hlater⟩
    exact Store.rolledBack_restores batch hs herror huntouched hoverlay hlog hbatch hrevision
  · intro w events hfresh
    have hordered : w.Ordered := by
      constructor
      · rw [hfresh]
        exact fun change hchange => absurd hchange not_mem_nil
      · rw [hfresh]
        exact .nil
    exact (World.run_ordered hordered events).nodup

end Failures

/-! ## What a rollback does not restore -/

/-- One operation of a batch that fails. -/
def openingCalls : List PendingCall := [.append [overlayTombstone 7] none none]

def revisionCalls : List PendingCall := openingCalls ++ [.freeze]

/-- One operation is in flight. -/
def inFlight : PendingV3State := (new 0).after revisionCalls

/-- A second one is staged, the first is published, and the second fails. -/
def overtakenCalls : List PendingCall := [.append [overlayTombstone 8] none none, .finishPublication, .freeze]

/-- An overlay that has been changed almost as often as it can be. -/
def worn : PendingV3State := { new 0 with revision := 2 ^ 64 - 2 }

/-- Apart from the allocated sequences alone the overlay differs from what it was: its revision has moved on; apart from
the revision as well, an operation that was in flight when the batch was opened is gone; and once the revision is used
up there is no rollback. -/
theorem rollback_moves_revision :
    ((rollbackStagedPuts ((new 0).checkpoints revisionCalls)).run ((new 0).after revisionCalls)).1.toOption = some () ∧
    ((rollbackStagedPuts ((new 0).checkpoints revisionCalls)).run ((new 0).after revisionCalls)).2.revision ≠
      (new 0).revision ∧
    ((rollbackStagedPuts (inFlight.checkpoints overtakenCalls)).run (inFlight.after overtakenCalls)).1.toOption =
      some () ∧
    ((rollbackStagedPuts (inFlight.checkpoints overtakenCalls)).run (inFlight.after overtakenCalls)).2.deltas.length ≠
      inFlight.deltas.length ∧
    ((rollbackStagedPuts (worn.checkpoints revisionCalls)).run (worn.after revisionCalls)).1.toOption = none := by
  decide +kernel

/-! ## A batch that fails while a successor is staged -/

/-- A store with one operation in its open batch. -/
def openStore : Store where
  service := budgetService .default
  recovery := none
  overlay := (new 0).after openingCalls
  rollbackLog := []
  batchLog := (new 0).checkpoints openingCalls
  phase := .idle
  stageLocked := false

def openWorld : World Bool := ⟨some (budgetService .default).accepted.anchor, fun _ => openStore, []⟩

/-- The upload is refused. -/
def refusedUpload : Attempt := ⟨.ok none, budgetInputs, .error .storageOperationFailed, .ok none, .ok ()⟩

/-- The first store freezes its batch, a successor is staged there, the other store allocates, and the upload fails. -/
def failingEvents : List (Bool × StoreEvent) :=
  [(false, .append [overlayTombstone 8] none none), (true, .allocate), (false, .prepare refusedUpload)]

theorem failed_publications_invisible_refused :
    let failed := openWorld.run ((false, .take true) :: failingEvents)
    let undone := (failed.step (false, .finish)).stores false
    (failed.stores false).phase = .failed (v3RepositoryError .storageOperationFailed) ∧
      (failed.stores false).service = openStore.service ∧ undone.overlay.deltas = [] ∧ failed.changes = [] := by
  intro failed undone
  have hphase : (failed.stores false).phase = .failed (v3RepositoryError .storageOperationFailed) := rfl
  obtain ⟨hservice, -, hundone⟩ := failed_publications_invisible.1 openWorld false true failingEvents _ rfl (by decide +kernel)
    (by simp [failingEvents]) hphase
  obtain ⟨-, -, -, hoverlay⟩ := hundone (new 0) openingCalls [] (new_wellFormed 0) (by decide)
    (forall_mem_singleton.mpr trivial) (by simp) rfl rfl (by decide +kernel)
  exact ⟨hphase, hservice, congrArg PendingV3State.deltas hoverlay, rfl⟩

end Rs3.Service
