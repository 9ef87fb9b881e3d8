/-
# Rs3.Service.SuccessorRollback — undoing a write while a publication is in flight.

`PendingV3State::rollback` forgets the freeze, whatever the checkpoint.  As long as no rollback goes through, the frozen
snapshot stays publishable; after one that does, it never is, and finishing a publication that was validated before
empties the whole overlay.  `enqueue_write` of `v3/coordinator.rs` could roll a write back in that situation, after it
compares the protection of the batch, but it has compared them before it stages: an incompatible write waits at the
barrier, so the coordinator's writes keep every frozen prefix publishable.
-/
import Rs3.Service.FailedPublication

namespace Rs3.Service

open Index (IndexDelta ManifestId TrustedManifest PendingV3Payload RepositoryError)

/-! ## Joining a batch -/

/-- What `enqueue_write` reads of the coordinator's batch.  It holds the stage lock from the barrier on, and these fields
change under that lock only, so that it reads the same batch each time. -/
structure CommitBatch (Protection : Type) where
  waiters : ℕ
  publishing : Bool
  protection : Option Protection

section Enqueue

variable {Protection : Type} [DecidableEq Protection]

def CommitBatch.joins (batch : CommitBatch Protection) (protection : Protection) : Bool :=
  (batch.waiters = 0 && !batch.publishing) || batch.protection = some protection

/-- A write with another protection than that of an occupied batch publishes the batch first, and so do copies of
retained objects and writes that find index runs to compact. -/
def CommitBatch.needsBarrier (batch : CommitBatch Protection) (protection : Protection)
    (retainedCopy compactionDue : Bool) : Bool :=
  ((batch.publishing || batch.waiters ≠ 0) && batch.protection ≠ some protection) || (retainedCopy && batch.publishing) ||
    compactionDue

/-- The end of `enqueue_write` for a write staged from `checkpoint` on. -/
def enqueueStaged (batch : CommitBatch Protection) (protection : Protection) (checkpoint : PendingV3Checkpoint) :
    PendingM Unit :=
  if batch.joins protection then pure ()
  else do
    rollbackStagedPuts [checkpoint]
    throw (.commitFailed "v03 commit batch contains incompatible protection cohorts")

/-- One round of `enqueue_write`: a write that meets the barrier has staged nothing and starts again later. -/
def enqueueWrite (batch : CommitBatch Protection) (protection : Protection) (retainedCopy compactionDue : Bool)
    (deltas : List IndexDelta) (manifest : Option (ManifestId × TrustedManifest)) (payload : Option PendingV3Payload) :
    PendingM Bool :=
  if batch.needsBarrier protection retainedCopy compactionDue then pure false
  else do
    let checkpoint ← appendOperation deltas manifest payload
    enqueueStaged batch protection checkpoint
    return true

variable {batch : CommitBatch Protection} {protection : Protection} {retainedCopy compactionDue : Bool}

/-- Past the barrier a write joins the batch. -/
theorem joins_of_not_needsBarrier (h : batch.needsBarrier protection retainedCopy compactionDue = false) :
    batch.joins protection = true := by
  simp only [CommitBatch.needsBarrier, Bool.or_eq_false_iff, Bool.and_eq_false_iff] at h
  obtain ⟨⟨hbatch, -⟩, -⟩ := h
  simp only [CommitBatch.joins, Bool.or_eq_true, Bool.and_eq_true]
  rcases hbatch with ⟨hidle, hempty⟩ | hsame
  · exact .inl ⟨by simpa using hempty, by simp [hidle]⟩
  · exact .inr (by simpa using hsame)

/-- So the overlay is as it was, or the write was appended to it. -/
theorem enqueueWrite_state (s : PendingV3State) (deltas : List IndexDelta)
    (manifest : Option (ManifestId × TrustedManifest)) (payload : Option PendingV3Payload) :
    ((enqueueWrite batch protection retainedCopy compactionDue deltas manifest payload).run s).2 = s ∨
      ((enqueueWrite batch protection retainedCopy compactionDue deltas manifest payload).run s).2 =
        s.step (.append deltas manifest payload) := by
  unfold enqueueWrite
  cases hbarrier : batch.needsBarrier protection retainedCopy compactionDue with
  | true => exact .inl rfl
  | false =>
    right
    simp only [enqueueStaged, joins_of_not_needsBarrier hbarrier, if_true]
    show ((appendOperation deltas manifest payload >>= fun _ => pure true : PendingM Bool).run s).2 =
      (((fun _ => none) <$> appendOperation deltas manifest payload : PendingM (Option Sequence)).run s).2
    rw [run_map_snd, run_bind_state]
    rcases (appendOperation deltas manifest payload).run s with ⟨_ | _, _⟩ <;> rfl

end Enqueue

/-! ## Runs that keep the freeze -/

section Runs

variable {s s' : PendingV3State}

/-- No rollback of the run goes through. -/
def Uncancelled : PendingV3State → List PendingCall → Prop
  | _, [] => True
  | s, call :: calls => (call.IsSuccessor ∨ ∃ position e, call = .rollback position ∧
      ((rollback position).run s).1 = .error e) ∧ Uncancelled (s.step call) calls

theorem refused_step (h : ((rollback position).run s).1 = .error e) : s.step (.rollback position) = s := by
  show (((fun _ => none) <$> rollback position : PendingM (Option Sequence)).run s).2 = s
  rw [run_map_snd]
  exact (rollback_spec s position).unchanged (Prod.ext h rfl)

theorem Uncancelled.append (h : Uncancelled s calls) (hcall : call.IsSuccessor) : Uncancelled s (calls ++ [call]) := by
  induction calls generalizing s with
  | nil => exact ⟨.inl hcall, trivial⟩
  | cons first calls ih => exact ⟨h.1, ih h.2⟩

theorem Uncancelled.extends (h : Uncancelled s calls) : Extends s (s.after calls) := by
  induction calls generalizing s with
  | nil => exact .refl s
  | cons call calls ih =>
    obtain ⟨hcall, hrest⟩ := h
    have hstep : Extends s (s.step call) := by
      rcases hcall with hsuccessor | ⟨position, e, rfl, hrefused⟩
      · exact step_extends hsuccessor
      · rw [refused_step hrefused]
        exact .refl s
    exact hstep.trans (ih hrest)

theorem Step.revision_le (h : Step s s') : s.revision ≤ s'.revision := by
  cases h with
  | appended _ _ _ => exact Nat.le_succ _
  | rolledBack _ => exact Nat.le_succ _
  | unchanged | allocated _ | froze | finished _ | cleared => exact Nat.le_refl _

theorem after_revision_le (h : s.WellFormed) (calls : List PendingCall) : s.revision ≤ (s.after calls).revision := by
  induction calls generalizing s with
  | nil => exact Nat.le_refl _
  | cons call calls ih =>
    have hstep := step_step h call
    exact hstep.revision_le.trans (ih (hstep.wellFormed h))

/-- A snapshot of an earlier revision is refused once the freeze is gone. -/
theorem validateSnapshot_of_older (hfrozen : s.frozen = none)
    (hrevision : snapshot.revision < s.revision) : s.validateSnapshot snapshot = .error .statePoisoned := by
  unfold PendingV3State.validateSnapshot
  rw [hfrozen]
  show ensure (s.revision = snapshot.revision ∧ _) RepositoryError.statePoisoned = _
  exact if_neg fun h => Nat.ne_of_gt hrevision h.1

/-- What a rollback behind a frozen prefix leaves: the snapshot is refused, and finishing empties the overlay. -/
structure Cancelled (snapshot : PendingV3Snapshot) (s : PendingV3State) : Prop where
  refused : s.validateSnapshot snapshot = .error .statePoisoned
  emptied : ∃ rest, finishPublication.run s = (.ok (), rest) ∧ rest.isEmpty = true

theorem cancelled_of_rolledBack (position : PendingV3Checkpoint)
    (hrevision : snapshot.revision ≤ s.revision) : Cancelled snapshot (s.rolledBack position) :=
  ⟨validateSnapshot_of_older rfl (Nat.lt_succ_of_le hrevision), _, finishPublication_run_open _ rfl, rfl⟩

end Runs

/-- The snapshot is accepted, and finishing takes exactly the prefix `front` off the overlay. -/
def Publishable (snapshot : PendingV3Snapshot) (front s : PendingV3State) : Prop :=
  s.validateSnapshot snapshot = .ok () ∧ ∃ rest, finishPublication.run s = (.ok (), rest) ∧ Splits s front rest

theorem Uncancelled.publishable {s : PendingV3State} (hs : s.WellFormed) (hlater : Uncancelled s.froze later) :
    Publishable s.snapshot s (s.froze.after later) := by
  have hfroze := froze_wellFormed hs
  have hfull := after_wellFormed hfroze later
  have hfrozen : (s.froze.after later).frozen = some ⟨s.revision, s.endPos, s.snapshot.commitSequence⟩ :=
    hlater.extends.frozen
  have hsplit := hlater.extends.splits_finished hfroze
  exact ⟨validateSnapshot_of_frozen hfull hfrozen, _,
    finishPublication_run_frozen _ hfrozen (hfull.frozen _ hfrozen), hsplit.deltas, hsplit.manifests, hsplit.payloads⟩

/-- **Rolling back a successor cancels the publication, and the coordinator does not do it.**  For every state with a
frozen prefix (reached by any calls, a freeze and calls behind it that roll nothing back): the prefix is publishable; a
rollback to a position at or after the frozen end goes through while the revision counter lasts, and every one that goes
through cancels the publication; and whatever write the coordinator is given, with whatever batch, the prefix is still
publishable after it. -/
theorem successor_rollback_outcome (accepted : Sequence) (calls : List PendingCall) :
    let s := (PendingV3State.new accepted).after calls
    ∀ snapshot s₁, freeze.run s = (.ok snapshot, s₁) → ∀ later, Uncancelled s₁ later →
      Publishable snapshot s (s₁.after later) ∧
      (∀ position, Within s₁.endPos position (s₁.after later).endPos → (s₁.after later).revision + 1 < 2 ^ 64 →
        ∃ s', (rollback position).run (s₁.after later) = (.ok (), s')) ∧
      (∀ position s', (rollback position).run (s₁.after later) = (.ok (), s') → Cancelled snapshot s') ∧
      ∀ (Protection : Type) [DecidableEq Protection] (batch : CommitBatch Protection) (protection : Protection)
        (retainedCopy compactionDue : Bool) (deltas : List IndexDelta) (manifest : Option (ManifestId × TrustedManifest))
        (payload : Option PendingV3Payload),
        Publishable snapshot s
          ((enqueueWrite batch protection retainedCopy compactionDue deltas manifest payload).run (s₁.after later)).2 := by
  intro s snapshot s₁ hfreeze later hlater
  have hs : s.WellFormed := after_wellFormed (PendingV3State.new_wellFormed accepted) calls
  obtain ⟨-, rfl, rfl⟩ := (freeze_spec s).result hfreeze
  have hfroze := froze_wellFormed hs
  refine ⟨hlater.publishable hs, ?_, ?_, ?_⟩
  · intro position hposition hroom
    have hbase : (s.froze.after later).base = s.froze.base := hlater.extends.base
    have hstart := hfroze.within.le
    rw [← hbase] at hstart
    exact ⟨_, rollback_run _ ⟨⟨hstart.1.trans hposition.1.1, hposition.1.2⟩, ⟨hstart.2.1.trans hposition.2.1.1,
      hposition.2.1.2⟩, hstart.2.2.trans hposition.2.2.1, hposition.2.2.2⟩ hroom⟩
  · intro position s' hrun
    obtain ⟨-, rfl⟩ := (rollback_spec _ position).result hrun
    exact cancelled_of_rolledBack position (after_revision_le hfroze later)
  · intro Protection _ batch protection retainedCopy compactionDue deltas manifest payload
    rcases @enqueueWrite_state _ _ batch protection retainedCopy compactionDue (s.froze.after later) deltas manifest payload
      with hsame | hstaged
    · rw [hsame]
      exact hlater.publishable hs
    · have hsuccessor : (PendingCall.append deltas manifest payload).IsSuccessor := trivial
      have happended := (hlater.append hsuccessor).publishable hs
      rw [PendingV3State.after, List.foldl_append] at happended
      rw [hstaged]
      exact happended

/-- One operation is frozen.  A write of the batch's protection is staged behind it and one of another protection waits;
the prefix stays publishable, and a rollback of the staged write goes through and cancels it. -/
theorem successor_rollback_outcome_sample :
    let open' := (PendingV3State.new 0).after [.append [overlayTombstone 1] none none]
    let frozen := open'.after [.freeze]
    let write (protection : Bool) := enqueueWrite ⟨0, true, some true⟩ protection false false [overlayTombstone 2] none none
    (((write true).run frozen).1 = .ok true ∧ ((write false).run frozen).1 = .ok false) ∧
      Publishable open'.snapshot open' ((write true).run frozen).2 ∧
      Publishable open'.snapshot open' ((write false).run frozen).2 ∧
      ∃ s', (rollback frozen.endPos).run ((write true).run frozen).2 = (.ok (), s') ∧ Cancelled open'.snapshot s' := by
  intro open' frozen write
  have hfreeze : freeze.run open' = (.ok open'.snapshot, frozen) := rfl
  obtain ⟨-, -, -, hwrite⟩ := successor_rollback_outcome 0 [.append [overlayTombstone 1] none none] _ _ hfreeze [] trivial
  obtain ⟨-, hgoes, hcancels, -⟩ := successor_rollback_outcome 0 [.append [overlayTombstone 1] none none] _ _ hfreeze
    [.append [overlayTombstone 2] none none] ⟨.inl trivial, trivial⟩
  have hstaged : ((write true).run frozen).2 = frozen.after [.append [overlayTombstone 2] none none] := rfl
  obtain ⟨s', hrun⟩ := hgoes frozen.endPos (by unfold Within; decide +kernel) (by decide +kernel)
  exact ⟨⟨rfl, rfl⟩, hwrite Bool _ _ _ _ _ _ _, hwrite Bool _ _ _ _ _ _ _, s', hstaged ▸ hrun, hcancels _ _ hrun⟩

/-- One operation is frozen, one is staged behind it and rolled back: the overlay holds the frozen operation again, and
its snapshot is refused. -/
theorem rolled_back_successor_refused :
    let open' := (PendingV3State.new 0).after [.append [overlayTombstone 1] none none]
    let frozen := open'.after [.freeze]
    let staged := frozen.after [.append [overlayTombstone 2] none none]
    let rolledBack := staged.after [.rollback frozen.endPos]
    frozen.validateSnapshot open'.snapshot = .ok () ∧ staged.validateSnapshot open'.snapshot = .ok () ∧
      rolledBack.deltas = frozen.deltas ∧ rolledBack.endPos = frozen.endPos ∧
      rolledBack.validateSnapshot open'.snapshot = .error .statePoisoned := by
  decide +kernel

end Rs3.Service
