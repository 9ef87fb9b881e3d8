/-
# Rs3.Service.PendingOverlay — the three vectors behind the staging overlay.

`PendingV3State` of `v3/service/staging.rs` as the source keeps it: deltas, manifests and payloads in three vectors,
positions in them counted from the start of the process, a revision, and at most one frozen prefix.  A method that
returns early keeps what it wrote before, so the methods are computations on the state.

`base` and `endPos` are absolute, and each vector holds exactly what lies between them (`Retained`).  The rest follows
from what one call can do (`Step`): a freeze only ends by a rollback, a publication or a clear.
-/
import Rs3.Index.Staging
import Rs3.Lib.Atomic
import Rs3.Lib.Checked

namespace Rs3.Service

open List

open Index (IndexDelta ManifestId TrustedManifest PendingV3Payload RepositoryError maximumGeneration
  maxPendingOperations)

/-! ## State -/

/-- A position in each of the vectors. -/
structure PendingV3Checkpoint where
  deltasLen : ℕ
  manifestsLen : ℕ
  payloadsLen : ℕ
  deriving DecidableEq

structure FrozenPrefix where
  revision : ℕ
  endPos : PendingV3Checkpoint
  sequence : Option Sequence
  deriving DecidableEq

/-- The captured overlay, with the revision it was taken at. -/
structure PendingV3Snapshot extends Index.PendingV3Snapshot where
  revision : ℕ

structure PendingV3State where
  revision : ℕ
  base : PendingV3Checkpoint
  endPos : PendingV3Checkpoint
  frozen : Option FrozenPrefix
  allocationSequence : Sequence
  deltas : List IndexDelta
  manifests : List (ManifestId × TrustedManifest)
  payloads : List PendingV3Payload

abbrev PendingM := ExceptT RepositoryError (StateM PendingV3State)

/-- `maximum_delta_generation`. -/
def maximumDeltaGeneration (deltas : List IndexDelta) : Option Sequence :=
  maximumGeneration (deltas.map IndexDelta.generation)

def ensureBoundedAppend (current additional : ℕ) : Except RepositoryError Unit :=
  ensure ((checkedAdd 64 current additional).any fun next => next ≤ maxPendingOperations) .commitBackpressure

/-- A position counted from the consumed prefix. -/
def relative (value base stop : ℕ) : Except RepositoryError ℕ :=
  okOr ((checkedSub value base).filter fun _ => value ≤ stop) .statePoisoned

namespace PendingV3State

def new (acceptedSequence : Sequence) : PendingV3State := ⟨0, ⟨0, 0, 0⟩, ⟨0, 0, 0⟩, none, acceptedSequence, [], [], []⟩

variable (pending : PendingV3State)

def isEmpty : Bool := pending.deltas.isEmpty && pending.manifests.isEmpty && pending.payloads.isEmpty

def checkpoint : PendingV3Checkpoint := pending.endPos

def snapshot : PendingV3Snapshot :=
  { Index.PendingV3Snapshot.coalesce ⟨none, pending.deltas, pending.manifests, pending.payloads⟩ with
    revision := pending.revision }

def relativePosition (position : PendingV3Checkpoint) : Except RepositoryError PendingV3Checkpoint := do
  let deltasLen ← relative position.deltasLen pending.base.deltasLen pending.endPos.deltasLen
  let manifestsLen ← relative position.manifestsLen pending.base.manifestsLen pending.endPos.manifestsLen
  let payloadsLen ← relative position.payloadsLen pending.base.payloadsLen pending.endPos.payloadsLen
  return ⟨deltasLen, manifestsLen, payloadsLen⟩

def validateSnapshot (snapshot : PendingV3Snapshot) : Except RepositoryError Unit := do
  let (revision, sequence) ← match pending.frozen with
    | some frozen => do
      let _ ← pending.relativePosition frozen.endPos
      pure (frozen.revision, frozen.sequence)
    | none => pure (pending.revision, maximumDeltaGeneration pending.deltas)
  ensure (revision = snapshot.revision ∧ sequence = snapshot.commitSequence) .statePoisoned

end PendingV3State

/-! ## Methods -/

def allocateSequence : PendingM Sequence := do
  let pending ← get
  let next ← okOr pending.allocationSequence.checkedNext RepositoryError.sequenceOverflow
  set { pending with allocationSequence := next }
  return next

/-- Only one prefix may be frozen at a time. -/
def freeze : PendingM PendingV3Snapshot := do
  let pending ← get
  ensure (¬ (pending.frozen.isSome ∨ pending.isEmpty)) RepositoryError.statePoisoned
  let snapshot := pending.snapshot
  set { pending with frozen := some ⟨snapshot.revision, pending.endPos, snapshot.commitSequence⟩ }
  return snapshot

/-- One operation; the result is the checkpoint before it. -/
def appendOperation (deltas : List IndexDelta) (manifest : Option (ManifestId × TrustedManifest))
    (payload : Option PendingV3Payload) : PendingM PendingV3Checkpoint := do
  let pending ← get
  ensureBoundedAppend pending.deltas.length deltas.length
  ensureBoundedAppend pending.manifests.length manifest.toList.length
  ensureBoundedAppend pending.payloads.length payload.toList.length
  let nextRevision ← okOr (checkedAdd 64 pending.revision 1) RepositoryError.statePoisoned
  let deltasLen ← okOr (checkedAdd 64 pending.endPos.deltasLen deltas.length) RepositoryError.statePoisoned
  let manifestsLen ←
    okOr (checkedAdd 64 pending.endPos.manifestsLen manifest.toList.length) RepositoryError.statePoisoned
  let payloadsLen ← okOr (checkedAdd 64 pending.endPos.payloadsLen payload.toList.length) RepositoryError.statePoisoned
  modify fun s => { s with deltas := s.deltas ++ deltas }
  modify fun s => { s with manifests := s.manifests ++ manifest.toList }
  modify fun s => { s with payloads := s.payloads ++ payload.toList }
  modify fun s => { s with revision := nextRevision, endPos := ⟨deltasLen, manifestsLen, payloadsLen⟩ }
  return pending.checkpoint

/-- Allocated sequences are not given back. -/
def rollback (checkpoint : PendingV3Checkpoint) : PendingM Unit := do
  let pending ← get
  let position ← pending.relativePosition checkpoint
  let nextRevision ← okOr (checkedAdd 64 pending.revision 1) RepositoryError.statePoisoned
  modify fun s => { s with deltas := s.deltas.take position.deltasLen }
  modify fun s => { s with manifests := s.manifests.take position.manifestsLen }
  modify fun s => { s with payloads := s.payloads.take position.payloadsLen }
  modify fun s => { s with revision := nextRevision, endPos := checkpoint, frozen := none }

def clearAfterValidatedPublication : PendingM Unit :=
  modify fun s => { s with deltas := [], manifests := [], payloads := [], base := s.endPos, frozen := none }

/-- Consume the frozen prefix, or everything when none is frozen. -/
def finishPublication : PendingM Unit := do
  let pending ← get
  match pending.frozen with
  | some frozen =>
    let position ← pending.relativePosition frozen.endPos
    modify fun s => { s with deltas := s.deltas.drop position.deltasLen }
    modify fun s => { s with manifests := s.manifests.drop position.manifestsLen }
    modify fun s => { s with payloads := s.payloads.drop position.payloadsLen }
    modify fun s => { s with base := frozen.endPos, frozen := none }
  | none => clearAfterValidatedPublication

/-! ## One vector -/

variable {position base stop : ℕ}

section Retained

variable {α : Type} {base stop : ℕ} {items : List α}

/-- `items` is what a vector holds of the positions up to `stop` when those up to `base` are consumed. -/
structure Retained (base stop : ℕ) (items : List α) : Prop where
  count : base + items.length = stop
  bounded : items.length ≤ maxPendingOperations

theorem Retained.append (h : Retained base stop items) (hmore : items.length + more.length ≤ maxPendingOperations) :
    Retained base (stop + more.length) (items ++ more) := by
  have hcount := h.count
  constructor <;> simp only [length_append] <;> omega

theorem Retained.truncate (h : Retained base stop items) (hbase : base ≤ position)
    (hstop : position ≤ stop) : Retained base position (items.take (position - base)) := by
  obtain ⟨hcount, hbounded⟩ := h
  constructor <;> simp only [length_take] <;> omega

theorem Retained.drain (h : Retained base stop items) (hbase : base ≤ position)
    (hstop : position ≤ stop) : Retained position stop (items.drop (position - base)) := by
  obtain ⟨hcount, hbounded⟩ := h
  constructor <;> simp only [length_drop] <;> omega

theorem Retained.clear (stop : ℕ) : Retained stop stop ([] : List α) := ⟨rfl, Nat.zero_le _⟩

theorem Retained.drop_append (h : Retained base stop items) (more : List α) :
    (items ++ more).drop (stop - base) = more := by
  have hcount := h.count
  exact drop_left' (by omega)

end Retained

/-! ## Positions -/

/-- Every component lies between those of two positions. -/
def Within (base position stop : PendingV3Checkpoint) : Prop :=
  (base.deltasLen ≤ position.deltasLen ∧ position.deltasLen ≤ stop.deltasLen) ∧
    (base.manifestsLen ≤ position.manifestsLen ∧ position.manifestsLen ≤ stop.manifestsLen) ∧
    base.payloadsLen ≤ position.payloadsLen ∧ position.payloadsLen ≤ stop.payloadsLen

def PendingV3Checkpoint.since (position base : PendingV3Checkpoint) : PendingV3Checkpoint :=
  ⟨position.deltasLen - base.deltasLen, position.manifestsLen - base.manifestsLen,
    position.payloadsLen - base.payloadsLen⟩

theorem relative_eq_ok : relative value base stop = .ok r ↔ (base ≤ value ∧ value ≤ stop) ∧ value - base = r := by
  unfold relative
  rw [okOr_eq_ok, Option.filter_eq_some_iff, checkedSub_eq_some, decide_eq_true_iff]
  tauto

open PendingV3Checkpoint

theorem PendingV3State.relativePosition_eq_ok {pending : PendingV3State} {position r : PendingV3Checkpoint} :
    pending.relativePosition position = .ok r ↔
      Within pending.base position pending.endPos ∧ position.since pending.base = r := by
  simp only [relativePosition, ok_iff, relative_eq_ok, Within, since]
  constructor
  · intro h
    obtain ⟨_, ⟨hd, rfl⟩, _, ⟨hm, rfl⟩, _, ⟨hp, rfl⟩, rfl⟩ := h
    exact ⟨⟨hd, hm, hp⟩, rfl⟩
  · intro h
    exact ⟨_, ⟨h.1.1, rfl⟩, _, ⟨h.1.2.1, rfl⟩, _, ⟨h.1.2.2, rfl⟩, h.2⟩

theorem ensureBoundedAppend_eq_ok (u : Unit) :
    ensureBoundedAppend current additional = .ok u ↔ current + additional ≤ maxPendingOperations := by
  unfold ensureBoundedAppend
  rw [ensure_eq_ok, Option.any_eq_true]
  simp only [checkedAdd_eq_some, decide_eq_true_eq]
  constructor
  · intro h
    obtain ⟨_, ⟨_, rfl⟩, hle⟩ := h
    exact hle
  · intro h
    refine ⟨_, ⟨?_, rfl⟩, h⟩
    exact h.trans_lt (by decide)

/-! ## What the methods do -/

namespace PendingV3State

variable (s : PendingV3State)

def appended (deltas : List IndexDelta) (manifest : Option (ManifestId × TrustedManifest))
    (payload : Option PendingV3Payload) : PendingV3State :=
  { s with
    revision := s.revision + 1
    endPos := ⟨s.endPos.deltasLen + deltas.length, s.endPos.manifestsLen + manifest.toList.length,
      s.endPos.payloadsLen + payload.toList.length⟩
    deltas := s.deltas ++ deltas
    manifests := s.manifests ++ manifest.toList
    payloads := s.payloads ++ payload.toList }

def rolledBack (position : PendingV3Checkpoint) : PendingV3State :=
  { s with
    revision := s.revision + 1
    endPos := position
    frozen := none
    deltas := s.deltas.take (position.since s.base).deltasLen
    manifests := s.manifests.take (position.since s.base).manifestsLen
    payloads := s.payloads.take (position.since s.base).payloadsLen }

/-- After the operations before a position were published. -/
def finished (position : PendingV3Checkpoint) : PendingV3State :=
  { s with
    base := position
    frozen := none
    deltas := s.deltas.drop (position.since s.base).deltasLen
    manifests := s.manifests.drop (position.since s.base).manifestsLen
    payloads := s.payloads.drop (position.since s.base).payloadsLen }

def cleared : PendingV3State :=
  { s with deltas := [], manifests := [], payloads := [], base := s.endPos, frozen := none }

def froze : PendingV3State := { s with frozen := some ⟨s.revision, s.endPos, s.snapshot.commitSequence⟩ }

end PendingV3State

section Methods

variable (s : PendingV3State)

theorem allocateSequence_spec :
    Atomically allocateSequence s fun next s' =>
      s.allocationSequence.checkedNext = some next ∧ s' = { s with allocationSequence := next } := by
  refine .bind_get (.bind_check fun next hnext => .of_run rfl ⟨?_, rfl⟩)
  exact okOr_eq_ok.mp hnext

theorem freeze_spec :
    Atomically freeze s fun snapshot s' =>
      (s.frozen = none ∧ s.isEmpty = false) ∧ snapshot = s.snapshot ∧ s' = s.froze := by
  refine .bind_get (.bind_check fun _ hcheck => .of_run rfl ⟨?_, rfl, rfl⟩)
  have hfree := ensure_eq_ok.mp hcheck
  simpa using hfree

/-- Either an operation fits every vector and is appended, or nothing changes. -/
theorem appendOperation_spec (deltas : List IndexDelta) (manifest : Option (ManifestId × TrustedManifest))
    (payload : Option PendingV3Payload) :
    Atomically (appendOperation deltas manifest payload) s fun checkpoint s' =>
      (s.deltas.length + deltas.length ≤ maxPendingOperations ∧
        s.manifests.length + manifest.toList.length ≤ maxPendingOperations ∧
        s.payloads.length + payload.toList.length ≤ maxPendingOperations) ∧
        checkpoint = s.checkpoint ∧ s' = s.appended deltas manifest payload := by
  refine .bind_get (.bind_check fun _ hdeltas => .bind_check fun _ hmanifest => .bind_check fun _ hpayload => ?_)
  refine .bind_check fun revision hrevision => .bind_check fun dl hdl => .bind_check fun ml hml => ?_
  refine .bind_check fun pl hpl => ?_
  simp only [okOr_eq_ok, checkedAdd_eq_some] at hrevision hdl hml hpl
  obtain ⟨⟨_, rfl⟩, ⟨_, rfl⟩, ⟨_, rfl⟩, ⟨_, rfl⟩⟩ := And.intro hrevision (And.intro hdl (And.intro hml hpl))
  refine .of_run rfl ⟨⟨?_, ?_, ?_⟩, rfl, rfl⟩
  · exact (ensureBoundedAppend_eq_ok ()).mp hdeltas
  · exact (ensureBoundedAppend_eq_ok ()).mp hmanifest
  · exact (ensureBoundedAppend_eq_ok ()).mp hpayload

/-- A rollback to a retained position succeeds until the revisions run out. -/
theorem rollback_spec (position : PendingV3Checkpoint) :
    Atomically (rollback position) s fun _ s' => Within s.base position s.endPos ∧ s' = s.rolledBack position := by
  refine .bind_get (.bind_check fun relative hrelative => .bind_check fun revision hrevision => ?_)
  obtain ⟨hwithin, rfl⟩ := PendingV3State.relativePosition_eq_ok.mp hrelative
  simp only [okOr_eq_ok, checkedAdd_eq_some] at hrevision
  obtain ⟨_, rfl⟩ := hrevision
  exact .of_run rfl ⟨hwithin, rfl⟩

theorem rollback_run {position : PendingV3Checkpoint} (hwithin : Within s.base position s.endPos)
    (hrevision : s.revision + 1 < 2 ^ 64) : (rollback position).run s = (.ok (), s.rolledBack position) := by
  have hrelative := PendingV3State.relativePosition_eq_ok.mpr ⟨hwithin, rfl⟩
  have hnext : checkedAdd 64 s.revision 1 = some (s.revision + 1) := checkedAdd_eq_some.mpr ⟨hrevision, rfl⟩
  show ((liftM (s.relativePosition position) : PendingM _) >>= _).run s = _
  rw [hrelative, hnext]
  rfl

theorem finishPublication_run_frozen (hfrozen : s.frozen = some frozen)
    (hwithin : Within s.base frozen.endPos s.endPos) :
    finishPublication.run s = (.ok (), s.finished frozen.endPos) := by
  have hrelative := PendingV3State.relativePosition_eq_ok.mpr ⟨hwithin, rfl⟩
  show ExceptT.run (match s.frozen with | some frozen => _ | none => _ : PendingM Unit) s = _
  rw [hfrozen]
  show ((liftM (s.relativePosition frozen.endPos) : PendingM _) >>= _).run s = _
  rw [hrelative]
  rfl

theorem finishPublication_run_open (hfrozen : s.frozen = none) : finishPublication.run s = (.ok (), s.cleared) := by
  show ExceptT.run (match s.frozen with | some frozen => _ | none => _ : PendingM Unit) s = _
  rw [hfrozen]
  rfl

end Methods

/-! ## Calls -/

/-- A call of one of the methods, with its arguments. -/
inductive PendingCall where
  | allocate
  | append (deltas : List IndexDelta) (manifest : Option (ManifestId × TrustedManifest))
      (payload : Option PendingV3Payload)
  | freeze
  | rollback (checkpoint : PendingV3Checkpoint)
  | finishPublication
  | clear

namespace PendingCall

/-- The sequence that a call hands out, if it is an allocation. -/
def run : PendingCall → PendingM (Option Sequence)
  | allocate => some <$> allocateSequence
  | append deltas manifest payload => (fun _ => none) <$> appendOperation deltas manifest payload
  | freeze => (fun _ => none) <$> Service.freeze
  | rollback checkpoint => (fun _ => none) <$> Service.rollback checkpoint
  | finishPublication => (fun _ => none) <$> Service.finishPublication
  | clear => (fun _ => none) <$> clearAfterValidatedPublication

/-- The calls that stage further operations behind a frozen prefix. -/
def IsSuccessor : PendingCall → Prop
  | allocate => True
  | append _ _ _ => True
  | freeze => False
  | rollback _ => False
  | finishPublication => False
  | clear => False

end PendingCall

namespace PendingV3State

def step (s : PendingV3State) (call : PendingCall) : PendingV3State := (call.run.run s).2

def after (s : PendingV3State) (calls : List PendingCall) : PendingV3State := calls.foldl step s

/-- The sequences handed out by a list of calls, in order. -/
def allocated : PendingV3State → List PendingCall → List Sequence
  | _, [] => []
  | s, call :: calls => ((call.run.run s).1.toOption.join).toList ++ allocated (s.step call) calls

end PendingV3State

/-- What a call can do to the state. -/
inductive Step (s : PendingV3State) : PendingV3State → Prop
  | unchanged : Step s s
  | allocated {next : Sequence} : s.allocationSequence.checkedNext = some next →
      Step s { s with allocationSequence := next }
  | appended {deltas : List IndexDelta} {manifest : Option (ManifestId × TrustedManifest)}
      {payload : Option PendingV3Payload} :
      s.deltas.length + deltas.length ≤ maxPendingOperations →
      s.manifests.length + manifest.toList.length ≤ maxPendingOperations →
      s.payloads.length + payload.toList.length ≤ maxPendingOperations →
      Step s (s.appended deltas manifest payload)
  | froze : Step s s.froze
  | rolledBack {position : PendingV3Checkpoint} : Within s.base position s.endPos → Step s (s.rolledBack position)
  | finished {position : PendingV3Checkpoint} : Within s.base position s.endPos → Step s (s.finished position)
  | cleared : Step s s.cleared

/-- The invariant of the overlay. -/
structure PendingV3State.WellFormed (s : PendingV3State) : Prop where
  deltas : Retained s.base.deltasLen s.endPos.deltasLen s.deltas
  manifests : Retained s.base.manifestsLen s.endPos.manifestsLen s.manifests
  payloads : Retained s.base.payloadsLen s.endPos.payloadsLen s.payloads
  frozen : ∀ f, s.frozen = some f → Within s.base f.endPos s.endPos

theorem PendingV3State.WellFormed.within {s : PendingV3State} (h : s.WellFormed) : Within s.base s.endPos s.endPos := by
  have hd := h.deltas.count
  have hm := h.manifests.count
  have hp := h.payloads.count
  unfold Within
  omega

theorem PendingV3State.new_wellFormed (accepted : Sequence) : (PendingV3State.new accepted).WellFormed where
  deltas := .clear 0
  manifests := .clear 0
  payloads := .clear 0
  frozen := by
    intro f hf
    cases hf

section Runs

variable {s s' : PendingV3State}

variable {α : Type}

theorem run_map_snd {β : Type} (f : α → β) (m : PendingM α) (s : PendingV3State) : ((f <$> m).run s).2 = (m.run s).2 := by
  rw [map_eq_pure_bind, run_bind_state]
  rcases m.run s with ⟨_ | _, _⟩ <;> rfl

/-- A method that fails without effect makes the step its postcondition describes. -/
theorem Step.of_spec {m : PendingM α} {Q : α → PendingV3State → Prop} {f : α → Option Sequence}
    (hspec : Atomically m s Q) (hstep : ∀ a s', Q a s' → Step s s') : Step s ((f <$> m).run s).2 := by
  rw [run_map_snd]
  rcases hspec.state_cases with hsame | ⟨a, hQ⟩
  · rw [hsame]
    exact .unchanged
  · exact hstep a _ hQ

theorem step_step (h : s.WellFormed) (call : PendingCall) : Step s (s.step call) := by
  cases call with
  | allocate =>
    refine Step.of_spec (allocateSequence_spec s) fun next s' hnext => ?_
    rw [hnext.2]
    exact .allocated hnext.1
  | append deltas manifest payload =>
    refine Step.of_spec (appendOperation_spec s deltas manifest payload) fun _ s' happend => ?_
    obtain ⟨⟨hd, hm, hp⟩, _, rfl⟩ := happend
    exact .appended hd hm hp
  | freeze =>
    refine Step.of_spec (freeze_spec s) fun _ s' hfreeze => ?_
    rw [hfreeze.2.2]
    exact .froze
  | rollback position =>
    refine Step.of_spec (rollback_spec s position) fun _ s' hrollback => ?_
    rw [hrollback.2]
    exact .rolledBack hrollback.1
  | finishPublication =>
    show Step s ((((fun _ => none) <$> finishPublication : PendingM (Option Sequence)).run s).2)
    rw [run_map_snd]
    cases hfrozen : s.frozen with
    | none =>
      rw [finishPublication_run_open s hfrozen]
      exact .cleared
    | some f =>
      rw [finishPublication_run_frozen s hfrozen (h.frozen f hfrozen)]
      exact .finished (h.frozen f hfrozen)
  | clear => exact .cleared

theorem Step.wellFormed (hstep : Step s s') (h : s.WellFormed) : s'.WellFormed := by
  cases hstep with
  | unchanged => exact h
  | allocated _ => exact ⟨h.deltas, h.manifests, h.payloads, h.frozen⟩
  | appended hd hm hp =>
    refine ⟨h.deltas.append hd, h.manifests.append hm, h.payloads.append hp, ?_⟩
    intro f hf
    have hfrozen := h.frozen f hf
    unfold Within at hfrozen ⊢
    simp only [PendingV3State.appended]
    omega
  | froze =>
    refine ⟨h.deltas, h.manifests, h.payloads, ?_⟩
    intro f hf
    obtain rfl := Option.some.inj hf
    exact h.within
  | rolledBack hw =>
    refine ⟨h.deltas.truncate hw.1.1 hw.1.2, h.manifests.truncate hw.2.1.1 hw.2.1.2,
      h.payloads.truncate hw.2.2.1 hw.2.2.2, ?_⟩
    intro f hf
    cases hf
  | finished hw =>
    refine ⟨h.deltas.drain hw.1.1 hw.1.2, h.manifests.drain hw.2.1.1 hw.2.1.2, h.payloads.drain hw.2.2.1 hw.2.2.2, ?_⟩
    intro f hf
    cases hf
  | cleared =>
    refine ⟨.clear _, .clear _, .clear _, ?_⟩
    intro f hf
    cases hf

theorem after_wellFormed (h : s.WellFormed) (calls : List PendingCall) : (s.after calls).WellFormed := by
  induction calls generalizing s with
  | nil => exact h
  | cons call calls ih => exact ih ((step_step h call).wellFormed h)

/-! ## Allocation -/

theorem Step.allocation_le (hstep : Step s s') : s.allocationSequence ≤ s'.allocationSequence := by
  cases hstep with
  | allocated hnext => exact Nat.le_of_lt (U64.lt_checkedNext hnext)
  | _ => exact U64.le_def.mpr le_rfl

/-- Only an allocation hands out a sequence, and that one is the cursor afterwards. -/
theorem run_allocates (call : PendingCall) {next : Sequence} (h : (call.run.run s).1.toOption.join = some next) :
    s.allocationSequence < next ∧ (s.step call).allocationSequence = next := by
  have hsilent : ∀ {α : Type} (m : PendingM α),
      (((fun _ => none) <$> m : PendingM (Option Sequence)).run s).1.toOption.join ≠ some next := by
    intro α m
    rw [map_eq_pure_bind, run_bind_state]
    rcases m.run s with ⟨_ | _, _⟩ <;> exact Option.some_ne_none next |>.symm
  cases call with
  | allocate =>
    have hspec := allocateSequence_spec s
    unfold PendingV3State.step
    simp only [PendingCall.run, map_eq_pure_bind, run_bind_state] at h ⊢
    rcases hrun : allocateSequence.run s with ⟨_ | got, s'⟩ <;> rw [hrun] at h
    · cases h
    · obtain rfl := Option.some.inj h
      obtain ⟨hnext, rfl⟩ := hspec.result hrun
      exact ⟨U64.lt_checkedNext hnext, rfl⟩
  | append deltas manifest payload => exact absurd h (hsilent _)
  | freeze => exact absurd h (hsilent _)
  | rollback position => exact absurd h (hsilent _)
  | finishPublication => exact absurd h (hsilent _)
  | clear => exact absurd h (hsilent _)

/-- Every sequence handed out is above the cursor at the start, and above all that were handed out before it. -/
theorem allocated_increasing (h : s.WellFormed) (calls : List PendingCall) :
    (∀ x ∈ s.allocated calls, s.allocationSequence < x) ∧ (s.allocated calls).Pairwise (· < ·) := by
  induction calls generalizing s with
  | nil => exact ⟨by simp [PendingV3State.allocated], .nil⟩
  | cons call calls ih =>
    have hstep := step_step h call
    obtain ⟨habove, hincreasing⟩ := ih (hstep.wellFormed h)
    have hrest : ∀ x ∈ (s.step call).allocated calls, s.allocationSequence < x := by
      intro x hx
      exact U64.lt_def.mpr (Nat.lt_of_le_of_lt (U64.le_def.mp hstep.allocation_le) (U64.lt_def.mp (habove x hx)))
    rw [PendingV3State.allocated]
    cases hnext : (call.run.run s).1.toOption.join with
    | none => exact ⟨hrest, hincreasing⟩
    | some next =>
      obtain ⟨hlt, hcursor⟩ := run_allocates call hnext
      rw [hcursor] at habove
      exact ⟨forall_mem_cons.mpr ⟨hlt, hrest⟩, .cons habove hincreasing⟩

/-! ## A frozen prefix and its successors -/

/-- `s'` stages further operations behind those of `s`. -/
structure Extends (s s' : PendingV3State) : Prop where
  base : s'.base = s.base
  frozen : s'.frozen = s.frozen
  deltas : s.deltas <+: s'.deltas
  manifests : s.manifests <+: s'.manifests
  payloads : s.payloads <+: s'.payloads

theorem Extends.refl (s : PendingV3State) : Extends s s := ⟨rfl, rfl, prefix_rfl, prefix_rfl, prefix_rfl⟩

theorem Extends.trans (h : Extends s₁ s₂) (h' : Extends s₂ s₃) : Extends s₁ s₃ :=
  ⟨h'.base.trans h.base, h'.frozen.trans h.frozen, h.deltas.trans h'.deltas, h.manifests.trans h'.manifests,
    h.payloads.trans h'.payloads⟩

theorem step_extends (hcall : call.IsSuccessor) : Extends s (s.step call) := by
  cases call with
  | allocate =>
    show Extends s (((some <$> allocateSequence : PendingM _).run s).2)
    rw [run_map_snd]
    rcases (allocateSequence_spec s).state_cases with hsame | ⟨_, _, hstate⟩
    · rw [hsame]
      exact .refl s
    · rw [hstate]
      exact ⟨rfl, rfl, prefix_rfl, prefix_rfl, prefix_rfl⟩
  | append deltas manifest payload =>
    show Extends s ((((fun _ => none) <$> appendOperation deltas manifest payload : PendingM (Option Sequence)).run s).2)
    rw [run_map_snd]
    rcases (appendOperation_spec s deltas manifest payload).state_cases with hsame | ⟨_, _, _, hstate⟩
    · rw [hsame]
      exact .refl s
    · rw [hstate]
      exact ⟨rfl, rfl, prefix_append _ _, prefix_append _ _, prefix_append _ _⟩
  | freeze => exact hcall.elim
  | rollback _ => exact hcall.elim
  | finishPublication => exact hcall.elim
  | clear => exact hcall.elim

theorem after_extends (hcalls : ∀ call ∈ calls, call.IsSuccessor) : Extends s (s.after calls) := by
  induction calls generalizing s with
  | nil => exact .refl s
  | cons call calls ih =>
    rw [forall_mem_cons] at hcalls
    exact (step_extends hcalls.1).trans (ih hcalls.2)

/-- The vectors of `whole` are those of `front` followed by those of `rest`. -/
structure Splits (whole front rest : PendingV3State) : Prop where
  deltas : whole.deltas = front.deltas ++ rest.deltas
  manifests : whole.manifests = front.manifests ++ rest.manifests
  payloads : whole.payloads = front.payloads ++ rest.payloads

theorem Retained.prefix_le (h : Retained base stop items)
    (h' : Retained base stop' items') (hgrows : items <+: items') : stop ≤ stop' := by
  have hcount := h.count
  have hcount' := h'.count
  have hlength := hgrows.length_le
  omega

/-- Draining what a vector held before it was extended leaves the extension. -/
theorem Retained.append_drop (h : Retained base stop items)
    (hgrows : items <+: items') : items' = items ++ items'.drop (stop - base) := by
  obtain ⟨more, rfl⟩ := hgrows
  rw [h.drop_append]

/-- Truncating the extension to an earlier end of the vector leaves what had been added by then. -/
theorem Retained.append_take_drop
    (h : Retained base stop items) (h' : Retained base middle items') (hgrows : items <+: items')
    (hlater : items' <+: items'') :
    items' = items ++ (items''.drop (stop - base)).take (middle - stop) := by
  obtain ⟨more, rfl⟩ := hgrows
  obtain ⟨more', rfl⟩ := hlater
  have hcount := h.count
  have hcount' := h'.count
  rw [length_append] at hcount'
  rw [append_assoc, h.drop_append, take_left' (by omega)]

variable {sm : PendingV3State}

theorem Extends.within (hs : s.WellFormed) (hs' : s'.WellFormed) (h : Extends s s') :
    Within s.base s.endPos s'.endPos := by
  have hd := hs'.deltas
  have hm := hs'.manifests
  have hp := hs'.payloads
  rw [h.base] at hd hm hp
  exact ⟨⟨hs.within.1.1, hs.deltas.prefix_le hd h.deltas⟩, ⟨hs.within.2.1.1, hs.manifests.prefix_le hm h.manifests⟩,
    hs.within.2.2.1, hs.payloads.prefix_le hp h.payloads⟩

theorem Extends.splits_finished (hs : s.WellFormed) (h : Extends s s') : Splits s' s (s'.finished s.endPos) := by
  unfold PendingV3State.finished since
  rw [h.base]
  exact ⟨hs.deltas.append_drop h.deltas, hs.manifests.append_drop h.manifests, hs.payloads.append_drop h.payloads⟩

theorem Extends.splits_rolledBack (hs : s.WellFormed) (hm : sm.WellFormed) (h : Extends s sm) (h' : Extends sm s₂) :
    Splits sm s ((s₂.finished s.endPos).rolledBack sm.endPos) := by
  have hmd := hm.deltas
  have hmm := hm.manifests
  have hmp := hm.payloads
  unfold PendingV3State.rolledBack PendingV3State.finished since
  rw [h.base] at hmd hmm hmp
  rw [h'.base, h.base]
  exact ⟨hs.deltas.append_take_drop hmd h.deltas h'.deltas, hs.manifests.append_take_drop hmm h.manifests h'.manifests,
    hs.payloads.append_take_drop hmp h.payloads h'.payloads⟩

/-- The snapshot of a freeze is accepted as long as the freeze lasts. -/
theorem validateSnapshot_of_frozen (h : s'.WellFormed)
    (hfrozen : s'.frozen = some ⟨s.revision, s.endPos, s.snapshot.commitSequence⟩) :
    s'.validateSnapshot s.snapshot = .ok () := by
  have hrelative := PendingV3State.relativePosition_eq_ok.mpr ⟨h.frozen _ hfrozen, rfl⟩
  unfold PendingV3State.validateSnapshot
  rw [hfrozen]
  simp only [hrelative, ok_bind]
  exact ensure_of ⟨rfl, rfl⟩

theorem froze_wellFormed (h : s.WellFormed) : s.froze.WellFormed := Step.froze.wellFormed h

/-- A published prefix leaves exactly its successors, and every checkpoint taken since the freeze still undoes
exactly the operations staged after it. -/
theorem finish_keeps_successors (hs : s.WellFormed)
    (hbefore : ∀ call ∈ before, call.IsSuccessor) (hlater : ∀ call ∈ later, call.IsSuccessor) :
    let middle := s.froze.after before
    let full := middle.after later
    let rest := full.finished s.endPos
    full.validateSnapshot s.snapshot = .ok () ∧ finishPublication.run full = (.ok (), rest) ∧ Splits full s rest ∧
      Within rest.base middle.checkpoint rest.endPos ∧
      (rest.revision + 1 < 2 ^ 64 →
        (rollback middle.checkpoint).run rest = (.ok (), rest.rolledBack middle.checkpoint)) ∧
      Splits middle s (rest.rolledBack middle.checkpoint) := by
  intro middle full rest
  have hfroze := froze_wellFormed hs
  have hmiddle : middle.WellFormed := after_wellFormed hfroze before
  have hfull : full.WellFormed := after_wellFormed hmiddle later
  have hext : Extends s.froze middle := after_extends hbefore
  have hext' : Extends middle full := after_extends hlater
  have hfrozen : full.frozen = some ⟨s.revision, s.endPos, s.snapshot.commitSequence⟩ := hext'.frozen.trans hext.frozen
  have hwithin : Within rest.base middle.checkpoint rest.endPos := by
    have hsm := hext.within hfroze hmiddle
    have hmf := hext'.within hmiddle hfull
    exact ⟨⟨hsm.1.2, hmf.1.2⟩, ⟨hsm.2.1.2, hmf.2.1.2⟩, hsm.2.2.2, hmf.2.2.2⟩
  refine ⟨validateSnapshot_of_frozen hfull hfrozen, ?_, ?_, hwithin, ?_, ?_⟩
  · exact finishPublication_run_frozen full hfrozen (hfull.frozen _ hfrozen)
  · have hsplit := (hext.trans hext').splits_finished hfroze
    exact ⟨hsplit.deltas, hsplit.manifests, hsplit.payloads⟩
  · exact rollback_run rest hwithin
  · have hsplit := Extends.splits_rolledBack hfroze hmiddle hext hext'
    exact ⟨hsplit.deltas, hsplit.manifests, hsplit.payloads⟩

end Runs

/-- The overlay after any calls. -/
theorem pending_overlay_state_machine (accepted : Sequence) (calls : List PendingCall) :
    let s := (PendingV3State.new accepted).after calls
    (Retained s.base.deltasLen s.endPos.deltasLen s.deltas ∧
      Retained s.base.manifestsLen s.endPos.manifestsLen s.manifests ∧
      Retained s.base.payloadsLen s.endPos.payloadsLen s.payloads) ∧
    ((∀ x ∈ (PendingV3State.new accepted).allocated calls, accepted < x) ∧
      ((PendingV3State.new accepted).allocated calls).Pairwise (· < ·)) ∧
    (∀ deltas manifest payload e s', (appendOperation deltas manifest payload).run s = (.error e, s') → s' = s) ∧
    (∀ snapshot s₁, freeze.run s = (.ok snapshot, s₁) → ∀ before later : List PendingCall,
      (∀ call ∈ before, call.IsSuccessor) → (∀ call ∈ later, call.IsSuccessor) →
        let middle := s₁.after before
        let full := middle.after later
        full.validateSnapshot snapshot = .ok () ∧
          ∃ rest, finishPublication.run full = (.ok (), rest) ∧ Splits full s rest ∧
            Within rest.base middle.checkpoint rest.endPos ∧
            (rest.revision + 1 < 2 ^ 64 → ∃ undone, (rollback middle.checkpoint).run rest = (.ok (), undone) ∧
              Splits middle s undone)) ∧
    (∀ checkpoint s', (rollback checkpoint).run s = (.ok (), s') → s'.frozen = none) ∧
    (s.frozen = none → ∃ s', finishPublication.run s = (.ok (), s') ∧ s'.isEmpty = true ∧ s'.base = s.endPos) := by
  intro s
  have hs : s.WellFormed := after_wellFormed (PendingV3State.new_wellFormed accepted) calls
  refine ⟨⟨hs.deltas, hs.manifests, hs.payloads⟩, ?_, ?_, ?_, ?_, ?_⟩
  · exact allocated_increasing (PendingV3State.new_wellFormed accepted) calls
  · intro deltas manifest payload e s' hrun
    exact (appendOperation_spec s deltas manifest payload).unchanged hrun
  · intro snapshot s₁ hfreeze before later hbefore hlater
    obtain ⟨-, rfl, rfl⟩ := (freeze_spec s).result hfreeze
    obtain ⟨hvalid, hfinish, hsplit, hwithin, hrollback, hundone⟩ := finish_keeps_successors hs hbefore hlater
    exact ⟨hvalid, _, hfinish, hsplit, hwithin, fun hrevision => ⟨_, hrollback hrevision, hundone⟩⟩
  · intro checkpoint s' hrun
    rw [((rollback_spec s checkpoint).result hrun).2]
    rfl
  · intro hfrozen
    exact ⟨_, finishPublication_run_open s hfrozen, rfl, rfl⟩

/-! ## A freeze does not survive a rollback of its successors -/

def overlayTombstone (generation : Sequence) : IndexDelta :=
  .tombstone ⟨"overlay-namespace", by decide⟩ ⟨"overlay-blind", by decide⟩ ⟨"overlay/path", by decide⟩ generation

/-- One operation is frozen and two are staged behind it; the second of those is undone. -/
def overlayCalls : List PendingCall :=
  [.append [overlayTombstone 1] none none, .freeze, .append [overlayTombstone 2] none none,
    .append [overlayTombstone 3] none none, .rollback ⟨2, 0, 0⟩]

/-- The first successor is still staged when the publication finishes, and goes with the frozen prefix. -/
theorem finish_drops_successor :
    ((PendingV3State.new 0).after overlayCalls).deltas = [overlayTombstone 1, overlayTombstone 2] ∧
      ((PendingV3State.new 0).after (overlayCalls ++ [.finishPublication])).deltas = [] := by
  decide +kernel

end Rs3.Service
