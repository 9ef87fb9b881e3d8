/-
# Rs3.K8s.Lease — the Kubernetes Lease object and what the writer coordination reads and writes on it.

The pure half of `rs3-k8s/src/lease_guard.rs`: counters live in string annotations, the holder and the
duration in the spec.  Functions keep the source's names and its order of checks.  Durations and
monotonic clock readings are counted in nanoseconds.  The object's `resourceVersion` is not a field: it
travels beside the object as the revision of the register library.
-/
import Rs3.Lib.Text
import Rs3.Lib.Fallible

namespace Rs3.K8s

open Std (ExtTreeMap)

/-! ## The object -/

/-- Wall-clock time; written for interoperability and never compared. -/
abbrev Timestamp := Int

abbrev Annotations := ExtTreeMap String String

structure LeaseSpec where
  holderIdentity : Option String
  leaseDurationSeconds : Option Int
  acquireTime : Option Timestamp
  renewTime : Option Timestamp
  leaseTransitions : Option Int

/-- `LeaseSpec::default()`. -/
def LeaseSpec.default : LeaseSpec := ⟨none, none, none, none, none⟩

structure Lease where
  name : Option String
  annotations : Option Annotations
  spec : Option LeaseSpec

namespace Lease

variable (lease : Lease)

def annotationText (key : String) : Option String := lease.annotations.bind fun m => m[key]?

/-- `spec.holder_identity`, absent without a spec. -/
def holder : Option String := lease.spec.bind LeaseSpec.holderIdentity

/-- `metadata.annotations.get_or_insert_with(BTreeMap::new)` followed by an edit of the map. -/
def editAnnotations (f : Annotations → Annotations) : Lease :=
  { lease with annotations := some (f (lease.annotations.getD ∅)) }

theorem annotationText_eq_getD (key : String) : lease.annotationText key = (lease.annotations.getD ∅)[key]? := by
  cases h : lease.annotations with
  | none => simp [annotationText, h]
  | some m => simp [annotationText, h]

/-- An edit that leaves a key alone leaves its annotation alone. -/
theorem annotationText_editAnnotations_of_eq {f : Annotations → Annotations}
    (hf : ∀ m : Annotations, (f m)[key]? = m[key]?) :
    (lease.editAnnotations f).annotationText key = lease.annotationText key := by
  rw [annotationText_eq_getD lease]
  exact hf _

end Lease

theorem getElem?_insert_eq (m : Annotations) (k a v : String) :
    (m.insert k v)[a]? = if k = a then some v else m[a]? := by
  rw [ExtTreeMap.getElem?_insert]
  simp only [Std.compare_eq_iff_eq]

theorem getElem?_erase_eq (m : Annotations) (k a : String) : (m.erase k)[a]? = if k = a then none else m[a]? := by
  rw [ExtTreeMap.getElem?_erase]
  simp only [Std.compare_eq_iff_eq]

/-! ## Errors, claims and counters -/

/-- Errors raised by Lease guard operations. -/
inductive LeaseGuardError where
  | heldByOther
  | heldByLiveWriter
  | lostLease
  | updateConflictLimit
  | conflict
  | apiUnavailable
  | invalidConfig
  | invalidLease
  deriving DecidableEq, Repr

def writerFenceAnnotationKey : String := "rs3.rs/writer-fence"
def writerRenewalAnnotationKey : String := "rs3.rs/writer-renewal"

theorem writerFence_ne_writerRenewal : writerFenceAnnotationKey ≠ writerRenewalAnnotationKey := by decide

/-- One writer epoch: who holds the Lease, under which fencing token. -/
structure WriterFenceClaim where
  holderIdentity : String
  token : ℕ
  deriving DecidableEq, Repr

/-- `checked_add(1)` on an unsigned 64-bit counter. -/
def checkedAddOne (n : ℕ) : Except LeaseGuardError ℕ := if n + 1 < 2 ^ 64 then .ok (n + 1) else .error .invalidLease

/-- `duration_seconds_i32`. -/
def durationSecondsI32 (duration : ℕ) : Except LeaseGuardError Int :=
  if duration = 0 ∨ duration % 1000000000 ≠ 0 then .error .invalidConfig
  else if duration / 1000000000 < 2 ^ 31 then .ok (duration / 1000000000 : ℕ)
  else .error .invalidConfig

/-- An absent counter reads as zero, a malformed one is an error. -/
def parseCounterAnnotation (lease : Lease) (key : String) : Except LeaseGuardError ℕ :=
  match lease.annotationText key with
  | none => .ok 0
  | some value =>
    match Text.parseU64 value with
    | some n => .ok n
    | none => .error .invalidLease

variable {lease lease' : Lease} {claim : WriterFenceClaim} {wall : Timestamp}

variable {key : String} {d renewal : ℕ}

theorem parseCounterAnnotation_lt (h : parseCounterAnnotation lease key = .ok n) : n < 2 ^ 64 := by
  unfold parseCounterAnnotation at h
  split at h
  · cases h
    decide
  · split at h
    · rename_i hv
      cases h
      exact Text.parseU64_lt hv
    · cases h

/-! ## Reading the coordination state -/

structure LeaseCoordinationState where
  holderIdentity : Option String
  fenceToken : ℕ
  renewal : ℕ
  leaseDuration : ℕ
  leaseDurationSeconds : Int
  deriving DecidableEq, Repr

structure LeaseObservation where
  holderIdentity : String
  fenceToken : ℕ
  renewal : ℕ
  leaseDurationSeconds : Int
  deriving DecidableEq, Repr

def LeaseCoordinationState.observation (current : LeaseCoordinationState) : Option LeaseObservation :=
  current.holderIdentity.map fun holder =>
    ⟨holder, current.fenceToken, current.renewal, current.leaseDurationSeconds⟩

/-- The duration field of a coordination read. -/
def coordinationSeconds (lease : Lease) (defaultLeaseDuration : ℕ) : Except LeaseGuardError Int :=
  match lease.spec.bind LeaseSpec.leaseDurationSeconds with
  | some seconds => if 0 < seconds then .ok seconds else .error .invalidLease
  | none => durationSecondsI32 defaultLeaseDuration

def leaseCoordinationState (lease : Lease) (defaultLeaseDuration : ℕ) :
    Except LeaseGuardError LeaseCoordinationState := do
  let fenceToken ← parseCounterAnnotation lease writerFenceAnnotationKey
  let renewal ← parseCounterAnnotation lease writerRenewalAnnotationKey
  let seconds ← coordinationSeconds lease defaultLeaseDuration
  return ⟨lease.holder, fenceToken, renewal, seconds.toNat * 1000000000, seconds⟩

/-- A successful coordination read, field by field. -/
theorem leaseCoordinationState_ok (h : leaseCoordinationState lease d = .ok current) :
    parseCounterAnnotation lease writerFenceAnnotationKey = .ok current.fenceToken ∧
      parseCounterAnnotation lease writerRenewalAnnotationKey = .ok current.renewal ∧
      coordinationSeconds lease d = .ok current.leaseDurationSeconds ∧
      current.holderIdentity = lease.holder ∧
      current.leaseDuration = current.leaseDurationSeconds.toNat * 1000000000 := by
  unfold leaseCoordinationState at h
  simp only [ok_iff] at h
  obtain ⟨token, hf, renewal, hr, seconds, hs, rfl⟩ := h
  exact ⟨hf, hr, hs, rfl, rfl⟩

def leaseHoldsClaim (lease : Lease) (claim : WriterFenceClaim) : Except LeaseGuardError Bool := do
  let current ← leaseCoordinationState lease 1000000000
  return current.holderIdentity = some claim.holderIdentity ∧ current.fenceToken = claim.token

def leaseHasWriterCoordination (lease : Lease) : Bool :=
  ((lease.annotationText writerFenceAnnotationKey).isSome || (lease.annotationText writerRenewalAnnotationKey).isSome)
    && lease.holder.isSome

theorem leaseHoldsClaim_ok (h : leaseHoldsClaim lease claim = .ok true) :
    lease.holder = some claim.holderIdentity ∧
      parseCounterAnnotation lease writerFenceAnnotationKey = .ok claim.token := by
  unfold leaseHoldsClaim at h
  simp only [ok_iff, decide_eq_true_eq] at h
  obtain ⟨current, hc, hholder, htoken⟩ := h
  obtain ⟨hf, -, -, hh, -⟩ := leaseCoordinationState_ok hc
  exact ⟨hh ▸ hholder, htoken ▸ hf⟩

/-! ## Writing the coordination state -/

/-- The two counter annotations every guard update rewrites. -/
def setCounters (token renewal : ℕ) (m : Annotations) : Annotations :=
  (m.insert writerFenceAnnotationKey (toString token)).insert writerRenewalAnnotationKey
    (toString renewal)

/-- `lease_transitions` of a Lease that changes hands; the first holder counts no transition. -/
def nextTransitions (spec : LeaseSpec) : Except LeaseGuardError Int :=
  let transitions := spec.leaseTransitions.getD 0
  if spec.holderIdentity.isSome then
    if transitions + 1 < 2 ^ 31 then .ok (transitions + 1) else .error .invalidLease
  else .ok transitions

/-- `lease_transitions` and `acquire_time` move only when the holder changes. -/
def recordTransition (spec : LeaseSpec) (claim : WriterFenceClaim) (wallTime : Timestamp)
    (ownershipTransition : Bool) : Except LeaseGuardError LeaseSpec :=
  if ownershipTransition = true ∧ spec.holderIdentity ≠ some claim.holderIdentity then do
    let transitions ← nextTransitions spec
    return { spec with leaseTransitions := some transitions, acquireTime := some wallTime }
  else .ok spec

def leaseWithGuardState (lease : Lease) (claim : WriterFenceClaim) (renewal : ℕ)
    (leaseDuration : ℕ) (wallTime : Timestamp) (ownershipTransition : Bool) :
    Except LeaseGuardError Lease := do
  let lease := lease.editAnnotations (setCounters claim.token renewal)
  let spec := lease.spec.getD LeaseSpec.default
  let spec ← recordTransition spec claim wallTime ownershipTransition
  let seconds ← durationSecondsI32 leaseDuration
  return { lease with
    spec := some { spec with
      holderIdentity := some claim.holderIdentity
      leaseDurationSeconds := some seconds
      renewTime := some wallTime } }

def newGuardLease (name : String) (claim : WriterFenceClaim) (leaseDuration : ℕ)
    (wallTime : Timestamp) : Except LeaseGuardError Lease :=
  leaseWithGuardState ⟨some name, none, none⟩ claim 1 leaseDuration wallTime true

def leaseWithReleasedState (lease : Lease) (renewal : ℕ) (wallTime : Timestamp) :
    Except LeaseGuardError Lease := do
  let annotations ← okOr lease.annotations LeaseGuardError.invalidLease
  ensure (annotations[writerFenceAnnotationKey]?.isSome = true) LeaseGuardError.invalidLease
  let spec ← okOr lease.spec LeaseGuardError.invalidLease
  return { lease with
    annotations := some (annotations.insert writerRenewalAnnotationKey (toString renewal))
    spec := some { spec with holderIdentity := none, renewTime := some wallTime } }

structure LeaseGuardState where
  holderIdentity : String
  fenceToken : ℕ
  renewal : ℕ
  leaseDurationSeconds : Int
  renewTime : Timestamp
  deriving DecidableEq, Repr

def leaseStateFromSpec (lease : Lease) : Except LeaseGuardError LeaseGuardState := do
  let coordination ← leaseCoordinationState lease 1000000000
  let spec ← okOr lease.spec LeaseGuardError.invalidLease
  let holder ← okOr coordination.holderIdentity LeaseGuardError.invalidLease
  let renewTime ← okOr spec.renewTime LeaseGuardError.invalidLease
  return ⟨holder, coordination.fenceToken, coordination.renewal, coordination.leaseDurationSeconds, renewTime⟩

/-! ## What a guard update changes -/

theorem setCounters_fence : (setCounters token renewal m)[writerFenceAnnotationKey]? = some (toString token) := by
  rw [setCounters, getElem?_insert_eq, if_neg writerFence_ne_writerRenewal.symm, getElem?_insert_eq, if_pos rfl]

theorem setCounters_renewal : (setCounters token renewal m)[writerRenewalAnnotationKey]? = some (toString renewal) := by
  rw [setCounters, getElem?_insert_eq, if_pos rfl]

theorem setCounters_other
    (hf : key ≠ writerFenceAnnotationKey) (hr : key ≠ writerRenewalAnnotationKey) :
    (setCounters token renewal m)[key]? = m[key]? := by
  rw [setCounters, getElem?_insert_eq, if_neg hr.symm, getElem?_insert_eq, if_neg hf.symm]

/-- What acquiring or renewing writes: its own holder, counters and duration, and nothing else. -/
structure GuardWrite (old : Option Lease) (claim : WriterFenceClaim) (renewal : ℕ) (seconds : Int)
    (new : Lease) : Prop where
  holder : new.holder = some claim.holderIdentity
  fence : new.annotationText writerFenceAnnotationKey = some (toString claim.token)
  renewal : new.annotationText writerRenewalAnnotationKey = some (toString renewal)
  seconds : new.spec.bind LeaseSpec.leaseDurationSeconds = some seconds
  other : ∀ key, key ≠ writerFenceAnnotationKey → key ≠ writerRenewalAnnotationKey →
    new.annotationText key = old.bind fun l => l.annotationText key

theorem leaseWithGuardState_ok (h : leaseWithGuardState lease claim renewal d wall transition = .ok lease') :
    ∃ seconds, durationSecondsI32 d = .ok seconds ∧ GuardWrite (some lease) claim renewal seconds lease' := by
  unfold leaseWithGuardState at h
  simp only [ok_iff] at h
  obtain ⟨spec, -, seconds, hs, rfl⟩ := h
  refine ⟨seconds, hs, rfl, setCounters_fence, setCounters_renewal, rfl, ?_⟩
  intro key hf hr
  exact lease.annotationText_editAnnotations_of_eq fun m => setCounters_other hf hr

theorem newGuardLease_ok (h : newGuardLease name claim d wall = .ok lease') :
    ∃ seconds, durationSecondsI32 d = .ok seconds ∧ GuardWrite none claim 1 seconds lease' := by
  obtain ⟨seconds, hs, hw⟩ := leaseWithGuardState_ok h
  refine ⟨seconds, hs, hw.holder, hw.fence, hw.renewal, hw.seconds, ?_⟩
  intro key hf hr
  rw [hw.other key hf hr]
  rfl

/-- What releasing writes: no holder, the next renewal, and nothing else. -/
structure ReleaseWrite (old : Lease) (renewal : ℕ) (new : Lease) : Prop where
  holder : new.holder = none
  renewal : new.annotationText writerRenewalAnnotationKey = some (toString renewal)
  other : ∀ key, key ≠ writerRenewalAnnotationKey → new.annotationText key = old.annotationText key

theorem leaseWithReleasedState_ok (h : leaseWithReleasedState lease renewal wall = .ok lease') :
    ReleaseWrite lease renewal lease' := by
  unfold leaseWithReleasedState at h
  simp only [ok_iff] at h
  obtain ⟨annotations, ha, -, -, spec, -, rfl⟩ := h
  refine ⟨rfl, ?_, ?_⟩
  · simp [Lease.annotationText]
  · intro key hr
    simp [Lease.annotationText, ha, getElem?_insert_eq, hr.symm]

end Rs3.K8s
