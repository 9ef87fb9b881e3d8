/-
# Rs3.K8s.LeaseGuard — acquiring, renewing and releasing the writer Lease.

`LeaseGuard` of `rs3-k8s/src/lease_guard.rs` as client programs over the register library.  The Lease is
the register; the local state of a guard is what its two mutexes protect, and every critical section
is one local step.  `monotonicTime` is the clock value the caller sampled before the call: it is
carried through all retries, as in the source.
-/
import Rs3.Lib.CasLogic
import Rs3.K8s.AnchorCodec

namespace Rs3.K8s

open Cas (Prog Versioned Reply Request Shared)

/-! ## Local state -/

structure LocalFenceState where
  claim : Option WriterFenceClaim
  lastSuccess : Option ℕ
  active : Bool
  deriving DecidableEq, Repr

/-- `LocalFenceState::inactive()`. -/
def LocalFenceState.inactive : LocalFenceState := ⟨none, none, false⟩

structure ObservedCompetitor where
  record : LeaseObservation
  observedAt : ℕ
  deriving DecidableEq, Repr

/-- What a guard keeps between calls. -/
structure GuardLocal where
  observation : Option ObservedCompetitor
  localState : LocalFenceState
  deriving DecidableEq, Repr

def GuardLocal.new : GuardLocal := ⟨none, .inactive⟩

/-- A guard's configuration, with the checks of `LeaseGuard::new`.  `startedAt` is the common time at
which its monotonic clock reads zero. -/
structure LeaseGuard where
  leaseName : String
  holderIdentity : String
  leaseDuration : ℕ
  startedAt : ℕ
  named : leaseName ≠ "" ∧ holderIdentity ≠ ""
  duration : ∃ seconds, durationSecondsI32 leaseDuration = .ok seconds

abbrev GuardId := ℕ

/-- A process-local proof that identifies one acquired writer epoch of one guard. -/
structure WriterFence where
  guard : GuardId
  claim : WriterFenceClaim
  deriving DecidableEq, Repr

variable (guard : LeaseGuard)

/-- `WriterFence::live_claim_at`. -/
def liveClaimAt (claim : WriterFenceClaim) (now : ℕ) (state : LocalFenceState) : Option WriterFenceClaim :=
  if state.active = false ∨ state.claim ≠ some claim then none
  else
    match state.lastSuccess with
    | none => none
    | some lastSuccess => if guard.leaseDuration ≤ now - lastSuccess then none else some claim

/-! ## Labels -/

/-- Why a request was submitted; never read by the code. -/
inductive WriteLabel where
  | acquire (g : GuardId) (monotonicTime : ℕ) (claim : WriterFenceClaim) (renewal : ℕ)
  | renew (g : GuardId) (monotonicTime : ℕ) (claim : WriterFenceClaim) (renewal : ℕ)
  | release (g : GuardId) (claim : WriterFenceClaim) (renewal : ℕ)
  | advance (fence : Option WriterFence) (next : V3AnchorState)
  | fence (fence : Option WriterFence)
  deriving DecidableEq

/-- Which critical section a local step is. -/
inductive ActLabel where
  | mayTakeOwnership (g : GuardId) (current : LeaseCoordinationState) (now : ℕ)
  | currentClaim (g : GuardId)
  | deactivate (g : GuardId)
  | recordSuccess (g : GuardId)
  | clearObservation (g : GuardId)
  | liveClaim (g : GuardId)
  deriving DecidableEq

abbrev LeaseProg := Prog Lease GuardId GuardLocal WriteLabel ActLabel

abbrev LeaseShared := Shared Lease GuardId GuardLocal WriteLabel

/-! ## Takeover decision -/

inductive TakeoverDecision where
  | allowed
  | observing
  | competitorRenewed
  deriving DecidableEq, Repr

/-- `may_take_ownership`: the decision and the observation it leaves behind. -/
def mayTakeOwnership (current : LeaseCoordinationState) (now : ℕ)
    (observed : Option ObservedCompetitor) : TakeoverDecision × Option ObservedCompetitor :=
  match current.observation with
  | none => (.allowed, observed)
  | some record =>
    match observed with
    | none => (.observing, some ⟨record, now⟩)
    | some previous =>
      if previous.record ≠ record then (.competitorRenewed, some ⟨record, now⟩)
      else if current.leaseDuration ≤ now - previous.observedAt then (.allowed, observed)
      else (.observing, observed)

/-! ## Programs -/

def maxUpdateAttempts : ℕ := 16

/-- `deactivate`, then return the error. -/
def deactivate {α : Type} (g : GuardId) (e : LeaseGuardError) : LeaseProg (Except LeaseGuardError α) :=
  .act g (.deactivate g) (fun _ l => { l with localState := { l.localState with active := false } })
    fun _ _ => .done (.error e)

/-- `record_success`: the local state and the observation are updated under separate locks. -/
def recordSuccess (g : GuardId) (lease : Lease) (expectedClaim : WriterFenceClaim)
    (monotonicTime : ℕ) : LeaseProg (Except LeaseGuardError LeaseGuardState) :=
  match leaseStateFromSpec lease with
  | .error e => .done (.error e)
  | .ok state =>
    if state.holderIdentity ≠ expectedClaim.holderIdentity ∨ state.fenceToken ≠ expectedClaim.token then
      deactivate g .lostLease
    else
      .act g (.recordSuccess g)
        (fun _ l => { l with localState := ⟨some expectedClaim, some monotonicTime, true⟩ }) fun _ _ =>
      .act g (.clearObservation g) (fun _ l => { l with observation := none }) fun _ _ =>
      .done (.ok state)

/-- The update an acquisition submits on top of a Lease it may take. -/
def acquireUpdate (lease : Lease) (current : LeaseCoordinationState)
    (wallTime : Timestamp) : Except LeaseGuardError (WriterFenceClaim × ℕ × Lease) := do
  let token ← checkedAddOne current.fenceToken
  let renewal ← checkedAddOne current.renewal
  let claim : WriterFenceClaim := ⟨guard.holderIdentity, token⟩
  let updated ← leaseWithGuardState lease claim renewal guard.leaseDuration wallTime true
  return (claim, renewal, updated)

def acquireLoop (guard : LeaseGuard) (g : GuardId) (wallTime : Timestamp) (monotonicTime : ℕ) :
    ℕ → LeaseProg (Except LeaseGuardError LeaseGuardState)
  | 0 => .done (.error .updateConflictLimit)
  | attempts + 1 => .get fun
    | none => .done (.error .apiUnavailable)
    | some (some lease) =>
      match leaseCoordinationState lease.val guard.leaseDuration with
      | .error e => .done (.error e)
      | .ok current =>
        .act g (.mayTakeOwnership g current monotonicTime)
          (fun _ l => { l with
            observation := (mayTakeOwnership current monotonicTime l.observation).2 })
          fun _ l =>
            match (mayTakeOwnership current monotonicTime l.observation).1 with
            | .observing => .done (.error .heldByOther)
            | .competitorRenewed => .done (.error .heldByLiveWriter)
            | .allowed =>
              match acquireUpdate guard lease.val current wallTime with
              | .error e => .done (.error e)
              | .ok (claim, renewal, updated) =>
                .replace (.acquire g monotonicTime claim renewal) ⟨lease.rev, updated⟩ fun
                  | .ok written => recordSuccess g written.val claim monotonicTime
                  | .conflict => acquireLoop guard g wallTime monotonicTime attempts
                  | .unavailable => .done (.error .apiUnavailable)
    | some none =>
      let claim : WriterFenceClaim := ⟨guard.holderIdentity, 1⟩
      match newGuardLease guard.leaseName claim guard.leaseDuration wallTime with
      | .error e => .done (.error e)
      | .ok lease =>
        .create (.acquire g monotonicTime claim 1) lease fun
          | .ok written => recordSuccess g written.val claim monotonicTime
          | .conflict => acquireLoop guard g wallTime monotonicTime attempts
          | .unavailable => .done (.error .apiUnavailable)

def acquireAt (g : GuardId) (wallTime : Timestamp) (monotonicTime : ℕ) :
    LeaseProg (Except LeaseGuardError LeaseGuardState) :=
  acquireLoop guard g wallTime monotonicTime maxUpdateAttempts

/-- `current_claim`. -/
def currentClaim (state : LocalFenceState) : Except LeaseGuardError WriterFenceClaim :=
  match state.claim with
  | some claim => if state.active = true then .ok claim else .error .lostLease
  | none => .error .lostLease

/-- The update a renewal submits on top of a Lease that still carries its claim. -/
def renewUpdate (claim : WriterFenceClaim) (lease : Lease) (current : LeaseCoordinationState) (wallTime : Timestamp) :
    Except LeaseGuardError (ℕ × Lease) := do
  let renewal ← checkedAddOne current.renewal
  let updated ← leaseWithGuardState lease claim renewal guard.leaseDuration wallTime false
  return (renewal, updated)

def renewLoop (guard : LeaseGuard) (g : GuardId) (claim : WriterFenceClaim) (wallTime : Timestamp)
    (monotonicTime : ℕ) : ℕ → LeaseProg (Except LeaseGuardError LeaseGuardState)
  | 0 => .done (.error .updateConflictLimit)
  | attempts + 1 => .get fun
    | none => .done (.error .apiUnavailable)
    | some none => deactivate g .lostLease
    | some (some lease) =>
      match leaseCoordinationState lease.val guard.leaseDuration with
      | .error e => .done (.error e)
      | .ok current =>
        if current.holderIdentity ≠ some claim.holderIdentity ∨ current.fenceToken ≠ claim.token then
          deactivate g .heldByOther
        else
          match renewUpdate guard claim lease.val current wallTime with
          | .error e => .done (.error e)
          | .ok (renewal, updated) =>
            .replace (.renew g monotonicTime claim renewal) ⟨lease.rev, updated⟩ fun
              | .ok written => recordSuccess g written.val claim monotonicTime
              | .conflict => renewLoop guard g claim wallTime monotonicTime attempts
              | .unavailable => .done (.error .apiUnavailable)

def renewAt (g : GuardId) (wallTime : Timestamp) (monotonicTime : ℕ) :
    LeaseProg (Except LeaseGuardError LeaseGuardState) :=
  .act g (.currentClaim g) (fun _ l => l) fun _ l =>
    match currentClaim l.localState with
    | .error e => .done (.error e)
    | .ok claim => renewLoop guard g claim wallTime monotonicTime maxUpdateAttempts

/-- The update a release submits on top of a Lease that still carries its claim. -/
def releaseUpdate (lease : Lease) (wallTime : Timestamp) : Except LeaseGuardError (ℕ × Lease) := do
  let current ← leaseCoordinationState lease guard.leaseDuration
  let renewal ← checkedAddOne current.renewal
  let updated ← leaseWithReleasedState lease renewal wallTime
  return (renewal, updated)

def releaseLoop (guard : LeaseGuard) (g : GuardId) (claim : WriterFenceClaim) (wallTime : Timestamp) :
    ℕ → LeaseProg (Except LeaseGuardError Unit)
  | 0 => .done (.error .updateConflictLimit)
  | attempts + 1 => .get fun
    | none => .done (.error .apiUnavailable)
    | some none => deactivate g .lostLease
    | some (some lease) =>
      match leaseHoldsClaim lease.val claim with
      | .error e => .done (.error e)
      | .ok false => deactivate g .heldByOther
      | .ok true =>
        match releaseUpdate guard lease.val wallTime with
        | .error e => .done (.error e)
        | .ok (renewal, updated) =>
          .replace (.release g claim renewal) ⟨lease.rev, updated⟩ fun
            | .ok _ =>
              .act g (.deactivate g)
                (fun _ l => { l with localState := { l.localState with active := false } })
                fun _ _ => .done (.ok ())
            | .conflict => releaseLoop guard g claim wallTime attempts
            | .unavailable => .done (.error .apiUnavailable)

def releaseAt (g : GuardId) (wallTime : Timestamp) : LeaseProg (Except LeaseGuardError Unit) :=
  .act g (.currentClaim g) (fun _ l => l) fun _ l =>
    match currentClaim l.localState with
    | .error e => .done (.error e)
    | .ok claim => releaseLoop guard g claim wallTime maxUpdateAttempts

end Rs3.K8s
