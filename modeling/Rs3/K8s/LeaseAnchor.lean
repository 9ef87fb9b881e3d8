/-
# Rs3.K8s.LeaseAnchor — the checkpoint anchor on the writer Lease, and the protocol of all calls.

`compare_and_advance_lease`, `fence_and_read_lease` and `read_v3` of `rs3-k8s/src/lib.rs` as client programs, the
`V3CommitAnchor` instance they form, and the protocol in which any number of guards and anchors,
fenced or not, run concurrently on one Lease.
-/
import Rs3.K8s.LeaseGuard
import Rs3.Repository.Anchor

namespace Rs3.K8s

open Cas (Prog Versioned Reply Request Shared Protocol)
open Repository (V3CommitAnchor V3StoredCommit AdoptReads adoptVerifiedUnanchoredChild)

/-- The guards of a deployment. -/
abbrev Guards := GuardId → LeaseGuard

def maxAdvanceAttempts : ℕ := 16

/-! ## Writer fence checks -/

/-- `fence.live_claim().ok_or(AnchorAdvanceFailed)` on the guard's own clock. -/
def liveClaim (guards : Guards) (fence : WriterFence) : LeaseProg (Except V3FormatError WriterFenceClaim) :=
  .act fence.guard (.liveClaim fence.guard) (fun _ l => l) fun clock l =>
    .done (okOr (liveClaimAt (guards fence.guard) fence.claim (clock - (guards fence.guard).startedAt)
      l.localState) .anchorAdvanceFailed)

/-- The Lease carries the claim; a malformed Lease counts as a failed advance. -/
def holdsClaim (lease : Lease) (claim : WriterFenceClaim) : Except V3FormatError Unit :=
  match leaseHoldsClaim lease claim with
  | .ok true => .ok ()
  | _ => .error .anchorAdvanceFailed

def validateWriterFence (guards : Guards) (lease : Lease) : Option WriterFence → LeaseProg (Except V3FormatError Unit)
  | some fence => (liveClaim guards fence).bind fun claim => .done (claim >>= holdsClaim lease)
  | none =>
    .done (if leaseHasWriterCoordination lease = true then .error .anchorAdvanceFailed else .ok ())

/-- `v3_lease_for_anchor_advance`; the fenced path reads the live claim a second time. -/
def v3LeaseForAnchorAdvance (guards : Guards) (lease : Lease) (state : V3AnchorState)
    (writerFence : Option WriterFence) : LeaseProg (Except V3FormatError Lease) :=
  (validateWriterFence guards lease writerFence).bind fun
    | .error e => .done (.error e)
    | .ok () =>
      match writerFence with
      | none => .done (.ok (v3LeaseWithState lease state))
      | some fence => (liveClaim guards fence).bind fun claim => .done (do
          let claim ← claim
          holdsClaim lease claim
          return v3LeaseWithState lease state)

/-! ## Anchor operations -/

def readV3 : LeaseProg (Except V3FormatError (Option V3AnchorState)) :=
  .get fun
    | none => .done (.error .anchorReadFailed)
    | some none => .done (.ok none)
    | some (some lease) => .done (v3AnchorStateFromLeaseOptional lease.val)

/-- The checks of one advance attempt against the Lease it read. -/
def advanceChecks (lease : Lease) (expected : Option V3AnchorState) (next : V3AnchorState) :
    Except V3FormatError Unit := do
  let current ← v3AnchorStateFromLeaseOptional lease
  ensure (expected = current) .staleAnchor
  ensure (∀ c ∈ current, next ≠ c → c.sequence < next.sequence) .staleAnchor

def compareAndAdvanceLoop (guards : Guards) (name : String) (writerFence : Option WriterFence)
    (expected : Option V3AnchorState) (next : V3AnchorState) :
    ℕ → LeaseProg (Except V3FormatError V3AnchorState)
  | 0 => .done (.error .anchorAdvanceFailed)
  | attempts + 1 => .get fun
    | none => .done (.error .anchorReadFailed)
    | some (some lease) =>
      match advanceChecks lease.val expected next with
      | .error e => .done (.error e)
      | .ok () =>
        (v3LeaseForAnchorAdvance guards lease.val next writerFence).bind fun
          | .error e => .done (.error e)
          | .ok updated =>
            .replace (.advance writerFence next) ⟨lease.rev, updated⟩ fun
              | .ok written => .done (v3AnchorStateFromLease written.val)
              | .conflict => compareAndAdvanceLoop guards name writerFence expected next attempts
              | .unavailable => .done (.error .anchorAdvanceFailed)
    | some none =>
      if expected.isSome then .done (.error .staleAnchor)
      else if writerFence.isSome then .done (.error .anchorAdvanceFailed)
      else
        .create (.advance writerFence next) (newV3Lease name next) fun
          | .ok written => .done (v3AnchorStateFromLease written.val)
          | .conflict => compareAndAdvanceLoop guards name writerFence expected next attempts
          | .unavailable => .done (.error .anchorAdvanceFailed)

def compareAndAdvanceLease (guards : Guards) (name : String) (writerFence : Option WriterFence)
    (expected : Option V3AnchorState) (next : V3AnchorState) :
    LeaseProg (Except V3FormatError V3AnchorState) :=
  compareAndAdvanceLoop guards name writerFence expected next maxAdvanceAttempts

/-- The fencing counter, wrapping at 64 bits; an unreadable one restarts at zero. -/
def bumpAnchorFence (m : Annotations) : Annotations :=
  m.insert anchorFenceKey
    (toString ((((m[anchorFenceKey]?).bind Text.parseU64).getD 0 + 1) % 2 ^ 64))

def fenceAndReadLoop (guards : Guards) (writerFence : Option WriterFence) :
    ℕ → LeaseProg (Except V3FormatError (Option V3AnchorState))
  | 0 => .done (.error .anchorAdvanceFailed)
  | attempts + 1 => .get fun
    | none => .done (.error .anchorReadFailed)
    | some none => .done (.ok none)
    | some (some lease) =>
      (validateWriterFence guards lease.val writerFence).bind fun
        | .error e => .done (.error e)
        | .ok () =>
          .replace (.fence writerFence) ⟨lease.rev, lease.val.editAnnotations bumpAnchorFence⟩ fun
            | .ok written => .done (v3AnchorStateFromLeaseOptional written.val)
            | .conflict => fenceAndReadLoop guards writerFence attempts
            | .unavailable => .done (.error .anchorAdvanceFailed)

def fenceAndReadLease (guards : Guards) (writerFence : Option WriterFence) :
    LeaseProg (Except V3FormatError (Option V3AnchorState)) :=
  fenceAndReadLoop guards writerFence maxAdvanceAttempts

/-- `KubernetesLeaseAnchor`. -/
def leaseAnchor (guards : Guards) (name : String) (writerFence : Option WriterFence) :
    V3CommitAnchor LeaseProg where
  readV3 := readV3
  compareAndAdvanceV3 := compareAndAdvanceLease guards name writerFence
  fenceAndReadV3 := fenceAndReadLease guards writerFence

/-! ## All calls together -/

/-- The arguments of one adoption. -/
structure AdoptCall where
  writerFence : Option WriterFence
  formatRef : V3FormatRef
  expectedParent : V3AnchorState
  uploaded : V3StoredCommit
  reads : AdoptReads
  historyUncertaintyMs : Option ℕ

/-- One call on the Lease, with its arguments. -/
inductive LeaseCall where
  | acquire (g : GuardId) (wallTime : Timestamp) (monotonicTime : ℕ)
  | renew (g : GuardId) (wallTime : Timestamp) (monotonicTime : ℕ)
  | release (g : GuardId) (wallTime : Timestamp)
  | read
  | advance (writerFence : Option WriterFence) (expected : Option V3AnchorState) (next : V3AnchorState)
  | fenceAndRead (writerFence : Option WriterFence)
  | adopt (call : AdoptCall)

/-- The result of a call. -/
inductive CallResult where
  | guardState (r : Except LeaseGuardError LeaseGuardState)
  | released (r : Except LeaseGuardError Unit)
  | anchorRead (r : Except V3FormatError (Option V3AnchorState))
  | advanced (r : Except V3FormatError V3AnchorState)
  | adopted (r : Except V3FormatError V3StoredCommit)

def LeaseCall.prog (guards : Guards) (name : String) : LeaseCall → LeaseProg CallResult
  | .acquire g wall mono => (acquireAt (guards g) g wall mono).bind fun r => .done (.guardState r)
  | .renew g wall mono => (renewAt (guards g) g wall mono).bind fun r => .done (.guardState r)
  | .release g wall => (releaseAt (guards g) g wall).bind fun r => .done (.released r)
  | .read => readV3.bind fun r => .done (.anchorRead r)
  | .advance fence expected next =>
    (compareAndAdvanceLease guards name fence expected next).bind fun r => .done (.advanced r)
  | .fenceAndRead fence => (fenceAndReadLease guards fence).bind fun r => .done (.anchorRead r)
  | .adopt call =>
    (adoptVerifiedUnanchoredChild (leaseAnchor guards name call.writerFence) call.formatRef
      call.expectedParent call.uploaded call.reads call.historyUncertaintyMs).bind
        fun r => .done (.adopted r)

/-- A guard call carries a clock value sampled before it starts. -/
def LeaseCall.SampledBefore (guards : Guards) (s : LeaseShared) : LeaseCall → Prop
  | .acquire g _ mono => (guards g).startedAt + mono ≤ s.clock
  | .renew g _ mono => (guards g).startedAt + mono ≤ s.clock
  | _ => True

/-- Every call on one Lease, in any interleaving. -/
def leaseProtocol (guards : Guards) (name : String) (allowed : LeaseShared → ActLabel → Prop) :
    Protocol Lease GuardId GuardLocal WriteLabel ActLabel LeaseCall CallResult where
  prog := LeaseCall.prog guards name
  startable := LeaseCall.SampledBefore guards
  allowed := allowed

instance (guards : Guards) (name : String) (allowed : LeaseShared → ActLabel → Prop) (s : LeaseShared)
    (call : LeaseCall) : Decidable ((leaseProtocol guards name allowed).startable s call) :=
  match call with
  | .acquire g _ mono => inferInstanceAs (Decidable ((guards g).startedAt + mono ≤ s.clock))
  | .renew g _ mono => inferInstanceAs (Decidable ((guards g).startedAt + mono ≤ s.clock))
  | .release _ _ | .read | .advance _ _ _ | .fenceAndRead _ | .adopt _ => .isTrue trivial

instance (guards : Guards) (name : String) (allowed : LeaseShared → ActLabel → Prop)
    [h : ∀ s a, Decidable (allowed s a)] (s : LeaseShared) (a : ActLabel) :
    Decidable ((leaseProtocol guards name allowed).allowed s a) := h s a

abbrev LeaseSys := Cas.Sys Lease GuardId GuardLocal WriteLabel ActLabel LeaseCall CallResult

end Rs3.K8s
