/-
# Rs3.Recovery.Policy — recovery promises and the cutoff that expires them.

`RecoveryPolicy` of `v3/recovery/policy.rs`.  The hash is a parameter: a policy's identity is the digest of its
three fields, and nothing here depends on which digest.
-/
import Rs3.Recovery.Time

namespace Rs3.Recovery

def dayMs : Int := 86400000
def maxWindowDays : ℕ := 36500
def maxMarginSeconds : ℕ := 365 * 86400
def maxClockUncertaintyMs : ℕ := 3600000

/-- Finite positive protection, with a renewal margin beyond the clock uncertainty. -/
def policyValid (windowDays renewalMarginSeconds clockUncertaintyMs : ℕ) : Prop :=
  (1 ≤ windowDays ∧ windowDays ≤ maxWindowDays) ∧
  (1 ≤ renewalMarginSeconds ∧ renewalMarginSeconds ≤ maxMarginSeconds) ∧
  (1 ≤ clockUncertaintyMs ∧ clockUncertaintyMs ≤ maxClockUncertaintyMs) ∧
  clockUncertaintyMs < renewalMarginSeconds * 1000

instance (w m u : ℕ) : Decidable (policyValid w m u) := inferInstanceAs (Decidable (_ ∧ _))

/-- Validated preview policy authenticated with each current recovery point. -/
structure RecoveryPolicy where
  windowDays : ℕ
  renewalMarginSeconds : ℕ
  clockUncertaintyMs : ℕ
  valid : policyValid windowDays renewalMarginSeconds clockUncertaintyMs
  deriving DecidableEq

namespace RecoveryPolicy

/-- `RecoveryPolicy::PRESET`. -/
def preset : RecoveryPolicy := ⟨30, 86400, 60000, by decide⟩

def new (windowDays renewalMarginSeconds clockUncertaintyMs : ℕ) : Except V3FormatError RecoveryPolicy :=
  if h : policyValid windowDays renewalMarginSeconds clockUncertaintyMs then
    .ok ⟨windowDays, renewalMarginSeconds, clockUncertaintyMs, h⟩
  else .error .invalidRecoveryPolicy

/-- `u32::to_be_bytes`. -/
def be32 (n : ℕ) : List UInt8 :=
  [UInt8.ofNat (n / 2 ^ 24), UInt8.ofNat (n / 2 ^ 16), UInt8.ofNat (n / 2 ^ 8), UInt8.ofNat n]

/-- Domain-separated identity of the complete policy. -/
def identity (sha256 : List UInt8 → Digest) (policy : RecoveryPolicy) : Digest :=
  sha256 ("rs3:recovery-policy:v03\n".toUTF8.toList ++ be32 policy.windowDays ++
    be32 policy.renewalMarginSeconds ++ be32 policy.clockUncertaintyMs)

end RecoveryPolicy

def checkedDeadline (baseMs offsetMs : Int) : Except V3FormatError Int := do
  ensure (fitsI64 (baseMs + offsetMs) ∧ 0 ≤ baseMs) .invalidPublicationTime
  return baseMs + offsetMs

namespace RecoveryPolicy

/-- The deadline promised to a point superseded at the given time. -/
def promisedUntilMs (policy : RecoveryPolicy) (supersededAtMs : Int) : Except V3FormatError Int :=
  checkedDeadline supersededAtMs (policy.windowDays * dayMs + policy.clockUncertaintyMs)

/-- Backend protection that covers the promise and the renewal runway. -/
def coverageUntilMs (policy : RecoveryPolicy) (supersededAtMs : Int) :
    Except V3FormatError Int := do
  let promised ← policy.promisedUntilMs supersededAtMs
  checkedDeadline promised (policy.renewalMarginSeconds * 1000 + policy.clockUncertaintyMs)

/-- Conservative proposed expiry cutoff. -/
def expiryCutoffMs (policy : RecoveryPolicy) (trustedNowMs : Int) : Except V3FormatError Int := do
  ensure (0 ≤ trustedNowMs) .invalidPublicationTime
  return max (trustedNowMs - policy.clockUncertaintyMs) 0

theorem expiryCutoffMs_ok {policy : RecoveryPolicy} (h : policy.expiryCutoffMs now = .ok cutoff) :
    0 ≤ now ∧ cutoff = max (now - policy.clockUncertaintyMs) 0 := by
  unfold expiryCutoffMs at h
  simp only [bind_eq_ok, ensure_eq_ok, pure_eq_ok] at h
  obtain ⟨-, hnow, heq⟩ := h
  exact ⟨hnow, heq.symm⟩

end RecoveryPolicy

end Rs3.Recovery
