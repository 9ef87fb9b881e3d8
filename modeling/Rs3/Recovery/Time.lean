/-
# Rs3.Recovery.Time — publication clocks.

The checks of `v3/recovery.rs` on signed 64-bit times, in milliseconds since the epoch.  Sums and differences are the
checked ones: leaving the 64-bit range is refused like any other invalid time.
-/
import Rs3.Types
import Rs3.Lib.Fallible

namespace Rs3.Recovery

/-- The value fits in a signed 64-bit integer. -/
def fitsI64 (x : Int) : Prop := -2 ^ 63 ≤ x ∧ x < 2 ^ 63

instance (x : Int) : Decidable (fitsI64 x) := inferInstanceAs (Decidable (_ ∧ _))

def maxPublicationClockLeadMs : Int := 60000

/-- Publication times strictly increase along a chain. -/
def validateParentTime (parentMs : Option Int) (childMs : Int) : Except V3FormatError Unit :=
  match parentMs with
  | none => ensure (0 ≤ childMs) .invalidPublicationTime
  | some parent => ensure (0 ≤ childMs ∧ 0 ≤ parent ∧ parent < childMs) .invalidPublicationTime

/-- A future timestamp cannot grant more lead than the bound. -/
def validatePublicationTime (nowMs chosenMs : Int) : Except V3FormatError Unit :=
  ensure (fitsI64 (nowMs + maxPublicationClockLeadMs) ∧ 0 ≤ nowMs ∧ 0 ≤ chosenMs ∧
    chosenMs ≤ nowMs + maxPublicationClockLeadMs) .invalidPublicationTime

/-- One past the parent's publication time. -/
def earliestPublishTime : Option Int → Except V3FormatError Int
  | none => .ok 0
  | some parent => do
    ensure (0 ≤ parent ∧ fitsI64 (parent + 1)) .invalidPublicationTime
    return parent + 1

/-- Chooses once per publication, before retrying exact bytes or random identities. -/
def choosePublishTime (nowMs : Int) (parentMs : Option Int) : Except V3FormatError Int := do
  let next ← earliestPublishTime parentMs
  validatePublicationTime nowMs (max nowMs next)
  return max nowMs next

/-- A new history publication stays within the declared clock uncertainty of its sample. -/
def validateHistoryPublicationFreshness (nowMs chosenMs : Int) (uncertaintyMs : ℕ) :
    Except V3FormatError Unit := do
  validatePublicationTime nowMs chosenMs
  ensure (fitsI64 (nowMs - uncertaintyMs) ∧ nowMs - uncertaintyMs ≤ chosenMs) .invalidPublicationTime

theorem choosePublishTime_nonneg (h : choosePublishTime now parent = .ok chosen) : 0 ≤ chosen := by
  simp only [choosePublishTime, ok_iff, validatePublicationTime] at h
  obtain ⟨next, -, ⟨-, -, hchosen, -⟩, rfl⟩ := h
  exact hchosen

end Rs3.Recovery
