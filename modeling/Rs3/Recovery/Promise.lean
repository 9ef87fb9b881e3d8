/-
# Rs3.Recovery.Promise — promised windows cover the acceptance of their publication.

The deadline of a superseded point is fixed when the successor's time is chosen, and the successor is accepted later.
`validate_history_publication_freshness` bounds that delay by the smaller of the two clock uncertainties just before
the anchor advances, and the promise contains the uncertainty of the policy that governed the point.

The arithmetic of `v3/recovery/policy.rs` that is not checked is repeated here with the wrap-around of the machine
type, to show that it never wraps.
-/
import Rs3.Recovery.Replay

namespace Rs3.Recovery

/-! ## Wrap-around -/

/-- The value of a signed 64-bit operation with this exact result. -/
def wrapI64 (x : Int) : Int := Int.bmod x (2 ^ 64)

theorem wrapI64_of_fits (h : fitsI64 x) : wrapI64 x = x := by
  obtain ⟨hlow, hhigh⟩ := h
  exact Int.bmod_eq_of_le (by simpa using hlow) (by simpa using hhigh)

namespace RecoveryPolicy

variable (policy : RecoveryPolicy)

/-- `promised_until_ms` as the machine computes it. -/
def promisedUntilMsWrapping (supersededAtMs : Int) : Except V3FormatError Int :=
  checkedDeadline supersededAtMs (wrapI64 (wrapI64 (policy.windowDays * dayMs) + policy.clockUncertaintyMs))

/-- `coverage_until_ms` as the machine computes it. -/
def coverageUntilMsWrapping (supersededAtMs : Int) : Except V3FormatError Int := do
  let promised ← policy.promisedUntilMsWrapping supersededAtMs
  checkedDeadline promised (wrapI64 (wrapI64 (policy.renewalMarginSeconds * 1000) + policy.clockUncertaintyMs))

/-- `expiry_cutoff_ms` as the machine computes it. -/
def expiryCutoffMsWrapping (trustedNowMs : Int) : Except V3FormatError Int := do
  ensure (0 ≤ trustedNowMs) .invalidPublicationTime
  return max (wrapI64 (trustedNowMs - policy.clockUncertaintyMs)) 0

theorem promisedUntilMsWrapping_eq (supersededAtMs : Int) :
    policy.promisedUntilMsWrapping supersededAtMs = policy.promisedUntilMs supersededAtMs := by
  obtain ⟨⟨-, hwindow⟩, -, ⟨-, huncertainty⟩, -⟩ := policy.valid
  unfold maxWindowDays at hwindow
  unfold maxClockUncertaintyMs at huncertainty
  unfold promisedUntilMsWrapping promisedUntilMs
  rw [wrapI64_of_fits (x := policy.windowDays * dayMs) (by unfold fitsI64 dayMs; omega),
    wrapI64_of_fits (by unfold fitsI64 dayMs; omega)]

theorem coverageUntilMsWrapping_eq (supersededAtMs : Int) :
    policy.coverageUntilMsWrapping supersededAtMs = policy.coverageUntilMs supersededAtMs := by
  obtain ⟨-, ⟨-, hmargin⟩, ⟨-, huncertainty⟩, -⟩ := policy.valid
  unfold maxMarginSeconds at hmargin
  unfold maxClockUncertaintyMs at huncertainty
  unfold coverageUntilMsWrapping coverageUntilMs
  rw [promisedUntilMsWrapping_eq, wrapI64_of_fits (x := policy.renewalMarginSeconds * 1000) (by unfold fitsI64; omega),
    wrapI64_of_fits (by unfold fitsI64; omega)]

theorem expiryCutoffMsWrapping_eq (hnow : fitsI64 trustedNowMs) :
    policy.expiryCutoffMsWrapping trustedNowMs = policy.expiryCutoffMs trustedNowMs := by
  obtain ⟨-, -, ⟨-, huncertainty⟩, -⟩ := policy.valid
  unfold maxClockUncertaintyMs at huncertainty
  unfold expiryCutoffMsWrapping expiryCutoffMs
  by_cases hnonneg : 0 ≤ trustedNowMs
  · rw [wrapI64_of_fits (by unfold fitsI64 at hnow ⊢; omega)]
  · unfold ensure
    rw [if_neg hnonneg]
    rfl

/-! ## Deadlines -/

theorem promisedUntilMs_eq_ok :
    policy.promisedUntilMs supersededAtMs = .ok promised ↔
      (fitsI64 promised ∧ 0 ≤ supersededAtMs) ∧
        promised = supersededAtMs + (policy.windowDays * dayMs + policy.clockUncertaintyMs) := by
  simp only [promisedUntilMs, checkedDeadline, ok_iff]
  constructor
  · intro h
    obtain ⟨hfits, rfl⟩ := h
    exact ⟨hfits, rfl⟩
  · intro h
    obtain ⟨hfits, rfl⟩ := h
    exact ⟨hfits, rfl⟩

/-- Coverage is the promise, the renewal margin and once more the uncertainty, all without overflow. -/
theorem coverageUntilMs_promise (h : policy.coverageUntilMs supersededAtMs = .ok coverage) :
    ∃ promised, policy.promisedUntilMs supersededAtMs = .ok promised ∧ fitsI64 coverage ∧
      coverage = promised + (policy.renewalMarginSeconds * 1000 + policy.clockUncertaintyMs) := by
  simp only [coverageUntilMs, checkedDeadline, ok_iff] at h
  obtain ⟨promised, hpromised, ⟨hfits, -⟩, rfl⟩ := h
  exact ⟨promised, hpromised, hfits, rfl⟩

end RecoveryPolicy

/-! ## Freshness -/

/-- `history_uncertainty_ms`. -/
def historyUncertaintyMs (recovery : Option CapturedRecoveryPublication) : Option ℕ :=
  recovery.map fun capture => min capture.previous.policy.clockUncertaintyMs capture.currentPolicy.clockUncertaintyMs

theorem validateHistoryPublicationFreshness_le
    (h : validateHistoryPublicationFreshness nowMs chosenMs uncertaintyMs = .ok ()) :
    nowMs - uncertaintyMs ≤ chosenMs := by
  simp only [validateHistoryPublicationFreshness, ok_iff] at h
  obtain ⟨-, -, -, hfresh⟩ := h
  exact hfresh

theorem RecoverySnapshot.advance_getLast (previous : RecoverySnapshot) (cutoff : Int)
    (rolled : Option RecoveryPageRef) (point : RecoveryPoint) :
    (previous.advance cutoff rolled point).tail.getLast? = some point := by
  cases rolled with
  | none => exact List.getLast?_concat
  | some page => rfl

theorem captured_promise {sha256 : List UInt8 → Digest}
    (h : CapturedRecoveryPublication.new sha256 plan previous policy isRoot = .ok capture) :
    ∃ point previousCoverage currentCoverage, capture.capturedSection.delta.register = some point ∧
      (∀ snapshot ∈ capture.capturedSection.snapshot, snapshot.tail.getLast? = some point) ∧
      previous.policy.promisedUntilMs plan.publishTimeMs = .ok point.protectedUntilMs ∧
      point.policyId = previous.policy.identity sha256 ∧
      previous.policy.coverageUntilMs plan.publishTimeMs = .ok previousCoverage ∧
      policy.coverageUntilMs plan.publishTimeMs = .ok currentCoverage ∧
      capture.requiredCoverageUntilMs = max previousCoverage currentCoverage := by
  simp only [CapturedRecoveryPublication.new, ok_iff] at h
  obtain ⟨cutoff, -, previousCoverage, hprevious, currentCoverage, hcurrent, promised, hpromised, captured, hcap, _,
    hvalid, rfl⟩ := h
  simp only [RecoverySection.validateForCommit, RecoverySection.validateForHeader, bind_eq_ok] at hvalid
  obtain ⟨_, ⟨_, hval, -⟩, -⟩ := hvalid
  obtain ⟨relative, hshape⟩ := captureSection_shape hcap hval
  refine ⟨_, previousCoverage, currentCoverage, hshape.register, ?_, hpromised, rfl, hprevious, hcurrent, rfl⟩
  intro snapshot hsnapshot
  rw [hshape.snapshot] at hsnapshot
  cases isRoot with
  | false => cases hsnapshot
  | true =>
    obtain rfl := Option.some.inj hsnapshot
    exact RecoverySnapshot.advance_getLast _ _ _ _

/-- A publication that is fresh at the trusted time `now` leaves the point it registers recoverable for the whole
window from then on, and the coverage it asks for contains every promise and its margin. -/
theorem promised_windows_cover_acceptance (sha256 : List UInt8 → Digest) (plan : V3PublicationPlan)
    (previous : AcceptedRecoveryState) (policy : RecoveryPolicy) (isRoot : Bool)
    (capture : CapturedRecoveryPublication) (now : Int) (uncertainty : ℕ)
    (hcapture : CapturedRecoveryPublication.new sha256 plan previous policy isRoot = .ok capture)
    (huncertainty : historyUncertaintyMs (some capture) = some uncertainty)
    (hfresh : validateHistoryPublicationFreshness now plan.publishTimeMs uncertainty = .ok ()) :
    (∃ point, capture.capturedSection.delta.register = some point ∧
      (∀ snapshot ∈ capture.capturedSection.snapshot, snapshot.tail.getLast? = some point) ∧
      point.policyId = previous.policy.identity sha256 ∧
      now + previous.policy.windowDays * dayMs ≤ point.protectedUntilMs ∧
      point.protectedUntilMs + previous.policy.renewalMarginSeconds * 1000 ≤ capture.requiredCoverageUntilMs ∧
      fitsI64 point.protectedUntilMs ∧ fitsI64 capture.requiredCoverageUntilMs) ∧
    (∀ (governing : RecoveryPolicy) (at_ coverage : Int), governing.coverageUntilMs at_ = .ok coverage →
      ∃ promised, governing.promisedUntilMs at_ = .ok promised ∧
        promised = at_ + (governing.windowDays * dayMs + governing.clockUncertaintyMs) ∧
        promised + governing.renewalMarginSeconds * 1000 ≤ coverage ∧ fitsI64 promised ∧ fitsI64 coverage) ∧
    (∀ (governing : RecoveryPolicy) (at_ : Int), fitsI64 at_ →
      governing.promisedUntilMsWrapping at_ = governing.promisedUntilMs at_ ∧
        governing.coverageUntilMsWrapping at_ = governing.coverageUntilMs at_ ∧
        governing.expiryCutoffMsWrapping at_ = governing.expiryCutoffMs at_) := by
  have hcoverage : ∀ (governing : RecoveryPolicy) (at_ coverage : Int), governing.coverageUntilMs at_ = .ok coverage →
      ∃ promised, governing.promisedUntilMs at_ = .ok promised ∧
        promised = at_ + (governing.windowDays * dayMs + governing.clockUncertaintyMs) ∧
        promised + governing.renewalMarginSeconds * 1000 ≤ coverage ∧ fitsI64 promised ∧ fitsI64 coverage := by
    intro governing at_ coverage h
    obtain ⟨promised, hpromised, hfits, rfl⟩ := governing.coverageUntilMs_promise h
    obtain ⟨⟨hpromisedFits, -⟩, hexact⟩ := governing.promisedUntilMs_eq_ok.mp hpromised
    exact ⟨promised, hpromised, hexact, by omega, hpromisedFits, hfits⟩
  refine ⟨?_, hcoverage, fun governing at_ hat => ?_⟩
  · obtain ⟨point, previousCoverage, currentCoverage, hregister, hlast, hpromised, hid, hprevious, hcurrent, hmax⟩ :=
      captured_promise hcapture
    have hfresh' := validateHistoryPublicationFreshness_le hfresh
    -- The freshness bound is the smaller uncertainty, so the one contained in the promise pays for the delay.
    have hsmaller : uncertainty ≤ previous.policy.clockUncertaintyMs := by
      obtain ⟨_, _, _, hfacts⟩ := captured_facts hcapture
      obtain rfl := Option.some.inj huncertainty
      show min capture.previous.policy.clockUncertaintyMs _ ≤ _
      rw [hfacts.previous]
      exact min_le_left _ _
    obtain ⟨promised, hpromised', hexact, hmargin, hfits, hcoverageFits⟩ := hcoverage _ _ _ hprevious
    obtain rfl := Except.ok.inj (hpromised'.symm.trans hpromised)
    obtain ⟨_, -, -, -, -, hcurrentFits⟩ := hcoverage _ _ _ hcurrent
    refine ⟨point, hregister, hlast, hid, by omega, ?_, hfits, ?_⟩
    · rw [hmax]
      exact hmargin.trans (le_max_left _ _)
    · rw [hmax]
      rcases max_choice previousCoverage currentCoverage with hchoice | hchoice <;> rw [hchoice] <;> assumption
  · exact ⟨governing.promisedUntilMsWrapping_eq at_, governing.coverageUntilMsWrapping_eq at_,
      governing.expiryCutoffMsWrapping_eq hat⟩

/-- The second root is adopted one minute after its time was chosen. -/
theorem promised_windows_cover_acceptance_sample :
    ∃ point, sampleCapture.capturedSection.delta.register = some point ∧
      160000 + 30 * dayMs ≤ point.protectedUntilMs := by
  have h := promised_windows_cover_acceptance sampleSha256 samplePlan ⟨.preset, .default⟩ .preset true sampleCapture
    160000 60000 sampleCapture_new rfl (by decide)
  obtain ⟨⟨point, hregister, -, -, hwindow, -⟩, -⟩ := h
  exact ⟨point, hregister, hwindow⟩

end Rs3.Recovery
