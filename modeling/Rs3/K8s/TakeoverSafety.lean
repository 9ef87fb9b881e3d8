/-
# Rs3.K8s.TakeoverSafety — when a takeover waits out the previous writer's local fence.

`acquire_at` stores its observation under the clock value its caller sampled before the read, and keeps that
value through all conflict retries.  A read that takes long therefore records an observation that is
older than the record it shows, and one lease duration later the guard may replace a Lease whose holder is
still live on its own clock (`takeover_of_live_fence`).  In every run in which no observation is older than
the renewals it shows (`ObservationFresh`), a takeover finds the previous fence expired.
-/
import Rs3.K8s.Fencing

namespace Rs3.K8s

open Cas (Shared Write Choice)
open Cas.Shared (Extends)

/-- The step from `s` to `s'` applies an acquisition of guard `g`, made on the clock value `mono`, to a Lease
that is held under `previous`. -/
def TakesOver (s s' : LeaseShared) (g : GuardId) (mono : ℕ) (previous : WriterFenceClaim) : Prop :=
  ∃ w claim renewal l, s'.log = s.log ++ [w] ∧ w.label = .acquire g mono claim renewal ∧
    s.reg = some l ∧ owner l = some previous

/-- Whether the fence of `claim` is live at guard `holder` right now. -/
def locallyLive (guards : Guards) (s : LeaseShared) (holder : GuardId) (claim : WriterFenceClaim) :
    Option WriterFenceClaim :=
  liveClaimAt (guards holder) claim (s.clock - (guards holder).startedAt) (s.locals holder).localState

section

variable {guards : Guards} {name : String} {σ₀ σ σ' : LeaseSys}

/-- A fence whose last success is one duration in the past is not live. -/
theorem liveClaimAt_expired {guard : LeaseGuard} {state : LocalFenceState}
    (h : state.claim = some claim → ∀ last, state.lastSuccess = some last → last + guard.leaseDuration ≤ now) :
    liveClaimAt guard claim now state = none := by
  unfold liveClaimAt
  split
  · rfl
  · rename_i hc
    have hclaim : state.claim = some claim := by
      by_contra hne
      exact hc (Or.inr hne)
    split
    · rfl
    · rename_i last hlast
      have hle := h hclaim last hlast
      rw [if_pos (by omega)]

variable {g : GuardId} {mono : ℕ} {previous : WriterFenceClaim}

variable (hstart : Started σ₀) (hrun : σ₀.Run (leaseProtocol guards name (allowedWhen guards True)) σ)
  (hstep : σ.Step (leaseProtocol guards name (allowedWhen guards True)) σ')
  (htake : TakesOver σ.shared σ'.shared g mono previous)

include hstart hrun hstep htake

/-- The requests of the replaced epoch are one duration behind the taker. -/
theorem takeover_stamps (hh : HeldAt σ.shared i h) (hc : h.claim = previous) :
    stampTime guards h.guard h.stamp + (guards h.guard).leaseDuration ≤ stampTime guards g mono := by
  have hinv := ((hstart.sound hrun).step hstep).inv
  obtain ⟨w, claim, renewal, l, hlog, hlab, hreg, hown⟩ := htake
  have hw : σ'.shared.log[σ.shared.rev]? = some w := by
    rw [hlog]
    simp [Shared.rev]
  have hval : σ'.shared.valAt σ.shared.rev = some l := by
    rw [hstep.extends.valAt le_rfl]
    exact hreg
  rw [← hc] at hown
  exact hinv.takeover trivial σ.shared.rev w l g mono claim renewal hw hlab hval i h
    (hh.mono hstep.extends) hh.lt_rev hown

/-- The taker's clock value was sampled before the step. -/
theorem takeover_sampled : stampTime guards g mono ≤ σ.shared.clock := by
  have hinv := ((hstart.sound hrun).step hstep).inv
  obtain ⟨w, claim, renewal, l, hlog, hlab, -⟩ := htake
  have hheld : HeldAt σ'.shared σ.shared.rev ⟨g, mono, claim, renewal⟩ := by
    refine ⟨w, ?_, by rw [hlab]; rfl⟩
    rw [hlog]
    simp [Shared.rev]
  have hclock : σ'.shared.clock = σ.shared.clock := by
    refine hstep.clock_eq ?_
    rw [hlog]
    simp
  rw [← hclock]
  exact hinv.sampled _ _ hheld

end

/-- **Takeover waits out the local fence**, in every run in which no observation is older than the
renewals it shows: at the instant a guard replaces a held Lease, the previous epoch is live at no guard, and
everything that extended that epoch lies one full lease duration before the taker's clock value.  That bounds the
stamps of the requests; the taker's own first read of the record may be more recent. -/
theorem takeover_waits (guards : Guards) (name : String) (σ₀ σ σ' : LeaseSys) (hstart : Started σ₀)
    (hrun : σ₀.Run (leaseProtocol guards name (allowedWhen guards True)) σ)
    (hstep : σ.Step (leaseProtocol guards name (allowedWhen guards True)) σ') (g : GuardId) (mono : ℕ)
    (previous : WriterFenceClaim) (htake : TakesOver σ.shared σ'.shared g mono previous) :
    (∀ holder, locallyLive guards σ.shared holder previous = none) ∧
    ∀ i h, HeldAt σ.shared i h → h.claim = previous →
      stampTime guards h.guard h.stamp + (guards h.guard).leaseDuration ≤ stampTime guards g mono := by
  have hstamps : ∀ i h, HeldAt σ.shared i h → h.claim = previous →
      stampTime guards h.guard h.stamp + (guards h.guard).leaseDuration ≤ stampTime guards g mono :=
    fun i h hh hc => takeover_stamps hstart hrun hstep htake hh hc
  refine ⟨fun holder => liveClaimAt_expired fun hclaim last hlast => ?_, hstamps⟩
  -- what the holder recorded is one of the requests of the epoch
  obtain ⟨i, h, hh, hg, hc, hstamp⟩ := (hstart.sound hrun).inv.recorded holder previous hclaim
  rw [hlast] at hstamp
  cases hstamp
  have hle := hstamps i h hh hc
  have hsampled := takeover_sampled hstart hrun hstep htake
  subst hg
  unfold stampTime at hle hsampled
  omega

/-! ## Checking the condition -/

/-- The executable form of `ObservationFresh`. -/
def observationFresh (guards : Guards) (s : LeaseShared) : ActLabel → Bool
  | .mayTakeOwnership g current now =>
    match current.observation with
    | none => true
    | some record =>
      (s.locals g).observation.any (fun previous => previous.record == record) ||
      s.log.all fun w => w.label.hold.all fun h =>
        !(h.claim == ⟨record.holderIdentity, record.fenceToken⟩ && h.renewal ≤ record.renewal) ||
          stampTime guards h.guard h.stamp ≤ stampTime guards g now
  | _ => true

theorem observationFresh_iff : observationFresh guards s a = true ↔ ObservationFresh guards s a := by
  cases a with
  | mayTakeOwnership g current now =>
    constructor
    · intro h record hrecord hnew i d hd hclaim hle
      simp only [observationFresh, hrecord, Bool.or_eq_true] at h
      rcases h with hsame | hall
      · rw [Option.any_eq_true] at hsame
        obtain ⟨previous, hp, heq⟩ := hsame
        exact absurd (by simpa using heq) (hnew previous hp)
      · obtain ⟨w, hw, hhold⟩ := hd
        have hentry := List.all_eq_true.mp hall w (List.mem_of_getElem? hw)
        rw [hhold] at hentry
        simpa [hclaim, hle] using hentry
    · intro h
      cases hrecord : current.observation with
      | none => simp only [observationFresh, hrecord]
      | some record =>
        simp only [observationFresh, hrecord]
        rw [Bool.or_eq_true, or_iff_not_imp_left]
        intro hnone
        rw [List.all_eq_true]
        intro w hw
        obtain ⟨i, hi⟩ := List.getElem?_of_mem hw
        cases hhold : w.label.hold with
        | none => rfl
        | some d =>
          have hfresh := h record hrecord (fun previous hp heq => hnone (by simp [hp, heq])) i d
            ⟨w, hi, hhold⟩
          by_cases hc : d.claim = ⟨record.holderIdentity, record.fenceToken⟩
          · by_cases hle : d.renewal ≤ record.renewal
            · simp [hfresh hc hle]
            · simp [hle]
          · simp [hc]
  | currentClaim | deactivate | recordSuccess | clearObservation | liveClaim =>
    exact ⟨fun _ => trivial, fun _ => rfl⟩

instance (guards : Guards) (s : LeaseShared) (a : ActLabel) : Decidable (allowedWhen guards True s a) :=
  decidable_of_iff (observationFresh guards s a = true)
    (observationFresh_iff.trans ⟨fun h _ => h, fun h => h trivial⟩)

/-- Guard 0 acquires; guard 1 first observes it one second later and returns after ten more. -/
def patientTakeover : List (Choice LeaseCall) :=
  [.start 0 (.acquire 0 0 0), .step 0 false, .step 0 false, .step 0 false, .step 0 false, .tick 1000000000,
    .start 1 (.acquire 1 0 1000000000), .step 1 false, .step 1 false, .tick 10000000000,
    .start 2 (.acquire 1 0 11000000000), .step 2 false, .step 2 false]

theorem takeover_waits_patient :
    ∃ σ σ', freshSys.exec (leaseProtocol twoGuards "writer" (allowedWhen twoGuards True)) patientTakeover = some σ ∧
      σ.execStep (leaseProtocol twoGuards "writer" (allowedWhen twoGuards True)) (.step 2 false) = some σ' ∧
      TakesOver σ.shared σ'.shared 1 11000000000 ⟨"a", 1⟩ ∧
      locallyLive twoGuards σ.shared 0 ⟨"a", 1⟩ = none := by
  have hrun : (freshSys.exec (leaseProtocol twoGuards "writer" (allowedWhen twoGuards True))
      patientTakeover).isSome = true := by decide
  have hstep : ((Option.get _ hrun).execStep (leaseProtocol twoGuards "writer" (allowedWhen twoGuards True))
      (.step 2 false)).isSome = true := rfl
  have htake : TakesOver (Option.get _ hrun).shared (Option.get _ hstep).shared 1 11000000000 ⟨"a", 1⟩ :=
    ⟨_, _, _, _, rfl, rfl, rfl, rfl⟩
  refine ⟨_, _, (Option.some_get hrun).symm, (Option.some_get hstep).symm, htake, ?_⟩
  exact (takeover_waits twoGuards "writer" freshSys _ _ freshSys_started
    (Cas.Sys.run_of_exec _ (Option.some_get hrun).symm)
    (Cas.Sys.step_of_execStep _ (Option.some_get hstep).symm) 1 11000000000 ⟨"a", 1⟩ htake).1 0

/-! ## An old observation -/

/-- Guard 1 samples its clock at zero and reads nine seconds later, after guard 0 has renewed at nine; at
ten seconds it may take over. -/
def slowRead : List (Choice LeaseCall) :=
  [.start 0 (.acquire 0 0 0), .step 0 false, .step 0 false, .step 0 false, .step 0 false, .start 1 (.acquire 1 0 0),
    .tick 9000000000, .start 2 (.renew 0 0 9000000000), .step 2 false, .step 2 false, .step 2 false, .step 2 false,
    .step 2 false, .step 1 false, .step 1 false, .tick 1000000000,
    .start 3 (.acquire 1 0 10000000000), .step 3 false, .step 3 false]

/-- The fence of guard 0, renewed one second earlier, is live when its Lease is replaced. -/
theorem takeover_of_live_fence :
    ∃ σ σ', freshSys.Run (leaseProtocol twoGuards "writer" anyAct) σ ∧
      σ.Step (leaseProtocol twoGuards "writer" anyAct) σ' ∧
      TakesOver σ.shared σ'.shared 1 10000000000 ⟨"a", 1⟩ ∧
      locallyLive twoGuards σ.shared 0 ⟨"a", 1⟩ = some ⟨"a", 1⟩ := by
  have hrun : (freshSys.exec (leaseProtocol twoGuards "writer" anyAct) slowRead).isSome = true := by decide
  have hstep : ((Option.get _ hrun).execStep (leaseProtocol twoGuards "writer" anyAct) (.step 3 false)).isSome = true := rfl
  have hlive : (freshSys.exec (leaseProtocol twoGuards "writer" anyAct) slowRead).map
      (fun σ => locallyLive twoGuards σ.shared 0 ⟨"a", 1⟩) = some (some ⟨"a", 1⟩) := by decide
  refine ⟨_, _, Cas.Sys.run_of_exec _ (Option.some_get hrun).symm,
    Cas.Sys.step_of_execStep _ (Option.some_get hstep).symm, ⟨_, _, _, _, rfl, rfl, rfl, rfl⟩, ?_⟩
  rw [← Option.some_get hrun, Option.map_some, Option.some.injEq] at hlive
  exact hlive

end Rs3.K8s
