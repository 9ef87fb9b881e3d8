/-
# Rs3.K8s.LeaseCalls — every guard call keeps the invariant.

One weakest-precondition lemma per program of `Rs3.K8s.LeaseGuard`, by induction on the remaining attempts of
its retry loop.  The knowledge that travels through a loop is always the same: the Lease that was
read, at its revision, and what the guard's local state said when it was consulted.
-/
import Rs3.K8s.Takeover

namespace Rs3.K8s

open Cas (Prog Versioned Reply Request Shared Write Rely Deliverable Submit wp)
open Cas.Shared (Extends)

/-- The local steps of a run: all of them, or only those that meet the takeover condition. -/
def allowedWhen (guards : Guards) (timed : Prop) (s : LeaseShared) (a : ActLabel) : Prop :=
  timed → ObservationFresh guards s a

section

variable {guards : Guards} {timed : Prop} {s : LeaseShared} {c : ℕ} {ρ : Type}

/-- Weakest preconditions under the invariant of the Lease. -/
abbrev LeaseWp (guards : Guards) (timed : Prop) (c : ℕ) (program : LeaseProg ρ) (post : ρ → LeaseShared → Prop)
    (s : LeaseShared) : Prop :=
  wp (LeaseInv guards timed) (allowedWhen guards timed) c program post s

/-- A request that is a justified transition whenever it applies can be submitted. -/
theorem submit_of {post : Reply Lease → LeaseShared → Prop} (hs : LeaseInv guards timed s)
    (hq : ∀ s', Extends s s' → LeaseInv guards timed s' → q.Applies s' →
      Transition guards q.label s'.reg q.val ∧ Justified guards timed s' q.label)
    (hok : q.Applies s → LeaseInv guards timed (s.push q) →
      post (.ok ⟨s.rev + 1, q.val⟩) (s.push q)) (hconf : post .conflict s) (hun : post .unavailable (s.lose q)) :
    Submit (LeaseInv guards timed) q post s := by
  have hd : Deliverable (LeaseInv guards timed) q s := by
    intro s' he hs' ha
    obtain ⟨ht, hj⟩ := hq s' he hs' ha
    exact hs'.push ht hj
  exact ⟨hd, hs.lose q, fun ha => hok ha (hd s (.refl s) hs ha), fun _ => hconf, hun⟩

theorem deactivate_wp {α : Type} : LeaseWp guards timed c (deactivate (α := α) g e) (fun _ _ => True) s := by
  intro s' hr _
  refine ⟨?_, fun _ _ => trivial⟩
  exact hr.inv.setLocal (fun claim hclaim => hr.inv.recorded g claim hclaim)
    (fun ht o ho => hr.inv.observed ht g o ho)

variable {claim : WriterFenceClaim}

theorem recordSuccess_wp (hh : HeldAt s i ⟨g, mono, claim, renewal⟩) :
    LeaseWp guards timed c (recordSuccess g lease claim mono) (fun _ _ => True) s := by
  unfold recordSuccess
  split
  · exact fun _ _ => trivial
  · split
    · exact deactivate_wp
    · intro s₁ hr₁ _
      have hi₁ : LeaseInv guards timed (s₁.setLocal g
          { s₁.locals g with localState := ⟨some claim, some mono, true⟩ }) := by
        refine hr₁.inv.setLocal ?_ (fun ht o ho => hr₁.inv.observed ht g o ho)
        intro claim' hclaim'
        cases hclaim'
        exact ⟨i, _, hh.mono hr₁.ext, rfl, rfl, rfl⟩
      refine ⟨hi₁, ?_⟩
      intro s₂ hr₂ _
      refine ⟨?_, fun _ _ => trivial⟩
      exact hr₂.inv.setLocal (fun claim' hclaim' => hr₂.inv.recorded g claim' hclaim')
        (fun _ o ho => by cases ho)

/-! ## Acquire -/

/-- The local step of an acquisition keeps the invariant. -/
theorem observe_inv (hs : LeaseInv guards timed s) (hc : leaseCoordinationState lease d = .ok current)
    (hread : s.valAt r = some lease) (ha : allowedWhen guards timed s (.mayTakeOwnership g current mono)) :
    LeaseInv guards timed (s.setLocal g { s.locals g with
      observation := (mayTakeOwnership current mono (s.locals g).observation).2 }) := by
  refine hs.setLocal (fun claim hclaim => hs.recorded g claim hclaim) ?_
  intro htimed o ho
  cases hrec : current.observation with
  | none =>
    rw [show (mayTakeOwnership current mono (s.locals g).observation).2 = (s.locals g).observation by
      rw [mayTakeOwnership, hrec]] at ho
    exact hs.observed htimed g o ho
  | some record =>
    rcases mayTakeOwnership_cases hrec mono (s.locals g).observation with
      ⟨o', ho', -, hsnd, -⟩ | ⟨hnew, hsnd, -⟩
    · rw [hsnd] at ho
      exact hs.observed htimed g o ho
    · -- a new observation: the record was read, and the run meets the condition
      rw [hsnd] at ho
      cases ho
      obtain ⟨-, -, hren⟩ := LeaseCoordinationState.observation_eq_some hrec
      refine ⟨⟨r, lease, hread, ?_⟩, ha htimed record hrec hnew⟩
      rw [hren]
      exact (leaseCoordinationState_ok hc).2.1

theorem checkedAddOne_ok (h : checkedAddOne n = .ok m) : m = n + 1 ∧ n + 1 < 2 ^ 64 := by
  unfold checkedAddOne at h
  split at h
  · cases h
    exact ⟨rfl, by assumption⟩
  · cases h

theorem acquireUpdate_transition (hc : leaseCoordinationState lease d = .ok current)
    (h : acquireUpdate (guards g) lease current wall = .ok (claim, renewal, updated)) :
    Transition guards (.acquire g mono claim renewal) (some lease) updated := by
  unfold acquireUpdate at h
  simp only [ok_iff, Prod.mk.injEq] at h
  obtain ⟨token, htok, ren, hren, new, hnew, rfl, rfl, rfl⟩ := h
  obtain ⟨hf, hr, -⟩ := leaseCoordinationState_ok hc
  obtain ⟨rfl, htlt⟩ := checkedAddOne_ok htok
  obtain ⟨rfl, hrlt⟩ := checkedAddOne_ok hren
  obtain ⟨seconds, hs, hw⟩ := leaseWithGuardState_ok hnew
  exact ⟨_, _, hf, hr, rfl, rfl, htlt, hrlt, seconds, hs, hw⟩

theorem acquireLoop_wp (attempts : ℕ) (hs : LeaseInv guards timed s) (hclock : stampTime guards g mono ≤ s.clock) :
    LeaseWp guards timed c (acquireLoop (guards g) g wall mono attempts) (fun _ _ => True) s := by
  induction attempts generalizing s with
  | zero => exact fun _ _ => trivial
  | succ attempts ih =>
    intro s₁ hr₁
    have hclock₁ := Nat.le_trans hclock hr₁.ext.clock
    refine ⟨fun _ _ => trivial, ?_⟩
    cases hread : s₁.read with
    | none =>
      -- no Lease yet: create it
      simp only
      cases hnew : newGuardLease (guards g).leaseName ⟨(guards g).holderIdentity, 1⟩
        (guards g).leaseDuration wall with
      | error e => exact fun _ _ => trivial
      | ok lease =>
        intro s₂ hr₂
        have hclock₂ := Nat.le_trans hclock₁ hr₂.ext.clock
        refine submit_of hr₂.inv ?_ ?_ (ih hr₂.inv hclock₂) (fun _ _ => trivial)
        · intro s' he _ ha
          have hnone : s'.reg = none := ha
          obtain ⟨seconds, hsec, hw⟩ := newGuardLease_ok hnew
          rw [hnone]
          refine ⟨⟨rfl, rfl, seconds, hsec, hw⟩, Nat.le_trans hclock₂ he.clock, ?_⟩
          intro _ l hl
          rw [hnone] at hl
          cases hl
        · intro _ _
          exact recordSuccess_wp ⟨_, Cas.Shared.push_log_last s₂ _, rfl⟩
    | some lease =>
      obtain ⟨hval, -⟩ := Cas.Shared.read_eq_some hread
      simp only
      cases hc : leaseCoordinationState lease.val (guards g).leaseDuration with
      | error e => exact fun _ _ => trivial
      | ok current =>
        intro s₂ hr₂ hallowed
        have hi₂ := observe_inv hr₂.inv hc (hr₂.ext.valAt_some hval) hallowed
        refine ⟨hi₂, ?_⟩
        simp only
        cases hdec : (mayTakeOwnership current mono (s₂.locals g).observation).1 with
        | observing => exact fun _ _ => trivial
        | competitorRenewed => exact fun _ _ => trivial
        | allowed =>
          simp only
          cases hup : acquireUpdate (guards g) lease.val current wall with
          | error e => exact fun _ _ => trivial
          | ok up =>
            obtain ⟨claim, renewal, updated⟩ := up
            intro s₃ hr₃
            have hext : Extends s₂ s₃ := (Cas.Shared.extends_setLocal s₂ g _).trans hr₃.ext
            have hclock₃ := Nat.le_trans (Nat.le_trans hclock₁ hr₂.ext.clock) hext.clock
            refine submit_of hr₃.inv ?_ ?_ (ih hr₃.inv hclock₃) (fun _ _ => trivial)
            · intro s' he hs' ha
              have he₂ := hext.trans he
              obtain ⟨hreg, -⟩ := ha.reg_eq rfl (hr₂.ext.trans he₂) hval
              rw [hreg]
              refine ⟨acquireUpdate_transition hc hup, Nat.le_trans hclock₃ he.clock, ?_⟩
              -- the decision was made at `s₂`; its evidence is still good at `s'`
              intro htimed l hl j h hh hown
              rw [hreg] at hl
              cases hl
              have hev := (hr₂.inv.evidence htimed hc hdec).mono he₂ hs'.history
                (hr₂.ext.valAt_some hval) (leaseCoordinationState_ok hc).2.1
              exact hs'.takeover_justified hc hreg hev hh hown
            · intro _ _
              exact recordSuccess_wp ⟨_, Cas.Shared.push_log_last s₃ _, rfl⟩

/-! ## Renew -/

theorem renewUpdate_transition (hc : leaseCoordinationState lease d = .ok current)
    (hholder : current.holderIdentity = some claim.holderIdentity) (htoken : current.fenceToken = claim.token)
    (h : renewUpdate (guards g) claim lease current wall = .ok (renewal, updated)) :
    Transition guards (.renew g mono claim renewal) (some lease) updated := by
  unfold renewUpdate at h
  simp only [ok_iff, Prod.mk.injEq] at h
  obtain ⟨ren, hren, new, hnew, rfl, rfl⟩ := h
  obtain ⟨hf, hr, -, hh, -⟩ := leaseCoordinationState_ok hc
  obtain ⟨rfl, hrlt⟩ := checkedAddOne_ok hren
  obtain ⟨seconds, hs, hw⟩ := leaseWithGuardState_ok hnew
  have hown : owner lease = some claim := owner_eq_some.mpr ⟨hh.symm.trans hholder, hf.trans (by rw [htoken])⟩
  exact ⟨_, hown, hr, rfl, hrlt, seconds, hs, hw⟩

/-- A renewal keeps writing under a claim its guard acquired. -/
theorem renewLoop_wp (hclock : stampTime guards g mono ≤ s.clock)
    (hclaim : ∃ j h, HeldAt s j h ∧ h.guard = g ∧ h.claim = claim) :
    LeaseWp guards timed c (renewLoop (guards g) g claim wall mono attempts) (fun _ _ => True) s := by
  induction attempts generalizing s with
  | zero => exact fun _ _ => trivial
  | succ attempts ih =>
    intro s₁ hr₁
    have hclock₁ := Nat.le_trans hclock hr₁.ext.clock
    have hclaimed : ∀ {s' : LeaseShared}, Extends s s' → ∃ j h, HeldAt s' j h ∧ h.guard = g ∧ h.claim = claim := by
      intro s' he
      obtain ⟨j, h, hh, hrest⟩ := hclaim
      exact ⟨j, h, hh.mono he, hrest⟩
    refine ⟨fun _ _ => trivial, ?_⟩
    cases hread : s₁.read with
    | none => exact deactivate_wp
    | some lease =>
      obtain ⟨hval, -⟩ := Cas.Shared.read_eq_some hread
      simp only
      cases hc : leaseCoordinationState lease.val (guards g).leaseDuration with
      | error e => exact fun _ _ => trivial
      | ok current =>
        simp only
        split
        · exact deactivate_wp
        · rename_i hmatch
          simp only [ne_eq, not_or, not_not] at hmatch
          cases hup : renewUpdate (guards g) claim lease.val current wall with
          | error e => exact fun _ _ => trivial
          | ok up =>
            obtain ⟨renewal, updated⟩ := up
            intro s₂ hr₂
            have hclock₂ := Nat.le_trans hclock₁ hr₂.ext.clock
            have hext := hr₁.ext.trans hr₂.ext
            refine submit_of hr₂.inv ?_ ?_ (ih hclock₂ (hclaimed hext)) (fun _ _ => trivial)
            · intro s' he _ ha
              obtain ⟨hreg, -⟩ := ha.reg_eq rfl (hr₂.ext.trans he) hval
              rw [hreg]
              exact ⟨renewUpdate_transition hc hmatch.1 hmatch.2 hup,
                Nat.le_trans hclock₂ he.clock, hclaimed (hext.trans he)⟩
            · intro _ _
              exact recordSuccess_wp ⟨_, Cas.Shared.push_log_last s₂ _, rfl⟩

theorem currentClaim_ok (h : currentClaim state = .ok claim) : state.claim = some claim := by
  unfold currentClaim at h
  split at h
  · rename_i claim' hc
    split at h
    · cases h
      exact hc
    · cases h
  · cases h

/-- A claim in the local state was acquired by this guard. -/
theorem LeaseInv.claimed (hs : LeaseInv guards timed s) (h : currentClaim (s.locals g).localState = .ok claim) :
    ∃ j d, HeldAt s j d ∧ d.guard = g ∧ d.claim = claim := by
  obtain ⟨j, d, hh, hg, hc, -⟩ := hs.recorded g claim (currentClaim_ok h)
  exact ⟨j, d, hh, hg, hc⟩

/-- Writing a guard's own local state back changes nothing. -/
theorem setLocal_self (s : LeaseShared) (g : GuardId) : s.setLocal g (s.locals g) = s := by
  simp [Shared.setLocal]

theorem renewAt_wp (hclock : stampTime guards g mono ≤ s.clock) :
    LeaseWp guards timed c (renewAt (guards g) g wall mono) (fun _ _ => True) s := by
  intro s₁ hr₁ _
  rw [setLocal_self]
  refine ⟨hr₁.inv, ?_⟩
  simp only
  cases hclaim : currentClaim (s₁.locals g).localState with
  | error e => exact fun _ _ => trivial
  | ok claim =>
    exact renewLoop_wp (Nat.le_trans hclock hr₁.ext.clock)
      (hr₁.inv.claimed hclaim)

/-! ## Release -/

theorem releaseUpdate_transition {guard : LeaseGuard} (hholds : leaseHoldsClaim lease claim = .ok true)
    (h : releaseUpdate guard lease wall = .ok (renewal, updated)) :
    Transition guards (.release g claim renewal) (some lease) updated := by
  unfold releaseUpdate at h
  simp only [ok_iff, Prod.mk.injEq] at h
  obtain ⟨current, hc, ren, hren, new, hnew, rfl, rfl⟩ := h
  obtain ⟨-, hr, -⟩ := leaseCoordinationState_ok hc
  obtain ⟨rfl, hrlt⟩ := checkedAddOne_ok hren
  exact ⟨_, owner_eq_some.mpr (leaseHoldsClaim_ok hholds), hr, rfl, hrlt, leaseWithReleasedState_ok hnew⟩

theorem releaseLoop_wp : LeaseWp guards timed c (releaseLoop (guards g) g claim wall attempts) (fun _ _ => True) s := by
  induction attempts generalizing s with
  | zero => exact fun _ _ => trivial
  | succ attempts ih =>
    intro s₁ hr₁
    refine ⟨fun _ _ => trivial, ?_⟩
    cases hread : s₁.read with
    | none => exact deactivate_wp
    | some lease =>
      obtain ⟨hval, -⟩ := Cas.Shared.read_eq_some hread
      simp only
      cases hholds : leaseHoldsClaim lease.val claim with
      | error e => exact fun _ _ => trivial
      | ok holds =>
        cases holds with
        | false => exact deactivate_wp
        | true =>
          cases hup : releaseUpdate (guards g) lease.val wall with
          | error e => exact fun _ _ => trivial
          | ok up =>
            obtain ⟨renewal, updated⟩ := up
            intro s₂ hr₂
            refine submit_of hr₂.inv ?_ ?_ ih (fun _ _ => trivial)
            · intro s' he _ ha
              obtain ⟨hreg, -⟩ := ha.reg_eq rfl (hr₂.ext.trans he) hval
              rw [hreg]
              exact ⟨releaseUpdate_transition hholds hup, trivial⟩
            · intro _ _ s₃ hr₃ _
              refine ⟨?_, fun _ _ => trivial⟩
              exact hr₃.inv.setLocal (fun claim hc => hr₃.inv.recorded g claim hc)
                (fun ht o ho => hr₃.inv.observed ht g o ho)

theorem releaseAt_wp : LeaseWp guards timed c (releaseAt (guards g) g wall) (fun _ _ => True) s := by
  intro s₁ hr₁ _
  rw [setLocal_self]
  refine ⟨hr₁.inv, ?_⟩
  simp only
  cases hclaim : currentClaim (s₁.locals g).localState with
  | error e => exact fun _ _ => trivial
  | ok claim => exact releaseLoop_wp

end

end Rs3.K8s
