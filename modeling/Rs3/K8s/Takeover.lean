/-
# Rs3.K8s.Takeover — the evidence behind a takeover decision.

`may_take_ownership` allows a takeover when the record it observed stayed the same for one lease duration on
the caller's clock.  This module says what that decision proves about the history: under the
condition `ObservationFresh`, every acquisition or renewal of the replaced epoch carries a clock value at
least one duration before the taker's own.
-/
import Rs3.K8s.LeaseInvariant

namespace Rs3.K8s

open Cas (Prog Versioned Reply Request Shared Write)
open Cas.Shared (Extends)

/-! ## Durations -/

theorem durationSecondsI32_ok
    (h : durationSecondsI32 d = .ok seconds) : seconds.toNat * 1000000000 = d ∧ 0 < seconds := by
  unfold durationSecondsI32 at h
  split at h
  · cases h
  · rename_i hc
    split at h
    · cases h
      simp only [not_or, ne_eq, not_not] at hc
      have hmod := Nat.div_add_mod d 1000000000
      simp only [Int.toNat_natCast]
      omega
    · cases h

theorem coordinationSeconds_pos (h : coordinationSeconds lease d = .ok seconds) : 0 < seconds := by
  unfold coordinationSeconds at h
  split at h
  · split at h
    · cases h
      assumption
    · cases h
  · exact (durationSecondsI32_ok h).2

theorem leaseCoordinationState_duration_pos (h : leaseCoordinationState lease d = .ok current) :
    0 < current.leaseDuration := by
  obtain ⟨-, -, hs, -, hd⟩ := leaseCoordinationState_ok h
  have := coordinationSeconds_pos hs
  omega

section

variable {guards : Guards} {timed : Prop} {s s' : LeaseShared}

/-- While an epoch lasts, the Lease carries the duration of the guard that owns it. -/
theorem LeaseInv.held_duration (hi : LeaseInv guards timed s)
    (hh : HeldAt s j h) (hval : s.valAt i = some l) (hji : j < i) (hown : owner l = some h.claim) :
    ∃ seconds, durationSecondsI32 (guards h.guard).leaseDuration = .ok seconds ∧
      l.spec.bind LeaseSpec.leaseDurationSeconds = some seconds := by
  obtain ⟨new, hnew, hnown, -, seconds, hsec, hspec⟩ := hi.history.heldAt hh
  refine ⟨seconds, hsec, ?_⟩
  -- carried along the history together with the epoch itself
  have hkeep : EpochKept h.claim l ∧ (owner l = some h.claim →
      l.spec.bind LeaseSpec.leaseDurationSeconds = some seconds) := by
    refine hi.history.preserved (P := fun x => EpochKept h.claim x ∧ (owner x = some h.claim →
      x.spec.bind LeaseSpec.leaseDurationSeconds = some seconds)) ?_ hji hnew hval
      ⟨epochKept_of_owner hnown, fun _ => hspec⟩
    rintro k w old - hw hold ht ⟨hkept, hdur⟩
    refine ⟨ht.epochKept hkept, fun hnewown => ?_⟩
    cases hlab : w.label with
    | acquire g mono claim renewal =>
      rw [hlab] at ht
      obtain ⟨token, count, htok, -, rfl, -, hlt, -, sec, -, hwr⟩ := ht
      obtain ⟨token', htok', hle, -⟩ := hkept
      rw [htok] at htok'
      cases htok'
      have hnt := (owner_eq_some.mp hnewown).2
      rw [hwr.fenceToken hlt, Except.ok.injEq] at hnt
      have hsucc : token + 1 = h.claim.token := hnt
      omega
    | renew g mono claim renewal =>
      have hk : HeldAt s k ⟨g, mono, claim, renewal⟩ := ⟨w, hw, by rw [hlab]; rfl⟩
      obtain ⟨new', hnew', hown', -, sec, hsec', hspec'⟩ := hi.history.heldAt hk
      rw [valAt_succ hw] at hnew'
      cases hnew'
      rw [hnewown] at hown'
      cases hown'
      have hg : h.guard = g := hi.oneGuard j k h _ hh hk rfl
      subst hg
      rw [hsec] at hsec'
      cases hsec'
      exact hspec'
    | release g claim renewal =>
      rw [hlab] at ht
      obtain ⟨_, -, -, -, -, hwr⟩ := ht
      have hholder := (owner_eq_some.mp hnewown).1
      rw [hwr.holder] at hholder
      cases hholder
    | advance fence next =>
      rw [hlab] at ht
      obtain ⟨hnew', -⟩ := ht
      obtain ⟨hsp, hft, -⟩ := advance_frame old next
      rw [hnew', hsp]
      refine hdur (owner_eq_some.mpr ?_)
      rw [hnew', owner_eq_some, hft] at hnewown
      exact hnewown
    | fence f =>
      rw [hlab] at ht
      have hnew' : w.new = old.editAnnotations bumpAnchorFence := ht
      obtain ⟨hsp, hft, -⟩ := fence_frame old
      rw [hnew', hsp]
      refine hdur (owner_eq_some.mpr ?_)
      rw [hnew', owner_eq_some, hft] at hnewown
      exact hnewown
  exact hkeep.2 hown

/-! ## Evidence -/

/-- Everything that extended the epoch `current` shows happened one duration before `mono`. -/
def TakeoverEvidence (guards : Guards) (s : LeaseShared) (g : GuardId) (mono : ℕ)
    (current : LeaseCoordinationState) : Prop :=
  ∀ holder, current.holderIdentity = some holder → ∀ i h, HeldAt s i h →
    h.claim = ⟨holder, current.fenceToken⟩ → h.renewal ≤ current.renewal →
    stampTime guards h.guard h.stamp + current.leaseDuration ≤ stampTime guards g mono

variable {current : LeaseCoordinationState}

/-- Later requests renew past `current`, so evidence is never lost. -/
theorem TakeoverEvidence.mono {g : GuardId} {mono : ℕ}
    (h : TakeoverEvidence guards s g mono current) (he : Extends s s') (hs' : History guards s')
    {r : ℕ} {l : Lease} (hr : s.valAt r = some l) (hc : renewalCount l = .ok current.renewal) :
    TakeoverEvidence guards s' g mono current := by
  intro holder hholder i d hd hclaim hle
  rcases hd.of_extends he with hold | hge
  · exact h holder hholder i d hold hclaim hle
  · have hri : r ≤ i := Nat.le_trans (Cas.Shared.le_rev_of_valAt hr) hge
    have hlt := hs'.renewal_lt hd (he.valAt_some hr) hri hc
    omega

/-- **The condition.** When `may_take_ownership` stores a new observation, the clock value it stores is not
before the clock value of any acquisition or renewal that led up to the observed record. -/
def ObservationFresh (guards : Guards) (s : LeaseShared) : ActLabel → Prop
  | .mayTakeOwnership g current now =>
    ∀ record, current.observation = some record →
      (∀ previous, (s.locals g).observation = some previous → previous.record ≠ record) →
      ∀ i h, HeldAt s i h → h.claim = ⟨record.holderIdentity, record.fenceToken⟩ →
        h.renewal ≤ record.renewal → stampTime guards h.guard h.stamp ≤ stampTime guards g now
  | _ => True

theorem LeaseCoordinationState.observation_eq_some (h : current.observation = some record) :
    current.holderIdentity = some record.holderIdentity ∧ record.fenceToken = current.fenceToken ∧
      record.renewal = current.renewal := by
  unfold LeaseCoordinationState.observation at h
  cases hh : current.holderIdentity with
  | none => simp [hh] at h
  | some holder =>
    simp only [hh, Option.map_some, Option.some.injEq] at h
    subst h
    exact ⟨rfl, rfl, rfl⟩

theorem LeaseCoordinationState.observation_of_holder (h : current.holderIdentity = some holder) :
    current.observation = some ⟨holder, current.fenceToken, current.renewal, current.leaseDurationSeconds⟩ := by
  rw [LeaseCoordinationState.observation, h]
  rfl

/-- The three outcomes of `may_take_ownership` on a held Lease. -/
theorem mayTakeOwnership_cases
    (h : current.observation = some record) (now : ℕ) (observed : Option ObservedCompetitor) :
    (∃ o, observed = some o ∧ o.record = record ∧
      (mayTakeOwnership current now observed).2 = observed ∧
      ((mayTakeOwnership current now observed).1 = .allowed →
        current.leaseDuration ≤ now - o.observedAt)) ∨ ((∀ o, observed = some o → o.record ≠ record) ∧
      (mayTakeOwnership current now observed).2 = some ⟨record, now⟩ ∧
      (mayTakeOwnership current now observed).1 ≠ .allowed) := by
  unfold mayTakeOwnership
  rw [h]
  cases observed with
  | none => exact Or.inr ⟨by simp, rfl, by simp⟩
  | some o =>
    by_cases heq : o.record = record
    · left
      refine ⟨o, rfl, heq, ?_, ?_⟩
      · simp only [heq, ne_eq, not_true_eq_false, if_false]
        split <;> rfl
      · simp only [heq, ne_eq, not_true_eq_false, if_false]
        split
        · intro _
          assumption
        · intro hne
          cases hne
    · right
      simp only [ne_eq, heq, not_false_eq_true, if_true, reduceCtorEq, and_true]
      intro o' ho'
      cases ho'
      exact heq

theorem LeaseInv.evidence (hi : LeaseInv guards timed s) (htimed : timed)
    (hc : leaseCoordinationState lease d = .ok current)
    (hdec : (mayTakeOwnership current now (s.locals g).observation).1 = .allowed) :
    TakeoverEvidence guards s g now current := by
  intro holder hholder i h hh hclaim hle
  have hrec := LeaseCoordinationState.observation_of_holder hholder
  rcases mayTakeOwnership_cases hrec now (s.locals g).observation with
    ⟨o, ho, horec, -, hdur⟩ | ⟨-, -, hne⟩
  · have hstamp := (hi.observed htimed g o ho).2 i h hh (by rw [horec]; exact hclaim)
      (by rw [horec]; exact hle)
    have hpos := leaseCoordinationState_duration_pos hc
    have hwait := hdur hdec
    simp only [stampTime] at hstamp ⊢
    omega
  · exact absurd hdec hne

/-- Evidence about the Lease in the register justifies replacing it. -/
theorem LeaseInv.takeover_justified (hi : LeaseInv guards timed s)
    (hc : leaseCoordinationState lease d = .ok current) (hreg : s.reg = some lease)
    (hev : TakeoverEvidence guards s g mono current) (hh : HeldAt s j h) (hown : owner lease = some h.claim) :
    stampTime guards h.guard h.stamp + (guards h.guard).leaseDuration ≤ stampTime guards g mono := by
  obtain ⟨hf, hr, hsec, hholder, hdur⟩ := leaseCoordinationState_ok hc
  obtain ⟨hh1, hh2⟩ := owner_eq_some.mp hown
  obtain ⟨seconds, hgs, hspec⟩ := hi.held_duration hh hreg hh.lt_rev hown
  -- the Lease read shows this guard's own duration
  have hcurdur : current.leaseDuration = (guards h.guard).leaseDuration := by
    obtain ⟨hmul, hpos⟩ := durationSecondsI32_ok hgs
    rw [coordinationSeconds, hspec] at hsec
    simp only [hpos, if_true, Except.ok.injEq] at hsec
    rw [hdur, ← hsec, hmul]
  -- and its counter is past every request of the epoch
  obtain ⟨new, hnew, -, hnr, -⟩ := hi.history.heldAt hh
  obtain ⟨count, hcount, hle⟩ := hi.history.renewedSince (Nat.succ_le_of_lt hh.lt_rev) hnew hreg hnr
  have hcur : count = current.renewal := by
    have := hcount.symm.trans hr
    simpa using this
  have htok : current.fenceToken = h.claim.token := by
    have := hf.symm.trans hh2
    simpa using this
  rw [← hcurdur]
  refine hev h.claim.holderIdentity (hholder.trans hh1) j h hh ?_ (hcur ▸ hle)
  rw [htok]

end

end Rs3.K8s
