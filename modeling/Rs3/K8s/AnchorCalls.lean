/-
# Rs3.K8s.AnchorCalls — every anchor call keeps the invariant, and what its result says.

The retry loops of `compare_and_advance_lease` and `fence_and_read_lease`, with postconditions about the history:
where a reported state was in the register, and what has become of the requests the call left in
flight.  A fencing write that lands moves the revision past every earlier request of the same call.
-/
import Rs3.K8s.LeaseCalls

namespace Rs3.K8s

open Cas (Prog Versioned Reply Request Shared Write Rely Deliverable Submit Quiet wp wp_bind wp_mono)
open Cas.Shared (Extends)

/-! ## Requests of one call -/

/-- The anchor was `state` at some revision. -/
def AnchorHeld (s : LeaseShared) (state : V3AnchorState) : Prop :=
  ∃ i l, s.valAt i = some l ∧ v3AnchorStateFromLeaseOptional l = .ok (some state)

/-- Every advance call `c` ever submitted is to a state in `T`, on a revision already reached. -/
structure AdvancesTo (c : ℕ) (T : V3AnchorState → Prop) (s : LeaseShared) : Prop where
  log : ∀ w ∈ s.log, w.call = c → ∀ next ∈ w.label.target, T next
  pool : ∀ q ∈ s.pool, q.call = c → (∀ next ∈ q.label.target, T next) ∧ ∀ r, q.rev = some r → r ≤ s.rev

/-- No advance in flight of call `c` can still apply, and those that did came before revision `k`. -/
structure FencedAt (c : ℕ) (k : ℕ) (s : LeaseShared) : Prop where
  reached : ∃ l, s.valAt k = some l
  log : ∀ i w, s.log[i]? = some w → w.call = c → w.label.target ≠ none → i < k
  pool : ∀ q ∈ s.pool, q.call = c → q.label.target ≠ none → ∀ r, q.rev = some r → r < k

section

variable {guards : Guards} {timed : Prop} {s s' : LeaseShared} {c : ℕ} {next : V3AnchorState} {T : V3AnchorState → Prop}

variable {state : V3AnchorState} {Inv : LeaseShared → Prop} {lease : Lease}

theorem AnchorHeld.mono (h : AnchorHeld s state) (he : Extends s s') : AnchorHeld s' state := by
  obtain ⟨i, l, hv, ha⟩ := h
  exact ⟨i, l, he.valAt_some hv, ha⟩

theorem advancesTo_of_quiet (h : Quiet c s) : AdvancesTo c T s :=
  ⟨fun w hw hc => absurd hc (h.log w hw), fun q hq hc => absurd hc (h.pool q hq)⟩

theorem AdvancesTo.rely (h : AdvancesTo c T s) (hr : Rely Inv c s s') : AdvancesTo c T s' := by
  constructor
  · intro w hw hc
    obtain ⟨i, hi⟩ := List.getElem?_of_mem hw
    rcases Nat.lt_or_ge i s.rev with hlt | hge
    · rw [hr.ext.log_getElem? hlt] at hi
      exact h.log w (List.mem_of_getElem? hi) hc
    · obtain ⟨q, hq, hqc, hql, -⟩ := hr.log i w hi hge hc
      rw [← hql]
      exact (h.pool q hq hqc).1
  · intro q hq hc
    obtain ⟨hn, hle⟩ := h.pool q (hr.pool q hq hc) hc
    exact ⟨hn, fun r hqr => Nat.le_trans (hle r hqr) hr.ext.rev_le⟩

theorem FencedAt.rely (h : FencedAt c k s) (hr : Rely Inv c s s') : FencedAt c k s' := by
  obtain ⟨l, hl⟩ := h.reached
  have hk := Cas.Shared.le_rev_of_valAt hl
  refine ⟨⟨l, hr.ext.valAt_some hl⟩, ?_, fun q hq hc ha => h.pool q (hr.pool q hq hc) hc ha⟩
  intro i w hw hc ha
  rcases Nat.lt_or_ge i s.rev with hlt | hge
  · rw [hr.ext.log_getElem? hlt] at hw
    exact h.log i w hw hc ha
  · -- a late delivery would need the revision the fencing write has moved on from
    obtain ⟨q, hq, hqc, hql, hnone | hsome⟩ := hr.log i w hw hge hc
    · have hirev : i ≤ s'.rev := Nat.le_of_lt (List.getElem?_eq_some_iff.mp hw).1
      obtain ⟨l', hl'⟩ := valAt_isSome_of_le (hr.ext.valAt_some hl) (Nat.le_trans hk hge) hirev
      rw [hnone.2] at hl'
      cases hl'
    · rw [← hql] at ha
      exact h.pool q hq hqc ha i hsome

/-! ## Fence checks -/

/-- What a passed fence check says about the Lease. -/
def FenceHolds (lease : Lease) (writerFence : Option WriterFence) : Prop :=
  (∀ f ∈ writerFence, owner lease = some f.claim) ∧ (writerFence = none → leaseHasWriterCoordination lease = false)

theorem liveClaimAt_eq_some {guard : LeaseGuard} {claim' : WriterFenceClaim} {now : ℕ}
    {state : LocalFenceState} (h : liveClaimAt guard claim now state = some claim') :
    claim' = claim := by
  unfold liveClaimAt at h
  split at h
  · cases h
  · split at h
    · cases h
    · split at h
      · cases h
      · cases h
        rfl

theorem holdsClaim_ok (h : holdsClaim lease claim = .ok ()) : owner lease = some claim := by
  unfold holdsClaim at h
  split at h
  · rename_i hh
    exact owner_eq_some.mpr (leaseHoldsClaim_ok hh)
  · cases h

theorem liveClaim_wp {fence : WriterFence}
    {Q : Except V3FormatError WriterFenceClaim → LeaseShared → Prop}
    (h : ∀ r s', Rely (LeaseInv guards timed) c s s' → (∀ claim, r = .ok claim → claim = fence.claim) → Q r s') :
    LeaseWp guards timed c (liveClaim guards fence) Q s := by
  intro s₁ hr₁ _
  rw [setLocal_self]
  refine ⟨hr₁.inv, fun s₂ hr₂ => h _ s₂ (hr₁.trans hr₂) ?_⟩
  intro claim hc
  rw [okOr_eq_ok] at hc
  exact liveClaimAt_eq_some hc

variable {q : Request Lease WriteLabel}

theorem validateWriterFence_wp (hs : LeaseInv guards timed s) {Q : Except V3FormatError Unit → LeaseShared → Prop}
    (h : ∀ r s', Rely (LeaseInv guards timed) c s s' → (r = .ok () → FenceHolds lease writerFence) → Q r s') :
    LeaseWp guards timed c (validateWriterFence guards lease writerFence) Q s := by
  cases writerFence with
  | none =>
    intro s' hr
    refine h _ s' hr fun hok => ⟨by simp, fun _ => ?_⟩
    by_contra hne
    rw [if_pos (by simpa using hne)] at hok
    cases hok
  | some fence =>
    refine wp_bind hs (liveClaim_wp fun r s₁ hr₁ hclaim s₂ hr₂ => h _ s₂ (hr₁.trans hr₂) ?_)
    intro hok
    rw [bind_eq_ok] at hok
    obtain ⟨claim, rfl, hh⟩ := hok
    have hcl : claim = fence.claim := hclaim claim rfl
    subst hcl
    refine ⟨?_, by simp⟩
    rintro f hf
    cases hf
    exact holdsClaim_ok hh

theorem v3LeaseForAnchorAdvance_wp (hs : LeaseInv guards timed s)
    {Q : Except V3FormatError Lease → LeaseShared → Prop} (h : ∀ r s', Rely (LeaseInv guards timed) c s s' →
      (∀ updated, r = .ok updated → updated = v3LeaseWithState lease state ∧ FenceHolds lease writerFence) → Q r s') :
    LeaseWp guards timed c (v3LeaseForAnchorAdvance guards lease state writerFence) Q s := by
  refine wp_bind hs (validateWriterFence_wp hs fun r s₁ hr₁ hvalid => ?_)
  cases r with
  | error e => exact fun s₂ hr₂ => h _ s₂ (hr₁.trans hr₂) (fun _ hu => by cases hu)
  | ok u =>
    have hfence := hvalid rfl
    cases writerFence with
    | none =>
      intro s₂ hr₂
      refine h _ s₂ (hr₁.trans hr₂) fun updated hu => ?_
      cases hu
      exact ⟨rfl, hfence⟩
    | some fence =>
      refine wp_bind hr₁.inv (liveClaim_wp fun r s₂ hr₂ _ s₃ hr₃ => ?_)
      refine h _ s₃ ((hr₁.trans hr₂).trans hr₃) fun updated hu => ?_
      simp only [ok_iff] at hu
      obtain ⟨claim, -, -, -, rfl⟩ := hu
      exact ⟨rfl, hfence⟩

/-! ## Compare and advance -/

theorem AdvancesTo.push (h : AdvancesTo c T s)
    (hq : ∀ next ∈ q.label.target, T next) : AdvancesTo c T (s.push q) := by
  constructor
  · intro w hw hc
    rcases List.mem_append.mp hw with hw | hw
    · exact h.log w hw hc
    · rw [List.mem_singleton.mp hw]
      exact hq
  · intro q' hq' hc
    obtain ⟨hn, hle⟩ := h.pool q' hq' hc
    exact ⟨hn, fun r hr => Nat.le_trans (hle r hr) (Cas.Shared.extends_push s q).rev_le⟩

theorem AdvancesTo.lose (h : AdvancesTo c T s)
    (hq : ∀ next ∈ q.label.target, T next) (hr : ∀ r, q.rev = some r → r ≤ s.rev) :
    AdvancesTo c T (s.lose q) := by
  constructor
  · exact h.log
  · intro q' hq' hc
    rcases List.mem_cons.mp hq' with rfl | hq'
    · exact ⟨hq, hr⟩
    · exact h.pool q' hq' hc

variable (fence : Option WriterFence) (attempts : ℕ)

theorem target_advance (next : V3AnchorState) : ∀ state ∈ (WriteLabel.advance fence next).target, state = next := by
  intro state h
  cases h
  rfl

theorem target_fence : ∀ state ∈ (WriteLabel.fence fence).target, T state := by
  intro state h
  cases h

/-- The strict decoder agrees with the optional one. -/
theorem v3AnchorStateFromLease_ok (h : v3AnchorStateFromLease lease = .ok state) :
    v3AnchorStateFromLeaseOptional lease = .ok (some state) := by
  unfold v3AnchorStateFromLease at h
  simp only [bind_eq_ok, okOr_eq_ok] at h
  obtain ⟨m, hm, hdec⟩ := h
  have hparts : ∃ format, m[repositoryFormatKey]? = some format ∧ hasV2Keys m = false := by
    have hd := hdec
    simp only [decodeAnchor, v3Text, bind_eq_ok, okOr_eq_ok, ensure_eq_ok] at hd
    obtain ⟨format, hf, -, ⟨-, hv2⟩, -⟩ := hd
    exact ⟨format, hf, hv2⟩
  obtain ⟨format, hf, hv2⟩ := hparts
  have hany : anchorKeys.any (fun key => (m[key]?).isSome) = true := by
    rw [List.any_eq_true]
    exact ⟨repositoryFormatKey, by simp [anchorKeys], by rw [hf]; rfl⟩
  rw [v3AnchorStateFromLeaseOptional_eq, hm, Option.getD_some, decodeAnchorOptional, hv2, hany, hdec]
  rfl

theorem advance_transition (hchecks : advanceChecks lease expected next = .ok ())
    (hup : updated = v3LeaseWithState lease next) (hf : FenceHolds lease writerFence) :
    Transition guards (.advance writerFence next) (some lease) updated := by
  unfold advanceChecks at hchecks
  simp only [bind_eq_ok, ensure_eq_ok] at hchecks
  obtain ⟨current, hcur, -, -, hseq⟩ := hchecks
  exact ⟨hup, ⟨current, hcur, hseq⟩, hf.1, hf.2⟩

/-- What is known when an advance returns. -/
def Advanced (c : ℕ) (next : V3AnchorState) (r : Except V3FormatError V3AnchorState)
    (s : LeaseShared) : Prop :=
  AdvancesTo c (· = next) s ∧ ∀ state, r = .ok state → AnchorHeld s state

/-- An error is reported with the requests of the call accounted for. -/
theorem advanced_error (h : AdvancesTo c (· = next) s) :
    LeaseWp guards timed c (.done (.error e) : LeaseProg (Except V3FormatError V3AnchorState)) (Advanced c next) s :=
  fun _ hr => ⟨h.rely hr, fun _ hok => by cases hok⟩

theorem advanced_written (h : AdvancesTo c (· = next) (s.push q)) :
    LeaseWp guards timed c (.done (v3AnchorStateFromLease q.val) : LeaseProg (Except V3FormatError V3AnchorState))
      (Advanced c next) (s.push q) := by
  intro s' hr
  refine ⟨h.rely hr, fun state hok => AnchorHeld.mono ?_ hr.ext⟩
  exact ⟨s.rev + 1, q.val, Cas.Shared.valAt_push_rev s q, v3AnchorStateFromLease_ok hok⟩

theorem compareAndAdvanceLoop_wp (hq : Quiet c s) :
    LeaseWp guards timed c
      (compareAndAdvanceLoop guards name writerFence expected next attempts) (Advanced c next) s := by
  induction attempts generalizing s with
  | zero => exact advanced_error (advancesTo_of_quiet hq)
  | succ attempts ih =>
    intro s₁ hr₁
    have hq₁ := hq.rely hr₁
    refine ⟨advanced_error (advancesTo_of_quiet hq₁), ?_⟩
    cases hread : s₁.read with
    | none =>
      split
      · exact advanced_error (advancesTo_of_quiet hq₁)
      · split
        · exact advanced_error (advancesTo_of_quiet hq₁)
        · rename_i hfence
          have hnone : writerFence = none := by simpa using hfence
          subst hnone
          intro s₂ hr₂
          have hq₂ := hq₁.rely hr₂
          refine submit_of hr₂.inv ?_ ?_ (ih hq₂) ?_
          · intro s' _ _ ha
            have hreg : s'.reg = none := ha
            rw [hreg]
            exact ⟨⟨rfl, name, rfl⟩, trivial⟩
          · intro _ _
            exact advanced_written ((advancesTo_of_quiet hq₂).push (target_advance none next))
          · exact advanced_error ((advancesTo_of_quiet hq₂).lose (target_advance none next) (by simp))
    | some lease =>
      obtain ⟨hval, hrev⟩ := Cas.Shared.read_eq_some hread
      simp only
      cases hchecks : advanceChecks lease.val expected next with
      | error e => exact advanced_error (advancesTo_of_quiet hq₁)
      | ok u =>
        refine wp_bind hr₁.inv (v3LeaseForAnchorAdvance_wp hr₁.inv fun r s₂ hr₂ hup => ?_)
        have hq₂ := hq₁.rely hr₂
        cases r with
        | error e => exact advanced_error (advancesTo_of_quiet hq₂)
        | ok updated =>
          obtain ⟨hupd, hfence⟩ := hup updated rfl
          intro s₃ hr₃
          have hq₃ := hq₂.rely hr₃
          have hext := hr₂.ext.trans hr₃.ext
          refine submit_of hr₃.inv ?_ ?_ (ih hq₃) ?_
          · intro s' he _ ha
            obtain ⟨hreg, -⟩ := ha.reg_eq rfl (hext.trans he) hval
            rw [hreg]
            exact ⟨advance_transition hchecks hupd hfence, trivial⟩
          · intro _ _
            exact advanced_written ((advancesTo_of_quiet hq₃).push (target_advance _ next))
          · refine advanced_error ((advancesTo_of_quiet hq₃).lose (target_advance _ next) ?_)
            intro r hr
            cases hr
            rw [hrev]
            exact hext.rev_le

/-! ## Fence and read -/

/-- What is known when a fencing read returns: a state it reports was in the register at a revision
that no advance of this call still in flight can reach. -/
def FencedRead (c : ℕ) (T : V3AnchorState → Prop) (r : Except V3FormatError (Option V3AnchorState))
    (s : LeaseShared) : Prop :=
  AdvancesTo c T s ∧ ∀ state, r = .ok (some state) →
    ∃ k l, s.valAt k = some l ∧ v3AnchorStateFromLeaseOptional l = .ok (some state) ∧ FencedAt c k s

theorem fencedRead_other (h : AdvancesTo c T s) (hr : ∀ state, r ≠ .ok (some state)) :
    LeaseWp guards timed c (.done r : LeaseProg (Except V3FormatError (Option V3AnchorState))) (FencedRead c T) s :=
  fun _ hrely => ⟨h.rely hrely, fun state hok => absurd hok (hr state)⟩

/-- An applied fencing write leaves every earlier advance of its call behind. -/
theorem fencedAt_push (h : AdvancesTo c T s) (hq : q.label.target = none) : FencedAt c (s.rev + 1) (s.push q) := by
  refine ⟨⟨q.val, Cas.Shared.valAt_push_rev s q⟩, ?_, ?_⟩
  · intro i w hw _ ha
    rcases Nat.lt_or_ge i s.rev with hlt | hge
    · omega
    · obtain ⟨-, rfl⟩ := Cas.Shared.push_log_new hw hge
      exact absurd hq ha
  · intro q' hq' hc _ r hr
    exact Nat.lt_succ_of_le ((h.pool q' hq' hc).2 r hr)

theorem fenceAndReadLoop_wp (h : AdvancesTo c T s) : LeaseWp guards timed c
      (fenceAndReadLoop guards writerFence attempts) (FencedRead c T) s := by
  induction attempts generalizing s with
  | zero => exact fencedRead_other h (by simp)
  | succ attempts ih =>
    intro s₁ hr₁
    have h₁ := h.rely hr₁
    refine ⟨fencedRead_other h₁ (by simp), ?_⟩
    cases hread : s₁.read with
    | none => exact fencedRead_other h₁ (by simp)
    | some lease =>
      obtain ⟨hval, -⟩ := Cas.Shared.read_eq_some hread
      refine wp_bind hr₁.inv (validateWriterFence_wp hr₁.inv fun r s₂ hr₂ _ => ?_)
      have h₂ := h₁.rely hr₂
      cases r with
      | error e => exact fencedRead_other h₂ (by simp)
      | ok u =>
        intro s₃ hr₃
        have h₃ := h₂.rely hr₃
        have hnot : (WriteLabel.fence writerFence).target = none := rfl
        refine submit_of hr₃.inv ?_ ?_ (ih h₃) ?_
        · intro s' he _ ha
          obtain ⟨hreg, -⟩ := ha.reg_eq rfl ((hr₂.ext.trans hr₃.ext).trans he) hval
          rw [hreg]
          exact ⟨rfl, trivial⟩
        · intro _ _ s₄ hr₄
          have hpush : AdvancesTo c T (s₃.push ⟨c, .fence writerFence, some lease.rev,
              lease.val.editAnnotations bumpAnchorFence⟩) := h₃.push (target_fence writerFence)
          refine ⟨hpush.rely hr₄, fun state hok => ?_⟩
          exact ⟨s₃.rev + 1, _, hr₄.ext.valAt_some (Cas.Shared.valAt_push_rev s₃ _), hok,
            (fencedAt_push h₃ hnot).rely hr₄⟩
        · exact fencedRead_other (h₃.lose (target_fence writerFence) (fun r hr => by
            cases hr
            have := (Cas.Shared.read_eq_some hread).2
            rw [this]
            exact (hr₂.ext.trans hr₃.ext).rev_le)) (by simp)

end

end Rs3.K8s
