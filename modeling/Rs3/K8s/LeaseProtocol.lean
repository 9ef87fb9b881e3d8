/-
# Rs3.K8s.LeaseProtocol — the specification of every call on the Lease, over whole runs.

Collects the per-call lemmas into one specification of the protocol, with the adoption of a child commit
as the one call whose result matters here, and derives the invariant of every reachable state.
-/
import Rs3.K8s.AnchorCalls

namespace Rs3.K8s

open Cas (Prog Versioned Reply Request Shared Write Rely Quiet Spec wp wp_bind wp_mono wp_map)
open Cas.Shared (Extends)
open Repository (V3StoredCommit adoptChecks adoptAdvance settleAdvance adoptVerifiedUnanchoredChild)

section

variable {guards : Guards} {timed : Prop} {s : LeaseShared} {c : ℕ}

/-! ## Adoption -/

/-- What an adoption's result says about the history: success means the anchor was the uploaded state;
any error but an unknown outcome means that no advance of this call was applied. -/
def AdoptOutcome (uploaded : V3StoredCommit) (c : ℕ) (r : Except V3FormatError V3StoredCommit)
    (s : LeaseShared) : Prop :=
  match r with
  | .ok stored => stored.anchorState = uploaded.anchorState ∧ AnchorHeld s uploaded.anchorState
  | .error e => e ≠ .anchorReconciliationRequired → ∀ w ∈ s.log, w.call = c → w.label.target = none

theorem readV3_wp {Q : Except V3FormatError (Option V3AnchorState) → LeaseShared → Prop}
    (h : ∀ r s', Rely (LeaseInv guards timed) c s s' → Q r s') :
    LeaseWp guards timed c readV3 Q s := by
  intro s₁ hr₁
  refine ⟨fun s₂ hr₂ => h _ s₂ (hr₁.trans hr₂), ?_⟩
  cases s₁.read with
  | none => exact fun s₂ hr₂ => h _ s₂ (hr₁.trans hr₂)
  | some lease => exact fun s₂ hr₂ => h _ s₂ (hr₁.trans hr₂)

variable {parent : V3AnchorState} {uploaded : V3StoredCommit} {retained : Option Int} {name : String}

/-- After a fencing write that still saw the parent, no advance to the child is in the history: the
anchor would have had to go back. -/
theorem no_advance_of_fenced (hs : LeaseInv guards timed s) {next : V3AnchorState} {k : ℕ}
    {l : Lease} (hadv : AdvancesTo c (· = next) s) (hk : s.valAt k = some l)
    (hanchor : v3AnchorStateFromLeaseOptional l = .ok (some parent)) (hf : FencedAt c k s)
    (hlt : parent.sequence < next.sequence) :
    ∀ w ∈ s.log, w.call = c → w.label.target = none := by
  intro w hw hc
  by_contra ha
  obtain ⟨i, hi⟩ := List.getElem?_of_mem hw
  obtain ⟨state, hstate⟩ := Option.ne_none_iff_exists'.mp ha
  have htarget : state = next := hadv.log w hw hc state hstate
  rw [htarget] at hstate
  obtain ⟨fence, hlab⟩ := w.label.eq_advance_of_target hstate
  have hik := hf.log i w hi hc ha
  have hle := hs.history.anchorLe (Nat.succ_le_of_lt hik) (valAt_succ hi) hk
  have ht := hs.history i w hi
  rw [hlab] at ht
  rw [hanchor] at hle
  rcases ht.anchor_written with hok | ⟨e, herr⟩
  · rw [hok] at hle
    rcases hle with heq | hback
    · rw [heq] at hlt
      exact Nat.lt_irrefl _ hlt
    · exact Nat.lt_asymm hlt hback
  · rw [herr] at hle
    cases hle

theorem adoptChecks_ok (h : adoptChecks formatRef current parent uploaded reads uncertainty = .ok retained) :
    parent.sequence < uploaded.anchorState.sequence := by
  unfold adoptChecks at h
  rw [bind_eq_ok] at h
  obtain ⟨u, hadopt, -⟩ := h
  rw [ensure_eq_ok] at hadopt
  exact U64.lt_checkedNext hadopt.2.1

theorem adoptAdvance_wp (hs : LeaseInv guards timed s)
    (hq : Quiet c s) (hlt : parent.sequence < uploaded.anchorState.sequence) :
    LeaseWp guards timed c (adoptAdvance (leaseAnchor guards name fence) parent uploaded retained)
      (AdoptOutcome uploaded c) s := by
  have hcas : LeaseWp guards timed c (compareAndAdvanceLease guards name fence (some parent) uploaded.anchorState)
      (Advanced c uploaded.anchorState) s := compareAndAdvanceLoop_wp maxAdvanceAttempts hq
  refine wp_bind hs (wp_mono hcas ?_)
  rintro result s₁ hs₁ ⟨hadv, hheld⟩
  split
  · rename_i hok
    exact fun s₂ hr₂ => ⟨rfl, (hheld _ hok).mono hr₂.ext⟩
  · have hfence : LeaseWp guards timed c
        (fenceAndReadLease guards fence) (FencedRead c (· = uploaded.anchorState)) s₁ :=
      fenceAndReadLoop_wp maxAdvanceAttempts hadv
    refine wp_bind hs₁ (wp_mono hfence ?_)
    rintro fenced s₂ hs₂ ⟨hadv₂, hread⟩ s₃ hr₃
    have hadv₃ := hadv₂.rely hr₃
    -- only the fenced state decides
    rcases fenced with e | _ | accepted
    · exact fun hne => absurd rfl hne
    · exact fun hne => absurd rfl hne
    · obtain ⟨k, l, hk, hanchor, hfenced⟩ := hread accepted rfl
      have hk₃ := hr₃.ext.valAt_some hk
      simp only [settleAdvance]
      split
      · rename_i heq
        rw [heq] at hanchor
        exact ⟨rfl, k, l, hk₃, hanchor⟩
      · split
        · rename_i heq
          rw [heq] at hanchor
          have hnone := no_advance_of_fenced hr₃.inv hadv₃ hk₃ hanchor (hfenced.rely hr₃) hlt
          cases result with
          | error e => exact fun _ => hnone
          | ok accepted => exact fun _ => hnone
        · exact fun hne => absurd rfl hne

theorem adopt_wp {call : AdoptCall} (hs : LeaseInv guards timed s) (hq : Quiet c s) :
    LeaseWp guards timed c (adoptVerifiedUnanchoredChild (leaseAnchor guards name call.writerFence) call.formatRef
        call.expectedParent call.uploaded call.reads call.historyUncertaintyMs)
      (AdoptOutcome call.uploaded c) s := by
  -- an early return has submitted nothing
  have hquiet : ∀ {e s₁}, Rely (LeaseInv guards timed) c s s₁ →
      LeaseWp guards timed c (.done (.error e) : LeaseProg (Except V3FormatError V3StoredCommit))
        (AdoptOutcome call.uploaded c) s₁ := by
    intro e s₁ hr₁ s₂ hr₂ _ w hw hc
    exact absurd hc ((hq.rely (hr₁.trans hr₂)).log w hw)
  refine wp_bind hs (readV3_wp fun r s₁ hr₁ => ?_)
  cases r with
  | error e => exact hquiet hr₁
  | ok current =>
    dsimp only
    cases hchecks : adoptChecks call.formatRef current call.expectedParent call.uploaded call.reads
      call.historyUncertaintyMs with
    | error e => exact hquiet hr₁
    | ok retained => exact adoptAdvance_wp hr₁.inv (hq.rely hr₁) (adoptChecks_ok hchecks)

/-! ## The specification -/

/-- Postconditions; only an adoption's result is used. -/
def LeasePost (call : LeaseCall) (c : ℕ) (r : CallResult) (s : LeaseShared) : Prop :=
  match call, r with
  | .adopt call, .adopted r => AdoptOutcome call.uploaded c r s
  | .adopt _, _ => False
  | _, _ => True

end

/-- The specification of the whole protocol. -/
def leaseSpec (guards : Guards) (name : String) (timed : Prop) :
    Spec (leaseProtocol guards name (allowedWhen guards timed)) where
  Inv := LeaseInv guards timed
  post := LeasePost
  tick := fun _ d h => h.tick d
  call := by
    intro call c s hs hstart hq
    cases call with
    | acquire g wall mono =>
      exact wp_map (wp_mono (acquireLoop_wp maxUpdateAttempts hs hstart) fun _ _ _ _ => trivial)
    | renew g wall mono => exact wp_map (wp_mono (renewAt_wp hstart) fun _ _ _ _ => trivial)
    | release g wall => exact wp_map (wp_mono releaseAt_wp fun _ _ _ _ => trivial)
    | read => exact wp_map (readV3_wp fun _ _ _ => trivial)
    | advance fence expected next =>
      exact wp_map (wp_mono (compareAndAdvanceLoop_wp maxAdvanceAttempts hq) fun _ _ _ _ => trivial)
    | fenceAndRead fence =>
      have hall : AdvancesTo c (fun _ => True) s := advancesTo_of_quiet hq
      exact wp_map (wp_mono (fenceAndReadLoop_wp maxAdvanceAttempts hall) fun _ _ _ _ => trivial)
    | adopt call => exact wp_map (adopt_wp hs hq)

/-! ## Runs -/

/-- No call was made and no guard has acquired or observed anything; the Lease may exist already. -/
structure Started (σ : LeaseSys) : Prop where
  initial : σ.Initial
  locals : ∀ g, σ.shared.locals g = .new

/-- Every call at any time. -/
def anyAct : LeaseShared → ActLabel → Prop := fun _ _ => True

instance (s : LeaseShared) (a : ActLabel) : Decidable (anyAct s a) := .isTrue trivial

theorem allowedWhen_false (guards : Guards) : allowedWhen guards False = anyAct := by
  funext s a
  simp [allowedWhen, anyAct]

section

variable {guards : Guards} {timed : Prop} {name : String} {σ₀ σ : LeaseSys}

theorem Started.leaseInv (h : Started σ₀) : LeaseInv guards timed σ₀.shared := by
  have hnone : ∀ i hold, ¬ HeldAt σ₀.shared i hold := by
    rintro i hold ⟨w, hw, -⟩
    rw [h.initial.log] at hw
    cases hw
  refine ⟨?_, fun i d hd => absurd hd (hnone i d), fun i _ d _ hd => absurd hd (hnone i d), ?_, ?_, ?_⟩
  · intro i w hw
    rw [h.initial.log] at hw
    cases hw
  · intro g claim hclaim
    rw [h.locals g] at hclaim
    cases hclaim
  · intro _ g o ho
    rw [h.locals g] at ho
    cases ho
  · intro _ i w l g mono claim renewal hw
    rw [h.initial.log] at hw
    cases hw

/-- **Every state of every run** meets the specification. -/
theorem Started.sound (h : Started σ₀)
    (hr : σ₀.Run (leaseProtocol guards name (allowedWhen guards timed)) σ) :
    (leaseSpec guards name timed).Sound σ :=
  (Spec.sound_initial h.initial h.leaseInv).run hr

theorem Started.sound_any (h : Started σ₀) (hr : σ₀.Run (leaseProtocol guards name anyAct) σ) :
    (leaseSpec guards name False).Sound σ := by
  rw [← allowedWhen_false guards] at hr
  exact h.sound hr

end

end Rs3.K8s
