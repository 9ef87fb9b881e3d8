/-
# Rs3.K8s.Adoption — the outcome of adopting an uploaded commit is decisive.

`adopt_verified_unanchored_child` over the Lease anchor, in any interleaving with other anchor writers and guards, with
requests that are applied late and replies that are lost.  Success means that the anchor held the uploaded
state.  Every error but the one that asks for reconciliation means that no advance of the call was
applied or ever will be: what the call left in flight carries a revision the Lease has moved on from.
-/
import Rs3.K8s.Fencing

namespace Rs3.K8s

open Cas (Choice)
open Repository (V3StoredCommit)

/-- Nobody but call `c` brings `state` to the Lease.  An uploaded commit has an object key of its own, so
this holds of the state of every fresh upload. -/
def OwnState (c : ℕ) (state : V3AnchorState) (s : LeaseShared) : Prop :=
  (∀ l, s.init = some l → v3AnchorStateFromLeaseOptional l ≠ .ok (some state)) ∧
    ∀ w ∈ s.log, w.call ≠ c → w.label.target ≠ some state

/-- When no advance of `c` was applied, its own state was never the anchor. -/
theorem History.not_anchor (h : History guards s) (hown : OwnState c state s)
    (hnone : ∀ w ∈ s.log, w.call = c → w.label.target = none)
    (hi : s.valAt i = some l) : v3AnchorStateFromLeaseOptional l ≠ .ok (some state) := by
  intro ha
  rcases h.anchor_origin hi ha with ⟨l₀, hinit, hl₀⟩ | ⟨w, hw, htarget⟩
  · exact hown.1 l₀ hinit hl₀
  · by_cases hc : w.call = c
    · rw [hnone w hw hc] at htarget
      cases htarget
    · exact hown.2 w hw hc htarget

/-- **Adoption outcomes are decisive.**  `σ` is any state in which the adoption has returned `r`, and `σ'` any
later one. -/
theorem adoption_decisive (guards : Guards) (name : String) (σ₀ σ σ' : LeaseSys) (hstart : Started σ₀)
    (hrun : σ₀.Run (leaseProtocol guards name anyAct) σ)
    (hlater : σ.Run (leaseProtocol guards name anyAct) σ') (c : ℕ) (call : AdoptCall)
    (r : Except V3FormatError V3StoredCommit)
    (hdone : σ.calls c = some (.adopt call, .done (.adopted r))) :
    (∀ stored, r = .ok stored → stored.anchorState = call.uploaded.anchorState ∧
      AnchorHeld σ.shared call.uploaded.anchorState) ∧
    ∀ e, r = .error e → e ≠ .anchorReconciliationRequired →
      (∀ w ∈ σ'.shared.log, w.call = c → w.label.target = none) ∧
      (OwnState c call.uploaded.anchorState σ'.shared → ∀ i l, σ'.shared.valAt i = some l →
        v3AnchorStateFromLeaseOptional l ≠ .ok (some call.uploaded.anchorState)) := by
  have hpost : AdoptOutcome call.uploaded c r σ.shared := (hstart.sound_any hrun).result hdone
  have hsound := hstart.sound_any (hrun.trans hlater)
  -- the call is still finished later, with the same result
  have hpost' : AdoptOutcome call.uploaded c r σ'.shared := hsound.result (hlater.finished hdone)
  constructor
  · rintro stored rfl
    exact hpost
  · rintro e rfl hne
    have hnone := hpost' hne
    exact ⟨hnone, fun hown i l hi => hsound.inv.history.not_anchor hown hnone hi⟩

/-! ## A lost advance -/

/-- The commit after `firstState`. -/
def secondCommit : V3StoredCommit where
  verifiedRetainUntilMs := none
  publishTimeMs := 2
  anchorState := { firstState with sequence := ⟨2, by decide⟩, commitKey := ⟨"commit-2", by decide⟩ }
  commitKey := ⟨⟨2, by decide⟩, Vector.replicate 32 0, ⟨"commit-2", by decide⟩⟩
  versionId := none
  objectLen := 10
  sectionsStart := 5

def adoptSecond : AdoptCall where
  writerFence := none
  formatRef := firstState.formatRef
  expectedParent := firstState
  uploaded := secondCommit
  reads := ⟨.ok 1, 2, .ok none, .ok 2, 2⟩
  historyUncertaintyMs := none

/-- A deployment whose Lease carries `firstState`. -/
def anchoredSys : LeaseSys := ⟨⟨some (newV3Lease "writer" firstState), [], [], 0, fun _ => .new⟩, fun _ => none⟩

/-- The reply of the advance is lost; the fencing write still sees the parent. -/
def lostAdvance : List (Choice LeaseCall) :=
  [.start 0 (.adopt adoptSecond), .step 0 false, .step 0 false, .step 0 true, .step 0 false, .step 0 false]

theorem adoption_decisive_lost :
    ∃ σ, anchoredSys.exec (leaseProtocol twoGuards "writer" anyAct) lostAdvance = some σ ∧
      σ.shared.pool.length = 1 ∧
      σ.calls 0 = some (.adopt adoptSecond, .done (.adopted (.error .anchorAdvanceFailed))) ∧
      ∀ w ∈ σ.shared.log, w.call = 0 → w.label.target = none := by
  have hrun : (anchoredSys.exec (leaseProtocol twoGuards "writer" anyAct) lostAdvance).isSome = true := by
    decide
  have hdone : ((anchoredSys.exec (leaseProtocol twoGuards "writer" anyAct) lostAdvance).get hrun).calls 0 =
      some (.adopt adoptSecond, .done (.adopted (.error .anchorAdvanceFailed))) := rfl
  refine ⟨_, (Option.some_get hrun).symm, rfl, hdone, ?_⟩
  have hstarted : Started anchoredSys := ⟨⟨rfl, rfl, fun _ => rfl⟩, fun _ => rfl⟩
  exact ((adoption_decisive twoGuards "writer" anchoredSys _ _ hstarted
    (Cas.Sys.run_of_exec _ (Option.some_get hrun).symm) .refl 0 adoptSecond _ hdone).2
      .anchorAdvanceFailed rfl (by decide)).1

/-! ## A commit that was adopted before -/

/-- The commit is adopted, and then it is brought to the anchor a second time. -/
def adoptedTwice : List (Choice LeaseCall) :=
  [.start 0 (.adopt adoptSecond), .step 0 false, .step 0 false, .step 0 false, .start 1 (.adopt adoptSecond), .step 1 false]

/-- The second adoption reports a stale anchor while the anchor is the state that it uploaded. -/
theorem adopted_before_is_stale :
    ∃ σ, anchoredSys.exec (leaseProtocol twoGuards "writer" anyAct) adoptedTwice = some σ ∧
      σ.calls 1 = some (.adopt adoptSecond, .done (.adopted (.error .staleAnchor))) ∧
      ∃ lease, σ.shared.reg = some lease ∧
        v3AnchorStateFromLeaseOptional lease = .ok (some adoptSecond.uploaded.anchorState) := by
  have hrun : (anchoredSys.exec (leaseProtocol twoGuards "writer" anyAct) adoptedTwice).isSome = true := by
    decide
  exact ⟨_, (Option.some_get hrun).symm, rfl, _, rfl, by decide +kernel⟩

end Rs3.K8s
