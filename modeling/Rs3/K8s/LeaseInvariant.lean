/-
# Rs3.K8s.LeaseInvariant — what holds of the Lease and of every guard in every state.

One invariant carries the fencing, the takeover and the adoption results.  Besides the history it
relates each guard's local state to the history: a recorded success is an applied request of that very
guard, and one epoch belongs to one guard.  The last two fields are about time and are maintained only
when `timed` asks for it, under the condition on observations that `Rs3.K8s.Takeover` states.
-/
import Rs3.K8s.Transitions

namespace Rs3.K8s

open Cas (Prog Versioned Reply Request Shared Write)
open Cas.Shared (Extends)

/-! ## Applied acquisitions and renewals -/

/-- Request number `i` of the history is the given acquisition or renewal. -/
def HeldAt (s : LeaseShared) (i : ℕ) (h : Hold) : Prop := ∃ w, s.log[i]? = some w ∧ w.label.hold = some h

/-- A sampled clock value on the common time line. -/
def stampTime (guards : Guards) (g : GuardId) (mono : ℕ) : ℕ := (guards g).startedAt + mono

variable {d h : Hold} {i : ℕ}

section

variable {guards : Guards} {timed : Prop} {s s' : LeaseShared}

variable {i : ℕ} {h : Hold}

theorem HeldAt.lt_rev (hh : HeldAt s i h) : i < s.rev := by
  obtain ⟨w, hw, -⟩ := hh
  exact (List.getElem?_eq_some_iff.mp hw).1

theorem HeldAt.mono (hh : HeldAt s i h) (he : Extends s s') : HeldAt s' i h := by
  have hlt := hh.lt_rev
  obtain ⟨w, hw, hl⟩ := hh
  exact ⟨w, (he.log_getElem? hlt).trans hw, hl⟩

/-- An entry of a later state is an old one or lies beyond the old history. -/
theorem HeldAt.of_extends (hh : HeldAt s' i h) (he : Extends s s') : HeldAt s i h ∨ s.rev ≤ i := by
  rcases Nat.lt_or_ge i s.rev with hlt | hge
  · obtain ⟨w, hw, hl⟩ := hh
    exact Or.inl ⟨w, (he.log_getElem? hlt).symm.trans hw, hl⟩
  · exact Or.inr hge

theorem HeldAt.push (hh : HeldAt (s.push q) i h) : HeldAt s i h ∨ i = s.rev ∧ q.label.hold = some h := by
  rcases hh.of_extends (Cas.Shared.extends_push s q) with hold | hge
  · exact Or.inl hold
  · obtain ⟨w, hw, hl⟩ := hh
    obtain ⟨rfl, rfl⟩ := Cas.Shared.push_log_new hw hge
    exact Or.inr ⟨rfl, hl⟩

/-- What an applied acquisition or renewal leaves in the register. -/
theorem History.heldAt (h : History guards s) (hh : HeldAt s i d) :
    ∃ new, s.valAt (i + 1) = some new ∧ owner new = some d.claim ∧ renewalCount new = .ok d.renewal ∧
      ∃ seconds, durationSecondsI32 (guards d.guard).leaseDuration = .ok seconds ∧
        new.spec.bind LeaseSpec.leaseDurationSeconds = some seconds := by
  obtain ⟨w, hw, hl⟩ := hh
  have ht := (h i w hw).holds hl
  obtain ⟨seconds, hs, hwr⟩ := ht.writes
  exact ⟨w.new, valAt_succ hw, ht.owner, ht.renewalCount, seconds, hs, hwr.seconds⟩

/-- An acquisition or renewal applied at or after a revision has a larger renewal counter. -/
theorem History.renewal_lt (h : History guards s) {r : ℕ} {l : Lease} {count : ℕ}
    (hh : HeldAt s i d) (hr : s.valAt r = some l) (hri : r ≤ i) (hc : renewalCount l = .ok count) :
    count < d.renewal := by
  obtain ⟨old, hold⟩ := valAt_isSome_of_le hr hri (Nat.le_of_lt hh.lt_rev)
  obtain ⟨c, hcount, hle⟩ := h.renewedSince hri hr hold hc
  obtain ⟨w, hw, hl⟩ := hh
  obtain ⟨c', hc', heq⟩ := ((h i w hw).holds hl).renewed old hold
  rw [hcount] at hc'
  cases hc'
  omega

end

/-! ## The invariant -/

section

variable (guards : Guards) (timed : Prop)

/-- **The invariant of every run.** -/
structure LeaseInv (s : LeaseShared) : Prop where
  history : History guards s
  /-- A call writes on a clock value sampled before it. -/
  sampled : ∀ i h, HeldAt s i h → stampTime guards h.guard h.stamp ≤ s.clock
  /-- One epoch belongs to one guard. -/
  oneGuard : ∀ i j h h', HeldAt s i h → HeldAt s j h' → h.claim = h'.claim → h.guard = h'.guard
  /-- A recorded success is an applied request of this guard. -/
  recorded : ∀ g claim, (s.locals g).localState.claim = some claim →
    ∃ i h, HeldAt s i h ∧ h.guard = g ∧ h.claim = claim ∧ (s.locals g).localState.lastSuccess = some h.stamp
  /-- An observed record was in the register, and every request that extended its epoch up to that
  record carries a clock value not after the observation's. -/
  observed : timed → ∀ g o, (s.locals g).observation = some o →
    (∃ i l, s.valAt i = some l ∧ renewalCount l = .ok o.record.renewal) ∧
    ∀ i h, HeldAt s i h → h.claim = ⟨o.record.holderIdentity, o.record.fenceToken⟩ →
      h.renewal ≤ o.record.renewal → stampTime guards h.guard h.stamp ≤ stampTime guards g o.observedAt
  /-- A takeover comes one full duration after everything that extended the replaced epoch. -/
  takeover : timed → ∀ i w l g mono claim renewal, s.log[i]? = some w →
    w.label = .acquire g mono claim renewal → s.valAt i = some l →
    ∀ j h, HeldAt s j h → j < i → owner l = some h.claim →
      stampTime guards h.guard h.stamp + (guards h.guard).leaseDuration ≤ stampTime guards g mono

/-- What a request must bring along, besides being a transition, for the invariant to survive it. -/
def Justified (s : LeaseShared) : WriteLabel → Prop
  | .acquire g mono _ _ => stampTime guards g mono ≤ s.clock ∧
      (timed → ∀ l, s.reg = some l → ∀ j h, HeldAt s j h → owner l = some h.claim →
        stampTime guards h.guard h.stamp + (guards h.guard).leaseDuration ≤ stampTime guards g mono)
  | .renew g mono claim _ => stampTime guards g mono ≤ s.clock ∧ ∃ j h, HeldAt s j h ∧ h.guard = g ∧ h.claim = claim
  | _ => True

end

section

variable {guards : Guards} {timed : Prop} {s s' : LeaseShared} {q : Request Lease WriteLabel}

theorem Justified.sampled (hj : Justified guards timed s label)
    (hl : label.hold = some h) : stampTime guards h.guard h.stamp ≤ s.clock := by
  cases label with
  | acquire | renew =>
    cases hl
    exact hj.1
  | release | advance | fence => cases hl

/-- A history with an applied request is not at an empty register. -/
theorem HeldAt.reg_ne_none (hh : HeldAt s i h) : s.reg ≠ none := by
  have hlt := hh.lt_rev
  obtain ⟨w, hw, -⟩ := hh
  obtain ⟨l, hl⟩ := valAt_isSome_of_le (valAt_succ hw) (Nat.succ_le_of_lt hlt) le_rfl
  rw [Shared.reg, hl]
  simp

/-- The claim a new acquisition or renewal writes under belongs to its own guard. -/
theorem LeaseInv.fresh_guard (hi : LeaseInv guards timed s)
    (ht : Transition guards q.label s.reg q.val) (hj : Justified guards timed s q.label)
    (hd : q.label.hold = some d) (hh : HeldAt s i h) (hc : h.claim = d.claim) :
    h.guard = d.guard := by
  obtain ⟨old, hold⟩ := Option.ne_none_iff_exists'.mp hh.reg_ne_none
  obtain ⟨new, hnew, hown, -⟩ := hi.history.heldAt hh
  have hkept : EpochKept h.claim old := hi.history.epochKept (Nat.succ_le_of_lt hh.lt_rev) hnew hold hown
  rw [hold] at ht
  cases hlab : q.label with
  | acquire g mono claim renewal =>
    -- an acquisition takes a token no earlier request carried
    rw [hlab] at ht hd
    cases hd
    obtain ⟨token, count, htok, -, hclaim, -⟩ := ht
    obtain ⟨token', htok', hle, -⟩ := hkept
    rw [htok] at htok'
    cases htok'
    rw [hc, hclaim] at hle
    exact absurd hle (Nat.not_succ_le_self _)
  | renew g mono claim renewal =>
    rw [hlab] at hj hd
    cases hd
    obtain ⟨-, j, h', hh', hg, hcl⟩ := hj
    exact (hi.oneGuard i j h h' hh hh' (hc.trans hcl.symm)).trans hg
  | release | advance | fence =>
    rw [hlab] at hd
    cases hd

theorem History.push (h : History guards s) (ht : Transition guards q.label s.reg q.val) :
    History guards (s.push q) := by
  intro i w hw
  have hext := Cas.Shared.extends_push s q
  rcases Nat.lt_or_ge i s.rev with hlt | hge
  · rw [hext.valAt (Nat.le_of_lt hlt)]
    exact h i w ((hext.log_getElem? hlt).symm.trans hw)
  · obtain ⟨rfl, rfl⟩ := Cas.Shared.push_log_new hw hge
    rw [hext.valAt le_rfl]
    exact ht

/-- **Pushing a justified transition keeps the invariant.** -/
theorem LeaseInv.push (hi : LeaseInv guards timed s) (ht : Transition guards q.label s.reg q.val)
    (hj : Justified guards timed s q.label) : LeaseInv guards timed (s.push q) := by
  have hext := Cas.Shared.extends_push s q
  have hhist := hi.history.push ht
  refine ⟨hhist, ?_, ?_, ?_, ?_, ?_⟩
  · intro i h hh
    rcases hh.push with hold | ⟨-, hl⟩
    · exact hi.sampled i h hold
    · exact hj.sampled hl
  · intro i j h h' hh hh' hc
    rcases hh.push with hold | ⟨-, hl⟩
    · rcases hh'.push with hold' | ⟨-, hl'⟩
      · exact hi.oneGuard i j h h' hold hold' hc
      · exact hi.fresh_guard ht hj hl' hold hc
    · rcases hh'.push with hold' | ⟨-, hl'⟩
      · exact (hi.fresh_guard ht hj hl hold' hc.symm).symm
      · rw [hl] at hl'
        cases hl'
        rfl
  · intro g claim hclaim
    obtain ⟨i, h, hh, hrest⟩ := hi.recorded g claim hclaim
    exact ⟨i, h, hh.mono hext, hrest⟩
  · intro htimed g o ho
    obtain ⟨⟨r, l, hr, hren⟩, hall⟩ := hi.observed htimed g o ho
    refine ⟨⟨r, l, hext.valAt_some hr, hren⟩, ?_⟩
    intro i h hh hcl hle
    rcases hh.push with hold | ⟨rfl, hl⟩
    · exact hall i h hold hcl hle
    · -- the new request renews past the observed record
      have hlt := hhist.renewal_lt hh (hext.valAt_some hr) (Cas.Shared.le_rev_of_valAt hr) hren
      omega
  · intro htimed i w l g mono claim renewal hw hlab hval j h hh hji hown
    rcases Nat.lt_or_ge i s.rev with hlt | hge
    · have hw' := (hext.log_getElem? hlt).symm.trans hw
      rw [hext.valAt (Nat.le_of_lt hlt)] at hval
      rcases hh.push with hold | ⟨rfl, -⟩
      · exact hi.takeover htimed i w l g mono claim renewal hw' hlab hval j h hold hji hown
      · omega
    · obtain ⟨rfl, rfl⟩ := Cas.Shared.push_log_new hw hge
      rw [hext.valAt le_rfl] at hval
      have hlab' : q.label = .acquire g mono claim renewal := hlab
      rw [hlab'] at hj
      rcases hh.push with hold | ⟨rfl, -⟩
      · exact hj.2 htimed l hval j h hold hown
      · omega

/-! ## The other steps -/

theorem LeaseInv.lose (hi : LeaseInv guards timed s) (q : Request Lease WriteLabel) :
    LeaseInv guards timed (s.lose q) :=
  ⟨hi.history, hi.sampled, hi.oneGuard, hi.recorded, hi.observed, hi.takeover⟩

theorem LeaseInv.tick (hi : LeaseInv guards timed s) (d : ℕ) : LeaseInv guards timed (s.tick d) :=
  ⟨hi.history, fun i h hh => Nat.le_trans (hi.sampled i h hh) (Nat.le_add_right _ _), hi.oneGuard,
    hi.recorded, hi.observed, hi.takeover⟩

/-- A local step keeps the invariant when the new local state is accounted for by the history. -/
theorem LeaseInv.setLocal (hi : LeaseInv guards timed s) (hrec : ∀ claim, l.localState.claim = some claim →
      ∃ i h, HeldAt s i h ∧ h.guard = g ∧ h.claim = claim ∧ l.localState.lastSuccess = some h.stamp)
    (hobs : timed → ∀ o, l.observation = some o →
      (∃ i v, s.valAt i = some v ∧ renewalCount v = .ok o.record.renewal) ∧
      ∀ i h, HeldAt s i h → h.claim = ⟨o.record.holderIdentity, o.record.fenceToken⟩ →
        h.renewal ≤ o.record.renewal →
        stampTime guards h.guard h.stamp ≤ stampTime guards g o.observedAt) :
    LeaseInv guards timed (s.setLocal g l) := by
  refine ⟨hi.history, hi.sampled, hi.oneGuard, ?_, ?_, hi.takeover⟩
  · intro g' claim hclaim
    by_cases hg : g' = g
    · subst hg
      simp only [Shared.setLocal, Function.update_self] at hclaim ⊢
      exact hrec claim hclaim
    · simp only [Shared.setLocal, Function.update_of_ne hg] at hclaim ⊢
      exact hi.recorded g' claim hclaim
  · intro htimed g' o ho
    by_cases hg : g' = g
    · subst hg
      simp only [Shared.setLocal, Function.update_self] at ho
      exact hobs htimed o ho
    · simp only [Shared.setLocal, Function.update_of_ne hg] at ho
      exact hi.observed htimed g' o ho

end

end Rs3.K8s
