/-
# Rs3.Recovery.ExpiryDue — when an expiry checkpoint is due.

`expiry_checkpoint_due` of `v3/recovery/publication.rs` looks at one deadline for each page: its minimum while that is
ahead of the accepted cutoff, then its maximum.  A published root accepts the cutoff of its own clock sample, so nothing
of the new registry can be due at that sample.
-/
import Rs3.Recovery.Replay

namespace Rs3.Recovery

open List

namespace AcceptedRecoveryState

variable (self : AcceptedRecoveryState)

def nextExpiryCutoffMs : Option Int :=
  let old := self.snapshot.expireBeforeMs
  ((self.snapshot.tail.map RecoveryPoint.protectedUntilMs ++ self.snapshot.pages.map fun page =>
    if old < page.claims.minimumDeadlineMs then page.claims.minimumDeadlineMs
    else page.claims.maximumDeadlineMs).filter (old < ·)).min?

def expiryCheckpointDue (sampledNowMs : Int) (policy : RecoveryPolicy) : Except V3FormatError Bool := do
  let cutoff ← policy.expiryCutoffMs sampledNowMs
  return self.nextExpiryCutoffMs.any (· ≤ max cutoff self.snapshot.expireBeforeMs)

end AcceptedRecoveryState

/-- The deadlines of the tail and the extrema of the pages. -/
def RecoverySnapshot.extrema (snapshot : RecoverySnapshot) : List Int :=
  snapshot.tail.map RecoveryPoint.protectedUntilMs ++ snapshot.pages.flatMap fun page =>
    [page.claims.minimumDeadlineMs, page.claims.maximumDeadlineMs]

theorem any_min?_le {deadlines : List Int} :
    deadlines.min?.any (· ≤ cutoff) = true ↔ ∃ deadline ∈ deadlines, deadline ≤ cutoff := by
  cases h : deadlines.min? with
  | none => simp [min?_eq_none_iff.mp h]
  | some least =>
    obtain ⟨hmem, hleast⟩ := min?_eq_some_iff.mp h
    rw [Option.any_some, decide_eq_true_eq]
    exact ⟨fun hle => ⟨least, hmem, hle⟩, fun ⟨deadline, hdeadline, hle⟩ => (hleast deadline hdeadline).trans hle⟩

theorem expiryCheckpointDue_eq_true {state : AcceptedRecoveryState} {policy : RecoveryPolicy}
    (hvalid : validateSnapshot state.snapshot = .ok ()) (hcutoff : policy.expiryCutoffMs now = .ok cutoff) :
    state.expiryCheckpointDue now policy = .ok true ↔
      ∃ deadline ∈ state.snapshot.extrema, state.snapshot.expireBeforeMs < deadline ∧ deadline ≤ cutoff := by
  rw [AcceptedRecoveryState.expiryCheckpointDue, hcutoff, ok_bind, pure_eq_ok]
  refine (any_min?_le).trans ?_
  simp only [RecoverySnapshot.extrema, mem_filter, mem_append, decide_eq_true_eq]
  constructor
  · rintro ⟨deadline, ⟨htail | hpage, hahead⟩, hle⟩
    · exact ⟨deadline, .inl htail, hahead, by omega⟩
    · obtain ⟨page, hmem, rfl⟩ := mem_map.mp hpage
      refine ⟨_, .inr (mem_flatMap.mpr ⟨page, hmem, ?_⟩), hahead, by omega⟩
      split
      · exact mem_cons_self
      · exact mem_cons_of_mem _ mem_cons_self
  · rintro ⟨deadline, htail | hpage, hahead, hle⟩
    · exact ⟨deadline, ⟨.inl htail, hahead⟩, by omega⟩
    · obtain ⟨page, hpage, hdeadline⟩ := mem_flatMap.mp hpage
      have hclaims := ((validateSnapshot_ok.mp hvalid).pages page hpage).1.claims
      simp only [validateClaims, ok_iff] at hclaims
      obtain ⟨-, -, -, -, -, -, -, -, hextrema⟩ := hclaims
      simp only [mem_cons, not_mem_nil, or_false] at hdeadline
      refine ⟨_, ⟨.inr (mem_map_of_mem hpage), ?_⟩, ?_⟩ <;> split <;> omega

/-- Expiry checkpoints do not repeat.  One is due exactly when a deadline of the tail or an extremum of a page lies above
the accepted cutoff and not above the one of the clock; and after a root published at a sample none is due at it. -/
theorem expiry_checkpoints_do_not_repeat (policy : RecoveryPolicy) (now : Int) :
    (∀ (state : AcceptedRecoveryState) cutoff, validateSnapshot state.snapshot = .ok () →
      policy.expiryCutoffMs now = .ok cutoff → (state.expiryCheckpointDue now policy = .ok true ↔
        ∃ deadline ∈ state.snapshot.extrema, state.snapshot.expireBeforeMs < deadline ∧ deadline ≤ cutoff)) ∧
    ∀ sha256 options plan previous capture uploaded commit state, plan.sampledNowMs = now →
      CapturedRecoveryPublication.new sha256 plan previous policy true = .ok capture →
      verifyRecoveryPublication sha256 options capture uploaded commit = .ok state →
        state.expiryCheckpointDue now policy = .ok false := by
  refine ⟨fun state cutoff hvalid hcutoff => expiryCheckpointDue_eq_true hvalid hcutoff, ?_⟩
  rintro sha256 options plan previous capture uploaded commit state rfl hcapture hverify
  obtain ⟨cutoff, point, relative, facts⟩ := captured_facts hcapture
  have hchosen := facts.chosen
  simp only [publicationCutoffMs, ok_iff] at hchosen
  obtain ⟨proposed, hproposed, rfl⟩ := hchosen
  simp only [verifyRecoveryPublication, ok_iff] at hverify
  obtain ⟨⟨ordinal, history⟩, -, rfl, _, -, _, -, snapshot, happly, rfl⟩ := hverify
  have hcheck := (applyDelta_ok happly).2.2.2.2
  -- a root carries the registry that it leads to, with the cutoff of its sample
  simp only [RecoverySection.checkSnapshot, facts.shape.snapshot, if_true, RecoverySection.normalizeSnapshot,
    ok_iff] at hcheck
  obtain ⟨_, ⟨_, -, _, -, pages, -, _, -, rfl⟩, rfl⟩ := hcheck
  have hexpired : (previous.snapshot.advance (max proposed previous.snapshot.expireBeforeMs) relative point).expireBeforeMs =
      max proposed previous.snapshot.expireBeforeMs := by cases relative <;> rfl
  rw [AcceptedRecoveryState.expiryCheckpointDue, hproposed, ok_bind]
  refine congrArg Except.ok (Bool.eq_false_iff.mpr fun hdue => ?_)
  obtain ⟨deadline, hdeadline, hle⟩ := (any_min?_le).mp hdue
  have hahead := (mem_filter.mp hdeadline).2
  simp only [decide_eq_true_eq, hexpired] at hahead hle
  omega

end Rs3.Recovery
