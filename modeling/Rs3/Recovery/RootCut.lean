/-
# Rs3.Recovery.RootCut — a root's snapshot is the replayed history.

Replay from a root takes the registry from the root's snapshot; replay from further back computes it by applying
the root's delta.  Both give the same registry on every linked chain, and on every chain that accepted
publications build they give the registry those publications installed.
-/
import Rs3.Recovery.Replay

namespace Rs3.Recovery

open RecoverySection

open Repository (V3CommitParentRef adoptable)

section

variable {sha256 : List UInt8 → Digest} {formatRef : V3FormatRef} {options : V3CommitStoreOptions}

/-! ## Any linked chain -/

/-- Each commit's signed parent reference names the next older commit. -/
def Linked (formatRef : V3FormatRef) (chain : List V3ReplayCommit) : Prop :=
  chain.IsChain fun child parent => child.header.parent = some (.ofAnchor (parent.anchorState formatRef))

variable {ordinal : ℕ} {time : Int} {policy : RecoveryPolicy}

theorem checkSnapshot_root {captured : RecoverySection} {enclosing : V3AnchorState}
    {next : RecoverySnapshot} (hvalid : captured.validate = .ok ())
    (hroot : captured.snapshot.isSome = true) (h : captured.checkSnapshot enclosing ordinal next = .ok ()) :
    captured.normalizedSnapshot enclosing ordinal = .ok (some next) := by
  obtain ⟨s, hs⟩ := Option.isSome_iff_exists.mp hroot
  simp only [checkSnapshot, hs, ok_iff] at h
  obtain ⟨normalized, hnorm, rfl⟩ := h
  exact normalizedSnapshot_of hvalid hs hnorm

variable {commit : V3ReplayCommit} {state next : AcceptedRecoveryState} {capture : CapturedRecoveryPublication}

/-- **One root.**  What a root gives after its parent, it gives on its own. -/
theorem replayAccepted_root {accepted : Option AcceptedRecoveryState}
    {parent : V3AnchorState} {r : Option AcceptedRecoveryState}
    (hkind : commit.header.kind = .root) (hparent : commit.header.parent = some (.ofAnchor parent))
    (h : replayAccepted sha256 options ⟨accepted, some (parent, time)⟩ commit = .ok r) :
    replayAccepted sha256 options ⟨none, none⟩ commit = .ok r := by
  cases hrec : commit.recovery with
  | none =>
    cases accepted with
    | none =>
      simp only [replayAccepted, hrec] at h ⊢
      exact h
    | some state =>
      simp only [replayAccepted, hrec] at h
      cases h
  | some found =>
    obtain ⟨ordinal, history⟩ := found
    cases accepted with
    | none =>
      simp only [replayAccepted, hrec] at h
      cases h
    | some state =>
      simp only [replayAccepted, hrec, ok_iff, validateForCommit, Option.map_some] at h
      obtain ⟨-, ⟨_, hheader, -⟩, snapshot, happly, rfl⟩ := h
      obtain ⟨hvalid, -, -, -, hcheck⟩ := applyDelta_ok happly
      have hroot : history.snapshot.isSome = true := by
        have hh := hheader
        simp only [validateForHeader, ok_iff] at hh
        obtain ⟨-, -, ⟨-, hsome, -⟩, -⟩ := hh
        rw [hsome, hkind]
        rfl
      have hsnap := checkSnapshot_root hvalid hroot hcheck
      simp only [replayAccepted, hrec, hparent, hheader, hsnap, ok_bind, okOr]
      rfl

theorem replayCommits_previous {state : ReplayState} (h : replayCommits sha256 options (commit :: older) = .ok state) :
    state.previous = some (commit.anchorState options.formatRef, commit.header.publishTimeMs) := by
  simp only [replayCommits, replayCommit, ok_iff] at h
  obtain ⟨_, -, _, -, rfl⟩ := h
  rfl

/-- **Any root cut** of a linked chain replays to the state of the whole chain. -/
theorem replayCommits_cut {later earlier : List V3ReplayCommit} {root : V3ReplayCommit} {state : ReplayState}
    (hlinked : Linked options.formatRef (later ++ root :: earlier)) (hkind : root.header.kind = .root)
    (h : replayCommits sha256 options (later ++ root :: earlier) = .ok state) :
    replayCommits sha256 options (later ++ [root]) = .ok state := by
  induction later generalizing state with
  | nil =>
    cases earlier with
    | nil => exact h
    | cons parent rest =>
      have hparent := (List.isChain_cons_cons.mp hlinked).1
      simp only [List.nil_append] at h ⊢
      rw [replayCommits, bind_eq_ok] at h
      obtain ⟨before, hbefore, hroot⟩ := h
      have hprev := replayCommits_previous hbefore
      obtain ⟨accepted, previous⟩ := before
      simp only at hprev
      subst hprev
      simp only [replayCommit, ok_iff] at hroot
      obtain ⟨r, hr, rfl⟩ := hroot
      simp only [replayCommits, ok_bind, replayCommit, replayAccepted_root hkind hparent hr]
      rfl
  | cons commit later ih =>
    simp only [List.cons_append, replayCommits, bind_eq_ok] at h ⊢
    obtain ⟨before, hbefore, hstep⟩ := h
    exact ⟨before, ih (hlinked.of_cons) hbefore, hstep⟩

/-! ## The chains of publications -/

/-- What one accepted publication did. -/
structure PublishedFacts (sha256 : List UInt8 → Digest) (formatRef : V3FormatRef) (plan : V3PublicationPlan)
    (state next : AcceptedRecoveryState)
    (capture : CapturedRecoveryPublication) (commit : V3ReplayCommit) (ordinal : ℕ) : Prop where
  recovery : commit.recovery = some (ordinal, capture.capturedSection)
  time : commit.header.publishTimeMs = plan.publishTimeMs
  parent : commit.header.parent = some (.ofAnchor plan.parent)
  sequence : plan.parent.sequence.checkedNext = some commit.header.selfRef.sequence
  header : capture.capturedSection.validateForHeader commit.header.parent commit.header.publishTimeMs
    (commit.header.kind = .root) = .ok ()
  promise : capture.capturedSection.validatePromise sha256 commit.header.publishTimeMs
    (some (plan.parent, plan.parentPublishTimeMs, state.policy)) = .ok ()
  applied : capture.capturedSection.applyDelta state.snapshot (commit.anchorState formatRef) ordinal = .ok next.snapshot
  policy : next.policy = capture.capturedSection.currentPolicy

variable {plan : V3PublicationPlan}

theorem verified_facts (hplan : capture.publication = plan) (hprev : capture.previous = state)
    (h : verifyRecoveryPublication sha256 options capture uploaded commit = .ok next)
    (hadopt : adoptable formatRef (some plan.parent) plan.parent uploaded) :
    ∃ ordinal, PublishedFacts sha256 formatRef plan state next capture commit ordinal := by
  subst hplan hprev
  simp only [verifyRecoveryPublication, readPublishedRecovery, ok_iff] at h
  obtain ⟨⟨ordinal, history⟩, ⟨⟨hkey, hversion⟩, ⟨hseq, hdigest, hsigning, -, htime, -, hparent⟩, hrec⟩,
    rfl, _, -, _, hcommit, snapshot, happly, rfl⟩ := h
  obtain ⟨-, hnext, -, -, hstored, -, hformat, -⟩ := hadopt
  have hanchor : commit.anchorState formatRef = uploaded.anchorState := by
    unfold V3ReplayCommit.anchorState Repository.V3CommitHeader.anchorState
    rw [hseq, hkey, hdigest, hversion, hsigning, hstored, ← hformat]
  simp only [validateForCommit, bind_eq_ok, Option.map_some] at hcommit
  obtain ⟨_, hheader, _, -, hpromise⟩ := hcommit
  refine ⟨ordinal, hrec, htime, hparent, hseq ▸ hnext, ?_, ?_, ?_, rfl⟩
  · rw [hparent, htime]
    exact hheader
  · rw [htime]
    exact hpromise
  · rw [hanchor]
    exact happly

/-- **One publication.**  It installs the advanced registry of its parent, which is the history of the new
commit. -/
theorem published_advance (hstate : HistoryAt plan.parent plan.parentPublishTimeMs state.snapshot)
    (hnew : CapturedRecoveryPublication.new sha256 plan state policy isRoot = .ok capture)
    (hverify : verifyRecoveryPublication sha256 options capture uploaded commit = .ok next)
    (hadopt : adoptable formatRef (some plan.parent) plan.parent uploaded) :
    ∃ cutoff point relative ordinal, CaptureFacts sha256 plan state policy isRoot capture cutoff point relative ∧
      PublishedFacts sha256 formatRef plan state next capture commit ordinal ∧
      next.snapshot = state.snapshot.advance cutoff
        (relative.map (exactPage (commit.anchorState formatRef) ordinal)) point ∧
      HistoryAt (commit.anchorState formatRef) commit.header.publishTimeMs next.snapshot := by
  obtain ⟨cutoff, point, relative, facts⟩ := captured_facts hnew
  obtain ⟨ordinal, pub⟩ := verified_facts facts.publication facts.previous hverify hadopt
  obtain ⟨-, henc, hord, -⟩ := applyDelta_ok pub.applied
  obtain ⟨happlied, -, hhist⟩ := applyDelta_captured hstate facts henc hord pub.sequence
  have hadvance := Except.ok.inj (pub.applied.symm.trans happlied)
  refine ⟨cutoff, point, relative, ordinal, facts, pub, hadvance, ?_⟩
  rw [hadvance, pub.time]
  exact hhist

/-- What holds of the newest commit of an accepted chain. -/
structure AcceptedAt (sha256 : List UInt8 → Digest) (formatRef : V3FormatRef) (head : V3ReplayCommit)
    (older : List V3ReplayCommit) (state : AcceptedRecoveryState) : Prop where
  history : HistoryAt (head.anchorState formatRef) head.header.publishTimeMs state.snapshot
  linked : Linked formatRef (head :: older)
  replay : ∀ options : V3CommitStoreOptions, options.formatRef = formatRef →
    replayCommits sha256 options (head :: older) =
      .ok ⟨some state, some (head.anchorState formatRef, head.header.publishTimeMs)⟩

theorem genesis_history (h : 0 ≤ time) : HistoryAt anchor time .default := by
  have hvalid : SnapshotValid RecoverySnapshot.default := validateSnapshot_ok.mp rfl
  exact ⟨hvalid, by simp [RecoverySnapshot.default], by simp [RecoverySnapshot.default],
    by simp [RecoverySnapshot.default], h⟩

theorem genesis_replay (hparent : commit.header.parent = none) (hkind : commit.header.kind = .root)
    (hanchor : validateAnchor (commit.anchorState options.formatRef) = .ok ())
    (htime : 0 ≤ commit.header.publishTimeMs) (hrec : commit.recovery = some (1, genesisSection policy)) :
    replayAccepted sha256 options ⟨none, none⟩ commit = .ok (some ⟨policy, .default⟩) := by
  have hvalid : (genesisSection policy).validate = .ok () := rfl
  have hheader : (genesisSection policy).validateForHeader none commit.header.publishTimeMs true = .ok () := by
    rw [validateForHeader, hvalid, ok_bind, ensure_of]
    · rfl
    · exact ⟨htime, rfl, by simp [genesisSection, RecoveryDelta.default],
        by simp [genesisSection, RecoverySnapshot.default, htime]⟩
  have hsnap : (genesisSection policy).normalizedSnapshot (commit.anchorState options.formatRef) 1 =
      .ok (some .default) :=
    normalizedSnapshot_of hvalid rfl (normalizeSnapshot_of hanchor rfl rfl rfl)
  simp only [replayAccepted, hrec, hparent, hkind, decide_true, hheader, hsnap, ok_bind, okOr]
  rfl

theorem PublishedFacts.replay (f : PublishedFacts sha256 options.formatRef plan state next capture commit ordinal)
    (hstate : 0 ≤ state.snapshot.expireBeforeMs) :
    replayAccepted sha256 options ⟨some state, some (plan.parent, plan.parentPublishTimeMs)⟩ commit =
      .ok (some next) := by
  have hvalid := (applyDelta_ok f.applied).1
  simp only [validate, bind_eq_ok, ensure_eq_ok] at hvalid
  obtain ⟨_, -, _, hnonneg, -⟩ := hvalid
  have hheader := f.header
  rw [f.parent] at hheader
  have hcommit : capture.capturedSection.validateForCommit sha256
      (some (plan.parent, plan.parentPublishTimeMs, state.policy)) commit.header.publishTimeMs
      (commit.header.kind = .root)
      (capture.capturedSection.delta.expireBeforeMs.getD state.snapshot.expireBeforeMs) = .ok () := by
    rw [validateForCommit, Option.map_some, hheader, ok_bind, ensure_of, ok_bind, f.promise]
    cases hexp : capture.capturedSection.delta.expireBeforeMs with
    | none => exact ⟨hstate, by simp⟩
    | some cutoff =>
      refine ⟨hnonneg cutoff hexp, ?_⟩
      intro c hc
      cases hc
      exact le_refl _
  simp only [replayAccepted, f.recovery, hcommit, ok_bind, f.applied, ← f.policy]
  rfl

theorem Accepted.acceptedAt (h : Accepted sha256 formatRef chain samples state) :
    ∃ head older, chain = head :: older ∧ AcceptedAt sha256 formatRef head older state := by
  induction h with
  | @genesis now commit policy hparent hkind hanchor htime hrec =>
    have hnonneg := choosePublishTime_nonneg htime
    refine ⟨commit, [], rfl, genesis_history hnonneg, List.IsChain.singleton _, ?_⟩
    rintro options rfl
    simp only [replayCommits, ok_bind, replayCommit, genesis_replay hparent hkind hanchor hnonneg hrec]
    rfl
  | @publish options head commit older samples state next policy plan isRoot capture uploaded now accepted
      format configured prepare captured verified adopted ih =>
    obtain ⟨head', older', heq, ih⟩ := ih
    cases heq
    simp only [prepareChildPublication, ok_iff] at prepare
    obtain ⟨chosen, -, rfl⟩ := prepare
    obtain ⟨-, -, -, ordinal, -, pub, -, hhist⟩ := published_advance ih.history captured verified adopted
    refine ⟨commit, head :: older, rfl, hhist, List.isChain_cons_cons.mpr ⟨pub.parent, ih.linked⟩, ?_⟩
    rintro replaying rfl
    have hstep := pub.replay ih.history.valid.cutoff
    rw [replayCommits, ih.replay replaying rfl, ok_bind]
    simp only [replayCommit, hstep, ok_bind]
    rfl

/-! ## The registry of a root -/

/-- **Roots and replay agree.**  For every accepted predecessor and every captured successor, the delta applies
and a root's snapshot normalises to its result; every accepted chain replays to the installed registry, from its
first commit and from each of its roots. -/
theorem root_snapshot_eq_replay {head : V3ReplayCommit} {older : List V3ReplayCommit}
    {samples : List PublicationSample} {state : AcceptedRecoveryState}
    (h : Accepted sha256 formatRef (head :: older) samples state) (hformat : options.formatRef = formatRef) :
    (∀ (plan : V3PublicationPlan) (policy : RecoveryPolicy) (isRoot : Bool) (capture : CapturedRecoveryPublication)
      (enclosing : V3AnchorState) (ordinal : ℕ),
      plan.parent = head.anchorState formatRef → plan.parentPublishTimeMs = head.header.publishTimeMs →
      CapturedRecoveryPublication.new sha256 plan state policy isRoot = .ok capture →
      validateAnchor enclosing = .ok () → validateOrdinal ordinal = .ok () →
      plan.parent.sequence.checkedNext = some enclosing.sequence →
      ∃ next, capture.capturedSection.applyDelta state.snapshot enclosing ordinal = .ok next ∧
        (isRoot = true → capture.capturedSection.normalizedSnapshot enclosing ordinal = .ok (some next))) ∧
    replayRecoveryHistory sha256 options (head :: older) = .ok (some state) ∧
    ∀ later root earlier, head :: older = later ++ root :: earlier → root.header.kind = .root →
      replayRecoveryHistory sha256 options (later ++ [root]) =
        replayRecoveryHistory sha256 options (head :: older) := by
  obtain ⟨head', older', heq, hat⟩ := h.acceptedAt
  cases heq
  have hreplay := hat.replay options hformat
  refine ⟨?_, ?_, ?_⟩
  · intro plan policy isRoot capture enclosing ordinal hparent htime hnew henc hord hnext
    have hhist := hat.history
    rw [← hparent, ← htime] at hhist
    obtain ⟨cutoff, point, relative, facts⟩ := captured_facts hnew
    obtain ⟨happlied, hroot, -⟩ := applyDelta_captured hhist facts henc hord hnext
    exact ⟨_, happlied, hroot⟩
  · rw [replayRecoveryHistory, hreplay]
    rfl
  -- a root carries its whole snapshot, so replay does not look behind it
  · intro later root earlier hsplit hkind
    have hlinked := hat.linked
    rw [hsplit, ← hformat] at hlinked
    have hcut := hreplay
    rw [hsplit] at hcut
    rw [replayRecoveryHistory, replayRecoveryHistory, hreplay, replayCommits_cut hlinked hkind hcut]

end

/-- On the chain of two roots: the second root was captured from the genesis registry, and its snapshot alone
replays to the registry of the chain. -/
theorem root_snapshot_eq_replay_sample :
    (∃ next, sampleCapture.capturedSection.applyDelta .default (sampleRoot.anchorState sampleFormat) 1 = .ok next ∧
      sampleCapture.capturedSection.normalizedSnapshot (sampleRoot.anchorState sampleFormat) 1 = .ok (some next)) ∧
    replayRecoveryHistory sampleSha256 sampleOptions [sampleRoot, sampleGenesis] = .ok (some sampleState) ∧
    replayRecoveryHistory sampleSha256 sampleOptions [sampleRoot] =
      replayRecoveryHistory sampleSha256 sampleOptions [sampleRoot, sampleGenesis] := by
  obtain ⟨-, hreplay, hcut⟩ := root_snapshot_eq_replay sampleChain_accepted (rfl : sampleOptions.formatRef = _)
  refine ⟨?_, hreplay, hcut [] sampleRoot [sampleGenesis] rfl rfl⟩
  have hgenesis := (root_snapshot_eq_replay sampleGenesis_accepted (rfl : sampleOptions.formatRef = _)).1
  have hnext : samplePlan.parent.sequence.checkedNext = some (sampleRoot.anchorState sampleFormat).sequence := rfl
  obtain ⟨next, happly, hroot⟩ := hgenesis samplePlan .preset true sampleCapture
    (sampleRoot.anchorState sampleFormat) 1 rfl rfl sampleCapture_new (by decide +kernel) rfl hnext
  exact ⟨next, happly, hroot rfl⟩

end Rs3.Recovery
