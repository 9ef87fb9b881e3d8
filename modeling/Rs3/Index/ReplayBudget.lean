/-
# Rs3.Index.ReplayBudget — which accepted heads a writer can load again.

`load_replay_chain_with_pending_limit` and `verify_replay_sections` of `v3/repository.rs`, over the chains that the
publications of `v3/service.rs` build.  Replay walks back to the last root and adds up commits, object bytes and retained
section bytes; a publication bounds the number of runs and the size of one section, but no sum of bytes.  So replay of an
accepted head succeeds exactly when the commits since the last root fit the limits.
-/
import Rs3.Index.CompactionPlan
import Rs3.Index.Publication
import Rs3.Recovery.Time

namespace Rs3.Index

open List

open Repository (V3CommitKey V3CommitParentRef V3CommitKind V3KeyringEnvelopeRef)
open Recovery (validateParentTime)

/-! ## Loading a chain -/

/-- Resource budgets for startup and disaster-recovery replay. -/
structure V3ReplayLimits where
  maxCommits : ℕ
  maxTotalCommitBytes : ℕ
  maxRetainedBytes : ℕ
  readChunkBytes : ℕ
  deriving DecidableEq

def V3ReplayLimits.default : V3ReplayLimits := ⟨4096, 1024 ^ 4, 64 * 1024 ^ 2, 8 * 1024 ^ 2⟩

/-- `MAX_RECOVERY_SECTION_BYTES`. -/
def maxRecoverySectionBytes : ℕ := 8 * 1024 ^ 2

/-- The sections whose bytes replay keeps. -/
def V3SectionType.retained : V3SectionType → Bool
  | payloadPack => false
  | indexRun => true
  | indexRoot => true
  | recovery => true

/-- One section of `verify_replay_sections`; returns the retained bytes.  The chunks that are read tile the section, so
their checked offsets leave 64 bits exactly when its end does. -/
def verifyReplaySection (limits : V3ReplayLimits) (pendingLimit sectionsStart retainedBytes : ℕ)
    (descriptor : V3SectionDescriptor) : Except V3FormatError ℕ :=
  if descriptor.sectionType.retained then do
    ensure (¬(descriptor.sectionType = .recovery ∧ maxRecoverySectionBytes < descriptor.length))
      .recoveryHistoryCapacity
    let total := retainedBytes + descriptor.length
    ensure (total < 2 ^ 64 ∧ total ≤ limits.maxRetainedBytes) .replayBudgetExceeded
    let buffered := total + min descriptor.length limits.readChunkBytes
    ensure (buffered < 2 ^ 64 ∧ buffered ≤ pendingLimit) .maintenanceBudgetExceeded
    ensure (sectionsStart + descriptor.offset + descriptor.length < 2 ^ 64) .sectionBounds
    return total
  else .ok retainedBytes

def verifyReplaySections (limits : V3ReplayLimits) (pendingLimit retainedBytes : ℕ) (commit : V3ReplayCommit) :
    Except V3FormatError ℕ :=
  commit.sectionIndex.foldlM (verifyReplaySection limits pendingLimit commit.sectionsStart) retainedBytes

/-- The variables of the loop. -/
structure ReplayLoad where
  next : V3CommitParentRef
  seen : List BackendObjectId
  totalCommitBytes : ℕ
  retainedBytes : ℕ
  childPublishTime : Option Int

/-- The loop, with the number of commits that may still be walked.  `readCommitFactsAt` stands for the reads of the object's
length and of its parsed header. -/
def loadReplayCommits (store : List V3ReplayCommit) (limits : V3ReplayLimits) (pendingLimit : ℕ) :
    ℕ → ReplayLoad → Except V3FormatError (List V3ReplayCommit)
  | 0, _ => .error .replayBudgetExceeded
  | remaining + 1, load => do
    ensure (load.next.commitKey ∉ load.seen) .staleAnchor
    let commit ← readCommitFactsAt store load.next.commitKey load.next.versionId
    let total := load.totalCommitBytes + commit.objectLen
    ensure (total < 2 ^ 64 ∧ total ≤ limits.maxTotalCommitBytes) .replayBudgetExceeded
    validateParentTime none commit.header.publishTimeMs
    ensure (commit.header.selfRef.sequence = load.next.sequence) .selfKeyMismatch
    ensure (commit.header.bodyDigest = load.next.bodyDigest) .bodyDigestMismatch
    load.childPublishTime.forM fun childTime => validateParentTime (some commit.header.publishTimeMs) childTime
    let retained ← verifyReplaySections limits pendingLimit load.retainedBytes commit
    if commit.header.kind = .root then return [commit]
    else
      let parent ← okOr commit.header.parent .invalidHeaderField
      let older ← loadReplayCommits store limits pendingLimit remaining
        ⟨parent, load.next.commitKey :: load.seen, total, retained, some commit.header.publishTimeMs⟩
      return commit :: older

/-- `load_replay_chain_with_pending_limit`; the chain is newest first. -/
def loadReplayChainWithPendingLimit (store : List V3ReplayCommit) (limits : V3ReplayLimits) (pendingLimit : ℕ)
    (anchor : V3AnchorState) : Except V3FormatError (List V3ReplayCommit) := do
  ensure (¬(limits.maxCommits = 0 ∨ limits.maxTotalCommitBytes = 0 ∨ limits.maxRetainedBytes = 0 ∨
    limits.readChunkBytes = 0)) .replayBudgetExceeded
  let commits ← loadReplayCommits store limits pendingLimit limits.maxCommits ⟨.ofAnchor anchor, [], 0, 0, none⟩
  let head ← okOr commits.head? .missingAnchor
  ensure (head.header.signingKeyId = anchor.signingKeyId) .staleAnchor
  return commits

def loadReplayChainFromState (store : List V3ReplayCommit) (limits : V3ReplayLimits) (anchor : V3AnchorState) :
    Except V3FormatError (List V3ReplayCommit) :=
  loadReplayChainWithPendingLimit store limits (2 ^ 64 - 1) anchor

/-! ## What a chain costs -/

/-- The bytes that replay retains of a section. -/
def V3SectionDescriptor.retainedLen (descriptor : V3SectionDescriptor) : ℕ :=
  if descriptor.sectionType.retained then descriptor.length else 0

def retainedLen (descriptors : List V3SectionDescriptor) : ℕ := (descriptors.map V3SectionDescriptor.retainedLen).sum

def V3ReplayCommit.retainedLen (commit : V3ReplayCommit) : ℕ := Index.retainedLen commit.sectionIndex

def totalCommitBytes (chain : List V3ReplayCommit) : ℕ := (chain.map V3ReplayCommit.objectLen).sum

def totalRetainedBytes (chain : List V3ReplayCommit) : ℕ := (chain.map V3ReplayCommit.retainedLen).sum

/-- The commits since the last root are inside every sum that replay checks. -/
def V3ReplayLimits.Fits (limits : V3ReplayLimits) (chain : List V3ReplayCommit) : Prop :=
  0 < limits.readChunkBytes ∧ 0 < limits.maxTotalCommitBytes ∧ 0 < limits.maxRetainedBytes ∧
    chain.length ≤ limits.maxCommits ∧ totalCommitBytes chain ≤ limits.maxTotalCommitBytes ∧
    totalRetainedBytes chain ≤ limits.maxRetainedBytes

instance (limits : V3ReplayLimits) (chain : List V3ReplayCommit) : Decidable (limits.Fits chain) :=
  inferInstanceAs (Decidable (_ ∧ _))

/-- Sums inside the limits, and one buffered chunk, do not leave 64 bits. -/
structure V3ReplayLimits.Words (limits : V3ReplayLimits) : Prop where
  total : limits.maxTotalCommitBytes < 2 ^ 64
  retained : limits.maxRetainedBytes + limits.readChunkBytes < 2 ^ 64

/-! ## Accepted chains -/

/-- What every written commit satisfies: its key names its sequence, sections follow each other up to the end of the object,
and `recovery::section::seal` bounds the recovery section. -/
structure V3ReplayCommit.Written (commit : V3ReplayCommit) : Prop where
  key : ∃ key, V3CommitKey.parse commit.header.selfRef.commitKey = .ok key ∧ key.sequence = commit.header.selfRef.sequence
  time : 0 ≤ commit.header.publishTimeMs
  layout : ∃ sections, commit.sections = buildSectionRegion 0 sections ∧
    commit.objectLen = commit.sectionsStart + sectionRegionLen sections ∧
    ∀ section' ∈ sections, section'.content.sectionType = .recovery → section'.len ≤ maxRecoverySectionBytes

/-- The commits from an accepted head back to the root that cuts replay. -/
inductive AcceptedChain : List V3ReplayCommit → Prop
  | root {commit : V3ReplayCommit} (hwritten : commit.Written) (hkind : commit.header.kind = .root) : AcceptedChain [commit]
  | child {commit parent : V3ReplayCommit} {older : List V3ReplayCommit} (hparent : AcceptedChain (parent :: older))
      (hwritten : commit.Written) (hkind : commit.header.kind = .delta)
      (href : commit.header.parent = some ⟨parent.header.selfRef.sequence, parent.header.selfRef.commitKey,
        parent.header.bodyDigest, parent.versionId⟩)
      (hsequence : parent.header.selfRef.sequence.checkedNext = some commit.header.selfRef.sequence)
      (htime : parent.header.publishTimeMs < commit.header.publishTimeMs) : AcceptedChain (commit :: parent :: older)

section Chains

variable {commit : V3ReplayCommit} {chain older : List V3ReplayCommit} {limits : V3ReplayLimits}

theorem AcceptedChain.written (h : AcceptedChain chain) : ∀ commit ∈ chain, commit.Written := by
  induction h with
  | root hwritten _ => simpa using hwritten
  | child _ hwritten _ _ _ _ ih => exact forall_mem_cons.mpr ⟨hwritten, ih⟩

theorem AcceptedChain.sequence_lt (h : AcceptedChain (commit :: older)) :
    ∀ other ∈ older, other.header.selfRef.sequence.get < commit.header.selfRef.sequence.get := by
  generalize hchain : commit :: older = chain at h
  induction h generalizing commit older with
  | root _ _ =>
    cases hchain
    simp
  | @child newest parent rest hparent hwritten hkind href hsequence htime ih =>
    cases hchain
    have hnext := U64.checkedNext_get hsequence
    refine forall_mem_cons.mpr ⟨by omega, fun other hother => ?_⟩
    have hlt := ih rfl other hother
    omega

theorem AcceptedChain.key_ne (h : AcceptedChain (commit :: older)) :
    ∀ other ∈ older, other.header.selfRef.commitKey ≠ commit.header.selfRef.commitKey := by
  intro other hother heq
  obtain ⟨key, hparse, hsequence⟩ := (h.written commit mem_cons_self).key
  obtain ⟨key', hparse', hsequence'⟩ := (h.written other (mem_cons_of_mem _ hother)).key
  rw [heq, hparse] at hparse'
  obtain rfl := Except.ok.inj hparse'
  have hlt := h.sequence_lt other hother
  rw [← hsequence, ← hsequence'] at hlt
  exact Nat.lt_irrefl _ hlt

variable {sections : List V3CommitSection} {sectionsStart : ℕ} {load : ReplayLoad} {head : V3ReplayCommit}

theorem end_le_of_mem_buildSectionRegion : ∀ stored ∈ buildSectionRegion offset sections,
      stored.descriptor.offset + stored.descriptor.length ≤ offset + sectionRegionLen sections := by
  induction sections generalizing offset with
  | nil => simp [buildSectionRegion]
  | cons first rest ih =>
    refine forall_mem_cons.mpr ⟨?_, fun stored hstored => ?_⟩
    · simp [sectionRegionLen]
    · have hle := ih stored hstored
      simp only [sectionRegionLen, map_cons, sum_cons] at hle ⊢
      omega

theorem len_of_mem_buildSectionRegion : ∀ stored ∈ buildSectionRegion offset sections, ∃ section' ∈ sections,
      stored.descriptor.sectionType = section'.content.sectionType ∧ stored.descriptor.length = section'.len := by
  induction sections generalizing offset with
  | nil => simp [buildSectionRegion]
  | cons first rest ih =>
    refine forall_mem_cons.mpr ⟨⟨first, mem_cons_self, rfl, rfl⟩, fun stored hstored => ?_⟩
    obtain ⟨section', hmem, hfacts⟩ := ih stored hstored
    exact ⟨section', mem_cons_of_mem _ hmem, hfacts⟩

/-- The descriptors of a written commit: no recovery section is too large, and all end inside the object. -/
theorem V3ReplayCommit.Written.descriptors (h : commit.Written) :
    ∀ descriptor ∈ commit.sectionIndex,
      ¬(descriptor.sectionType = .recovery ∧ maxRecoverySectionBytes < descriptor.length) ∧
        commit.sectionsStart + descriptor.offset + descriptor.length ≤ commit.objectLen := by
  obtain ⟨sections, hsections, hlen, hrecovery⟩ := h.layout
  intro descriptor hdescriptor
  obtain ⟨stored, hstored, rfl⟩ := mem_map.mp hdescriptor
  rw [hsections] at hstored
  constructor
  · intro hlarge
    obtain ⟨section', hmem, htype, hlength⟩ := len_of_mem_buildSectionRegion stored hstored
    rw [htype, hlength] at hlarge
    exact absurd (hrecovery section' hmem hlarge.1) (Nat.not_le.mpr hlarge.2)
  · have hend := end_le_of_mem_buildSectionRegion stored hstored
    omega

/-! ## Replay of an accepted chain -/

theorem ensure_sum_error {sum limit : ℕ} (h : ¬sum ≤ limit) :
    ensure (sum < 2 ^ 64 ∧ sum ≤ limit) V3FormatError.replayBudgetExceeded = .error .replayBudgetExceeded :=
  if_neg fun hok => h hok.2

/-- A section of a written commit is refused only for the sum. -/
theorem verifyReplaySection_eq {descriptor : V3SectionDescriptor}
    (hwords : limits.Words) (hretained : retainedBytes ≤ limits.maxRetainedBytes)
    (hrecovery : ¬(descriptor.sectionType = .recovery ∧ maxRecoverySectionBytes < descriptor.length))
    (hbounds : sectionsStart + descriptor.offset + descriptor.length < 2 ^ 64) :
    verifyReplaySection limits (2 ^ 64 - 1) sectionsStart retainedBytes descriptor =
      if retainedBytes + descriptor.retainedLen ≤ limits.maxRetainedBytes then .ok (retainedBytes + descriptor.retainedLen)
      else .error .replayBudgetExceeded := by
  have hword := hwords.retained
  unfold verifyReplaySection V3SectionDescriptor.retainedLen
  cases hkind : descriptor.sectionType.retained with
  | false => exact (if_pos hretained).symm
  | true =>
    simp only [if_true, ensure_of hrecovery, ok_bind]
    by_cases hfits : retainedBytes + descriptor.length ≤ limits.maxRetainedBytes
    · have hmin := Nat.min_le_right descriptor.length limits.readChunkBytes
      rw [ensure_of (by omega), ok_bind, ensure_of (by omega), ok_bind, ensure_of hbounds, ok_bind, if_pos hfits]
      rfl
    · rw [if_neg hfits, ensure_sum_error hfits, error_bind]

theorem foldlM_verifyReplaySection (hwords : limits.Words) (hretained : retainedBytes ≤ limits.maxRetainedBytes)
    (h : ∀ descriptor ∈ descriptors,
      ¬(descriptor.sectionType = .recovery ∧ maxRecoverySectionBytes < descriptor.length) ∧
        sectionsStart + descriptor.offset + descriptor.length < 2 ^ 64) :
    descriptors.foldlM (verifyReplaySection limits (2 ^ 64 - 1) sectionsStart) retainedBytes =
      if retainedBytes + retainedLen descriptors ≤ limits.maxRetainedBytes then
        .ok (retainedBytes + retainedLen descriptors)
      else .error .replayBudgetExceeded := by
  induction descriptors generalizing retainedBytes with
  | nil =>
    have hsum : retainedBytes + retainedLen [] ≤ limits.maxRetainedBytes := hretained
    rw [if_pos hsum]
    rfl
  | cons descriptor rest ih =>
    obtain ⟨⟨hrecovery, hbounds⟩, hrest⟩ := forall_mem_cons.mp h
    have hlen : retainedLen (descriptor :: rest) = descriptor.retainedLen + retainedLen rest := by simp [retainedLen]
    rw [foldlM_cons, verifyReplaySection_eq hwords hretained hrecovery hbounds, hlen]
    by_cases hfits : retainedBytes + descriptor.retainedLen ≤ limits.maxRetainedBytes
    · rw [if_pos hfits, ok_bind, ih hfits hrest, Nat.add_assoc]
    · rw [if_neg hfits, error_bind, if_neg (by omega)]

/-- What the loop needs of its variables when it reaches a chain. -/
structure ReplayLoad.Reaches (load : ReplayLoad) (limits : V3ReplayLimits) (commit : V3ReplayCommit)
    (older : List V3ReplayCommit) : Prop where
  next : load.next = ⟨commit.header.selfRef.sequence, commit.header.selfRef.commitKey, commit.header.bodyDigest,
    commit.versionId⟩
  seen : ∀ other ∈ commit :: older, other.header.selfRef.commitKey ∉ load.seen
  total : load.totalCommitBytes ≤ limits.maxTotalCommitBytes
  retained : load.retainedBytes ≤ limits.maxRetainedBytes
  time : ∀ childTime ∈ load.childPublishTime, commit.header.publishTimeMs < childTime

/-- Further bytes fit next to those that are loaded. -/
abbrev ReplayLoad.Room (load : ReplayLoad) (limits : V3ReplayLimits) (total retained : ℕ) : Prop :=
  load.totalCommitBytes + total ≤ limits.maxTotalCommitBytes ∧ load.retainedBytes + retained ≤ limits.maxRetainedBytes

def ReplayLoad.after (load : ReplayLoad) (commit : V3ReplayCommit) (parent : V3CommitParentRef) : ReplayLoad :=
  ⟨parent, load.next.commitKey :: load.seen, load.totalCommitBytes + commit.objectLen,
    load.retainedBytes + commit.retainedLen, some commit.header.publishTimeMs⟩

variable {store : List V3ReplayCommit}

theorem loadReplayCommits_succ (hwords : limits.Words) (hwritten : commit.Written)
    (hstore : readCommitFactsAt store commit.header.selfRef.commitKey commit.versionId = .ok commit)
    (hload : load.Reaches limits commit older) :
    loadReplayCommits store limits (2 ^ 64 - 1) (remaining + 1) load =
      if load.Room limits commit.objectLen commit.retainedLen then
        if commit.header.kind = .root then .ok [commit]
        else do
          let parent ← okOr commit.header.parent V3FormatError.invalidHeaderField
          let older ← loadReplayCommits store limits (2 ^ 64 - 1) remaining (load.after commit parent)
          return commit :: older
      else .error .replayBudgetExceeded := by
  have hword := hwords.total
  rw [loadReplayCommits, hload.next]
  simp only
  rw [ensure_of (hload.seen commit mem_cons_self), ok_bind, hstore, ok_bind]
  -- in the order of the loop: object bytes are charged before times and sections are looked at
  by_cases htotal : load.totalCommitBytes + commit.objectLen ≤ limits.maxTotalCommitBytes
  · have htimes : (load.childPublishTime.forM fun childTime =>
        validateParentTime (some commit.header.publishTimeMs) childTime) = .ok () := by
      cases hchild : load.childPublishTime with
      | none => rfl
      | some childTime =>
        have hlt := hload.time childTime hchild
        have htime := hwritten.time
        exact ensure_of ⟨by omega, htime, hlt⟩
    have hsections : verifyReplaySections limits (2 ^ 64 - 1) load.retainedBytes commit =
        if load.retainedBytes + commit.retainedLen ≤ limits.maxRetainedBytes then
          .ok (load.retainedBytes + commit.retainedLen)
        else .error .replayBudgetExceeded :=
      foldlM_verifyReplaySection hwords hload.retained fun descriptor hdescriptor => by
        obtain ⟨hrecovery, hend⟩ := hwritten.descriptors descriptor hdescriptor
        exact ⟨hrecovery, by omega⟩
    rw [ensure_of ⟨by omega, htotal⟩, ok_bind, show validateParentTime none commit.header.publishTimeMs = .ok () from
      ensure_of hwritten.time, ok_bind, ensure_of rfl, ok_bind, ensure_of rfl, ok_bind, htimes, ok_bind, hsections]
    by_cases hretained : load.retainedBytes + commit.retainedLen ≤ limits.maxRetainedBytes
    · have hroom : load.Room limits commit.objectLen commit.retainedLen := ⟨htotal, hretained⟩
      rw [if_pos hretained, ok_bind, if_pos hroom]
      simp only [ReplayLoad.after, hload.next]
      rfl
    · rw [if_neg hretained, error_bind, if_neg fun hok => hretained hok.2]
  · rw [ensure_sum_error htotal, error_bind, if_neg fun hok => htotal hok.1]

/-- The loop over an accepted chain: only the three sums can stop it. -/
theorem loadReplayCommits_accepted (hwords : limits.Words) (h : AcceptedChain chain)
    (hstore : ∀ commit ∈ chain, readCommitFactsAt store commit.header.selfRef.commitKey commit.versionId = .ok commit)
    (hchain : chain = head :: older) (hload : load.Reaches limits head older) :
    loadReplayCommits store limits (2 ^ 64 - 1) remaining load =
      if chain.length ≤ remaining ∧ load.Room limits (totalCommitBytes chain) (totalRetainedBytes chain) then .ok chain
      else .error .replayBudgetExceeded := by
  -- along the chain: the loop stands at its next commit, with both sums inside the limits
  induction h generalizing remaining load head older with
  | @root commit hwritten hkind =>
    cases hchain
    cases remaining with
    | zero => exact (if_neg (by simp)).symm
    | succ remaining =>
      rw [loadReplayCommits_succ hwords hwritten (hstore commit mem_cons_self) hload, if_pos hkind]
      simp [totalCommitBytes, totalRetainedBytes]
  | @child commit parent rest hparent hwritten hkind href hsequence htime ih =>
    cases hchain
    have hfresh := (AcceptedChain.child hparent hwritten hkind href hsequence htime).key_ne
    have htotals : totalCommitBytes (commit :: parent :: rest) = commit.objectLen + totalCommitBytes (parent :: rest) ∧
        totalRetainedBytes (commit :: parent :: rest) = commit.retainedLen + totalRetainedBytes (parent :: rest) :=
      ⟨by simp [totalCommitBytes], by simp [totalRetainedBytes]⟩
    have hdelta : ¬commit.header.kind = .root := by simp [hkind]
    cases remaining with
    | zero => exact (if_neg (by simp)).symm
    | succ remaining =>
      rw [loadReplayCommits_succ hwords hwritten (hstore commit mem_cons_self) hload, if_neg hdelta, href]
      by_cases hfits : load.Room limits commit.objectLen commit.retainedLen
      · have hreaches : (load.after commit ⟨parent.header.selfRef.sequence, parent.header.selfRef.commitKey,
            parent.header.bodyDigest, parent.versionId⟩).Reaches limits parent rest := by
          refine ⟨rfl, fun other hother hseen => ?_, hfits.1, hfits.2, fun childTime hchild => ?_⟩
          · rcases mem_cons.mp hseen with heq | hold
            · rw [hload.next] at heq
              exact hfresh other hother heq
            · exact hload.seen other (mem_cons_of_mem _ hother) hold
          · obtain rfl := Option.some.inj hchild
            exact htime
        rw [if_pos hfits]
        show (loadReplayCommits store limits (2 ^ 64 - 1) remaining _ >>= _) = _
        rw [ih (fun other hother => hstore other (mem_cons_of_mem _ hother)) rfl hreaches, htotals.1, htotals.2]
        simp only [length_cons, Nat.add_le_add_iff_right]
        simp only [ReplayLoad.Room, ReplayLoad.after, Nat.add_assoc]
        split <;> rfl
      · rw [if_neg hfits, if_neg fun hok => hfits ⟨by omega, by omega⟩]

/-- Replay of an accepted head: the chain if it fits, and a budget error if it does not. -/
theorem loadReplayChainFromState_accepted (hwords : limits.Words) (h : AcceptedChain (head :: older))
    (hstore : ∀ commit ∈ head :: older,
      readCommitFactsAt store commit.header.selfRef.commitKey commit.versionId = .ok commit)
    (hanchor : anchor = head.anchorState formatRef) :
    loadReplayChainFromState store limits anchor =
      if limits.Fits (head :: older) then .ok (head :: older) else .error .replayBudgetExceeded := by
  subst hanchor
  have hreaches : ReplayLoad.Reaches ⟨.ofAnchor (head.anchorState formatRef), [], 0, 0, none⟩ limits head older :=
    ⟨rfl, by simp, Nat.zero_le _, Nat.zero_le _, by simp⟩
  unfold loadReplayChainFromState loadReplayChainWithPendingLimit
  by_cases hzero : limits.maxCommits = 0 ∨ limits.maxTotalCommitBytes = 0 ∨ limits.maxRetainedBytes = 0 ∨
      limits.readChunkBytes = 0
  · have hnot : ¬limits.Fits (head :: older) := by
      rintro ⟨hchunk, htotal, hretained, hcommits, -⟩
      rw [length_cons] at hcommits
      omega
    rw [show ensure (¬(limits.maxCommits = 0 ∨ limits.maxTotalCommitBytes = 0 ∨ limits.maxRetainedBytes = 0 ∨
        limits.readChunkBytes = 0)) V3FormatError.replayBudgetExceeded = .error .replayBudgetExceeded from
      if_neg fun hok => hok hzero, error_bind, if_neg hnot]
  · rw [ensure_of hzero, ok_bind, loadReplayCommits_accepted hwords h hstore rfl hreaches]
    simp only [ReplayLoad.Room, Nat.zero_add]
    by_cases hfits : limits.Fits (head :: older)
    · rw [if_pos hfits.2.2.2, if_pos hfits, ok_bind]
      show (ensure _ _ >>= _) = _
      have hsigner : head.header.signingKeyId = (head.anchorState formatRef).signingKeyId := rfl
      rw [ensure_of hsigner, ok_bind]
      rfl
    · have hsums : ¬((head :: older).length ≤ limits.maxCommits ∧
          totalCommitBytes (head :: older) ≤ limits.maxTotalCommitBytes ∧
          totalRetainedBytes (head :: older) ≤ limits.maxRetainedBytes) := by
        intro hsums
        exact hfits ⟨by omega, by omega, by omega, hsums⟩
      rw [if_neg hsums, if_neg hfits, error_bind]

end Chains

/-! ## Publications -/

/-- What a publication on top of a chain adds from outside: a generated key, a later time (checked when the child is
adopted) and a sealed recovery section. -/
structure PublicationInputs.Follows (inputs : PublicationInputs) (head : V3ReplayCommit) : Prop where
  key : V3CommitKey.parse inputs.upload.commitKey.objectId = .ok inputs.upload.commitKey
  time : 0 ≤ head.header.publishTimeMs ∧ head.header.publishTimeMs < inputs.upload.publishTimeMs
  recovery : ∀ stored ∈ inputs.recovery, stored.1 ≤ maxRecoverySectionBytes

/-- A service and the commits of its accepted head back to the last root, over whole runs.  Roots are the genesis, the
snapshots and whatever a restart has replayed. -/
inductive Published : V3Repository → List V3ReplayCommit → Prop
  | root {service : V3Repository} {commit : V3ReplayCommit} (hwritten : commit.Written) (hkind : commit.header.kind = .root)
      (hanchor : service.accepted.anchor = commit.anchorState service.options.formatRef)
      (hruns : service.accepted.runs.length ≤ maxRootRuns) : Published service [commit]
  | staged {service service' : V3Repository} {chain : List V3ReplayCommit} (h : Published service chain)
      (haccepted : service'.accepted = service.accepted) (hoptions : service'.options = service.options) :
      Published service' chain
  | batch {service service' : V3Repository} {head commit : V3ReplayCommit} {older : List V3ReplayCommit}
      {inputs : PublicationInputs} {pending : PendingV3Snapshot} {published : ℕ} (h : Published service (head :: older))
      (hinputs : inputs.Follows head)
      (hpublish : service.publishPendingSnapshot inputs pending published = .ok (service', commit)) :
      Published service' (commit :: head :: older)
  | standalone {service service' : V3Repository} {head commit : V3ReplayCommit} {older : List V3ReplayCommit}
      {inputs : PublicationInputs} {staged : StagedV3Put} {carrier : V3StandaloneStreamCarrierReference}
      (h : Published service (head :: older)) (hinputs : inputs.Follows head)
      (hpublish : service.publishStagedStandalone inputs staged carrier = .ok (service', commit)) :
      Published service' (commit :: head :: older)

section Publications

variable {service service' : V3Repository} {inputs : PublicationInputs} {head commit : V3ReplayCommit}
  {chain older : List V3ReplayCommit}

/-- What one delta does to the accepted state. -/
structure DeltaAccepted (service : V3Repository) (inputs : PublicationInputs) (service' : V3Repository)
    (commit : V3ReplayCommit) : Prop where
  options : service'.options = service.options
  anchor : service'.accepted.anchor = commit.anchorState service.options.formatRef
  runs : service'.accepted.runs.length = service.accepted.runs.length + 1
  room : service.accepted.runs.length < maxRootRuns
  written : ∃ packed : List V3CommitSection, (∀ section' ∈ packed, section'.content.sectionType ≠ .recovery) ∧
    writeChildCommit service.accepted.anchor service.options.keyringEnvelopeRef .delta
      (packed ++ recoverySection inputs.recovery) inputs.upload = .ok commit

variable {published : ℕ} {pending : PendingV3Snapshot}

theorem finishPublication_accepted (h : service.finishPublication published install commit = .ok service') :
    service'.options = service.options ∧ service'.accepted.anchor = commit.anchorState service.options.formatRef ∧
      service'.accepted.runs.length = service.accepted.runs.length + 1 := by
  obtain ⟨-, rfl⟩ := V3Repository.finishPublication_eq_ok h
  exact ⟨rfl, rfl, by simp⟩

/-- The packed sections of a batch are a pack and a run. -/
theorem writeBatchCommit_written (h : service.writeBatchCommit inputs pending unfit = .ok (packed, commit)) :
    (∀ section' ∈ packed.sections, section'.content.sectionType ≠ .recovery) ∧
      writeChildCommit service.accepted.anchor service.options.keyringEnvelopeRef .delta
        (packed.sections ++ recoverySection inputs.recovery) inputs.upload = .ok commit := by
  simp only [V3Repository.writeBatchCommit, ok_iff, Prod.mk.injEq] at h
  obtain ⟨_, hpacked, _, hwritten, rfl, rfl⟩ := h
  refine ⟨?_, hwritten⟩
  simp only [pendingPackedSectionsForCommit, ok_iff] at hpacked
  obtain ⟨batch, -, sealedRun, -, rfl⟩ := hpacked
  intro section' hsection
  rcases mem_append.mp hsection with hpack | hrun
  · obtain ⟨pack, -, rfl⟩ := mem_map.mp hpack
    exact fun heq => by cases heq
  · rw [mem_singleton.mp hrun]
    exact fun heq => by cases heq

theorem validateAcceptedRunAppend_length
    (h : validateAcceptedRunAppend runs run = .ok u) : runs.length < maxRootRuns := by
  simp only [validateAcceptedRunAppend, ok_iff] at h
  exact h.1

theorem publishPendingSnapshot_accepted
    (h : service.publishPendingSnapshot inputs pending published = .ok (service', commit)) :
    DeltaAccepted service inputs service' commit := by
  obtain ⟨_, packed, _, install, -, hwritten, hruns, -, -, hfinish⟩ := V3Repository.publishPendingSnapshot_eq_ok h
  obtain ⟨hoptions, hanchor, hlength⟩ := finishPublication_accepted hfinish
  exact ⟨hoptions, hanchor, hlength, validateAcceptedRunAppend_length hruns, packed.sections,
    writeBatchCommit_written hwritten⟩

theorem publishStagedStandalone_accepted
    (h : service.publishStagedStandalone inputs staged carrier = .ok (service', commit)) :
    DeltaAccepted service inputs service' commit := by
  simp only [V3Repository.publishStagedStandalone, bind_eq_ok, pure_eq_ok, Prod.mk.injEq] at h
  obtain ⟨_, -, _, -, _, -, ⟨packed, written⟩, hwritten, _, hruns, install, -, _, hfinish, rfl, rfl⟩ := h
  obtain ⟨hoptions, hanchor, hlength⟩ := finishPublication_accepted hfinish
  exact ⟨hoptions, hanchor, hlength, validateAcceptedRunAppend_length hruns, packed.sections,
    writeBatchCommit_written hwritten⟩

/-- What holds between the service and its chain. -/
structure ChainOf (service : V3Repository) (chain : List V3ReplayCommit) : Prop where
  accepted : AcceptedChain chain
  anchor : ∀ head ∈ chain.head?, service.accepted.anchor = head.anchorState service.options.formatRef
  length : chain.length ≤ service.accepted.runs.length + 1
  runs : service.accepted.runs.length ≤ maxRootRuns

/-- The step lemma: a delta extends the chain by a written child. -/
theorem ChainOf.delta (h : ChainOf service (head :: older)) (hinputs : inputs.Follows head)
    (hdelta : DeltaAccepted service inputs service' commit) : ChainOf service' (commit :: head :: older) := by
  obtain ⟨packed, hpacked, hwritten⟩ := hdelta.written
  have hanchor := h.anchor head rfl
  simp only [writeChildCommit, ok_iff] at hwritten
  obtain ⟨sequence, hnext, hkey, rfl⟩ := hwritten
  rw [hanchor] at hnext
  refine ⟨.child h.accepted ⟨⟨inputs.upload.commitKey, hinputs.key, hkey⟩, ?_,
    packed ++ recoverySection inputs.recovery, rfl, rfl,
    ?_⟩ rfl ?_ hnext hinputs.time.2, fun other hother => ?_, ?_, ?_⟩
  · have htime := hinputs.time
    show 0 ≤ inputs.upload.publishTimeMs
    omega
  · intro section' hsection htype
    rcases mem_append.mp hsection with hsection | hsection
    · exact absurd htype (hpacked section' hsection)
    · obtain ⟨stored, hstored, rfl⟩ := mem_map.mp hsection
      exact hinputs.recovery stored (Option.mem_toList.mp hstored)
  · rw [hanchor]
    rfl
  · obtain rfl := Option.some.inj hother
    rw [hdelta.anchor, hdelta.options]
  · have hlength := h.length
    rw [hdelta.runs, length_cons]
    omega
  · have hroom := hdelta.room
    rw [hdelta.runs]
    omega

/-- The run lemma. -/
theorem Published.chainOf (h : Published service chain) : ChainOf service chain := by
  induction h with
  | root hwritten hkind hanchor hruns =>
    refine ⟨.root hwritten hkind, fun head hhead => ?_, by simp, hruns⟩
    obtain rfl := Option.some.inj hhead
    exact hanchor
  | staged _ haccepted hoptions ih =>
    refine ⟨ih.accepted, ?_, ?_, ?_⟩
    · rw [haccepted, hoptions]
      exact ih.anchor
    · rw [haccepted]
      exact ih.length
    · rw [haccepted]
      exact ih.runs
  | batch _ hinputs hpublish ih => exact ih.delta hinputs (publishPendingSnapshot_accepted hpublish)
  | standalone _ hinputs hpublish ih => exact ih.delta hinputs (publishStagedStandalone_accepted hpublish)

end Publications

/-- **An accepted head is loaded again exactly when its chain fits.**  For every run of publications since the last
root, over a store that still has its commits: if the sums are inside the limits then replay returns the chain, and
otherwise it fails with a replay-budget error.  The number of commits alone never exceeds one more than the bound on runs. -/
theorem accepted_head_loads {service : V3Repository} {chain store : List V3ReplayCommit} {limits : V3ReplayLimits}
    (h : Published service chain) (hwords : limits.Words)
    (hstore : ∀ commit ∈ chain, readCommitFactsAt store commit.header.selfRef.commitKey commit.versionId = .ok commit) :
    (limits.Fits chain → loadReplayChainFromState store limits service.accepted.anchor = .ok chain) ∧
      (¬limits.Fits chain → loadReplayChainFromState store limits service.accepted.anchor = .error .replayBudgetExceeded) ∧
      chain.length ≤ maxRootRuns + 1 := by
  have hchain := h.chainOf
  have hlength := hchain.length
  have hruns := hchain.runs
  cases chain with
  | nil => cases hchain.accepted
  | cons head older =>
    have hload := loadReplayChainFromState_accepted hwords hchain.accepted hstore (hchain.anchor head rfl)
    refine ⟨fun hfits => ?_, fun hfits => ?_, by omega⟩
    · rw [hload, if_pos hfits]
    · rw [hload, if_neg hfits]

/-! ## A head that its writer cannot load -/

def budgetGenesisKey : BackendObjectId :=
  ⟨"commits/v03/00000000000000000001/BAAAAAAAAAAAAAAAAAAAAAAAAAAAAAAAAAAAAAAAAAA", by decide +kernel⟩

def budgetChildKey : BackendObjectId :=
  ⟨"commits/v03/00000000000000000002/BAAAAAAAAAAAAAAAAAAAAAAAAAAAAAAAAAAAAAAAAAA", by decide +kernel⟩

/-- The random half of both keys. -/
def budgetRandomId : Digest := (Vector.replicate 32 0).set 0 4

def budgetFormatRef : V3FormatRef := ⟨1, "", budgetGenesisKey, none⟩

def budgetKeyringRef : V3KeyringEnvelopeRef := ⟨budgetGenesisKey, Vector.replicate 32 0⟩

def budgetRoot : V3IndexRoot := ⟨.default, 0, 0, 0, budgetFormatRef, budgetKeyringRef, ⟨0, 0, 0, 0, 0⟩, []⟩

/-- A genesis root whose section takes one byte. -/
def budgetGenesis : V3ReplayCommit where
  header := ⟨⟨1, budgetGenesisKey⟩, none, 0, .root, budgetKeyringRef, Vector.replicate 32 0, oneKey⟩
  sections := buildSectionRegion 0 [⟨.indexRoot budgetRoot, 1, Vector.replicate 32 0⟩]
  sectionsStart := 1
  versionId := none
  objectLen := 2

/-- A service right after its genesis, without a recovery policy. -/
def budgetService (limits : V3ReplayLimits) : V3Repository where
  keyring := oneKeyRing
  options := ⟨.dev, none, none, budgetFormatRef, budgetKeyringRef, limits.maxCommits, limits.maxTotalCommitBytes⟩
  defaultRetention := none
  accepted := ⟨.default, [], budgetGenesis.anchorState budgetFormatRef⟩
  pending := ⟨0, []⟩

/-- A sealer that keeps short runs in one frame of one byte. -/
def byteSealer : Sealer where
  encodes _ := true
  sealV3PayloadPack _ := .error .invalidPayloadPack
  sealV3IndexRun run :=
    if run.mutations.length ≤ maxRunMutations then .ok ⟨⟨Vector.replicate 32 0, 1, run⟩, 1, Vector.replicate 32 0⟩
    else .error .indexRunLimitExceeded
  seals {run section'} h := by
    split at h
    · rename_i hlen
      cases h
      exact ⟨rfl, hlen, ⟨Nat.le_refl _, (by decide : 1 ≤ maxRunFrames)⟩, Nat.zero_lt_one,
        (by decide : 1 ≤ maxRunObjectBytes)⟩
    · cases h

def budgetInputs : PublicationInputs where
  sealer := byteSealer
  upload := ⟨⟨2, budgetRandomId, budgetChildKey⟩, none, Vector.replicate 32 1, 1, 1, oneKey⟩
  recovery := none

def publishOnePut (limits : V3ReplayLimits) : Except RepositoryError (V3Repository × V3ReplayCommit) := do
  let staged ← (budgetService limits).stagePutMetadata textPrf 0 onePath 0 ⟨none, none, false, none, none⟩ (.buffered [])
    ⟨Vector.replicate 16 0, 1⟩
  (staged.1.publishPendingSnapshot budgetInputs (staged.1.pending.snapshot 1) 1).mapError .v3

def oneCommitLimits : V3ReplayLimits := { V3ReplayLimits.default with maxCommits := 1 }

/-- The number of commits that replay of the accepted head loads. -/
def loadedCommits (limits : V3ReplayLimits) : Option (Except V3FormatError ℕ) :=
  (publishOnePut limits).toOption.map fun published =>
    (loadReplayChainFromState [published.2, budgetGenesis] limits published.1.accepted.anchor).map List.length

/-- With room for one commit the genesis is loaded, one put is accepted, and then the head is refused. -/
theorem unloadable_head :
    (loadReplayChainFromState [budgetGenesis] oneCommitLimits (budgetService oneCommitLimits).accepted.anchor).map
        List.length = .ok 1 ∧
      ∃ service' commit, publishOnePut oneCommitLimits = .ok (service', commit) ∧
        loadReplayChainFromState [commit, budgetGenesis] oneCommitLimits service'.accepted.anchor =
          .error .replayBudgetExceeded := by
  refine ⟨by decide +kernel, ?_⟩
  have hloaded : loadedCommits oneCommitLimits = some (.error .replayBudgetExceeded) := by decide +kernel
  unfold loadedCommits at hloaded
  cases hpublish : publishOnePut oneCommitLimits with
  | error e =>
    rw [hpublish] at hloaded
    cases hloaded
  | ok published =>
    rw [hpublish] at hloaded
    refine ⟨published.1, published.2, rfl, ?_⟩
    have hload : (loadReplayChainFromState [published.2, budgetGenesis] oneCommitLimits
        published.1.accepted.anchor).map List.length = .error .replayBudgetExceeded := Option.some.inj hloaded
    cases hresult : loadReplayChainFromState [published.2, budgetGenesis] oneCommitLimits published.1.accepted.anchor with
    | error e =>
      rw [hresult] at hload
      cases hload
      rfl
    | ok commits =>
      rw [hresult] at hload
      cases hload

theorem budgetGenesis_written : budgetGenesis.Written := by
  refine ⟨⟨⟨1, budgetRandomId, budgetGenesisKey⟩, by decide +kernel, rfl⟩, by decide,
    [⟨.indexRoot budgetRoot, 1, Vector.replicate 32 0⟩], rfl, rfl, ?_⟩
  intro section' hsection htype
  rw [mem_singleton.mp hsection] at htype
  cases htype

theorem publishOnePut_published (h : publishOnePut limits = .ok (service', commit)) :
    Published service' [commit, budgetGenesis] := by
  simp only [publishOnePut, bind_eq_ok, mapError_eq_ok] at h
  obtain ⟨⟨staged, put⟩, hstaged, hpublish⟩ := h
  have hsame : staged.accepted = (budgetService limits).accepted ∧ staged.options = (budgetService limits).options := by
    simp only [V3Repository.stagePutMetadata, ok_iff, Prod.mk.injEq] at hstaged
    obtain ⟨-, _, -, -, -, _, -, _, -, _, -, _, -, rfl, -⟩ := hstaged
    exact ⟨rfl, rfl⟩
  have hroot : Published (budgetService limits) [budgetGenesis] :=
    .root budgetGenesis_written rfl rfl (Nat.zero_le _)
  exact .batch (.staged hroot hsame.1 hsame.2) ⟨by decide +kernel, by decide, by simp [budgetInputs]⟩ hpublish

/-- Under the default limits the writer loads the head of its first put again. -/
theorem accepted_head_loads_put : ∃ service' commit, publishOnePut .default = .ok (service', commit) ∧
    loadReplayChainFromState [commit, budgetGenesis] .default service'.accepted.anchor = .ok [commit, budgetGenesis] := by
  have hstored : (publishOnePut .default).toOption.any (fun published =>
      V3ReplayLimits.default.Fits [published.2, budgetGenesis] ∧ published.2.followsParent ∧
        published.2.header.selfRef.commitKey = budgetChildKey) = true := by
    decide +kernel
  cases hpublish : publishOnePut .default with
  | error e =>
    rw [hpublish] at hstored
    cases hstored
  | ok published =>
    rw [hpublish] at hstored
    simp only [Except.toOption, Option.any_some, decide_eq_true_eq] at hstored
    obtain ⟨hfits, hfollows, hkey⟩ := hstored
    refine ⟨published.1, published.2, rfl, (accepted_head_loads (publishOnePut_published hpublish)
      ⟨by decide, by decide⟩ ?_).1 hfits⟩
    rw [forall_mem_cons, forall_mem_singleton]
    constructor
    · simp [readCommitFactsAt, hfollows, okOr, ensure]
    · have hother : published.2.header.selfRef.commitKey ≠ budgetGenesis.header.selfRef.commitKey := by
        rw [hkey]
        decide
      simp [readCommitFactsAt, find?_cons_of_neg, hother, show budgetGenesis.followsParent = true from rfl, okOr, ensure]

/-! ## Loaded chains -/

/-- A chain, newest first, from the commit that a reference names back to the root: every commit above the root is a delta
that names the next one by key, version, digest and sequence and is newer than it in sequence and time. -/
inductive LoadedChain (formatRef : V3FormatRef) : V3CommitParentRef → List V3ReplayCommit → Prop
  | root {commit : V3ReplayCommit} (hkind : commit.header.kind = .root) :
    LoadedChain formatRef (.ofAnchor (commit.anchorState formatRef)) [commit]
  | child {commit parent : V3ReplayCommit} {older : List V3ReplayCommit} (hkind : commit.header.kind ≠ .root)
    (hparent : commit.header.parent = some (.ofAnchor (parent.anchorState formatRef)))
    (hsequence : parent.header.selfRef.sequence < commit.header.selfRef.sequence)
    (htime : parent.header.publishTimeMs < commit.header.publishTimeMs)
    (hchain : LoadedChain formatRef (.ofAnchor (parent.anchorState formatRef)) (parent :: older)) :
    LoadedChain formatRef (.ofAnchor (commit.anchorState formatRef)) (commit :: parent :: older)

/-- Retained sections add up within the limit. -/
theorem verifyReplaySections_sum (h : verifyReplaySections limits pendingLimit retainedBytes commit = .ok retained) :
    retained = retainedBytes + commit.retainedLen ∧
      (retainedBytes ≤ limits.maxRetainedBytes → retained ≤ limits.maxRetainedBytes) := by
  unfold verifyReplaySections at h
  unfold V3ReplayCommit.retainedLen
  generalize commit.sectionIndex = descriptors at h ⊢
  induction descriptors generalizing retainedBytes with
  | nil =>
    cases h
    exact ⟨rfl, id⟩
  | cons descriptor rest ih =>
    simp only [foldlM_cons, bind_eq_ok, verifyReplaySection] at h
    obtain ⟨between, hstep, hrest⟩ := h
    have hlen : retainedLen (descriptor :: rest) = descriptor.retainedLen + retainedLen rest := by simp [retainedLen]
    obtain ⟨hsum, hbound⟩ := ih hrest
    rw [hlen, V3SectionDescriptor.retainedLen]
    split at hstep
    · rename_i hkept
      simp only [ok_iff] at hstep
      obtain ⟨-, ⟨-, hfits⟩, -, -, rfl⟩ := hstep
      exact ⟨by rw [if_pos hkept]; omega, fun _ => hbound hfits⟩
    · rename_i hkept
      cases hstep
      exact ⟨by rw [if_neg hkept]; omega, hbound⟩

theorem loadReplayCommits_loaded (formatRef : V3FormatRef)
    (h : loadReplayCommits objects limits pendingLimit remaining load = .ok chain) :
    ∃ head older, chain = head :: older ∧ .ofAnchor (head.anchorState formatRef) = load.next ∧
      LoadedChain formatRef load.next chain ∧ (∀ childTime ∈ load.childPublishTime, head.header.publishTimeMs < childTime) ∧
      chain.length ≤ remaining ∧
      (load.retainedBytes ≤ limits.maxRetainedBytes →
        load.retainedBytes + totalRetainedBytes chain ≤ limits.maxRetainedBytes) := by
  induction remaining generalizing load chain with
  | zero => cases h
  | succ remaining ih =>
    simp only [loadReplayCommits, ok_iff] at h
    obtain ⟨-, _, hread, -, _, -, hsequence, hdigest, _, htime, retained, hretained, h⟩ := h
    simp only [readCommitFactsAt, ok_iff] at hread
    obtain ⟨commit, hfind, hparsed, rfl⟩ := hread
    have hfound := find?_some hfind
    simp only [decide_eq_true_eq] at hfound
    obtain ⟨hsum, hbound⟩ := verifyReplaySections_sum hretained
    have hnext : .ofAnchor (commit.anchorState formatRef) = load.next := by
      show (⟨commit.header.selfRef.sequence, commit.header.selfRef.commitKey, commit.header.bodyDigest,
        commit.versionId⟩ : V3CommitParentRef) = load.next
      rw [hsequence, hfound.1, hdigest, hfound.2]
    have hearlier : ∀ childTime ∈ load.childPublishTime, commit.header.publishTimeMs < childTime := by
      intro childTime hchild
      rw [show load.childPublishTime = some childTime from hchild] at htime
      exact (ensure_eq_ok.mp htime).2.2
    split at h
    · rename_i hroot
      cases h
      refine ⟨commit, [], rfl, hnext, hnext ▸ .root hroot, hearlier, Nat.succ_le_succ (Nat.zero_le _), fun hstart => ?_⟩
      have := hbound hstart
      simp only [totalRetainedBytes, map_cons, map_nil, sum_cons, sum_nil]
      omega
    · rename_i hdelta
      simp only [ok_iff] at h
      obtain ⟨ref, hparent, older, holder, rfl⟩ := h
      obtain ⟨parent, oldest, rfl, rfl, hchain, hlater, hlength, htotal⟩ := ih holder
      simp only [V3ReplayCommit.followsParent, hparent, decide_eq_true_eq] at hparsed
      have hlt := U64.lt_checkedNext hparsed
      refine ⟨commit, _, rfl, hnext, hnext ▸ .child hdelta hparent hlt (hlater _ rfl) hchain, hearlier,
        Nat.succ_le_succ hlength, fun hstart => ?_⟩
      have := htotal (hbound hstart)
      simp only [totalRetainedBytes, map_cons, sum_cons] at this ⊢
      omega

/-- Replay chains are well formed, and loading terminates.  Whatever the backend holds, a chain that is returned leads from
the anchor's exact commit to its only root, and its length and retained bytes keep the limits. -/
theorem replay_chains_well_formed (objects : List V3ReplayCommit) (limits : V3ReplayLimits) (pendingLimit : ℕ)
    (anchor : V3AnchorState) :
    match loadReplayChainWithPendingLimit objects limits pendingLimit anchor with
    | .error _ => True
    | .ok chain => LoadedChain anchor.formatRef (.ofAnchor anchor) chain ∧ chain.length ≤ limits.maxCommits ∧
        totalRetainedBytes chain ≤ limits.maxRetainedBytes := by
  cases h : loadReplayChainWithPendingLimit objects limits pendingLimit anchor with
  | error error => trivial
  | ok chain =>
    simp only [loadReplayChainWithPendingLimit, ok_iff] at h
    obtain ⟨-, commits, hcommits, -, -, -, rfl⟩ := h
    obtain ⟨head, older, -, -, hchain, -, hlength, hretained⟩ := loadReplayCommits_loaded anchor.formatRef hcommits
    exact ⟨hchain, hlength, by simpa using hretained (Nat.zero_le _)⟩

end Rs3.Index
