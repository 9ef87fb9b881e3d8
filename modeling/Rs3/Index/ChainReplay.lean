/-
# Rs3.Index.ChainReplay — what replaying a chain of commits leaves, and what compaction may change in it.

`replay_bounded_chain_to_state_and_runs` and `apply_replay_commit_sections` of `v3/service.rs` apply the runs of a chain
to a state, oldest commit first.  Whatever they accept, the state mirrors the effects of these runs in order.  A window
of runs may be compacted, with the obsolete upserts left out, and replay leaves the same namespace.
-/
import Rs3.Index.CompactionExact
import Rs3.Recovery.Time

namespace Rs3.Index

open List

/-! ## The loops of replay -/

/-- `apply_index_root_to_state`, which reads the runs that a root lists from other commits. -/
abbrev RootReplay :=
  RepositoryState → V3ReplayCommit → ℕ → V3IndexRoot → Except V3FormatError (RepositoryState × List V3IndexRootRunRef)

section

variable (prf : Prf) (keyring : KeyRing) (profile : V3ProviderProfile) (applyIndexRoot : RootReplay)

/-- One section; a root replaces the runs accepted so far in its commit. -/
def applyReplaySection (commit : V3ReplayCommit) (replayed : RepositoryState × List V3IndexRootRunRef)
    (entry : V3StoredSection × ℕ) : Except V3FormatError (RepositoryState × List V3IndexRootRunRef) :=
  match entry.1.content with
  | .payloadPack _ | .recovery => .ok replayed
  | .indexRun sealedRun => do
    ensure (entry.2 < 2 ^ 32) .sectionBounds
    let applied ← applyPackedIndexRun prf keyring profile replayed.1 ⟨commit, entry.2, sealedRun, 0, 0⟩
    return (applied.1, replayed.2 ++ [applied.2])
  | .indexRoot root => applyIndexRoot replayed.1 commit entry.2 root

def applyReplayCommitSections (state : RepositoryState) (commit : V3ReplayCommit) :
    Except V3FormatError (RepositoryState × List V3IndexRootRunRef) :=
  commit.sections.zipIdx.foldlM (applyReplaySection prf keyring profile applyIndexRoot commit) (state, [])

/-- `replay_bounded_chain_to_state_and_runs`, with the commits oldest first. -/
def replayBoundedChain (previousPublishedAtMs : Option Int) (state : RepositoryState) :
    List V3ReplayCommit → Except V3FormatError (RepositoryState × List V3IndexRootRunRef)
  | [] => .ok (state, [])
  | commit :: rest => do
    Recovery.validateParentTime previousPublishedAtMs commit.header.publishTimeMs
    let applied ← applyReplayCommitSections prf keyring profile applyIndexRoot state commit
    let others ← replayBoundedChain (some commit.header.publishTimeMs) applied.1 rest
    return (others.1, applied.2 ++ others.2)

end

/-! ## What an accepted chain has written -/

namespace V3ReplayCommit

variable (commit : V3ReplayCommit)

/-- The run in a section of the commit, if it has one. -/
def runIn (entry : V3StoredSection × ℕ) : List V3PackedIndexRunReplay :=
  match entry.1.content with
  | .indexRun sealedRun => [⟨commit, entry.2, sealedRun, 0, 0⟩]
  | _ => []

def runs : List V3PackedIndexRunReplay := commit.sections.zipIdx.flatMap commit.runIn

/-- What replay relies on in a delta and does not check: two upserts of one version have one key. -/
def Sound (entry : V3StoredSection × ℕ) : Prop :=
  entry.1.content.sectionType ≠ .indexRoot ∧
    ∀ replay ∈ commit.runIn entry, ∀ effects, replay.Effects effects → effects.Pairwise SameVersionSameKey

end V3ReplayCommit

/-- Replay has taken `state`, which stood for `objects`, to `state'`: the runs `replays` mean `effects`, each effect
has the blind key of its path under an enabled key, and generations grow from run to run. -/
structure Replayed (prf : Prf) (keyring : KeyRing) (objects : Live) (state : RepositoryState)
    (replays : List V3PackedIndexRunReplay) (effects : List (List IndexEffect)) (state' : RepositoryState) : Prop where
  meaning : Forall₂ V3PackedIndexRunReplay.Effects replays effects
  tracks : Tracks prf keyring state' (objects.after effects.flatten)
  verified : ∀ effect ∈ effects.flatten, effect.Verified prf keyring ∧
    state.nextSequence < effect.generation ∧ effect.generation ≤ state'.nextSequence
  newer : effects.Pairwise fun run later => ∀ a ∈ run, ∀ b ∈ later, a.generation < b.generation
  le : state.nextSequence ≤ state'.nextSequence

section

variable {prf : Prf} {keyring : KeyRing} {objects : Live} {state state' state'' : RepositoryState}
  {applyIndexRoot : RootReplay}

theorem Replayed.refl (h : Tracks prf keyring state objects) :
    Replayed prf keyring objects state [] [] state :=
  ⟨.nil, h, by simp, .nil, Nat.le_refl _⟩

theorem Replayed.trans (h : Replayed prf keyring objects state replays effects state')
    (h' : Replayed prf keyring (objects.after effects.flatten) state' replays' effects' state'') :
    Replayed prf keyring objects state (replays ++ replays') (effects ++ effects') state'' where
  meaning := rel_append h.meaning h'.meaning
  tracks := by
    rw [flatten_append, Live.after, KeyedLog.replay_append]
    exact h'.tracks
  verified := by
    rw [flatten_append, forall_mem_append]
    constructor
    · exact fun effect he => (h.verified effect he).imp_right fun hbounds => ⟨hbounds.1, Nat.le_trans hbounds.2 h'.le⟩
    · exact fun effect he => (h'.verified effect he).imp_right (And.imp_left (Nat.lt_of_le_of_lt h.le))
  newer := by
    refine pairwise_append.mpr ⟨h.newer, h'.newer, fun run hrun later hlater a ha b hb => ?_⟩
    have hle := (h.verified a (mem_flatten.mpr ⟨run, hrun, ha⟩)).2.2
    exact Nat.lt_of_le_of_lt hle (h'.verified b (mem_flatten.mpr ⟨later, hlater, hb⟩)).2.1
  le := Nat.le_trans h.le h'.le

theorem replayed_section (htracks : Tracks prf keyring replayed.1 objects) (hsound : commit.Sound entry)
    (h : applyReplaySection prf keyring profile applyIndexRoot commit replayed entry = .ok replayed') :
    ∃ effects, Replayed prf keyring objects replayed.1 (commit.runIn entry) effects replayed'.1 := by
  obtain ⟨⟨descriptor, content⟩, ordinal⟩ := entry
  obtain ⟨hdelta, hruns⟩ := hsound
  cases content with
  | payloadPack _ | recovery =>
    cases h
    exact ⟨[], .refl htracks⟩
  | indexRoot root => exact absurd rfl hdelta
  | indexRun sealedRun =>
    simp only [applyReplaySection, ok_iff] at h
    obtain ⟨-, ⟨state', run⟩, hrun, rfl⟩ := h
    obtain ⟨effects, heffects, hlt, hverified, hkept⟩ := applyPackedIndexRun_ok htracks hrun
    refine ⟨[effects], .cons heffects .nil, ?_, ?_, pairwise_singleton _ _, Nat.le_of_lt hlt⟩
    · rw [flatten_singleton]
      exact hkept (hruns _ (mem_singleton.mpr rfl) effects heffects)
    · rwa [flatten_singleton]

theorem replayed_sections {entries : List (V3StoredSection × ℕ)}
    (htracks : Tracks prf keyring replayed.1 objects) (hsound : ∀ entry ∈ entries, commit.Sound entry)
    (h : entries.foldlM (applyReplaySection prf keyring profile applyIndexRoot commit) replayed = .ok replayed') :
    ∃ effects, Replayed prf keyring objects replayed.1 (entries.flatMap commit.runIn) effects replayed'.1 := by
  induction entries generalizing replayed objects with
  | nil =>
    cases h
    exact ⟨[], .refl htracks⟩
  | cons entry entries ih =>
    rw [foldlM_cons, bind_eq_ok] at h
    obtain ⟨replayed₁, hfirst, hrest⟩ := h
    rw [forall_mem_cons] at hsound
    obtain ⟨effects, hreplayed⟩ := replayed_section htracks hsound.1 hfirst
    obtain ⟨others, hothers⟩ := ih hreplayed.tracks hsound.2 hrest
    exact ⟨effects ++ others, hreplayed.trans hothers⟩

/-- **An accepted chain of deltas is mirrored.**  From a state that stands for `objects`, such as an empty one or the
one that a root leaves, the state after the chain stands for `objects` with the effects of all its runs written in
order. -/
theorem replayed_chain_mirrors {profile : V3ProviderProfile} {previous : Option Int} {commits : List V3ReplayCommit}
    {runs : List V3IndexRootRunRef} (htracks : Tracks prf keyring state objects)
    (hsound : ∀ commit ∈ commits, ∀ entry ∈ commit.sections.zipIdx, commit.Sound entry)
    (h : replayBoundedChain prf keyring profile applyIndexRoot previous state commits = .ok (state', runs)) :
    ∃ effects, Replayed prf keyring objects state (commits.flatMap V3ReplayCommit.runs) effects state' := by
  induction commits generalizing previous state objects runs with
  | nil =>
    cases h
    exact ⟨[], .refl htracks⟩
  | cons commit commits ih =>
    simp only [replayBoundedChain, applyReplayCommitSections, ok_iff] at h
    obtain ⟨_, -, applied, hcommit, ⟨_, _⟩, hrest, ⟨⟩⟩ := h
    rw [forall_mem_cons] at hsound
    obtain ⟨effects, hreplayed⟩ := replayed_sections htracks hsound.1 hcommit
    obtain ⟨others, hothers⟩ := ih hreplayed.tracks hsound.2 hrest
    exact ⟨effects ++ others, hreplayed.trans hothers⟩

/-- The chain of one commit with one run, replayed into an empty state. -/
def deleteThenPutChain : Except V3FormatError (RepositoryState × List V3IndexRootRunRef) :=
  replayBoundedChain textPrf oneKeyRing .dev (fun _ _ _ _ => .error .invalidIndexRun) none .default [deleteThenPut.commit]

theorem replayed_chain_mirrors_deleteThenPut : ∃ state' runs, deleteThenPutChain = .ok (state', runs) ∧
    ∃ effects, Replayed textPrf oneKeyRing (fun _ => none) .default [deleteThenPut] effects state' := by
  have hok : deleteThenPutChain.isOk = true := by decide +kernel
  rcases hreplay : deleteThenPutChain with _ | ⟨state', runs⟩
  · rw [hreplay] at hok
    cases hok
  · refine ⟨state', runs, rfl, replayed_chain_mirrors ⟨represents_default, by simp⟩ ?_ hreplay⟩
    simp only [forall_mem_singleton]
    rintro entry (_ | ⟨_, ⟨⟩⟩)
    refine ⟨by decide, ?_⟩
    rintro replay (_ | ⟨_, ⟨⟩⟩) effects ⟨selfPack, ⟨⟩, ⟨⟩⟩
    simp [SameVersionSameKey]

end

/-! ## Replaying a compacted window -/

open KeyedLog (lastFor lastFor_eq_none mem_of_lastFor)

/-- What a resolved mutation leaves under its key. -/
def ResolvedMutation.left (resolved : ResolvedMutation) : Option ResolvedMutation :=
  match resolved.mutation with
  | .upsert _ => some resolved
  | .tombstone _ => none

/-- The upserts that a log of resolved mutations leaves, each with its carrier by value. -/
def replayResolved : List ResolvedMutation → BlindIndexKey → Option ResolvedMutation :=
  KeyedLog.replay ResolvedMutation.blindKey ResolvedMutation.left fun _ => none

theorem mem_of_pruneObsolete (h : pruneObsolete currentNamespace winners = .ok kept) (hmem : winner ∈ winners) :
    winner ∈ kept ∨ stillAccepted currentNamespace winner = .ok false := by
  induction winners generalizing kept with
  | nil => cases hmem
  | cons first rest ih =>
    simp only [pruneObsolete, ok_iff] at h
    obtain ⟨stays, hstays, others, hothers, rfl⟩ := h
    rcases mem_cons.mp hmem with rfl | hmem
    · cases stays with
      | true => exact .inl mem_cons_self
      | false => exact .inr hstays
    · refine (ih hothers hmem).imp_left fun hin => ?_
      split
      · exact mem_cons_of_mem first hin
      · exact hin

/-- Only an upsert that the namespace does not show is dropped. -/
theorem not_stillAccepted {names : NamespaceIndex} (h : stillAccepted (some names) winner = .ok false) :
    winner.left = some winner ∧ (names.head winner.blindKey).map NamespaceEntry.generation ≠ some winner.generation := by
  obtain ⟨u | t, _⟩ := winner
  · refine ⟨rfl, fun hshown => ?_⟩
    obtain ⟨entry, hhead, hgen⟩ := Option.map_eq_some_iff.mp hshown
    simp only [stillAccepted, show names.head u.blindKey = some entry from hhead] at h
    rw [if_neg (hgen ▸ Nat.lt_irrefl _)] at h
    split at h <;> cases h
  · cases h

/-- **Compacting a window keeps the replayed namespace**, whatever was written before and after it.  The last mutation
of a key within the window has to be its newest, and the namespace that prunes has to show what the whole log leaves;
then the output runs, replayed in place of the window, leave the same upserts under every key. -/
theorem compaction_keeps_replay {limits : IndexRunLimits} {names : NamespaceIndex} {output : List IndexRun}
    {sources : List PackedCompactionSourceRun} {window : List (List ResolvedMutation)}
    {before after : List ResolvedMutation} (h : planPackedRunCompaction limits (some names) sources = .ok output)
    (hwindow : sources.mapM (fun source => source.run.mutations.mapM source.resolve) = .ok window)
    (hnewest : ∀ m ∈ window.flatten, ∀ last,
      lastFor ResolvedMutation.blindKey m.blindKey window.flatten = some last → m.generation ≤ last.generation)
    (hnames : ∀ k, (names.head k).map NamespaceEntry.generation =
      (replayResolved (before ++ window.flatten ++ after) k).map ResolvedMutation.generation) :
    ∃ shards, output.mapM IndexRun.resolved = .ok shards ∧
      replayResolved (before ++ shards.flatten ++ after) = replayResolved (before ++ window.flatten ++ after) := by
  obtain ⟨_, kept, hwinners, hkept, ⟨shards, hgroups, hbuilt⟩, -⟩ := planPackedRunCompaction_eq_ok h
  simp only [planWinners, ok_iff] at hwinners
  obtain ⟨-, planned, hsources, -, rfl⟩ := hwinners
  obtain ⟨seen, hseen, hselected⟩ := Selected.empty.sources hsources
  obtain rfl := Except.ok.inj (hseen.symm.trans hwindow)
  rw [nil_append] at hselected
  have hwinner := hselected.toList.2
  have hmem (m : ResolvedMutation) : m ∈ (shards.map List.flatten).flatten ↔ m ∈ kept := by
    rw [← flatten_flatten, hgroups, equalGenerationGroups, flatten_splitBy]
    exact mem_insertionSort _
  have hget (m : ResolvedMutation) (hm : m ∈ kept) : planned.1[m.blindKey]? = some m :=
    (hwinner m).mp (pruneObsolete_subset hkept hm)
  -- the winner of a key is the last mutation of the window with that key
  have hlast (m : ResolvedMutation) (hm : planned.1[m.blindKey]? = some m) :
      lastFor ResolvedMutation.blindKey m.blindKey seen.flatten = some m := by
    have hmseen := (hselected.source _ _ hm).1
    rcases ha : lastFor ResolvedMutation.blindKey m.blindKey seen.flatten with _ | a
    · exact absurd rfl (lastFor_eq_none.mp ha m hmseen)
    · obtain ⟨haseen, hkey⟩ := mem_of_lastFor ha
      obtain ⟨winner, hw, hle, hsame⟩ := hselected.newest a haseen
      rw [hkey, hm] at hw
      cases hw
      rw [hsame (U64.ext (Nat.le_antisymm hle (hnewest m hmseen a ha)))]
  refine ⟨shards.map List.flatten, ?_, KeyedLog.replay_compact ?_ fun k a ha => ?_⟩
  · refine mapM_of_mapM (mapM_eq_ok.mpr hbuilt) fun shard hshard run hrun => resolved_of_build hrun fun m hm => ?_
    have hm := (hmem m).mp (mem_flatten.mpr ⟨_, mem_map_of_mem hshard, hm⟩)
    obtain ⟨list, hlist, hm⟩ := mem_flatten.mp (hselected.source _ _ (hget m hm)).1
    obtain ⟨source, -, hrun⟩ := (mem_of_mapM hseen).1 list hlist
    obtain ⟨mutation, -, hresolve⟩ := (mem_of_mapM hrun).1 m hm
    exact ⟨source, mutation, hresolve⟩
  · exact fun a ha => hlast a (hget a ((hmem a).mp ha))
  · obtain ⟨haseen, rfl⟩ := mem_of_lastFor ha
    obtain ⟨winner, hw, -⟩ := hselected.newest a haseen
    have hkey := (hselected.source _ _ hw).2
    rw [← hkey] at hw ha
    cases ha.symm.trans (hlast winner hw)
    refine (mem_of_pruneObsolete hkept ((hwinner a).mpr hw)).imp (hmem a).mpr fun hdropped hshown => ?_
    obtain ⟨hleft, hne⟩ := not_stillAccepted hdropped
    refine hne ?_
    rw [hnames, show replayResolved _ a.blindKey = a.left from hshown, hleft]
    rfl

/-- A window with one put, in a namespace that shows nothing. -/
def deletedPlan : Except V3FormatError (List IndexRun) :=
  planPackedRunCompaction .default (some .new) [sharedPackSource 6 10 onePath 1]

/-- The deletion after the window. -/
def laterDelete : ResolvedMutation := ⟨.tombstone ⟨0, .ofRaw (Vector.replicate 32 10), oneKey, onePath, 2⟩, none⟩

theorem compaction_keeps_replay_deleted : ∃ output shards, deletedPlan = .ok output ∧
    output.mapM IndexRun.resolved = .ok shards ∧ replayResolved ([] ++ shards.flatten ++ [laterDelete]) = fun _ => none := by
  have hok : deletedPlan.isOk = true := by decide +kernel
  obtain ⟨put, hwindow, hkey⟩ : ∃ put : ResolvedMutation, [sharedPackSource 6 10 onePath 1].mapM
      (fun source => source.run.mutations.mapM source.resolve) = .ok [[put]] ∧ put.blindKey = laterDelete.blindKey :=
    ⟨_, rfl, rfl⟩
  have hgone : replayResolved ([] ++ [[put]].flatten ++ [laterDelete]) = fun _ => none := by
    show Function.update (Function.update (fun _ => none) put.blindKey put.left) laterDelete.blindKey none = _
    rw [hkey, Function.update_idem, Function.update_eq_self]
  rcases hplan : deletedPlan with _ | output
  · rw [hplan] at hok
    cases hok
  · obtain ⟨shards, hshards, hsame⟩ := compaction_keeps_replay hplan hwindow (by simp [lastFor, U64.le_def]) fun k => by
      rw [hgone]
      rfl
    exact ⟨output, shards, rfl, hshards, hsame.trans hgone⟩

end Rs3.Index
