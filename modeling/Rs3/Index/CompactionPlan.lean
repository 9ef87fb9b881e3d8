/-
# Rs3.Index.CompactionPlan — which mutation of a key survives.

The first half of `plan_packed_run_compaction_counted` in `v3/service/packed_compaction.rs`: every mutation of the
source runs is resolved to an exact carrier, and for each blind key the one of greatest generation is kept.  Replay
(`applyPackedIndexRun`) never compares generations inside a run: the last mutation of a key in ordinal order decides
its head.  The two agree on the runs in which the last mutation of each key is also its newest.
-/
import Rs3.Index.RunReplay

namespace Rs3.Index

open List IndexMutation

open KeyedLog (lastFor)
open Repository (V3CommitHeader)

/-! ## Resolving -/

/-- One source run and the exact container that held its own pack. -/
structure PackedCompactionSourceRun where
  run : IndexRun
  selfPackContainer : Option IndexRunContainer
  deriving DecidableEq

inductive ResolvedCarrier where
  | pack (container : IndexRunContainer)
  | standaloneStream (container : IndexRunStandaloneStreamContainer)
  deriving DecidableEq

/-- A mutation that no longer depends on the run it came from. -/
structure ResolvedMutation where
  mutation : IndexMutation
  carrier : Option ResolvedCarrier
  deriving DecidableEq

namespace ResolvedMutation

def generation (resolved : ResolvedMutation) : Sequence := resolved.mutation.generation

def blindKey (resolved : ResolvedMutation) : BlindIndexKey := resolved.mutation.blindKey

end ResolvedMutation

def validateSelfContainers (source : PackedCompactionSourceRun) : Except V3FormatError Unit :=
  match source.run.selfPack, source.selfPackContainer with
  | none, none => .ok ()
  | some pack, some container =>
    ensure (pack.packId = container.packId ∧ pack.contentKeyId = container.contentKeyId ∧
      pack.storedLen = container.packSectionLen ∧ pack.recordCount = container.packRecordCount) .invalidIndexRun
  | _, _ => .error .invalidIndexRun

section

variable (packContainers : List IndexRunContainer) (standaloneStreamContainers : List IndexRunStandaloneStreamContainer)
  (selfPackContainer : Option IndexRunContainer)

/-- The pointer of an upsert with its container named by value; the ordinal that is left means nothing. -/
def resolvePointer : IndexPayloadPointer → Except V3FormatError (IndexPayloadPointer × Option ResolvedCarrier)
  | .empty => .ok (.empty, none)
  | .selfPack record => do
    let container ← okOr selfPackContainer .invalidIndexRun
    return (.externalPack 0 record, some (.pack container))
  | .externalPack containerOrdinal record => do
    let container ← okOr packContainers[containerOrdinal]? .invalidIndexRun
    return (.externalPack 0 record, some (.pack container))
  | .externalStandaloneStream containerOrdinal => do
    let container ← okOr standaloneStreamContainers[containerOrdinal]? .invalidIndexRun
    return (.externalStandaloneStream 0, some (.standaloneStream container))

def resolveMutation : IndexMutation → Except V3FormatError ResolvedMutation
  | .upsert u => do
    let resolved ← resolvePointer packContainers standaloneStreamContainers selfPackContainer u.payload
    return ⟨.upsert { u with mutationOrdinal := 0, payload := resolved.1 }, resolved.2⟩
  | .tombstone t => .ok ⟨.tombstone { t with mutationOrdinal := 0 }, none⟩

end

/-! ## Winners -/

abbrev Winners := Std.ExtTreeMap BlindIndexKey ResolvedMutation

def selectWinner (winners : Winners) (resolved : ResolvedMutation) : Except V3FormatError Winners :=
  match winners[resolved.blindKey]? with
  | none => .ok (winners.insert resolved.blindKey resolved)
  | some current =>
    if current.generation < resolved.generation then .ok (winners.insert resolved.blindKey resolved)
    else if resolved.generation = current.generation then do
      ensure (resolved = current) .invalidIndexRun
      return winners
    else .ok winners

/-- The standalone containers met so far, by object and version. -/
abbrev StandaloneCarriers := List IndexRunStandaloneStreamContainer

/-- An object version met again has to repeat its facts. -/
def planStandaloneCarrier (carriers : StandaloneCarriers) (container : IndexRunStandaloneStreamContainer) :
    Except V3FormatError (StandaloneCarriers × IndexRunStandaloneStreamContainer) :=
  match carriers.find? fun existing =>
      existing.objectId = container.objectId ∧ existing.versionId = container.versionId with
  | some existing => if existing ≠ container then .error .invalidIndexRun else .ok (carriers, existing)
  | none => .ok (carriers ++ [container], container)

def planStandaloneCarriers (carriers : StandaloneCarriers) : List IndexRunStandaloneStreamContainer →
    Except V3FormatError (StandaloneCarriers × List IndexRunStandaloneStreamContainer)
  | [] => .ok (carriers, [])
  | container :: rest => do
    let first ← planStandaloneCarrier carriers container
    let others ← planStandaloneCarriers first.1 rest
    return (others.1, first.2 :: others.2)

section

variable (encodes : IndexRun → Bool)

/-- One round of the source loop; `encodes` says whether `encode_index_run_frames` accepts a run. -/
def planSource (planned : Winners × StandaloneCarriers) (source : PackedCompactionSourceRun) :
    Except V3FormatError (Winners × StandaloneCarriers) := do
  ensure (encodes source.run) .invalidIndexRun
  validateSelfContainers source
  let carriers ← planStandaloneCarriers planned.2 source.run.standaloneStreamContainers
  let winners ← source.run.mutations.foldlM (fun winners mutation => do
    let resolved ← resolveMutation source.run.containers carriers.2 source.selfPackContainer mutation
    selectWinner winners resolved) planned.1
  return (winners, carriers.1)

/-- The winners of some source runs, up to the point where the planner starts to prune and to shard them. -/
def planWinners (sources : List PackedCompactionSourceRun) : Except V3FormatError Winners := do
  ensure (sources ≠ []) .invalidIndexRun
  let planned ← sources.foldlM (planSource encodes) (∅, [])
  ensure (¬ planned.1.isEmpty) .invalidIndexRun
  return planned.1

end

/-! ## What replay keeps -/

def IndexMutation.withoutOrdinal : IndexMutation → IndexMutation
  | .upsert u => .upsert { u with mutationOrdinal := 0 }
  | .tombstone t => .tombstone { t with mutationOrdinal := 0 }

/-- The head that a mutation leaves under its key. -/
def ReplayContext.Shows (prf : Prf) (keyring : KeyRing) (context : ReplayContext) (head : Option NamespaceEntry) :
    IndexMutation → Prop
  | .upsert u => ∃ payloadRef, context.payloadRef u.payload = .ok payloadRef ∧
      head = some (replayEntry prf keyring context u payloadRef)
  | .tombstone _ => head = none

variable {head : Option NamespaceEntry} {a b mutation : IndexMutation} {state state' : RepositoryState}
  {mutations : List IndexMutation} {replay : V3PackedIndexRunReplay}

section

variable {prf : Prf} {keyring : KeyRing} {context : ReplayContext}

/-- Neither the payload of an entry nor its facts depend on the ordinal. -/
theorem ReplayContext.Shows.congr (h : context.Shows prf keyring head a) (hab : a.withoutOrdinal = b.withoutOrdinal) :
    context.Shows prf keyring head b := by
  rcases a with u | t <;> rcases b with u' | t' <;> simp only [withoutOrdinal, reduceCtorEq] at hab
  · simp only [upsert.injEq, IndexUpsert.mk.injEq, true_and] at hab
    obtain ⟨hblind, hkey, hpath, hgen, hpayload, hlen, hmod, hret, hhold, -, -⟩ := hab
    obtain ⟨payloadRef, hpointer, hhead⟩ := h
    refine ⟨payloadRef, hpayload ▸ hpointer, hhead.trans ?_⟩
    simp only [replayEntry, hblind, hkey, hpath, hgen, hlen, hmod, hret, hhold]
  · exact h

/-- One step: the key of the mutation shows it, every other key keeps its head. -/
theorem applyMutation_head (h : applyMutation prf keyring context state mutation = .ok state') :
    context.Shows prf keyring (state'.namespaceIndex.head mutation.blindKey) mutation ∧
      ∀ k, mutation.blindKey ≠ k → state'.namespaceIndex.head k = state.namespaceIndex.head k := by
  rcases mutation with u | t
  · simp only [applyMutation, ok_iff] at h
    obtain ⟨_, -, payloadRef, hpayload, rfl⟩ := h
    simp only [RepositoryState.upsertObject_namespaceIndex, NamespaceIndex.head_upsert]
    exact ⟨⟨payloadRef, hpayload, if_pos rfl⟩, fun k hk => if_neg hk⟩
  · simp only [applyMutation, ok_iff] at h
    obtain ⟨_, -, rfl⟩ := h
    simp only [RepositoryState.removeNamespaceEntry_namespaceIndex, NamespaceIndex.head_remove]
    exact ⟨if_pos rfl, fun k hk => if_neg hk⟩

/-- The whole loop: the last mutation of a key decides its head, whatever the state was before. -/
theorem applyMutations_head
    (h : mutations.foldlM (applyMutation prf keyring context) state = .ok state') (k : BlindIndexKey) :
    (lastFor blindKey k mutations = none → state'.namespaceIndex.head k = state.namespaceIndex.head k) ∧
    ∀ m, lastFor blindKey k mutations = some m → context.Shows prf keyring (state'.namespaceIndex.head k) m := by
  induction mutations generalizing state with
  | nil =>
    cases h
    simp [lastFor]
  | cons first rest ih =>
    rw [foldlM_cons, bind_eq_ok] at h
    obtain ⟨state₁, hstep, hloop⟩ := h
    obtain ⟨hshows, hother⟩ := applyMutation_head hstep
    obtain ⟨hnone, hsome⟩ := ih hloop
    constructor
    · intro hlast
      simp only [lastFor, Option.or_eq_none_iff, ite_eq_right_iff, reduceCtorEq, imp_false] at hlast
      rw [hnone hlast.1, hother k hlast.2]
    · intro m hlast
      simp only [lastFor, Option.or_eq_some_iff] at hlast
      rcases hlast with hlast | ⟨hrest, hfirst⟩
      · exact hsome m hlast
      · -- nothing after the first mutation touches the key
        by_cases hk : first.blindKey = k
        · rw [if_pos hk, Option.some.injEq] at hfirst
          subst hfirst hk
          rw [hnone hrest]
          exact hshows
        · rw [if_neg hk] at hfirst
          cases hfirst

end

theorem applyPackedIndexRun_head (h : applyPackedIndexRun prf keyring profile state replay = .ok (state', runRef)) :
    ∃ selfPack, selfPackCarrier replay.commit replay.run.selfPack = .ok selfPack ∧
      ∀ m ∈ replay.run.mutations, lastFor blindKey m.blindKey replay.run.mutations = some m →
        (replay.context selfPack).Shows prf keyring (state'.namespaceIndex.head m.blindKey) m := by
  simp only [applyPackedIndexRun, ok_iff, Prod.mk.injEq] at h
  obtain ⟨_, -, _, -, receipts, -, _, -, _, -, acceptedRun, -, selfPack, hself, interned, hintern, applied, happly, rfl,
    -⟩ := h
  refine ⟨selfPack, hself, fun m _ hlast => ?_⟩
  have hhead := (applyMutations_head happly m.blindKey).2 m hlast
  rw [(internStandaloneStreamCarriers_eq_ok hintern).1] at hhead
  exact hhead

/-! ## What the planner keeps -/

section

variable {packContainers : List IndexRunContainer} {standaloneStreamContainers : List IndexRunStandaloneStreamContainer}
  {selfPackContainer : Option IndexRunContainer}

variable {resolved : ResolvedMutation} {winners winners' : Winners} {seen : List ResolvedMutation}

/-- Resolving keeps the key and the generation, and forgets the ordinal. -/
theorem resolveMutation_facts
    (h : resolveMutation packContainers standaloneStreamContainers selfPackContainer mutation = .ok resolved) :
    resolved.blindKey = mutation.blindKey ∧ resolved.generation = mutation.generation := by
  rcases mutation with u | t
  · simp only [resolveMutation, ok_iff] at h
    obtain ⟨_, -, rfl⟩ := h
    exact ⟨rfl, rfl⟩
  · cases h
    exact ⟨rfl, rfl⟩

theorem resolveMutation_congr (h : a.withoutOrdinal = b.withoutOrdinal) :
    resolveMutation packContainers standaloneStreamContainers selfPackContainer a =
      resolveMutation packContainers standaloneStreamContainers selfPackContainer b := by
  have hforget (m : IndexMutation) :
      resolveMutation packContainers standaloneStreamContainers selfPackContainer m =
        resolveMutation packContainers standaloneStreamContainers selfPackContainer m.withoutOrdinal := by
    cases m <;> rfl
  rw [hforget a, hforget b, h]

/-- After the mutations `seen`, every winner is one of them and none of them is newer than its key's winner. -/
structure Winning (resolve : IndexMutation → Except V3FormatError ResolvedMutation) (seen : List IndexMutation)
    (winners : Winners) : Prop where
  source : ∀ (k : BlindIndexKey) (resolved : ResolvedMutation), winners[k]? = some resolved →
    ∃ m ∈ seen, m.blindKey = k ∧ resolve m = .ok resolved
  newest : ∀ m ∈ seen, ∃ resolved, winners[m.blindKey]? = some resolved ∧ m.generation ≤ resolved.generation

/-- What one round does: the winner of the key stays, or gives way to a newer mutation. -/
theorem selectWinner_cases (h : selectWinner winners resolved = .ok winners') :
    (winners' = winners ∧ ∃ current, winners[resolved.blindKey]? = some current ∧
      resolved.generation ≤ current.generation ∧ (resolved.generation = current.generation → resolved = current)) ∨
    (winners' = winners.insert resolved.blindKey resolved ∧
      ∀ current, winners[resolved.blindKey]? = some current → current.generation < resolved.generation) := by
  unfold selectWinner at h
  split at h
  case h_1 hnone =>
    cases h
    exact .inr ⟨rfl, fun current hcurrent => by simp [hnone] at hcurrent⟩
  case h_2 current hcurrent =>
    split at h
    case isTrue hlt =>
      cases h
      exact .inr ⟨rfl, fun other hother => Option.some.inj (hcurrent.symm.trans hother) ▸ hlt⟩
    case isFalse hlt =>
      have hle : resolved.generation ≤ current.generation := U64.le_def.mpr (Nat.not_lt.mp hlt)
      split at h
      case isTrue =>
        simp only [ok_iff] at h
        exact .inl ⟨h.2.symm, current, hcurrent, hle, fun _ => h.1⟩
      case isFalse hne =>
        cases h
        exact .inl ⟨rfl, current, hcurrent, hle, fun heq => absurd heq hne⟩

/-- After the resolved mutations `seen`, every winner is one of them, and each of them is older than its key's winner or
is that winner. -/
structure Selected (seen : List ResolvedMutation) (winners : Winners) : Prop where
  source : ∀ (k : BlindIndexKey) (resolved : ResolvedMutation), winners[k]? = some resolved →
    resolved ∈ seen ∧ resolved.blindKey = k
  newest : ∀ resolved ∈ seen, ∃ winner, winners[resolved.blindKey]? = some winner ∧
    resolved.generation ≤ winner.generation ∧ (resolved.generation = winner.generation → resolved = winner)

theorem Selected.empty : Selected [] ∅ := ⟨fun k resolved hk => by simp at hk, by simp⟩

/-- One step: the winners of `seen` and one more mutation. -/
theorem Selected.select (h : Selected seen winners) (hselect : selectWinner winners resolved = .ok winners') :
    Selected (seen ++ [resolved]) winners' := by
  have hmore {k : BlindIndexKey} {r : ResolvedMutation} (hk : winners[k]? = some r) :
      r ∈ seen ++ [resolved] ∧ r.blindKey = k := (h.source k r hk).imp_left (mem_append_left _)
  obtain ⟨rfl, hcurrent⟩ | ⟨rfl, hnewer⟩ := selectWinner_cases hselect
  · refine ⟨fun k r hk => hmore hk, fun r hr => ?_⟩
    rcases mem_append.mp hr with hr | hr
    · exact h.newest r hr
    · rw [mem_singleton.mp hr]
      exact hcurrent
  · have hget (k : BlindIndexKey) : (winners.insert resolved.blindKey resolved)[k]? =
        if resolved.blindKey = k then some resolved else winners[k]? := by
      rw [Std.ExtTreeMap.getElem?_insert]
      simp only [Std.compare_eq_iff_eq]
    refine ⟨fun k r hk => ?_, fun r hr => ?_⟩
    · rw [hget] at hk
      split at hk
      · rename_i hkey
        cases hk
        exact ⟨by simp, hkey⟩
      · exact hmore hk
    · rw [hget]
      rcases mem_append.mp hr with hr | hr
      · obtain ⟨winner, hwinner, hle, hsame⟩ := h.newest r hr
        split
        · -- the new mutation replaces the winner, which was not older than this one
          rename_i hkey
          have hlt := hnewer winner (hkey ▸ hwinner)
          rw [U64.lt_def] at hlt
          rw [U64.le_def] at hle
          refine ⟨resolved, rfl, U64.le_def.mpr (by omega), fun heq => ?_⟩
          rw [heq] at hle
          omega
        · exact ⟨winner, hwinner, hle, hsame⟩
      · obtain rfl := mem_singleton.mp hr
        exact ⟨r, if_pos rfl, U64.le_def.mpr (Nat.le_refl _), fun _ => rfl⟩

theorem Selected.loop {resolve : IndexMutation → Except V3FormatError ResolvedMutation} (h : Selected seen winners)
    (hloop : mutations.foldlM (fun winners mutation => do
      let resolved ← resolve mutation
      selectWinner winners resolved) winners = .ok winners') :
    ∃ resolved, mutations.mapM resolve = .ok resolved ∧ Selected (seen ++ resolved) winners' := by
  induction mutations generalizing seen winners with
  | nil =>
    cases hloop
    exact ⟨[], rfl, by rwa [append_nil]⟩
  | cons first rest ih =>
    simp only [foldlM_cons, bind_eq_ok] at hloop
    obtain ⟨winners₁, ⟨resolved, hresolve, hselect⟩, hrest⟩ := hloop
    obtain ⟨others, hothers, hselected⟩ := ih (h.select hselect) hrest
    refine ⟨resolved :: others, ?_, by rwa [append_assoc, singleton_append] at hselected⟩
    rw [mapM_cons, hresolve, hothers]
    rfl

theorem Selected.winning (h : Selected seen winners)
    (hseen : mutations.mapM (resolveMutation packContainers standaloneStreamContainers selfPackContainer) = .ok seen) :
    Winning (resolveMutation packContainers standaloneStreamContainers selfPackContainer) mutations winners := by
  obtain ⟨hback, hforth⟩ := mem_of_mapM hseen
  constructor
  · intro k resolved hk
    obtain ⟨hmem, rfl⟩ := h.source k resolved hk
    obtain ⟨m, hm, hresolve⟩ := hback resolved hmem
    exact ⟨m, hm, (resolveMutation_facts hresolve).1.symm, hresolve⟩
  · intro m hm
    obtain ⟨resolved, hmem, hresolve⟩ := hforth m hm
    obtain ⟨hkey, hgen⟩ := resolveMutation_facts hresolve
    obtain ⟨winner, hwinner, hle, -⟩ := h.newest resolved hmem
    exact ⟨winner, hkey ▸ hwinner, hgen ▸ hle⟩

end

theorem planStandaloneCarriers_snd {carriers : StandaloneCarriers} {containers : List IndexRunStandaloneStreamContainer}
    {planned : StandaloneCarriers × List IndexRunStandaloneStreamContainer}
    (h : planStandaloneCarriers carriers containers = .ok planned) : planned.2 = containers := by
  induction containers generalizing carriers planned with
  | nil =>
    cases h
    rfl
  | cons container rest ih =>
    simp only [planStandaloneCarriers, ok_iff] at h
    obtain ⟨first, hfirst, others, hothers, rfl⟩ := h
    have hsame : first.2 = container := by
      unfold planStandaloneCarrier at hfirst
      split at hfirst
      · split at hfirst
        · cases hfirst
        · rename_i hne
          cases hfirst
          exact not_not.mp hne
      · cases hfirst
        rfl
    simp only [hsame, ih hothers]

theorem planWinners_single {encodes : IndexRun → Bool} (h : planWinners encodes [source] = .ok winners) :
    Winning (resolveMutation source.run.containers source.run.standaloneStreamContainers source.selfPackContainer)
      source.run.mutations winners := by
  simp only [planWinners, foldlM_cons, foldlM_nil, planSource, ok_iff] at h
  obtain ⟨-, planned, ⟨_, ⟨-, _, -, carriers, hcarriers, _, hloop, rfl⟩, rfl⟩, -, rfl⟩ := h
  rw [planStandaloneCarriers_snd hcarriers] at hloop
  obtain ⟨seen, hseen, hselected⟩ := Selected.empty.loop hloop
  exact hselected.winning hseen

/-! ## Agreement -/

/-- The newest mutation of a key, as a relation. -/
def IsNewest (mutations : List IndexMutation) (winner : IndexMutation) : Prop :=
  winner ∈ mutations ∧ ∀ m ∈ mutations, m.blindKey = winner.blindKey → m.generation ≤ winner.generation

instance (mutations : List IndexMutation) (winner : IndexMutation) : Decidable (IsNewest mutations winner) := by
  unfold IsNewest
  infer_instance

/-- Mutations of one key and generation differ in their ordinal only. -/
def OnePerGeneration (mutations : List IndexMutation) : Prop :=
  ∀ a ∈ mutations, ∀ b ∈ mutations, a.blindKey = b.blindKey → a.generation = b.generation →
    a.withoutOrdinal = b.withoutOrdinal

def IndexMutation.isTombstone : IndexMutation → Bool
  | .upsert _ => false
  | .tombstone _ => true

/-- The last mutation of each key is its newest, unless both delete the key. -/
def NewestLast (mutations : List IndexMutation) : Prop :=
  ∀ winner, IsNewest mutations winner → ∀ m, lastFor blindKey winner.blindKey mutations = some m →
    m.generation = winner.generation ∨ m.isTombstone = true ∧ winner.isTombstone = true

/-- What the highest generation of each key decides in an accepted run: it is one mutation, the head after replay is
what that mutation says, and the planner keeps that mutation. -/
structure HighestWins (prf : Prf) (keyring : KeyRing) (context : ReplayContext) (heads : NamespaceIndex)
    (run : IndexRun) : Prop where
  one : OnePerGeneration run.mutations
  shown : ∀ winner, IsNewest run.mutations winner → context.Shows prf keyring (heads.head winner.blindKey) winner
  planned : ∀ winner, IsNewest run.mutations winner →
    ∀ (encodes : IndexRun → Bool) (selfPackContainer : Option IndexRunContainer) (winners : Winners),
      planWinners encodes [⟨run, selfPackContainer⟩] = .ok winners →
      ∃ resolved, winners[winner.blindKey]? = some resolved ∧
        resolveMutation run.containers run.standaloneStreamContainers selfPackContainer winner = .ok resolved

/-- A head that shows two mutations shows one generation, or no object. -/
theorem ReplayContext.Shows.generation_eq {prf : Prf} {keyring : KeyRing} {context : ReplayContext}
    (h : context.Shows prf keyring head a) (h' : context.Shows prf keyring head b) :
    a.generation = b.generation ∨ a.isTombstone = true ∧ b.isTombstone = true := by
  rcases a with u | t <;> rcases b with u' | t'
  · obtain ⟨payloadRef, -, hhead⟩ := h
    obtain ⟨payloadRef', -, hhead'⟩ := h'
    exact .inl (congrArg NamespaceEntry.generation (Option.some.inj (hhead.symm.trans hhead')))
  · obtain ⟨payloadRef, -, hhead⟩ := h
    cases hhead.symm.trans (show head = none from h')
  · obtain ⟨payloadRef', -, hhead'⟩ := h'
    cases hhead'.symm.trans (show head = none from h)
  · exact .inr ⟨rfl, rfl⟩

/-- All tombstones leave the same head. -/
theorem ReplayContext.Shows.of_isTombstone {prf : Prf} {keyring : KeyRing} {context : ReplayContext}
    (h : context.Shows prf keyring head a) (ha : a.isTombstone = true) (hb : b.isTombstone = true) :
    context.Shows prf keyring head b := by
  cases a with
  | upsert u => cases ha
  | tombstone t =>
    cases b with
    | upsert u => cases hb
    | tombstone t' => exact h

theorem planWinners_newest (hone : OnePerGeneration run.mutations) (hwinner : IsNewest run.mutations winner)
    (hplan : planWinners encodes [⟨run, selfPackContainer⟩] = .ok winners) :
    ∃ resolved, winners[winner.blindKey]? = some resolved ∧
      resolveMutation run.containers run.standaloneStreamContainers selfPackContainer winner = .ok resolved := by
  have hwinning := planWinners_single hplan
  obtain ⟨resolved, hresolved, hle⟩ := hwinning.newest winner hwinner.1
  obtain ⟨m, hm, hkey, hresolve⟩ := hwinning.source winner.blindKey resolved hresolved
  have hgen : m.generation = winner.generation :=
    U64.ext (Nat.le_antisymm (hwinner.2 m hm hkey) ((resolveMutation_facts hresolve).2 ▸ hle))
  exact ⟨resolved, hresolved, resolveMutation_congr (hone m hm winner hwinner.1 hkey hgen) ▸ hresolve⟩

/-- A keyed digest that writes its arguments out. -/
def textBlindKey (key : KeyId) (path : LogicalPath) : List Char :=
  key.asStr.toList.flatMap (fun c => ['a', c]) ++ 'b' :: path.asStr.toList

theorem textBlindKey_inj {xs ys zs ws : List Char}
    (h : xs.flatMap (fun c => ['a', c]) ++ 'b' :: zs = ys.flatMap (fun c => ['a', c]) ++ 'b' :: ws) :
    xs = ys ∧ zs = ws := by
  induction xs generalizing ys with
  | nil =>
    rcases ys with _ | ⟨y, ys⟩
    · simpa using h
    · simp at h
  | cons x xs ih =>
    rcases ys with _ | ⟨y, ys⟩
    · simp at h
    · simp only [flatMap_cons, cons_append, nil_append, List.cons.injEq, true_and] at h
      obtain ⟨hxy, hrest⟩ := ih h.2
      exact ⟨by rw [h.1, hxy], hrest⟩

def textPrf : Prf where
  deriveBlindIndexKey key path :=
    ⟨String.ofList (textBlindKey key path), by simp [validateNonEmpty, textBlindKey, isWhitespace]⟩
  deriveManifestId _ material := ⟨String.ofList ('m' :: material.toList), by simp [validateNonEmpty, isWhitespace]⟩
  blindIndexKey_inj {key key' path path'} h := by
    have htext : textBlindKey key path = textBlindKey key' path' :=
      String.ofList_injective (congrArg BlindIndexKey.asStr h)
    obtain ⟨hkey, hpath⟩ := textBlindKey_inj htext
    refine ⟨?_, LogicalPath.ext (String.toList_injective hpath)⟩
    cases key
    cases key'
    cases String.toList_injective hkey
    rfl
  manifestId_inj {_ material material'} h := by
    have htext : 'm' :: material.toList = 'm' :: material'.toList :=
      String.ofList_injective (congrArg ManifestId.asStr h)
    exact String.toList_injective (List.cons.inj htext).2

def oneKey : KeyId := ⟨"namespace", by decide⟩

def oneKeyRing : KeyRing := ⟨oneKey, [oneKey], mem_singleton.mpr rfl⟩

def onePath : LogicalPath := ⟨"photos/cat", by decide⟩

def oneBlindKey : BlindIndexKey := textPrf.deriveBlindIndexKey oneKey onePath

def putAt (ordinal : ℕ) (generation : Sequence) : IndexMutation :=
  .upsert ⟨ordinal, oneBlindKey, oneKey, onePath, generation, .empty, 0, 0, none, none, ⟨Vector.replicate 16 0, 0⟩, none⟩

def deleteAt (ordinal : ℕ) (generation : Sequence) : IndexMutation :=
  .tombstone ⟨ordinal, oneBlindKey, oneKey, onePath, generation⟩

/-- A run with these mutations in a commit of its own. -/
def runOf (sequence : Sequence) (mutations : List IndexMutation) : V3PackedIndexRunReplay :=
  let zero : Digest := Vector.replicate 32 0
  let sealedRun : V3SealedIndexRun := ⟨zero, 3, ⟨none, sequence, none, [], [], mutations⟩⟩
  let header : V3CommitHeader := ⟨⟨sequence, ⟨"commits/run", by decide⟩⟩, none, 0, .delta,
    ⟨⟨"keyring", by decide⟩, zero⟩, zero, ⟨"signing", by decide⟩⟩
  ⟨⟨header, [⟨⟨.indexRun, 0, 1, zero⟩, .indexRun sealedRun⟩], 1, none, 2⟩, 0, sealedRun, 0, 0⟩

/-- The head of the path after the run is replayed into an empty state. -/
def headAfter (replay : V3PackedIndexRunReplay) : Option (Option NamespaceEntry) :=
  (applyPackedIndexRun textPrf oneKeyRing .dev .default replay).toOption.map fun applied =>
    applied.1.namespaceIndex.head oneBlindKey

theorem exists_of_headAfter (h : headAfter replay = some head) :
    ∃ state' runRef, applyPackedIndexRun textPrf oneKeyRing .dev .default replay = .ok (state', runRef) ∧
      state'.namespaceIndex.head oneBlindKey = head := by
  obtain ⟨⟨state', runRef⟩, happlied, hhead⟩ := Option.map_eq_some_iff.mp h
  refine ⟨state', runRef, ?_, hhead⟩
  revert happlied
  cases applyPackedIndexRun textPrf oneKeyRing .dev .default replay <;> simp [Except.toOption]

/-- A delete and then a put of the same path, as a batch of a correct writer would leave them. -/
def deleteThenPut : V3PackedIndexRunReplay := runOf 2 [deleteAt 0 1, putAt 1 2]

theorem deleteThenPut_newestLast : NewestLast deleteThenPut.run.mutations := by
  intro winner hwinner m hlast
  have hput : lastFor blindKey oneBlindKey deleteThenPut.run.mutations = some (putAt 1 2) := by
    decide +kernel
  have hall : ∀ a ∈ deleteThenPut.run.mutations,
      a.blindKey = oneBlindKey ∧ (IsNewest deleteThenPut.run.mutations a → a = putAt 1 2) := by decide +kernel
  obtain ⟨hkey, hnewest⟩ := hall winner hwinner.1
  rw [hkey] at hlast
  cases hput.symm.trans hlast
  exact .inl (congrArg _ (hnewest hwinner).symm)

/-- The same two operations with the newer one first. -/
def putThenStaleDelete : V3PackedIndexRunReplay := runOf 2 [putAt 0 2, deleteAt 1 1]

def putAndDeleteAtOnce : V3PackedIndexRunReplay := runOf 1 [putAt 0 1, deleteAt 1 1]

end Rs3.Index
