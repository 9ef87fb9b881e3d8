/-
# Rs3.Index.CompactionShards — the runs that compaction publishes, and what their carriers agree on.

The second half of `plan_packed_run_compaction_counted` in `v3/service/packed_compaction.rs`: obsolete winners are
pruned, the rest is ordered by generation, cut into chunks of whole generations and encoded; a chunk that does not
encode is halved.  Standalone carriers are compared across all sources.  Pack carriers are compared by nothing but the
encoder of one run, whose refusal halves the chunk, so two packs with the same object version and different facts can
end in two runs.
-/
import Mathlib.Data.List.SplitBy
import Rs3.Index.CompactionPlan
import Rs3.Index.Publication
import Rs3.Index.RunEncode

namespace Rs3.Index

open List

/-! ## Pruning and ordering -/

/-- Whether a winner is still what the accepted namespace shows; tombstones always stay. -/
def stillAccepted (currentNamespace : Option NamespaceIndex) (winner : ResolvedMutation) : Except V3FormatError Bool :=
  match currentNamespace, winner.mutation with
  | some names, .upsert u =>
    match names.head u.blindKey with
    | none => .ok false
    | some entry =>
      if u.generation < entry.generation then .ok false
      else if entry.generation = u.generation ∧ entry.namespaceKeyId = u.namespaceKeyId then .ok true
      else .error .invalidIndexRun
  | _, _ => .ok true

def pruneObsolete (currentNamespace : Option NamespaceIndex) :
    List ResolvedMutation → Except V3FormatError (List ResolvedMutation)
  | [] => .ok []
  | winner :: rest => do
    let stays ← stillAccepted currentNamespace winner
    let others ← pruneObsolete currentNamespace rest
    return if stays then winner :: others else others

/-- By generation, then by blind key. -/
def inGenerationOrder (winners : List ResolvedMutation) : List ResolvedMutation :=
  winners.insertionSort fun a b =>
    a.generation < b.generation ∨ a.generation = b.generation ∧ (compare a.blindKey b.blindKey).isLE = true

/-- The mutations of one generation; a generation is never split over two runs. -/
abbrev GenerationGroup := List ResolvedMutation

/-- `equal_generation_groups`. -/
def equalGenerationGroups (ordered : List ResolvedMutation) : List GenerationGroup :=
  ordered.splitBy fun a b => a.generation == b.generation

/-- `maximal_mutation_chunks`, with the chunk under construction.  A group that does not fit starts the next chunk,
where it fits because it is no longer than the maximum; so no chunk is empty. -/
def maximalMutationChunks (maxMutations : ℕ) :
    List GenerationGroup → List GenerationGroup → ℕ → Except V3FormatError (List (List GenerationGroup))
  | [], chunk, _ => .ok (if chunk = [] then [] else [chunk])
  | group :: rest, chunk, mutationCount => do
    ensure (group.length ≤ maxMutations) .indexRunLimitExceeded
    let candidate ← okOr (checkedAdd 64 mutationCount group.length) .indexRunLimitExceeded
    if mutationCount ≠ 0 ∧ maxMutations < candidate then do
      let others ← maximalMutationChunks maxMutations rest [group] group.length
      return chunk :: others
    else maximalMutationChunks maxMutations rest (chunk ++ [group]) candidate

/-! ## Encoding -/

def ResolvedMutation.packContainer (resolved : ResolvedMutation) : Option IndexRunContainer :=
  match resolved.carrier with
  | some (.pack container) => some container
  | _ => none

def ResolvedMutation.standaloneStreamContainer (resolved : ResolvedMutation) :
    Option IndexRunStandaloneStreamContainer :=
  match resolved.carrier with
  | some (.standaloneStream container) => some container
  | _ => none

/-- The elements of a `BTreeSet`. -/
def setOf {α : Type} [Ord α] (xs : List α) : List α := xs.foldl (fun set x => setInsert x set) []

def tableOrdinal {α : Type} [DecidableEq α] (table : List α) (container : α) : Except V3FormatError ℕ := do
  let ordinal ← okOr (table.idxOf? container) .invalidIndexRun
  okOr (tryFrom 32 ordinal) .indexRunLimitExceeded

/-- The pointer of a resolved upsert, into the tables of the new run. -/
def canonicalPointer (packs : List IndexRunContainer) (standalone : List IndexRunStandaloneStreamContainer)
    (pointer : IndexPayloadPointer) (carrier : Option ResolvedCarrier) : Except V3FormatError IndexPayloadPointer :=
  match pointer, carrier with
  | .externalPack _ record, some (.pack container) => do
    let ordinal ← tableOrdinal packs container
    return .externalPack ordinal record
  | .externalStandaloneStream _, some (.standaloneStream container) => do
    let ordinal ← tableOrdinal standalone container
    return .externalStandaloneStream ordinal
  | .empty, none => .ok .empty
  | _, _ => .error .invalidIndexRun

def canonicalMutation (packs : List IndexRunContainer) (standalone : List IndexRunStandaloneStreamContainer)
    (entry : ResolvedMutation × ℕ) : Except V3FormatError IndexMutation := do
  let ordinal ← okOr (tryFrom 32 entry.2) .indexRunLimitExceeded
  match entry.1.mutation with
  | .upsert u => do
    let payload ← canonicalPointer packs standalone u.payload entry.1.carrier
    return .upsert { u with mutationOrdinal := ordinal, payload := payload }
  | .tombstone t => return .tombstone { t with mutationOrdinal := ordinal }

section

variable (limits : IndexRunLimits)

/-- `build_and_validate_run`. -/
def buildAndValidateRun (mutations : List ResolvedMutation) : Except V3FormatError IndexRun := do
  let last ← okOr mutations.getLast? .invalidIndexRun
  let packs := setOf (mutations.filterMap ResolvedMutation.packContainer)
  let standalone := setOf (mutations.filterMap ResolvedMutation.standaloneStreamContainer)
  let canonical ← mutations.zipIdx.mapM (canonicalMutation packs standalone)
  let run : IndexRun := ⟨none, last.generation, none, packs, standalone, canonical⟩
  let _ ← (encodeIndexRunFrames limits run).mapError fun _ => .indexRunLimitExceeded
  return run

/-- `encode_group_chunk`.  Each half of a chunk of two or more groups is shorter, so as many rounds as there are
groups are enough (`encodeGroupChunk_fuel`). -/
def encodeGroupChunk : ℕ → List GenerationGroup → Except V3FormatError (List IndexRun)
  | 0, _ => .error .invalidIndexRun
  | fuel + 1, chunk => do
    ensure (chunk ≠ []) .invalidIndexRun
    match buildAndValidateRun limits chunk.flatten with
    | .ok run => .ok [run]
    | .error _ =>
      if chunk.length = 1 then .error .indexRunLimitExceeded
      else do
        let lower ← encodeGroupChunk fuel (chunk.take (chunk.length / 2))
        let upper ← encodeGroupChunk fuel (chunk.drop (chunk.length / 2))
        return lower ++ upper

def encodeChunks (chunks : List (List GenerationGroup)) : Except V3FormatError (List IndexRun) := do
  let runs ← chunks.mapM fun chunk => encodeGroupChunk limits chunk.length chunk
  return runs.flatten

/-- `plan_packed_run_compaction`. -/
def planPackedRunCompaction (currentNamespace : Option NamespaceIndex) (sources : List PackedCompactionSourceRun) :
    Except V3FormatError (List IndexRun) := do
  let winners ← planWinners (fun run => (encodeIndexRunFrames limits run).isOk) sources
  let kept ← pruneObsolete currentNamespace (winners.toList.map Prod.snd)
  let chunks ← maximalMutationChunks limits.maxMutations (equalGenerationGroups (inGenerationOrder kept)) [] 0
  let output ← encodeChunks limits chunks
  ensure (output.length < sources.length) .maintenanceBudgetExceeded
  return output

end

/-! ## Standalone carriers across the sources -/

/-- One object version, one set of facts. -/
def Agree (carriers : StandaloneCarriers) : Prop := ∀ c ∈ carriers, ∀ d ∈ carriers, c.exact = d.exact → c = d

/-- What the source loop knows of standalone carriers after the sources `seen`. -/
structure CarriersPlanned (seen : List PackedCompactionSourceRun) (planned : Winners × StandaloneCarriers) : Prop where
  agree : Agree planned.2
  seen : ∀ source ∈ seen, ∀ c ∈ source.run.standaloneStreamContainers, c ∈ planned.2
  winners : ∀ (k : BlindIndexKey) (resolved : ResolvedMutation) (c : IndexRunStandaloneStreamContainer),
    planned.1[k]? = some resolved → resolved.standaloneStreamContainer = some c → c ∈ planned.2

theorem planStandaloneCarrier_agree
    (h : planStandaloneCarrier carriers container = .ok planned) (hagree : Agree carriers) :
    Agree planned.1 ∧ carriers ⊆ planned.1 ∧ container ∈ planned.1 := by
  unfold planStandaloneCarrier at h
  split at h
  case h_1 existing hfind =>
    split at h
    · cases h
    · rename_i hsame
      cases h
      exact ⟨hagree, List.Subset.refl _, not_not.mp hsame ▸ mem_of_find?_eq_some hfind⟩
  case h_2 hfind =>
    cases h
    -- nothing met so far has the object version of the new container
    have hnew : ∀ c ∈ carriers, c.exact ≠ container.exact := by
      intro c hc hexact
      have hmiss := List.find?_eq_none.mp hfind c hc
      obtain ⟨hobject, hversion⟩ := Prod.mk.inj hexact
      exact hmiss (decide_eq_true ⟨hobject, hversion⟩)
    refine ⟨?_, subset_append_left _ _, by simp⟩
    intro c hc d hd hexact
    rcases mem_append.mp hc with hc | hc <;> rcases mem_append.mp hd with hd | hd
    · exact hagree c hc d hd hexact
    · exact absurd (mem_singleton.mp hd ▸ hexact) (hnew c hc)
    · exact absurd (mem_singleton.mp hc ▸ hexact.symm) (hnew d hd)
    · rw [mem_singleton.mp hc, mem_singleton.mp hd]

theorem planStandaloneCarriers_agree
    (h : planStandaloneCarriers carriers containers = .ok planned) (hagree : Agree carriers) :
    Agree planned.1 ∧ carriers ⊆ planned.1 ∧ containers ⊆ planned.1 := by
  induction containers generalizing carriers planned with
  | nil =>
    cases h
    exact ⟨hagree, List.Subset.refl _, nil_subset _⟩
  | cons container rest ih =>
    simp only [planStandaloneCarriers, ok_iff] at h
    obtain ⟨first, hfirst, others, hothers, rfl⟩ := h
    obtain ⟨hagree₁, hold, hmem⟩ := planStandaloneCarrier_agree hfirst hagree
    obtain ⟨hagree₂, hold₂, hrest⟩ := ih hothers hagree₁
    exact ⟨hagree₂, List.Subset.trans hold hold₂, cons_subset.mpr ⟨hold₂ hmem, hrest⟩⟩

variable {standalone : List IndexRunStandaloneStreamContainer}

theorem resolveMutation_standalone (h : resolveMutation packs standalone selfPack mutation = .ok resolved)
    (hc : resolved.standaloneStreamContainer = some c) : c ∈ standalone := by
  rcases mutation with u | t
  · simp only [resolveMutation, ok_iff] at h
    obtain ⟨pointer, hpointer, rfl⟩ := h
    rcases hu : u.payload with _ | record | ⟨ordinal, record⟩ | ordinal <;>
      simp only [hu, resolvePointer, ok_iff, Except.ok.injEq] at hpointer
    · subst hpointer
      cases hc
    · obtain ⟨container, -, rfl⟩ := hpointer
      cases hc
    · obtain ⟨container, -, rfl⟩ := hpointer
      cases hc
    · obtain ⟨container, hget, rfl⟩ := hpointer
      cases hc
      exact mem_of_getElem? hget
  · cases h
    cases hc

theorem selectWinner_mem {winners winners' : Winners} {resolved : ResolvedMutation}
    (h : selectWinner winners resolved = .ok winners') {k : BlindIndexKey} {winner : ResolvedMutation}
    (hk : winners'[k]? = some winner) : winners[k]? = some winner ∨ winner = resolved := by
  obtain ⟨rfl, -⟩ | ⟨rfl, -⟩ := selectWinner_cases h
  · exact Or.inl hk
  · rw [Std.ExtTreeMap.getElem?_insert] at hk
    split at hk
    · exact Or.inr (Option.some.inj hk).symm
    · exact Or.inl hk

/-- The mutation loop of one source: a winner is an old one or resolved from this run. -/
theorem selectWinners_mem {packs : List IndexRunContainer} {mutations : List IndexMutation} {winners winners' : Winners}
    (h : mutations.foldlM (fun winners mutation => do
      let resolved ← resolveMutation packs standalone selfPack mutation
      selectWinner winners resolved) winners = .ok winners') {k : BlindIndexKey} {winner : ResolvedMutation}
    (hk : winners'[k]? = some winner) :
    winners[k]? = some winner ∨ ∃ m, resolveMutation packs standalone selfPack m = .ok winner := by
  induction mutations generalizing winners with
  | nil =>
    cases h
    exact Or.inl hk
  | cons first rest ih =>
    rw [foldlM_cons, bind_eq_ok] at h
    obtain ⟨winners₁, hstep, hrest⟩ := h
    rw [bind_eq_ok] at hstep
    obtain ⟨resolved, hresolve, hselect⟩ := hstep
    rcases ih hrest with hk | hk
    · rcases selectWinner_mem hselect hk with hk | rfl
      · exact Or.inl hk
      · exact Or.inr ⟨first, hresolve⟩
    · exact Or.inr hk

variable {encodes : IndexRun → Bool}

theorem CarriersPlanned.source {seen : List PackedCompactionSourceRun} {source : PackedCompactionSourceRun}
    (hplanned : CarriersPlanned seen planned) (h : planSource encodes planned source = .ok planned') :
    CarriersPlanned (seen ++ [source]) planned' := by
  simp only [planSource, bind_eq_ok, pure_eq_ok] at h
  obtain ⟨_, -, _, -, carriers, hcarriers, winners, hloop, rfl⟩ := h
  obtain ⟨hagree, hold, hnew⟩ := planStandaloneCarriers_agree hcarriers hplanned.agree
  rw [planStandaloneCarriers_snd hcarriers] at hloop
  refine ⟨hagree, fun s hs c hc => ?_, fun k resolved c hk hc => ?_⟩
  · rcases mem_append.mp hs with hs | hs
    · exact hold (hplanned.seen s hs c hc)
    · exact hnew (mem_singleton.mp hs ▸ hc)
  · rcases selectWinners_mem hloop hk with hk | ⟨m, hm⟩
    · exact hold (hplanned.winners k resolved c hk hc)
    · exact hnew (resolveMutation_standalone hm hc)

theorem CarriersPlanned.sources {seen sources : List PackedCompactionSourceRun}
    (hplanned : CarriersPlanned seen planned)
    (h : sources.foldlM (planSource encodes) planned = .ok planned') : CarriersPlanned (seen ++ sources) planned' := by
  induction sources generalizing seen planned with
  | nil =>
    cases h
    rwa [append_nil]
  | cons source rest ih =>
    rw [foldlM_cons, bind_eq_ok] at h
    obtain ⟨planned₁, hfirst, hrest⟩ := h
    have := ih (hplanned.source hfirst) hrest
    rwa [append_assoc, singleton_append] at this

theorem encodes_of_planSources {sources : List PackedCompactionSourceRun}
    (h : sources.foldlM (planSource encodes) planned = .ok planned') :
    ∀ source ∈ sources, encodes source.run = true := by
  induction sources generalizing planned with
  | nil => exact fun _ hs => absurd hs not_mem_nil
  | cons source rest ih =>
    rw [foldlM_cons, bind_eq_ok] at h
    obtain ⟨planned₁, hfirst, hrest⟩ := h
    simp only [planSource, ok_iff] at hfirst
    exact forall_mem_cons.mpr ⟨hfirst.1, ih hrest⟩

/-! ## The output runs -/

theorem mem_of_setInsert {α : Type} [Ord α] {a x : α} {set : List α} (h : x ∈ setInsert a set) : x = a ∨ x ∈ set := by
  induction set with
  | nil => exact Or.inl (mem_singleton.mp h)
  | cons b rest ih =>
    unfold setInsert at h
    split at h
    · exact mem_cons.mp h
    · exact Or.inr h
    · rcases mem_cons.mp h with rfl | h
      · exact Or.inr mem_cons_self
      · exact (ih h).imp_right (mem_cons_of_mem _)

theorem mem_of_setInserts {α : Type} [Ord α] {x : α} {xs set : List α}
    (h : x ∈ xs.foldl (fun set x => setInsert x set) set) : x ∈ xs ∨ x ∈ set := by
  induction xs generalizing set with
  | nil => exact Or.inr h
  | cons a rest ih =>
    rcases ih h with hx | hx
    · exact Or.inl (mem_cons_of_mem _ hx)
    · rcases mem_of_setInsert hx with rfl | hx
      · exact Or.inl mem_cons_self
      · exact Or.inr hx

theorem mem_of_setOf {α : Type} [Ord α] {x : α} {xs : List α} (h : x ∈ setOf xs) : x ∈ xs :=
  (mem_of_setInserts h).resolve_right not_mem_nil

section

variable {limits : IndexRunLimits}

/-- An output run encodes, and its containers carry some of the mutations it was built from. -/
structure BuiltFrom (limits : IndexRunLimits) (mutations : List ResolvedMutation) (run : IndexRun) : Prop where
  encodes : ∃ frames, encodeIndexRunFrames limits run = .ok frames
  packs : ∀ c ∈ run.containers, ∃ m ∈ mutations, m.packContainer = some c
  standalone : ∀ c ∈ run.standaloneStreamContainers, ∃ m ∈ mutations, m.standaloneStreamContainer = some c

theorem builtFrom_of_build {mutations : List ResolvedMutation} {run : IndexRun}
    (h : buildAndValidateRun limits mutations = .ok run) : BuiltFrom limits mutations run := by
  simp only [buildAndValidateRun, ok_iff] at h
  obtain ⟨last, -, canonical, -, frames, hframes, rfl⟩ := h
  exact ⟨⟨frames, hframes⟩, fun c hc => mem_filterMap.mp (mem_of_setOf hc),
    fun c hc => mem_filterMap.mp (mem_of_setOf hc)⟩

/-- The runs `output` are built from the shards of `groups`, in order and of whole groups. -/
def Shards (limits : IndexRunLimits) (groups : List GenerationGroup) (output : List IndexRun) : Prop :=
  ∃ shards : List (List GenerationGroup), shards.flatten = groups ∧
    List.Forall₂ (fun shard run => buildAndValidateRun limits shard.flatten = .ok run) shards output

variable {output : List IndexRun} {chunk : List GenerationGroup} {currentNamespace : Option NamespaceIndex}

theorem Shards.append (h : Shards limits lower output) (h' : Shards limits upper output') :
    Shards limits (lower ++ upper) (output ++ output') := by
  obtain ⟨shards, rfl, hbuilt⟩ := h
  obtain ⟨shards', rfl, hbuilt'⟩ := h'
  exact ⟨shards ++ shards', flatten_append, rel_append hbuilt hbuilt'⟩

variable {sources : List PackedCompactionSourceRun}

theorem shards_of_chunk (h : encodeGroupChunk limits fuel chunk = .ok output) : Shards limits chunk output := by
  induction fuel generalizing chunk output with
  | zero => cases h
  | succ fuel ih =>
    simp only [encodeGroupChunk, bind_eq_ok] at h
    obtain ⟨_, -, h⟩ := h
    split at h
    case h_1 run hbuild =>
      cases h
      exact ⟨[chunk], flatten_singleton, .cons hbuild .nil⟩
    case h_2 =>
      split at h
      · cases h
      · simp only [ok_iff] at h
        obtain ⟨lower, hlower, upper, hupper, rfl⟩ := h
        have hhalves := (ih hlower).append (ih hupper)
        rwa [take_append_drop] at hhalves

theorem shards_of_chunks (h : encodeChunks limits chunks = .ok output) : Shards limits chunks.flatten output := by
  simp only [encodeChunks, ok_iff] at h
  obtain ⟨runs, hruns, rfl⟩ := h
  induction chunks generalizing runs with
  | nil =>
    cases hruns
    exact ⟨[], rfl, .nil⟩
  | cons chunk rest ih =>
    simp only [mapM_cons, ok_iff] at hruns
    obtain ⟨first, hfirst, others, hothers, rfl⟩ := hruns
    exact (shards_of_chunk hfirst).append (ih others hothers)

/-- As many rounds as there are groups are enough, and more change nothing. -/
theorem encodeGroupChunk_fuel (hne : chunk ≠ []) (h : chunk.length ≤ fuel) (h' : chunk.length ≤ fuel') :
    encodeGroupChunk limits fuel chunk = encodeGroupChunk limits fuel' chunk := by
  induction fuel generalizing fuel' chunk with
  | zero => exact absurd (eq_nil_of_length_eq_zero (Nat.le_zero.mp h)) hne
  | succ fuel ih =>
    have hpos : 0 < chunk.length := length_pos_iff.mpr hne
    obtain ⟨fuel', rfl⟩ : ∃ n, fuel' = n + 1 := ⟨fuel' - 1, by omega⟩
    simp only [encodeGroupChunk]
    refine bind_congr fun _ => ?_
    split
    · rfl
    · split
      · rfl
      · -- both halves of two or more groups are shorter and not empty
        have hlower : (chunk.take (chunk.length / 2)).length = chunk.length / 2 := by
          rw [length_take]
          omega
        have hupper : (chunk.drop (chunk.length / 2)).length = chunk.length - chunk.length / 2 := length_drop
        rw [ih (ne_nil_of_length_pos (by omega)) (by omega)
            (show (chunk.take (chunk.length / 2)).length ≤ fuel' by omega),
          ih (ne_nil_of_length_pos (by omega)) (by omega)
            (show (chunk.drop (chunk.length / 2)).length ≤ fuel' by omega)]

/-- The rounds do not run out: the only error of a chunk that is not empty is that one group does not encode. -/
theorem encodeGroupChunk_rounds (hne : chunk ≠ []) (h : chunk.length ≤ fuel) :
    encodeGroupChunk limits fuel chunk ≠ .error .invalidIndexRun := by
  induction fuel generalizing chunk with
  | zero => exact absurd (eq_nil_of_length_eq_zero (Nat.le_zero.mp h)) hne
  | succ fuel ih =>
    have hpos : 0 < chunk.length := length_pos_iff.mpr hne
    rw [encodeGroupChunk, ensure_of hne, ok_bind]
    split
    · exact nofun
    · split
      · exact nofun
      · have hlower : (chunk.take (chunk.length / 2)).length = chunk.length / 2 := by
          rw [length_take]
          omega
        have hupper : (chunk.drop (chunk.length / 2)).length = chunk.length - chunk.length / 2 := length_drop
        have hlow := ih (ne_nil_of_length_pos (by omega)) (show (chunk.take (chunk.length / 2)).length ≤ fuel by omega)
        have hup := ih (ne_nil_of_length_pos (by omega)) (show (chunk.drop (chunk.length / 2)).length ≤ fuel by omega)
        cases hfirst : encodeGroupChunk limits fuel (chunk.take (chunk.length / 2)) with
        | error e => rwa [error_bind, ← hfirst]
        | ok lower =>
          cases hsecond : encodeGroupChunk limits fuel (chunk.drop (chunk.length / 2)) with
          | error e => rwa [ok_bind, error_bind, ← hsecond]
          | ok upper => exact nofun

theorem flatten_maximalMutationChunks (h : maximalMutationChunks maxMutations groups chunk mutationCount = .ok chunks) :
    chunks.flatten = chunk ++ groups := by
  induction groups generalizing chunk mutationCount chunks with
  | nil =>
    cases h
    split
    · rename_i hempty
      rw [hempty]
      rfl
    · rw [flatten_singleton, append_nil]
  | cons group rest ih =>
    simp only [maximalMutationChunks, bind_eq_ok] at h
    obtain ⟨_, -, candidate, -, h⟩ := h
    split at h
    · simp only [ok_iff] at h
      obtain ⟨others, hothers, rfl⟩ := h
      rw [flatten_cons, ih hothers, singleton_append]
    · rw [ih h, append_assoc, singleton_append]

theorem pruneObsolete_subset (h : pruneObsolete currentNamespace winners = .ok kept) : kept ⊆ winners := by
  induction winners generalizing kept with
  | nil =>
    cases h
    exact List.Subset.refl _
  | cons winner rest ih =>
    simp only [pruneObsolete, ok_iff] at h
    obtain ⟨stays, -, others, hothers, rfl⟩ := h
    split
    · exact cons_subset_cons _ (ih hothers)
    · exact List.Subset.trans (ih hothers) (subset_cons_self _ _)

/-- What the planner does: the winners that stay, in order, cut between generations. -/
theorem planPackedRunCompaction_eq_ok (h : planPackedRunCompaction limits currentNamespace sources = .ok output) :
    ∃ winners kept, planWinners (fun run => (encodeIndexRunFrames limits run).isOk) sources = .ok winners ∧
      pruneObsolete currentNamespace (winners.toList.map Prod.snd) = .ok kept ∧
      Shards limits (equalGenerationGroups (inGenerationOrder kept)) output ∧ output.length < sources.length := by
  simp only [planPackedRunCompaction, ok_iff] at h
  obtain ⟨winners, hwinners, kept, hkept, chunks, hchunks, _, hencode, hless, rfl⟩ := h
  have hshards := shards_of_chunks hencode
  rw [flatten_maximalMutationChunks hchunks, nil_append] at hshards
  exact ⟨winners, kept, hwinners, hkept, hshards, hless⟩

theorem builtFrom_of_plan (h : planPackedRunCompaction limits currentNamespace sources = .ok output) :
    ∃ winners, planWinners (fun run => (encodeIndexRunFrames limits run).isOk) sources = .ok winners ∧
      ∀ run ∈ output, BuiltFrom limits (winners.toList.map Prod.snd) run := by
  obtain ⟨winners, kept, hwinners, hkept, ⟨shards, hgroups, hbuilt⟩, -⟩ := planPackedRunCompaction_eq_ok h
  refine ⟨winners, hwinners, fun run hrun => ?_⟩
  obtain ⟨shard, hshard, hbuild⟩ := (mem_of_mapM (mapM_eq_ok.mpr hbuilt)).1 run hrun
  have hwinner : ∀ m ∈ shard.flatten, m ∈ winners.toList.map Prod.snd := by
    intro m hm
    obtain ⟨group, hgroup, hm⟩ := mem_flatten.mp hm
    have hordered : m ∈ (equalGenerationGroups (inGenerationOrder kept)).flatten :=
      hgroups ▸ mem_flatten.mpr ⟨group, mem_flatten.mpr ⟨shard, hshard, hgroup⟩, hm⟩
    rw [equalGenerationGroups, flatten_splitBy] at hordered
    exact pruneObsolete_subset hkept ((mem_insertionSort _).mp hordered)
  obtain ⟨hencodes, hpacks, hstandalone⟩ := builtFrom_of_build hbuild
  exact ⟨hencodes, fun c hc => (hpacks c hc).imp fun m hm => ⟨hwinner m hm.1, hm.2⟩,
    fun c hc => (hstandalone c hc).imp fun m hm => ⟨hwinner m hm.1, hm.2⟩⟩

end

/-! ## Agreement of carriers -/

/-- No two containers of the run have one object version: neither two packs nor two standalone streams nor one of
each. -/
structure CarriersDistinct (run : IndexRun) : Prop where
  packs : ∀ c ∈ run.containers, ∀ d ∈ run.containers, c.exact = d.exact → c = d
  standalone : ∀ c ∈ run.standaloneStreamContainers, ∀ d ∈ run.standaloneStreamContainers, c.exact = d.exact → c = d
  apart : ∀ c ∈ run.containers, ∀ d ∈ run.standaloneStreamContainers, c.exact ≠ d.exact

theorem carriersDistinct_of_encode (h : encodeIndexRunFrames limits run = .ok frames) : CarriersDistinct run := by
  obtain ⟨hpacks, hstandalone, hapart⟩ := nodup_append.mp (distinct_of_encode limits run h)
  exact ⟨fun c hc d hd => inj_on_of_nodup_map hpacks hc hd, fun c hc d hd => inj_on_of_nodup_map hstandalone hc hd,
    fun c hc d hd => hapart _ (mem_map_of_mem hc) _ (mem_map_of_mem hd)⟩

/-- When compaction succeeds, no object version has two standalone carriers with different facts in the sources, nor in
the output as a whole; and no source run and no output run has two carriers of one object version in its tables, of
whatever kind. -/
theorem agree_of_plan {limits : IndexRunLimits} {currentNamespace : Option NamespaceIndex}
    {sources : List PackedCompactionSourceRun} {output : List IndexRun}
    (h : planPackedRunCompaction limits currentNamespace sources = .ok output) :
    Agree (sources.flatMap fun source => source.run.standaloneStreamContainers) ∧
    Agree (output.flatMap fun run => run.standaloneStreamContainers) ∧
    (∀ source ∈ sources, CarriersDistinct source.run) ∧ ∀ run ∈ output, CarriersDistinct run := by
  obtain ⟨winners, hwinners, hbuilt⟩ := builtFrom_of_plan h
  simp only [planWinners, ok_iff] at hwinners
  obtain ⟨-, planned, hsources, -, rfl⟩ := hwinners
  have hempty : CarriersPlanned [] ((∅, []) : Winners × StandaloneCarriers) :=
    ⟨by simp [Agree], by simp, fun k resolved c hk _ => by simp at hk⟩
  have hplanned := hempty.sources hsources
  refine ⟨fun c hc d hd => ?_, fun c hc d hd => ?_, fun source hsource => ?_, fun run hrun => ?_⟩
  · obtain ⟨s, hs, hc⟩ := mem_flatMap.mp hc
    obtain ⟨t, ht, hd⟩ := mem_flatMap.mp hd
    exact hplanned.agree c (hplanned.seen s hs c hc) d (hplanned.seen t ht d hd)
  · -- a standalone container of the output carries a winner, so the source loop has compared it
    have hcarried : ∀ c ∈ output.flatMap (fun run => run.standaloneStreamContainers), c ∈ planned.2 := by
      intro c hc
      obtain ⟨run, hrun, hc⟩ := mem_flatMap.mp hc
      obtain ⟨m, hm, hcarrier⟩ := (hbuilt run hrun).standalone c hc
      obtain ⟨⟨k, winner⟩, hk, rfl⟩ := mem_map.mp hm
      exact hplanned.winners k winner c (Std.ExtTreeMap.mem_toList_iff_getElem?_eq_some.mp hk) hcarrier
    exact hplanned.agree c (hcarried c hc) d (hcarried d hd)
  · have hencodes := encodes_of_planSources hsources source hsource
    cases hframes : encodeIndexRunFrames limits source.run with
    | error e =>
      rw [hframes] at hencodes
      cases hencodes
    | ok frames => exact carriersDistinct_of_encode hframes
  · obtain ⟨frames, hframes⟩ := (hbuilt run hrun).encodes
    exact carriersDistinct_of_encode hframes

/-! ### Three runs on one pack -/

/-- The pack section of one object, under a pack identity that starts with this byte. -/
def sharedPack (identity : UInt8) : IndexRunContainer :=
  ⟨⟨"commits/shared-carrier", by decide⟩, none, 100, Vector.replicate 32 1,
    ⟨⟨"keyring/shared-carrier", by decide⟩, Vector.replicate 32 2⟩, 10, 0, 17, Vector.replicate 32 identity,
    Vector.replicate 32 4, ⟨"content-shared-carrier", by decide⟩, 1⟩

/-- One key in one generation, its record in the pack. -/
def sharedPackSource (identity key : UInt8) (path : LogicalPath) (generation : Sequence) : PackedCompactionSourceRun :=
  ⟨⟨none, generation, none, [sharedPack identity], [],
    [.upsert ⟨0, .ofRaw (Vector.replicate 32 key), ⟨"namespace-shared-carrier", by decide⟩, path, generation,
      .externalPack 0 ⟨0, 0⟩, 1, 0, none, none, ⟨Vector.replicate 16 0, 0⟩, none⟩]⟩, none⟩

/-- The first run disagrees with the other two about the identity of the pack. -/
def sharedPackSources (first : UInt8) : List PackedCompactionSourceRun :=
  [sharedPackSource first 10 ⟨"shared-carrier/a", by decide⟩ 1, sharedPackSource 6 11 ⟨"shared-carrier/b", by decide⟩ 2,
    sharedPackSource 6 12 ⟨"shared-carrier/c", by decide⟩ 3]

end Rs3.Index
