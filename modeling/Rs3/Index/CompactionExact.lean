/-
# Rs3.Index.CompactionExact — what compaction without pruning publishes.

A mutation is compared across runs with its carrier named by value (`ResolvedMutation`), since every output run has its
own tables of carriers.  Resolved in their own runs, the output mutations are the winners of all sources, in order.
-/
import Rs3.Index.CompactionShards

namespace Rs3.Index

open List

/-- A mutation of a source with its carrier named by value. -/
def PackedCompactionSourceRun.resolve (source : PackedCompactionSourceRun) (mutation : IndexMutation) :
    Except V3FormatError ResolvedMutation :=
  resolveMutation source.run.containers source.run.standaloneStreamContainers source.selfPackContainer mutation

/-- The mutations of an output run, which has no pack of its own. -/
def IndexRun.resolved (run : IndexRun) : Except V3FormatError (List ResolvedMutation) :=
  run.mutations.mapM (resolveMutation run.containers run.standaloneStreamContainers none)

/-! ## Every pointer keeps its meaning -/

variable {α : Type}

section Pointers

theorem getElem?_of_tableOrdinal [DecidableEq α] {table : List α} {container : α} {ordinal : ℕ}
    (h : tableOrdinal table container = .ok ordinal) : table[ordinal]? = some container := by
  simp only [tableOrdinal, ok_iff, tryFrom_eq_some] at h
  obtain ⟨i, hi, -, rfl⟩ := h
  obtain ⟨hlt, heq, -⟩ := List.findIdx?_eq_some_iff_getElem.mp hi
  rw [List.getElem?_eq_getElem hlt, eq_of_beq heq]

theorem resolvePointer_canonicalPointer {resolved : IndexPayloadPointer × Option ResolvedCarrier}
    (hresolved : resolvePointer packs' standalone' selfPack pointer = .ok resolved)
    (h : canonicalPointer packs standalone resolved.1 resolved.2 = .ok payload) :
    resolvePointer packs standalone none payload = .ok resolved := by
  cases pointer with
  | empty =>
    cases hresolved
    cases h
    rfl
  | selfPack record | externalPack ordinal record | externalStandaloneStream ordinal =>
    simp only [resolvePointer, ok_iff] at hresolved
    obtain ⟨container, -, rfl⟩ := hresolved
    simp only [canonicalPointer, ok_iff] at h
    obtain ⟨ordinal, hordinal, rfl⟩ := h
    rw [resolvePointer, getElem?_of_tableOrdinal hordinal]
    rfl

/-- Resolving what the builder wrote gives back what it was given. -/
theorem resolveMutation_canonicalMutation (hsource : resolveMutation packs' standalone' selfPack source = .ok entry.1)
    (h : canonicalMutation packs standalone entry = .ok mutation) :
    resolveMutation packs standalone none mutation = .ok entry.1 := by
  obtain ⟨resolved, i⟩ := entry
  cases source with
  | upsert u =>
    simp only [resolveMutation, ok_iff] at hsource
    obtain ⟨pointer, hpointer, rfl⟩ := hsource
    simp only [canonicalMutation, ok_iff] at h
    obtain ⟨ordinal, -, payload, hpayload, rfl⟩ := h
    simp only [resolveMutation, resolvePointer_canonicalPointer hpointer hpayload, ok_bind]
    rfl
  | tombstone t =>
    cases hsource
    simp only [canonicalMutation, ok_iff] at h
    obtain ⟨ordinal, -, rfl⟩ := h
    rfl

end Pointers

/-- A list of results read back element by element. -/
theorem mapM_of_mapM {β γ ε : Type} {f : α → Except ε β} {g : β → Except ε γ} {p : α → γ} {xs : List α} {ys : List β}
    (h : xs.mapM f = .ok ys) (hback : ∀ x ∈ xs, ∀ y, f x = .ok y → g y = .ok (p x)) : ys.mapM g = .ok (xs.map p) := by
  induction xs generalizing ys with
  | nil =>
    cases h
    rfl
  | cons x xs ih =>
    simp only [mapM_cons, ok_iff] at h
    obtain ⟨y, hy, rest, hrest, rfl⟩ := h
    rw [forall_mem_cons] at hback
    rw [mapM_cons, hback.1 y hy, ih hrest hback.2]
    rfl

theorem resolved_of_build (h : buildAndValidateRun limits mutations = .ok run)
    (hsources : ∀ resolved ∈ mutations, ∃ (source : PackedCompactionSourceRun) (mutation : IndexMutation),
      source.resolve mutation = .ok resolved) : run.resolved = .ok mutations := by
  simp only [buildAndValidateRun, ok_iff] at h
  obtain ⟨last, -, canonical, hcanonical, frames, -, rfl⟩ := h
  have hback := mapM_of_mapM (p := Prod.fst) hcanonical fun entry hentry mutation hmutation => by
    have hmem := mem_map_of_mem (f := Prod.fst) hentry
    rw [zipIdx_map_fst] at hmem
    obtain ⟨source, original, horiginal⟩ := hsources entry.1 hmem
    exact resolveMutation_canonicalMutation horiginal hmutation
  rwa [zipIdx_map_fst] at hback

/-! ## The order of the winners -/

/-- Strictly before, by generation and then by blind key. -/
def ResolvedMutation.Before (a b : ResolvedMutation) : Prop :=
  a.generation < b.generation ∨ a.generation = b.generation ∧ compare a.blindKey b.blindKey = .lt

theorem pairwise_inGenerationOrder (hkeys : (winners.map ResolvedMutation.blindKey).Nodup) :
    (inGenerationOrder winners).Pairwise ResolvedMutation.Before := by
  have hdistinct : (inGenerationOrder winners).Pairwise fun a b => a.blindKey ≠ b.blindKey :=
    pairwise_map.mp (((perm_insertionSort _ winners).map _).nodup_iff.mpr hkeys)
  refine ((@pairwise_insertionSort _ _ _ ⟨fun a b => ?_⟩ ⟨fun a b c hab hbc => ?_⟩ winners).and hdistinct).imp ?_
  · rcases Nat.lt_trichotomy a.generation.get b.generation.get with hlt | heq | hlt
    · exact .inl (.inl hlt)
    · rcases h : compare a.blindKey b.blindKey with _ | _ | _
      · exact .inl (.inr ⟨U64.ext heq, rfl⟩)
      · exact .inl (.inr ⟨U64.ext heq, rfl⟩)
      · exact .inr (.inr ⟨U64.ext heq.symm, by rw [Std.OrientedCmp.lt_of_gt h]; rfl⟩)
    · exact .inr (.inl hlt)
  · rcases hab with hab | ⟨hab, hkab⟩ <;> rcases hbc with hbc | ⟨hbc, hkbc⟩
    · exact .inl (Nat.lt_trans hab hbc)
    · exact .inl (hbc ▸ hab)
    · exact .inl (hab ▸ hbc)
    · exact .inr ⟨hab.trans hbc, Std.TransCmp.isLE_trans hkab hkbc⟩
  · rintro a b ⟨hlt | ⟨heq, hle⟩, hne⟩
    · exact .inl hlt
    · refine .inr ⟨heq, ?_⟩
      rcases h : compare a.blindKey b.blindKey with _ | _ | _
      · rfl
      · exact absurd (Std.LawfulEqOrd.eq_of_compare h) hne
      · rw [h] at hle
        cases hle

/-- Groups of a sorted list that are cut where the rank changes have increasing ranks. -/
theorem increasing_of_chain {rank : α → ℕ} {groups : List (List α)}
    (hsorted : groups.flatten.Pairwise fun a b => rank a ≤ rank b)
    (hcuts : groups.IsChain fun g g' => ∃ hg hg', rank (g.getLast hg) ≠ rank (g'.head hg')) :
    groups.Pairwise fun g g' => ∀ a ∈ g, ∀ b ∈ g', rank a < rank b := by
  induction groups with
  | nil => exact .nil
  | cons g rest ih =>
    rw [flatten_cons, pairwise_append] at hsorted
    obtain ⟨hg, hrest, hcross⟩ := hsorted
    refine .cons ?_ (ih hrest hcuts.tail)
    cases rest with
    | nil => exact fun g' hg' => absurd hg' not_mem_nil
    | cons next others =>
      intro g' hg' a ha b hb
      obtain ⟨hne, hnext, hcut⟩ := (isChain_cons_cons.mp hcuts).1
      have hb' : b ∈ (next :: others).flatten := mem_flatten.mpr ⟨g', hg', hb⟩
      -- a, the last of its group, the first of the next group and b, in this order
      have hlast : rank a ≤ rank (g.getLast hne) := by
        rw [← dropLast_append_getLast hne] at hg ha
        rcases mem_append.mp ha with ha | ha
        · exact (pairwise_append.mp hg).2.2 a ha _ (mem_singleton.mpr rfl)
        · rw [mem_singleton.mp ha]
      have hmiddle := hcross _ (getLast_mem hne) (next.head hnext)
        (mem_flatten.mpr ⟨next, mem_cons_self, head_mem hnext⟩)
      have hfirst : rank (next.head hnext) ≤ rank b := by
        rw [flatten_cons, ← cons_head_tail hnext, cons_append] at hrest hb'
        rcases mem_cons.mp hb' with hb' | hb'
        · rw [hb']
        · exact (pairwise_cons.mp hrest).1 b hb'
      omega

theorem increasing_groups (h : ordered.Pairwise ResolvedMutation.Before) :
    (equalGenerationGroups ordered).Pairwise fun g g' => ∀ a ∈ g, ∀ b ∈ g', a.generation < b.generation := by
  refine @increasing_of_chain _ (fun a : ResolvedMutation => a.generation.get) _ ?_ ?_
  · rw [equalGenerationGroups, flatten_splitBy]
    refine h.imp ?_
    rintro a b (hlt | ⟨heq, -⟩)
    · exact Nat.le_of_lt hlt
    · exact Nat.le_of_eq (congrArg U64.get heq)
  · refine (isChain_getLast_head_splitBy _ ordered).imp ?_
    rintro g g' ⟨hg, hg', hcut⟩
    exact ⟨hg, hg', fun heq => beq_eq_false_iff_ne.mp hcut (U64.ext heq)⟩

/-! ## The winners of all sources -/

theorem pruneObsolete_none : pruneObsolete none winners = .ok winners := by
  induction winners with
  | nil => rfl
  | cons winner rest ih =>
    rw [pruneObsolete, ih]
    rfl

theorem Selected.sources {encodes : IndexRun → Bool} {sources : List PackedCompactionSourceRun}
    {planned planned' : Winners × StandaloneCarriers} (h : Selected seen planned.1)
    (hrun : sources.foldlM (planSource encodes) planned = .ok planned') :
    ∃ resolved, sources.mapM (fun source => source.run.mutations.mapM source.resolve) = .ok resolved ∧
      Selected (seen ++ resolved.flatten) planned'.1 := by
  induction sources generalizing seen planned with
  | nil =>
    cases hrun
    exact ⟨[], rfl, by rwa [flatten_nil, append_nil]⟩
  | cons source rest ih =>
    simp only [foldlM_cons, planSource, bind_eq_ok, pure_eq_ok] at hrun
    obtain ⟨_, ⟨_, -, _, -, carriers, hcarriers, winners, hloop, rfl⟩, hrest⟩ := hrun
    rw [planStandaloneCarriers_snd hcarriers] at hloop
    obtain ⟨first, hfirst, hselected⟩ := h.loop hloop
    obtain ⟨others, hothers, hall⟩ := ih hselected hrest
    refine ⟨first :: others, ?_, by rwa [append_assoc, ← flatten_cons] at hall⟩
    rw [mapM_cons, show source.run.mutations.mapM source.resolve = .ok first from hfirst, hothers]
    rfl

/-- The planner's winners are those of all source mutations, each resolved in its own run. -/
theorem selected_of_planWinners {sources : List PackedCompactionSourceRun}
    (h : planWinners encodes sources = .ok winners) :
    ∃ seen, Selected seen winners ∧
      (∀ resolved ∈ seen, ∃ source ∈ sources, ∃ m ∈ source.run.mutations, source.resolve m = .ok resolved) ∧
      ∀ source ∈ sources, ∀ m ∈ source.run.mutations, ∃ resolved ∈ seen, source.resolve m = .ok resolved := by
  simp only [planWinners, ok_iff] at h
  obtain ⟨-, planned, hsources, -, rfl⟩ := h
  obtain ⟨lists, hlists, hselected⟩ := Selected.empty.sources hsources
  rw [nil_append] at hselected
  refine ⟨lists.flatten, hselected, fun resolved hresolved => ?_, fun source hsource m hm => ?_⟩
  · obtain ⟨list, hlist, hresolved⟩ := mem_flatten.mp hresolved
    obtain ⟨source, hsource, hrun⟩ := (mem_of_mapM hlists).1 list hlist
    obtain ⟨m, hm, hresolve⟩ := (mem_of_mapM hrun).1 resolved hresolved
    exact ⟨source, hsource, m, hm, hresolve⟩
  · obtain ⟨list, hlist, hrun⟩ := (mem_of_mapM hlists).2 source hsource
    obtain ⟨resolved, hresolved, hresolve⟩ := (mem_of_mapM hrun).2 m hm
    exact ⟨resolved, mem_flatten.mpr ⟨list, hlist, hresolved⟩, hresolve⟩

/-- The winners, as the planner goes on with them. -/
theorem Selected.toList (h : Selected seen winners) :
    ((winners.toList.map Prod.snd).map ResolvedMutation.blindKey).Nodup ∧
      ∀ resolved, resolved ∈ winners.toList.map Prod.snd ↔ winners[resolved.blindKey]? = some resolved := by
  have hmem (entry : BlindIndexKey × ResolvedMutation) (hentry : entry ∈ winners.toList) : entry.2.blindKey = entry.1 :=
    (h.source _ _ (Std.ExtTreeMap.mem_toList_iff_getElem?_eq_some.mp hentry)).2
  constructor
  · rw [map_map, show winners.toList.map (ResolvedMutation.blindKey ∘ Prod.snd) = winners.toList.map Prod.fst from
      map_congr_left hmem]
    refine pairwise_map.mpr ((ascending_toList winners).imp fun {a b} hlt heq => ?_)
    rw [heq, compare_self_eq] at hlt
    cases hlt
  · intro resolved
    rw [mem_map]
    constructor
    · rintro ⟨⟨k, _⟩, hentry, rfl⟩
      rw [hmem _ hentry]
      exact Std.ExtTreeMap.mem_toList_iff_getElem?_eq_some.mp hentry
    · intro hget
      exact ⟨(resolved.blindKey, resolved), Std.ExtTreeMap.mem_toList_iff_getElem?_eq_some.mpr hget, rfl⟩

/-- Compaction without pruning is exact.  Whenever the planner accepts some sources without a namespace: the output
mutations, each resolved in its own run, are one mutation per blind key, in order of generation and key, with no
generation in two runs; each is a source mutation with its carrier and record, and each source mutation is older than
the output mutation of its key or is that mutation; every run encodes within the limits; and there are fewer runs than
sources.  The halving of chunks ends: as many rounds as there are groups never run out, and more change nothing. -/
theorem compaction_exact (limits : IndexRunLimits) :
    (∀ (sources : List PackedCompactionSourceRun) (output : List IndexRun),
      planPackedRunCompaction limits none sources = .ok output →
      (∃ shards, output.mapM IndexRun.resolved = .ok shards ∧
        (shards.flatten.map ResolvedMutation.blindKey).Nodup ∧ shards.flatten.Pairwise ResolvedMutation.Before ∧
        shards.Pairwise (fun shard later => ∀ a ∈ shard, ∀ b ∈ later, a.generation < b.generation) ∧
        (∀ winner ∈ shards.flatten, ∃ source ∈ sources, ∃ m ∈ source.run.mutations, source.resolve m = .ok winner) ∧
        ∀ source ∈ sources, ∀ m ∈ source.run.mutations, ∃ winner ∈ shards.flatten, winner.blindKey = m.blindKey ∧
          m.generation ≤ winner.generation ∧ (m.generation = winner.generation → source.resolve m = .ok winner)) ∧
      (∀ run ∈ output, ∃ frames, encodeIndexRunFrames limits run = .ok frames) ∧ output.length < sources.length) ∧
    ∀ (chunk : List GenerationGroup) (fuel : ℕ), chunk ≠ [] → chunk.length ≤ fuel →
      encodeGroupChunk limits fuel chunk = encodeGroupChunk limits chunk.length chunk ∧
        encodeGroupChunk limits fuel chunk ≠ .error .invalidIndexRun := by
  refine ⟨?_, fun chunk fuel hne hle =>
    ⟨encodeGroupChunk_fuel hne hle (Nat.le_refl _), encodeGroupChunk_rounds hne hle⟩⟩
  intro sources output h
  obtain ⟨winners, kept, hwinners, hkept, ⟨shards, hgroups, hbuilt⟩, hless⟩ := planPackedRunCompaction_eq_ok h
  rw [pruneObsolete_none] at hkept
  cases hkept
  obtain ⟨seen, hselected, hfrom, hto⟩ := selected_of_planWinners hwinners
  obtain ⟨hkeys, hwinner⟩ := hselected.toList
  have hordered := pairwise_inGenerationOrder hkeys
  have hflatten : (shards.map List.flatten).flatten = inGenerationOrder (winners.toList.map Prod.snd) := by
    rw [← flatten_flatten, hgroups, equalGenerationGroups, flatten_splitBy]
  have hmem (resolved : ResolvedMutation) : resolved ∈ (shards.map List.flatten).flatten ↔
      winners[resolved.blindKey]? = some resolved := by
    rw [hflatten, ← hwinner]
    exact mem_insertionSort _
  have hsource : ∀ winner ∈ (shards.map List.flatten).flatten, ∃ source ∈ sources, ∃ m ∈ source.run.mutations,
      source.resolve m = .ok winner :=
    fun winner hw => hfrom winner (hselected.source _ _ ((hmem winner).mp hw)).1
  refine ⟨⟨shards.map List.flatten, ?_, ?_, ?_, ?_, hsource, ?_⟩, ?_, hless⟩
  · refine mapM_of_mapM (mapM_eq_ok.mpr hbuilt) fun shard hshard run hrun => resolved_of_build hrun fun resolved hr => ?_
    obtain ⟨source, -, m, -, hresolve⟩ := hsource resolved
      (mem_flatten.mpr ⟨_, mem_map_of_mem hshard, hr⟩)
    exact ⟨source, m, hresolve⟩
  · rw [hflatten]
    exact ((perm_insertionSort _ _).map _).nodup_iff.mpr hkeys
  · rw [hflatten]
    exact hordered
  · have hgroups' := increasing_groups hordered
    rw [← hgroups, pairwise_flatten] at hgroups'
    refine pairwise_map.mpr (hgroups'.2.imp fun {shard later} hlt a ha b hb => ?_)
    obtain ⟨g, hg, ha⟩ := mem_flatten.mp ha
    obtain ⟨g', hg', hb⟩ := mem_flatten.mp hb
    exact hlt g hg g' hg' a ha b hb
  · intro source hsource m hm
    obtain ⟨resolved, hresolved, hresolve⟩ := hto source hsource m hm
    obtain ⟨winner, hget, hle, hsame⟩ := hselected.newest resolved hresolved
    obtain ⟨hkey, hgen⟩ := resolveMutation_facts hresolve
    have hwinnerKey := (hselected.source _ _ hget).2
    refine ⟨winner, (hmem winner).mpr (hwinnerKey ▸ hget), hwinnerKey.trans hkey, hgen ▸ hle, fun heq => ?_⟩
    exact hsame (hgen.trans heq) ▸ hresolve
  · intro run hrun
    obtain ⟨shard, -, hbuild⟩ := (mem_of_mapM (mapM_eq_ok.mpr hbuilt)).1 run hrun
    exact (builtFrom_of_build hbuild).encodes

theorem ok_of_toOption_map {β ε : Type} {f : α → β} {result : Except ε α} {b : β}
    (h : result.toOption.map f = some b) : ∃ a, result = .ok a ∧ f a = b := by
  cases result with
  | error e => cases h
  | ok a => exact ⟨a, rfl, Option.some.inj h⟩

/-- The shared pack under one key in two generations and under another key in a third. -/
def supersededSources : List PackedCompactionSourceRun :=
  [sharedPackSource 6 10 ⟨"superseded/a", by decide⟩ 1, sharedPackSource 6 10 ⟨"superseded/a", by decide⟩ 2,
    sharedPackSource 6 12 ⟨"superseded/c", by decide⟩ 3]

/-- The older generation of the repeated key goes, and a chunk of two groups is encoded within two rounds. -/
theorem compaction_exact_superseded :
    ∃ output, planPackedRunCompaction .default none supersededSources = .ok output ∧
      (output.map fun run => run.mutations.map IndexMutation.generation) = [[2, 3]] ∧
      (∃ shards, output.mapM IndexRun.resolved = .ok shards ∧
        ∀ source ∈ supersededSources, ∀ m ∈ source.run.mutations, ∃ winner ∈ shards.flatten,
          winner.blindKey = m.blindKey ∧ m.generation ≤ winner.generation) ∧ output.length < 3 ∧
      ∀ groups : List GenerationGroup, groups.length = 2 →
        encodeGroupChunk .default 2 groups ≠ .error .invalidIndexRun := by
  have heval : (planPackedRunCompaction .default none supersededSources).toOption.map
      (fun output => output.map fun run => run.mutations.map IndexMutation.generation) = some [[2, 3]] := by
    decide +kernel
  obtain ⟨output, hplan, hgenerations⟩ := ok_of_toOption_map heval
  obtain ⟨hpublished, hrounds⟩ := compaction_exact .default
  obtain ⟨⟨shards, hshards, -, -, -, -, hnewest⟩, -, hless⟩ := hpublished _ _ hplan
  refine ⟨output, hplan, hgenerations, ⟨shards, hshards, fun source hsource m hm => ?_⟩, hless, fun groups hlength => ?_⟩
  · obtain ⟨winner, hwinner, hkey, hle, -⟩ := hnewest source hsource m hm
    exact ⟨winner, hwinner, hkey, hle⟩
  · exact (hrounds groups 2 (ne_nil_of_length_pos (by omega)) (Nat.le_of_eq hlength)).2

/-! ## Carriers of one object version

The planner compares two carriers in three places only: two standalone streams anywhere in the sources, two carriers in
the tables of one run, and the carriers of two mutations that are both the newest of one key.  A pack in one run and a
pack or stream in another are not compared, nor is the pack a run itself lies in with the tables of that run. -/

def ResolvedCarrier.exact : ResolvedCarrier → ExactObject
  | .pack container => container.exact
  | .standaloneStream container => container.exact

/-- A mutation of a source run, and the carrier of its payload. -/
structure Naming where
  source : PackedCompactionSourceRun
  mutation : IndexMutation
  carrier : ResolvedCarrier

namespace Naming

/-- The mutation is one of the sources', and names the carrier. -/
structure Of (n : Naming) (sources : List PackedCompactionSourceRun) : Prop where
  source : n.source ∈ sources
  mutation : n.mutation ∈ n.source.run.mutations
  names : ∃ resolved, n.source.resolve n.mutation = .ok resolved ∧ resolved.carrier = some n.carrier

/-- One object version with different facts. -/
def Conflicts (n n' : Naming) : Prop := n.carrier.exact = n'.carrier.exact ∧ n.carrier ≠ n'.carrier

/-- The payload lies in the pack the run itself is in. -/
def InSelfPack (n : Naming) : Prop := ∃ record, n.mutation.payload = .selfPack record

/-- No source has a newer mutation of the key. -/
def Newest (n : Naming) (sources : List PackedCompactionSourceRun) : Prop :=
  ∀ source ∈ sources, ∀ m ∈ source.run.mutations, m.blindKey = n.mutation.blindKey →
    m.generation ≤ n.mutation.generation

/-- The planner compares the two carriers. -/
inductive Compared (sources : List PackedCompactionSourceRun) (n n' : Naming) : Prop
  | standalone (c c' : IndexRunStandaloneStreamContainer) (h : n.carrier = .standaloneStream c)
      (h' : n'.carrier = .standaloneStream c')
  | tables (h : n.source = n'.source) (hn : ¬n.InSelfPack) (hn' : ¬n'.InSelfPack)
  | key (h : n.mutation.blindKey = n'.mutation.blindKey) (hn : n.Newest sources) (hn' : n'.Newest sources)

/-- Where the carrier comes from. -/
theorem Of.cases {n : Naming} (h : n.Of sources) :
    (∃ c ∈ n.source.run.containers, n.carrier = .pack c) ∨
    (∃ c ∈ n.source.run.standaloneStreamContainers, n.carrier = .standaloneStream c) ∨
    n.InSelfPack ∧ ∃ c, n.carrier = .pack c := by
  obtain ⟨resolved, hresolve, hcarrier⟩ := h.names
  rcases hm : n.mutation with u | t
  · simp only [hm, PackedCompactionSourceRun.resolve, resolveMutation, ok_iff] at hresolve
    obtain ⟨pointer, hpointer, rfl⟩ := hresolve
    rcases hu : u.payload with _ | record | ⟨ordinal, record⟩ | ordinal <;>
      simp only [hu, resolvePointer, ok_iff, Except.ok.injEq] at hpointer
    · subst hpointer
      cases hcarrier
    · obtain ⟨container, -, rfl⟩ := hpointer
      exact .inr (.inr ⟨⟨record, by rw [hm]; exact hu⟩, container, (Option.some.inj hcarrier).symm⟩)
    · obtain ⟨container, hget, rfl⟩ := hpointer
      exact .inl ⟨container, mem_of_getElem? hget, (Option.some.inj hcarrier).symm⟩
    · obtain ⟨container, hget, rfl⟩ := hpointer
      exact .inr (.inl ⟨container, mem_of_getElem? hget, (Option.some.inj hcarrier).symm⟩)
  · rw [hm] at hresolve
    cases hresolve
    cases hcarrier

end Naming

/-- Two carriers in the tables of one run that encodes. -/
theorem CarriersDistinct.eq_of_exact {run : IndexRun} (h : CarriersDistinct run) {carrier carrier' : ResolvedCarrier}
    (hmem : (∃ c ∈ run.containers, carrier = .pack c) ∨
      ∃ c ∈ run.standaloneStreamContainers, carrier = .standaloneStream c)
    (hmem' : (∃ c ∈ run.containers, carrier' = .pack c) ∨
      ∃ c ∈ run.standaloneStreamContainers, carrier' = .standaloneStream c)
    (hexact : carrier.exact = carrier'.exact) : carrier = carrier' := by
  rcases hmem with ⟨c, hc, rfl⟩ | ⟨c, hc, rfl⟩ <;> rcases hmem' with ⟨c', hc', rfl⟩ | ⟨c', hc', rfl⟩
  · rw [h.packs c hc c' hc' hexact]
  · exact absurd hexact (h.apart c hc c' hc')
  · exact absurd hexact.symm (h.apart c' hc' c hc)
  · rw [h.standalone c hc c' hc' hexact]

/-- Two mutations that are both the newest of one key are the winner of that key. -/
theorem Selected.eq_of_newest (h : Selected seen winners) (hr : resolved ∈ seen) (hr' : resolved' ∈ seen)
    (hkey : resolved.blindKey = resolved'.blindKey)
    (hnewest : ∀ other ∈ seen, other.blindKey = resolved.blindKey → other.generation ≤ resolved.generation)
    (hnewest' : ∀ other ∈ seen, other.blindKey = resolved.blindKey → other.generation ≤ resolved'.generation) :
    resolved = resolved' := by
  obtain ⟨winner, hget, hle, hsame⟩ := h.newest resolved hr
  obtain ⟨winner', hget', hle', hsame'⟩ := h.newest resolved' hr'
  rw [← hkey, hget] at hget'
  cases hget'
  obtain ⟨hseen, hwinner⟩ := h.source _ _ hget
  have heq : resolved.generation = winner.generation := U64.ext (Nat.le_antisymm hle (hnewest winner hseen hwinner))
  have heq' : resolved'.generation = winner.generation := U64.ext (Nat.le_antisymm hle' (hnewest' winner hseen hwinner))
  rw [hsame heq, hsame' heq']

theorem not_conflicts_of_compared {sources : List PackedCompactionSourceRun} {n n' : Naming}
    (h : planPackedRunCompaction limits currentNamespace sources = .ok output) (hn : n.Of sources) (hn' : n'.Of sources)
    (hcompared : n.Compared sources n') : ¬n.Conflicts n' := by
  rintro ⟨hexact, hne⟩
  obtain ⟨hagree, -, hdistinct, -⟩ := agree_of_plan h
  refine hne ?_
  cases hcompared with
  | standalone c c' hc hc' =>
    obtain ⟨d, hd, hdc⟩ : ∃ d ∈ n.source.run.standaloneStreamContainers, n.carrier = .standaloneStream d := by
      rcases hn.cases with ⟨d, -, hdc⟩ | hcase | ⟨-, d, hdc⟩
      · cases hc.symm.trans hdc
      · exact hcase
      · cases hc.symm.trans hdc
    obtain ⟨d', hd', hdc'⟩ : ∃ d ∈ n'.source.run.standaloneStreamContainers, n'.carrier = .standaloneStream d := by
      rcases hn'.cases with ⟨d, -, hdc⟩ | hcase | ⟨-, d, hdc⟩
      · cases hc'.symm.trans hdc
      · exact hcase
      · cases hc'.symm.trans hdc
    rw [hdc, hdc'] at hexact ⊢
    rw [hagree d (mem_flatMap.mpr ⟨_, hn.source, hd⟩) d' (mem_flatMap.mpr ⟨_, hn'.source, hd'⟩) hexact]
  | tables hsource hself hself' =>
    have htable := hn.cases.imp_right fun hcase => hcase.resolve_right fun hcase => hself hcase.1
    have htable' := hn'.cases.imp_right fun hcase => hcase.resolve_right fun hcase => hself' hcase.1
    rw [← hsource] at htable'
    exact (hdistinct _ hn.source).eq_of_exact htable htable' hexact
  | key hkey hnewest hnewest' =>
    obtain ⟨winners, hwinners, -⟩ := builtFrom_of_plan h
    obtain ⟨seen, hselected, hfrom, hto⟩ := selected_of_planWinners hwinners
    obtain ⟨resolved, hresolve, hcarrier⟩ := hn.names
    obtain ⟨resolved', hresolve', hcarrier'⟩ := hn'.names
    obtain ⟨other, hother, hsame⟩ := hto _ hn.source _ hn.mutation
    cases hresolve.symm.trans hsame
    obtain ⟨other', hother', hsame'⟩ := hto _ hn'.source _ hn'.mutation
    cases hresolve'.symm.trans hsame'
    obtain ⟨hk, hg⟩ := resolveMutation_facts hresolve
    obtain ⟨hk', hg'⟩ := resolveMutation_facts hresolve'
    have hequal : resolved = resolved' := by
      refine hselected.eq_of_newest hother hother' ((hk.trans hkey).trans hk'.symm) ?_ ?_ <;> intro r hr hrkey <;>
        obtain ⟨source, hsource, m, hm, hrm⟩ := hfrom r hr <;> obtain ⟨hrk, hrg⟩ := resolveMutation_facts hrm
      · rw [hrg, hg]
        exact hnewest source hsource m hm (hrk.symm.trans (hrkey.trans hk))
      · rw [hrg, hg']
        exact hnewest' source hsource m hm (hrk.symm.trans (hrkey.trans (hk.trans hkey)))
    rw [← hequal, hcarrier] at hcarrier'
    exact Option.some.inj hcarrier'

/-- A carrier in the tables of a run. -/
def IndexRun.Carries (run : IndexRun) (carrier : ResolvedCarrier) : Prop :=
  (∃ c ∈ run.containers, carrier = .pack c) ∨ ∃ c ∈ run.standaloneStreamContainers, carrier = .standaloneStream c

/-- Every carrier in the output is one some source mutation names. -/
theorem exists_naming_of_carries {sources : List PackedCompactionSourceRun}
    (h : planPackedRunCompaction limits currentNamespace sources = .ok output) (hrun : run ∈ output)
    (hcarries : run.Carries carrier) : ∃ n : Naming, n.Of sources ∧ n.carrier = carrier := by
  obtain ⟨winners, hwinners, hbuilt⟩ := builtFrom_of_plan h
  obtain ⟨seen, hselected, hfrom, -⟩ := selected_of_planWinners hwinners
  have hnaming : ∀ resolved ∈ winners.toList.map Prod.snd, resolved.carrier = some carrier →
      ∃ n : Naming, n.Of sources ∧ n.carrier = carrier := by
    intro resolved hmem hcarrier
    have hget := (hselected.toList.2 resolved).mp hmem
    obtain ⟨source, hsource, m, hm, hresolve⟩ := hfrom resolved (hselected.source _ _ hget).1
    exact ⟨⟨source, m, carrier⟩, ⟨hsource, hm, resolved, hresolve, hcarrier⟩, rfl⟩
  rcases hcarries with ⟨c, hc, rfl⟩ | ⟨c, hc, rfl⟩
  · obtain ⟨resolved, hmem, hpack⟩ := (hbuilt run hrun).packs c hc
    refine hnaming resolved hmem ?_
    unfold ResolvedMutation.packContainer at hpack
    split at hpack
    · rename_i hcarrier
      cases hpack
      exact hcarrier
    · cases hpack
  · obtain ⟨resolved, hmem, hstream⟩ := (hbuilt run hrun).standalone c hc
    refine hnaming resolved hmem ?_
    unfold ResolvedMutation.standaloneStreamContainer at hstream
    split at hstream
    · rename_i hcarrier
      cases hstream
      exact hcarrier
    · cases hstream

end Rs3.Index
