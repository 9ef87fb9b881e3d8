/-
# Rs3.Index.RunTable — the run table of an index root, by generation.

`validate_runs` walks the table in the order of its ids and then compares neighbours in the order of generations.
Neighbours that are apart make all runs disjoint, since every interval is well formed; and since accepted ids are
distinct, the order in which `V3IndexRoot::new` was given the runs does not matter.
-/
import Rs3.Index.RootCodec

namespace Rs3.IndexRoot

open List Index
open Repository (V3KeyringEnvelopeRef)

variable {coveredGeneration : Sequence} {expectedLiveObjectCount : ℕ} {runs : List V3IndexRootRunRef}

/-- What the catalog keeps apart: a run is found by its commit, its version and its section. -/
def place (run : V3IndexRootRunRef) : BackendObjectId × Option BackendVersionId × ℕ :=
  (run.location.commitKey, run.location.versionId, run.location.sectionOrdinal)

/-- The loop of `validate_runs` over some runs, from `s` on. -/
structure LoopTable (coveredGeneration : Sequence) (s s' : RunTotals) (runs : List V3IndexRootRunRef) : Prop where
  ids : Ascending V3IndexRootRunRef.runId runs
  above : ∀ previous ∈ s.previousId, ∀ run ∈ runs, compare previous run.runId = .lt
  places : (runs.map place).Nodup
  fresh : ∀ known ∈ s.locations, known ∉ runs.map place
  generations : ∀ run ∈ runs, run.minimumGeneration ≤ run.maximumGeneration ∧ run.maximumGeneration ≤ coveredGeneration
  maximum : ∀ generation, s'.maximumRunGeneration = some generation →
    s.maximumRunGeneration = some generation ∨ ∃ run ∈ runs, run.maximumGeneration = generation

theorem loopTable (h : runs.foldlM (validateRunStep coveredGeneration) s = .ok s') :
    LoopTable coveredGeneration s s' runs := by
  induction runs generalizing s with
  | nil =>
    cases h
    exact ⟨.nil, fun _ _ _ hrun => absurd hrun not_mem_nil, nodup_nil, fun _ _ => not_mem_nil,
      fun _ hrun => absurd hrun not_mem_nil, fun _ => .inl⟩
  | cons run rest ih =>
    simp only [foldlM_cons, ok_iff, validateRunStep, validateRunFacts] at h
    obtain ⟨middle, ⟨hprevious, hfacts, -, -, -, -, hplace, _, -, _, -, _, -, rfl⟩, hrest⟩ := h
    obtain ⟨-, -, -, -, -, -, hbounds, hsequence, hcovered, -⟩ := hfacts
    have hloop := ih hrest
    have hnext := hloop.above run.runId rfl
    refine ⟨.cons hnext hloop.ids, ?_, ?_, ?_, ?_, ?_⟩
    · intro previous hprev
      have hlt := hprevious previous hprev
      exact forall_mem_cons.mpr ⟨hlt, fun later hlater => Std.TransCmp.lt_trans hlt (hnext later hlater)⟩
    · rw [map_cons, nodup_cons]
      exact ⟨hloop.fresh _ mem_cons_self, hloop.places⟩
    · intro known hknown
      rw [map_cons, mem_cons, not_or]
      exact ⟨fun heq => hplace (show place run ∈ s.locations from heq ▸ hknown),
        hloop.fresh known (mem_cons_of_mem _ hknown)⟩
    · exact forall_mem_cons.mpr ⟨⟨hbounds, hsequence ▸ hcovered⟩, hloop.generations⟩
    -- the maximum was there before, or is of this run or a later one
    · intro generation hmaximum
      rcases hloop.maximum generation hmaximum with hmiddle | ⟨later, hlater, heq⟩
      · have hmiddle := Option.some.inj hmiddle
        cases hs : s.maximumRunGeneration with
        | none =>
          rw [hs] at hmiddle
          exact .inr ⟨run, mem_cons_self, hmiddle⟩
        | some current =>
          simp only [hs] at hmiddle
          split at hmiddle
          · exact .inr ⟨run, mem_cons_self, hmiddle⟩
          · exact .inl (congrArg some hmiddle)
      · exact .inr ⟨later, mem_cons_of_mem _ hlater, heq⟩

theorem isChain_of_generationsApart (h : generationsApart runs = true) :
    runs.IsChain fun a b => a.maximumGeneration < b.minimumGeneration := by
  induction runs with
  | nil => exact .nil
  | cons a rest ih =>
    cases rest with
    | nil => exact .singleton a
    | cons b rest =>
      simp only [generationsApart, Bool.and_eq_true, decide_eq_true_eq] at h
      exact isChain_cons_cons.mpr ⟨h.1, ih h.2⟩

/-- The runs by generation, as `validate_runs` sorts them. -/
def generationOrder (runs : List V3IndexRootRunRef) : List V3IndexRootRunRef :=
  runs.insertionSort fun a b => generationLe a b = true

structure TableAccepted (coveredGeneration : Sequence) (runs : List V3IndexRootRunRef) : Prop where
  intervals : ∀ run ∈ runs, run.minimumGeneration ≤ run.maximumGeneration
  ordered : (generationOrder runs).Pairwise fun a b => a.maximumGeneration < b.minimumGeneration
  disjoint : runs.Pairwise fun a b => a.maximumGeneration < b.minimumGeneration ∨ b.maximumGeneration < a.minimumGeneration
  ids : (runs.map V3IndexRootRunRef.runId).Nodup
  locations : (runs.map V3IndexRootRunRef.location).Nodup
  bounded : ∀ run ∈ runs, run.maximumGeneration ≤ coveredGeneration
  covered : if runs = [] then coveredGeneration = 0 else ∃ run ∈ runs, run.maximumGeneration = coveredGeneration

theorem tableAccepted (h : validateRuns coveredGeneration expectedLiveObjectCount runs = .ok claims) :
    Ascending V3IndexRootRunRef.runId runs ∧ TableAccepted coveredGeneration runs := by
  simp only [validateRuns, ok_iff] at h
  obtain ⟨-, totals, htotals, hapart, -, hmaximum, -⟩ := h
  have hloop := loopTable htotals
  have hperm : (generationOrder runs).Perm runs := perm_insertionSort _ runs
  have hordered : (generationOrder runs).Pairwise fun a b => a.maximumGeneration < b.minimumGeneration := by
    refine pairwise_of_isChain (fun a b hb c hab hbc => ?_) (isChain_of_generationsApart hapart)
    have hle := (hloop.generations b (hperm.mem_iff.mp hb)).1
    exact Nat.lt_trans (Nat.lt_of_lt_of_le hab hle) hbc
  have hids : (runs.map V3IndexRootRunRef.runId).Nodup :=
    pairwise_map.mpr (hloop.ids.imp fun hlt heq => by
      rw [heq, compare_self_eq] at hlt
      cases hlt)
  refine ⟨hloop.ids, fun run hrun => (hloop.generations run hrun).1, hordered,
    (hperm.pairwise_iff Or.symm).mp (hordered.imp .inl), hids, ?_, fun run hrun => (hloop.generations run hrun).2, ?_⟩
  · exact pairwise_map.mpr ((pairwise_map.mp hloop.places).imp fun hne heq => hne (by rw [place, place, heq]))
  · rcases hmaximum with hmaximum | ⟨rfl, hzero, -⟩
    · rcases hloop.maximum _ hmaximum with hstart | ⟨run, hrun, heq⟩
      · cases hstart
      · rw [if_neg (ne_nil_of_mem hrun)]
        exact ⟨run, hrun, heq⟩
    · exact hzero

/-- Run tables are partitioned by generation.  In every accepted list the intervals of generations are pairwise disjoint
and ordered, ids and locations are pairwise distinct and the largest generation is the covered one; and `new` gives the
same root for every order of the runs. -/
theorem run_tables_partitioned (coveredGeneration : Sequence) (expectedLiveObjectCount : ℕ) :
    (∀ runs claims, validateRuns coveredGeneration expectedLiveObjectCount runs = .ok claims →
      TableAccepted coveredGeneration runs) ∧
    ∀ (formatRef : V3FormatRef) (keyringEnvelopeRef : V3KeyringEnvelopeRef) (runs runs' : List V3IndexRootRunRef) root,
      runs.Perm runs' → new coveredGeneration expectedLiveObjectCount formatRef keyringEnvelopeRef runs = .ok root →
        new coveredGeneration expectedLiveObjectCount formatRef keyringEnvelopeRef runs' = .ok root := by
  refine ⟨fun runs claims h => (tableAccepted h).2, ?_⟩
  intro formatRef keyringEnvelopeRef runs runs' root hperm h
  have hsorted : runs.insertionSort (fun a b => (compare a.runId b.runId).isLE = true) =
      runs'.insertionSort fun a b => (compare a.runId b.runId).isLE = true := by
    simp only [new, bind_eq_ok] at h
    obtain ⟨claims, hruns, -⟩ := h
    exact sortOn_eq_of_perm hperm (tableAccepted hruns).1
  rw [new] at h ⊢
  rw [← hsorted]
  exact h

end Rs3.IndexRoot
