/-
# Rs3.K8s.Fencing — writer fencing excludes stale writers.

Everything here is about the history of one Lease in an arbitrary run: who owned it at which revision,
under which token each advance of the anchor was accepted, and what each kind of request leaves
alone.  `writer_fencing` collects the results for every state of every run; the lemmas before it are about
histories only.
-/
import Rs3.K8s.LeaseProtocol
import Rs3.Lib.CasSchedule

namespace Rs3.K8s

open Cas (Request Shared Write Choice)

/-- **What writer fencing guarantees** about the history of a Lease. -/
structure WriterFencing (s : LeaseShared) : Prop where
  /-- Two epochs, however far apart, are the same or the later one has the larger token. -/
  ownersGrow : ∀ i j l l' claim claim', i ≤ j → s.valAt i = some l → s.valAt j = some l' →
    owner l = some claim → owner l' = some claim' → claim = claim' ∨ claim.token < claim'.token
  /-- An acquisition takes a token above every token the Lease ever carried. -/
  acquired : ∀ i w g mono claim renewal, s.log[i]? = some w → w.label = .acquire g mono claim renewal →
    owner w.new = some claim ∧ ∀ j l token, j ≤ i → s.valAt j = some l → fenceToken l = .ok token → token < claim.token
  /-- An owner that was not there before comes from an acquisition. -/
  ownerChange : ∀ i w claim, s.log[i]? = some w → owner w.new = some claim →
    (s.valAt i).bind owner ≠ some claim → ∃ g mono renewal, w.label = .acquire g mono claim renewal
  /-- A fenced advance is accepted only on a Lease with exactly its holder and token. -/
  fenced : ∀ i w f next, s.log[i]? = some w → w.label = .advance (some f) next →
    ∃ l, s.valAt i = some l ∧ l.holder = some f.claim.holderIdentity ∧ fenceToken l = .ok f.claim.token
  /-- An unfenced advance is accepted only on a Lease nobody holds.  A Lease that was held before
  the first call must show its writer. -/
  unfenced : (∀ l, s.init = some l → l.holder ≠ none → l.annotationText writerFenceAnnotationKey ≠ none) →
    ∀ i w next l, s.log[i]? = some w → w.label = .advance none next → s.valAt i = some l → l.holder = none
  /-- Acquiring, renewing, releasing and fencing leave the anchor annotations alone. -/
  guardFrame : ∀ i w, s.log[i]? = some w → w.label.target = none →
    ∀ key ∈ anchorKeys, w.new.annotationText key = (s.valAt i).bind fun l => l.annotationText key
  /-- An advance leaves holder, token and renewal alone. -/
  advanceFrame : ∀ i w fence next, s.log[i]? = some w → w.label = .advance fence next →
    w.new.holder = (s.valAt i).bind Lease.holder ∧
      ∀ key, key = writerFenceAnnotationKey ∨ key = writerRenewalAnnotationKey →
        w.new.annotationText key = (s.valAt i).bind fun l => l.annotationText key
  /-- Accepted advances have growing sequences, or repeat the identical state. -/
  anchorsGrow : ∀ (i j : ℕ) w w' fence fence' next next', i < j → s.log[i]? = some w →
    s.log[j]? = some w' → w.label = .advance fence next → w'.label = .advance fence' next' →
    next = next' ∨ next.sequence < next'.sequence

section

variable {guards : Guards} {s : LeaseShared}

/-! ## Owners and tokens -/

variable {l new : Lease} {old : Option Lease}

variable {i j : ℕ} {claim : WriterFenceClaim} {w : Write Lease WriteLabel} {label : WriteLabel} {next : V3AnchorState}

theorem History.owners_grow (h : History guards s) (hij : i ≤ j) (hi : s.valAt i = some l) (hj : s.valAt j = some l')
    (ho : owner l = some claim) (ho' : owner l' = some claim') :
    claim = claim' ∨ claim.token < claim'.token :=
  (h.epochKept hij hi hj ho).owner ho'

/-- Tokens never go back, whoever holds the Lease. -/
theorem History.token_le (h : History guards s) (hij : i ≤ j)
    (hi : s.valAt i = some l) (hj : s.valAt j = some l') (ht : fenceToken l = .ok token) :
    ∃ token', fenceToken l' = .ok token' ∧ token ≤ token' := by
  -- a released Lease keeps its epoch under any holder's name
  have hkept : EpochKept ⟨l.holder.getD "", token⟩ l := by
    refine ⟨token, ht, le_rfl, fun _ => ?_⟩
    cases hh : l.holder with
    | none => exact Or.inl rfl
    | some holder => exact Or.inr rfl
  obtain ⟨token', ht', hle, -⟩ := h.preserved (fun _ _ _ _ _ _ hstep => hstep.epochKept) hij hi hj hkept
  exact ⟨token', ht', hle⟩

theorem History.acquired (h : History guards s) (hw : s.log[i]? = some w)
    (hl : w.label = .acquire g mono claim renewal) :
    owner w.new = some claim ∧
      ∀ j l token, j ≤ i → s.valAt j = some l → fenceToken l = .ok token → token < claim.token := by
  have hheld : HeldAt s i ⟨g, mono, claim, renewal⟩ := ⟨w, hw, by rw [hl]; rfl⟩
  obtain ⟨new, hnew, hown, -⟩ := h.heldAt hheld
  rw [valAt_succ hw] at hnew
  cases hnew
  refine ⟨hown, ?_⟩
  intro j l token hji hj ht
  obtain ⟨old, hold⟩ := valAt_isSome_of_le hj hji (Nat.le_of_lt hheld.lt_rev)
  obtain ⟨token', ht', hle⟩ := h.token_le hji hj hold ht
  have htrans := h i w hw
  rw [hl, hold] at htrans
  obtain ⟨token'', _, htok, -, rfl, -⟩ := htrans
  rw [ht'] at htok
  cases htok
  show token < token' + 1
  omega

/-- Only an acquisition brings in a new owner. -/
theorem Transition.owner_change (h : Transition guards label old new) (ho : owner new = some claim)
    (hne : old.bind owner ≠ some claim) : ∃ g mono renewal, label = .acquire g mono claim renewal := by
  obtain ⟨hh, ht⟩ := owner_eq_some.mp ho
  cases label with
  | acquire g mono c renewal =>
    have hc := (h.holds rfl).owner
    rw [ho] at hc
    cases hc
    exact ⟨g, mono, renewal, rfl⟩
  | renew g mono c renewal =>
    have hc := (h.holds rfl).owner
    rw [ho] at hc
    cases hc
    cases old with
    | none => exact h.elim
    | some l =>
      obtain ⟨_, hown, -⟩ := h
      exact absurd hown hne
  | release g c renewal =>
    cases old with
    | none => exact h.elim
    | some l =>
      obtain ⟨_, -, -, -, -, hw⟩ := h
      rw [hw.holder] at hh
      cases hh
  | advance fence next =>
    cases old with
    | none =>
      obtain ⟨-, name, rfl⟩ := h
      rw [newV3Lease_holder] at hh
      cases hh
    | some l =>
      obtain ⟨rfl, -⟩ := h
      have hold : owner l = some claim := by
        rw [owner_eq_some, ← (advance_frame l next).2.1]
        exact ⟨hh, ht⟩
      exact absurd hold hne
  | fence f =>
    cases old with
    | none => exact h.elim
    | some l =>
      cases h
      have hold : owner l = some claim := by
        rw [owner_eq_some, ← (fence_frame l).2.1]
        exact ⟨hh, ht⟩
      exact absurd hold hne

/-! ## Held Leases show their writer -/

/-- A held Lease carries the fence annotation. -/
def WriterShown (l : Lease) : Prop := l.holder ≠ none → l.annotationText writerFenceAnnotationKey ≠ none

theorem Transition.writerShown (h : Transition guards label old new) (hold : ∀ l, old = some l → WriterShown l) :
    WriterShown new := by
  intro hne
  cases label with
  | acquire | renew =>
    obtain ⟨_, -, hw⟩ := (h.holds rfl).writes
    rw [hw.fence]
    simp
  | release g claim renewal =>
    cases old with
    | none => exact h.elim
    | some l =>
      obtain ⟨_, -, -, -, -, hw⟩ := h
      exact absurd hw.holder hne
  | advance fence next =>
    cases old with
    | none =>
      obtain ⟨-, name, rfl⟩ := h
      exact absurd (newV3Lease_holder name next) hne
    | some l =>
      obtain ⟨rfl, -⟩ := h
      rw [v3LeaseWithState_text l next counterKeys_not_mem_anchorKeys.1]
      exact hold l rfl hne
  | fence f =>
    cases old with
    | none => exact h.elim
    | some l =>
      cases h
      rw [bumpAnchorFence_text l counterKeys_not_mem_anchorKeys.2.2.2.1.symm]
      exact hold l rfl hne

theorem History.writerShown (h : History guards s) (hinit : ∀ l, s.init = some l → WriterShown l)
    (hi : s.valAt i = some l) : WriterShown l := by
  induction i generalizing l with
  | zero => exact hinit l hi
  | succ i ih =>
    cases hw : s.log[i]? with
    | none => simp [Shared.valAt, hw] at hi
    | some w =>
      rw [valAt_succ hw] at hi
      cases hi
      exact (h i w hw).writerShown fun l hl => ih hl

/-- An unfenced advance is refused on a Lease that shows its writer. -/
theorem History.unfenced (h : History guards s) (hinit : ∀ l, s.init = some l → WriterShown l)
    (hw : s.log[i]? = some w) (hl : w.label = .advance none next) (hi : s.valAt i = some l) :
    l.holder = none := by
  have ht := h i w hw
  rw [hl, hi] at ht
  obtain ⟨-, -, -, hcoord⟩ := ht
  by_contra hne
  have hshown := h.writerShown hinit hi hne
  have htrue : leaseHasWriterCoordination l = true := by
    rw [leaseHasWriterCoordination, Option.isSome_iff_ne_none.mpr hshown, Option.isSome_iff_ne_none.mpr hne]
    rfl
  rw [hcoord rfl] at htrue
  cases htrue

/-! ## Frames -/

/-- Every request but an advance leaves the anchor annotations alone. -/
theorem Transition.anchor_frame
    (h : Transition guards label old new) (hl : label.target = none) (hk : key ∈ anchorKeys) :
    new.annotationText key = old.bind fun l => l.annotationText key := by
  obtain ⟨hf, hr, ha, -, -⟩ := counterKeys_not_mem_anchorKeys
  have hkf : key ≠ writerFenceAnnotationKey := by
    rintro rfl
    exact hf hk
  have hkr : key ≠ writerRenewalAnnotationKey := by
    rintro rfl
    exact hr hk
  cases label with
  | acquire | renew =>
    obtain ⟨_, -, hw⟩ := (h.holds rfl).writes
    exact hw.other key hkf hkr
  | release g claim renewal =>
    cases old with
    | none => exact h.elim
    | some l =>
      obtain ⟨_, -, -, -, -, hw⟩ := h
      exact hw.other key hkr
  | advance fence next => cases hl
  | fence f =>
    cases old with
    | none => exact h.elim
    | some l =>
      cases h
      refine bumpAnchorFence_text l ?_
      rintro rfl
      exact ha hk

theorem Transition.advance_counters
      (h : Transition guards (.advance fence next) old new) :
    new.holder = old.bind Lease.holder ∧
      ∀ key, key = writerFenceAnnotationKey ∨ key = writerRenewalAnnotationKey →
        new.annotationText key = old.bind fun l => l.annotationText key := by
  obtain ⟨hf, hr, -⟩ := counterKeys_not_mem_anchorKeys
  cases old with
  | none =>
    obtain ⟨-, name, rfl⟩ := h
    refine ⟨rfl, ?_⟩
    rintro key (rfl | rfl)
    · exact v3LeaseWithState_text ⟨some name, none, none⟩ next hf
    · exact v3LeaseWithState_text ⟨some name, none, none⟩ next hr
  | some l =>
    obtain ⟨rfl, -⟩ := h
    refine ⟨rfl, ?_⟩
    rintro key (rfl | rfl)
    · exact v3LeaseWithState_text l next hf
    · exact v3LeaseWithState_text l next hr

/-! ## Anchor sequences -/

theorem History.anchors_grow (h : History guards s) (hij : i < j)
    (hi : s.log[i]? = some w) (hj : s.log[j]? = some w') (hl : w.label = .advance fence next)
    (hl' : w'.label = .advance fence' next') :
    next = next' ∨ next.sequence < next'.sequence := by
  have hlt : j < s.rev := (List.getElem?_eq_some_iff.mp hj).1
  obtain ⟨old, hold⟩ := valAt_isSome_of_le (valAt_succ hi) hij (Nat.le_of_lt hlt)
  have hle := h.anchorLe hij (valAt_succ hi) hold
  have ht := h i w hi
  rw [hl] at ht
  have ht' := h j w' hj
  rw [hl', hold] at ht'
  obtain ⟨-, ⟨current, hcur, hseq⟩, -⟩ := ht'
  rw [hcur] at hle
  rcases ht.anchor_written with hok | ⟨e, herr⟩
  · rw [hok] at hle
    cases current with
    | none => exact hle.elim
    | some c =>
      -- the anchor the later advance replaced is the earlier one or beyond it
      by_cases heq : next' = c
      · rw [heq]
        exact hle
      · have hnext := hseq c rfl heq
        rcases hle with rfl | hback
        · exact Or.inr hnext
        · exact Or.inr (Nat.lt_trans hback hnext)
  · rw [herr] at hle
    cases hle

/-! ## Every run -/

theorem History.writerFencing (h : History guards s) : WriterFencing s where
  ownersGrow := fun _ _ _ _ _ _ hij hi hj ho ho' => h.owners_grow hij hi hj ho ho'
  acquired := fun _ _ _ _ _ _ hw hl => h.acquired hw hl
  ownerChange := fun i w _ hw ho hne => (h i w hw).owner_change ho hne
  fenced := by
    intro i w f next hw hl
    have ht := h i w hw
    cases hv : s.valAt i with
    | none =>
      rw [hl, hv] at ht
      obtain ⟨hnone, -⟩ := ht
      cases hnone
    | some l =>
      rw [hl, hv] at ht
      obtain ⟨-, -, hown, -⟩ := ht
      exact ⟨l, rfl, owner_eq_some.mp (hown f rfl)⟩
  unfenced := fun hinit _ _ _ _ hw hl hv => h.unfenced hinit hw hl hv
  guardFrame := fun i w hw hl _ hk => (h i w hw).anchor_frame hl hk
  advanceFrame := by
    intro i w fence next hw hl
    have ht := h i w hw
    rw [hl] at ht
    exact ht.advance_counters
  anchorsGrow := fun _ _ _ _ _ _ _ _ hij hi hj hl hl' => h.anchors_grow hij hi hj hl hl'

end

/-- **Writer fencing excludes stale writers**, in every state of every interleaving of acquire, renew,
release and fenced or unfenced anchor calls. -/
theorem writer_fencing (guards : Guards) (name : String) (σ₀ σ : LeaseSys) (hstart : Started σ₀)
    (hrun : σ₀.Run (leaseProtocol guards name anyAct) σ) : WriterFencing σ.shared :=
  (hstart.sound_any hrun).inv.history.writerFencing

/-! ## A concrete deployment -/

/-- A guard with a ten second Lease whose clock starts with the run. -/
def tenSecondGuard (holder : String) (h : holder ≠ "") : LeaseGuard where
  leaseName := "writer"
  holderIdentity := holder
  leaseDuration := 10000000000
  startedAt := 0
  named := ⟨by decide, h⟩
  duration := ⟨10, rfl⟩

def twoGuards : Guards := fun g =>
  if g = 0 then tenSecondGuard "a" (by decide) else tenSecondGuard "b" (by decide)

/-- A deployment before its first call, without a Lease. -/
def freshSys : LeaseSys := ⟨⟨none, [], [], 0, fun _ => .new⟩, fun _ => none⟩

theorem freshSys_started : Started freshSys := ⟨⟨rfl, rfl, fun _ => rfl⟩, fun _ => rfl⟩

def firstState : V3AnchorState where
  sequence := ⟨1, by decide⟩
  commitKey := ⟨"commit-1", by decide⟩
  bodyDigest := Vector.replicate 32 0
  versionId := none
  signingKeyId := ⟨"key", by decide⟩
  formatRef := ⟨⟨1, by decide⟩, "digest", ⟨"format", by decide⟩, none⟩

/-- Guard 0 acquires, advances the anchor under its fence and releases; guard 1 takes over. -/
def handover : List (Choice LeaseCall) :=
  [.start 0 (.acquire 0 0 0), .step 0 false, .step 0 false, .step 0 false, .step 0 false,
    .start 1 (.advance (some ⟨0, ⟨"a", 1⟩⟩) none firstState), .step 1 false, .step 1 false,
    .step 1 false, .step 1 false, .start 2 (.release 0 0), .step 2 false, .step 2 false, .step 2 false, .step 2 false,
    .start 3 (.acquire 1 0 0), .step 3 false, .step 3 false, .step 3 false]

theorem writer_fencing_handover :
    ∃ σ, freshSys.exec (leaseProtocol twoGuards "writer" anyAct) handover = some σ ∧
      σ.shared.log.map (fun w => (owner w.new).map WriterFenceClaim.token) =
        [some 1, some 1, none, some 2] ∧ WriterFencing σ.shared := by
  have hsome : (freshSys.exec (leaseProtocol twoGuards "writer" anyAct) handover).isSome = true := by
    decide
  refine ⟨_, (Option.some_get hsome).symm, rfl, ?_⟩
  exact writer_fencing twoGuards "writer" freshSys _ freshSys_started
    (Cas.Sys.run_of_exec _ (Option.some_get hsome).symm)

end Rs3.K8s
