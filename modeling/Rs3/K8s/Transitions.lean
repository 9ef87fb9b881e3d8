/-
# Rs3.K8s.Transitions — everything an applied request can do to the Lease.

`Transition` says, per label, how the Lease after an applied request relates to the Lease before it.  It
is the only description of the five kinds of writes the later modules use: the counters move by it,
the owner changes by it, the anchor advances by it.  From it follow the facts about whole histories:
renewal counters and fence tokens never go back, and the anchor only advances.
-/
import Rs3.K8s.LeaseAnchor

namespace Rs3.K8s

open Cas (Prog Versioned Reply Request Shared Write)

/-! ## Reading a Lease -/

def fenceToken (lease : Lease) : Except LeaseGuardError ℕ := parseCounterAnnotation lease writerFenceAnnotationKey

def renewalCount (lease : Lease) : Except LeaseGuardError ℕ := parseCounterAnnotation lease writerRenewalAnnotationKey

/-- The writer epoch a Lease carries, when it is held and its token is readable. -/
def owner (lease : Lease) : Option WriterFenceClaim :=
  match lease.holder, fenceToken lease with
  | some holder, .ok token => some ⟨holder, token⟩
  | _, _ => none

variable {lease : Lease} {key : String}

theorem owner_eq_some {claim : WriterFenceClaim} : owner lease = some claim ↔
      lease.holder = some claim.holderIdentity ∧ fenceToken lease = .ok claim.token := by
  unfold owner
  split
  · rename_i holder token hh ht
    rw [hh, ht]
    simp only [Option.some.injEq, Except.ok.injEq]
    constructor
    · rintro rfl
      exact ⟨rfl, rfl⟩
    · rintro ⟨rfl, rfl⟩
      rfl
  · rename_i h
    simp only [reduceCtorEq, false_iff, not_and]
    intro hh ht
    exact h _ _ hh ht

theorem parseCounterAnnotation_of_text (h : lease.annotationText key = some (toString n)) (hn : n < 2 ^ 64) :
    parseCounterAnnotation lease key = .ok n := by
  unfold parseCounterAnnotation
  rw [h]
  simp only [Text.parseU64_toString hn]

theorem parseCounterAnnotation_congr (h : lease'.annotationText key = lease.annotationText key) :
    parseCounterAnnotation lease' key = parseCounterAnnotation lease key := by
  unfold parseCounterAnnotation
  rw [h]

/-- The state an advance is to. -/
def WriteLabel.target : WriteLabel → Option V3AnchorState
  | .advance _ next => some next
  | _ => none

theorem WriteLabel.eq_advance_of_target (label : WriteLabel) {next : V3AnchorState}
    (h : label.target = some next) : ∃ fence, label = .advance fence next := by
  cases label with
  | advance fence state =>
    cases h
    exact ⟨fence, rfl⟩
  | acquire | renew | release | fence => cases h

/-- An applied acquisition or renewal: who held the Lease by it, and on which sampled clock value. -/
structure Hold where
  guard : GuardId
  stamp : ℕ
  claim : WriterFenceClaim
  renewal : ℕ
  deriving DecidableEq

def WriteLabel.hold : WriteLabel → Option Hold
  | .acquire g mono claim renewal => some ⟨g, mono, claim, renewal⟩
  | .renew g mono claim renewal => some ⟨g, mono, claim, renewal⟩
  | _ => none

/-! ## The transition relation -/

section

variable (guards : Guards)

/-- The duration a guard writes. -/
def GuardWrites (g : GuardId) (old : Option Lease) (claim : WriterFenceClaim) (renewal : ℕ)
    (new : Lease) : Prop :=
  ∃ seconds, durationSecondsI32 (guards g).leaseDuration = .ok seconds ∧ GuardWrite old claim renewal seconds new

/-- How an applied request with the given label changes the Lease. -/
def Transition : WriteLabel → Option Lease → Lease → Prop
  | .acquire g _ claim renewal, none, new =>
    claim = ⟨(guards g).holderIdentity, 1⟩ ∧ renewal = 1 ∧ GuardWrites guards g none claim renewal new
  | .acquire g _ claim renewal, some old, new =>
    ∃ token count, fenceToken old = .ok token ∧ renewalCount old = .ok count ∧
      claim = ⟨(guards g).holderIdentity, token + 1⟩ ∧ renewal = count + 1 ∧
      token + 1 < 2 ^ 64 ∧ renewal < 2 ^ 64 ∧ GuardWrites guards g (some old) claim renewal new
  | .renew g _ claim renewal, some old, new =>
    ∃ count, owner old = some claim ∧ renewalCount old = .ok count ∧ renewal = count + 1 ∧
      renewal < 2 ^ 64 ∧ GuardWrites guards g (some old) claim renewal new
  | .release _ claim renewal, some old, new =>
    ∃ count, owner old = some claim ∧ renewalCount old = .ok count ∧ renewal = count + 1 ∧
      renewal < 2 ^ 64 ∧ ReleaseWrite old renewal new
  | .advance fence next, none, new => fence = none ∧ ∃ name, new = newV3Lease name next
  | .advance fence next, some old, new =>
    new = v3LeaseWithState old next ∧
    (∃ current, v3AnchorStateFromLeaseOptional old = .ok current ∧
      ∀ c ∈ current, next ≠ c → c.sequence < next.sequence) ∧
    (∀ f ∈ fence, owner old = some f.claim) ∧
    (fence = none → leaseHasWriterCoordination old = false)
  | .fence _, some old, new => new = old.editAnnotations bumpAnchorFence
  | _, _, _ => False

variable {guards}

/-! ## One write -/

theorem newV3Lease_holder (name : String) (state : V3AnchorState) : (newV3Lease name state).holder = none := rfl

variable {key : String} {seconds : Int} {count : ℕ} {lease : Lease}

theorem v3LeaseWithState_text (lease : Lease) (state : V3AnchorState) (h : key ∉ anchorKeys) :
    (v3LeaseWithState lease state).annotationText key = lease.annotationText key :=
  lease.annotationText_editAnnotations_of_eq fun m => setAnchor_other state m h

theorem bumpAnchorFence_text (lease : Lease) (h : key ≠ anchorFenceKey) :
    (lease.editAnnotations bumpAnchorFence).annotationText key = lease.annotationText key := by
  refine lease.annotationText_editAnnotations_of_eq fun m => ?_
  rw [bumpAnchorFence, getElem?_insert_eq, if_neg h.symm]

/-- An advance leaves spec and counters alone. -/
theorem advance_frame (lease : Lease) (state : V3AnchorState) :
    (v3LeaseWithState lease state).spec = lease.spec ∧
      fenceToken (v3LeaseWithState lease state) = fenceToken lease ∧
      renewalCount (v3LeaseWithState lease state) = renewalCount lease :=
  ⟨rfl, parseCounterAnnotation_congr (v3LeaseWithState_text lease state counterKeys_not_mem_anchorKeys.1),
    parseCounterAnnotation_congr (v3LeaseWithState_text lease state counterKeys_not_mem_anchorKeys.2.1)⟩

/-- A fencing write leaves spec, counters and anchor alone. -/
theorem fence_frame (lease : Lease) :
    (lease.editAnnotations bumpAnchorFence).spec = lease.spec ∧
      fenceToken (lease.editAnnotations bumpAnchorFence) = fenceToken lease ∧
      renewalCount (lease.editAnnotations bumpAnchorFence) = renewalCount lease ∧
      v3AnchorStateFromLeaseOptional (lease.editAnnotations bumpAnchorFence) =
        v3AnchorStateFromLeaseOptional lease := by
  obtain ⟨-, -, -, hf, hr⟩ := counterKeys_not_mem_anchorKeys
  refine ⟨rfl, parseCounterAnnotation_congr (bumpAnchorFence_text lease hf.symm),
    parseCounterAnnotation_congr (bumpAnchorFence_text lease hr.symm), ?_⟩
  apply v3AnchorStateFromLeaseOptional_congr
  intro key hk
  refine bumpAnchorFence_text lease ?_
  rintro rfl
  exact hk (by simp [counterKeys])

variable {claim : WriterFenceClaim} {renewal i j : ℕ} {new old l l' : Lease} {label : WriteLabel} {s : LeaseShared}

theorem GuardWrite.fenceToken {old : Option Lease} (h : GuardWrite old claim renewal seconds new)
    (ht : claim.token < 2 ^ 64) : K8s.fenceToken new = .ok claim.token :=
  parseCounterAnnotation_of_text h.fence ht

theorem GuardWrite.renewalCount {old : Option Lease} (h : GuardWrite old claim renewal seconds new)
    (hr : renewal < 2 ^ 64) : K8s.renewalCount new = .ok renewal :=
  parseCounterAnnotation_of_text h.renewal hr

theorem GuardWrite.anchor {old : Option Lease} (h : GuardWrite old claim renewal seconds new) :
    v3AnchorStateFromLeaseOptional new = (old.map v3AnchorStateFromLeaseOptional).getD (.ok none) := by
  have hsame : v3AnchorStateFromLeaseOptional new = v3AnchorStateFromLeaseOptional (old.getD ⟨none, none, none⟩) := by
    apply v3AnchorStateFromLeaseOptional_congr
    intro key hk
    simp only [counterKeys, List.mem_cons, List.not_mem_nil, or_false, not_or] at hk
    rw [h.other key hk.1 hk.2.1]
    cases old <;> rfl
  rw [hsame]
  cases old <;> rfl

theorem ReleaseWrite.anchor (h : ReleaseWrite old renewal new) :
    v3AnchorStateFromLeaseOptional new = v3AnchorStateFromLeaseOptional old := by
  apply v3AnchorStateFromLeaseOptional_congr
  intro key hk
  simp only [counterKeys, List.mem_cons, List.not_mem_nil, or_false, not_or] at hk
  exact h.other key hk.2.1

theorem ReleaseWrite.fenceToken (h : ReleaseWrite old renewal new) : K8s.fenceToken new = K8s.fenceToken old :=
  parseCounterAnnotation_congr (h.other _ writerFence_ne_writerRenewal)

/-- What an acquisition or a renewal does to the Lease. -/
structure Holds (guards : Guards) (d : Hold) (old : Option Lease) (new : Lease) : Prop where
  owner : owner new = some d.claim
  renewalCount : renewalCount new = .ok d.renewal
  writes : GuardWrites guards d.guard old d.claim d.renewal new
  renewed : ∀ l, old = some l → ∃ count, K8s.renewalCount l = .ok count ∧ d.renewal = count + 1

theorem GuardWrites.holds {g : GuardId} {mono : ℕ} {old : Option Lease} (h : GuardWrites guards g old claim renewal new)
    (ht : claim.token < 2 ^ 64) (hr : renewal < 2 ^ 64)
    (hold : ∀ l, old = some l → ∃ count, renewalCount l = .ok count ∧ renewal = count + 1) :
    Holds guards ⟨g, mono, claim, renewal⟩ old new := by
  obtain ⟨seconds, hs, hw⟩ := h
  exact ⟨owner_eq_some.mpr ⟨hw.holder, hw.fenceToken ht⟩, hw.renewalCount hr, ⟨seconds, hs, hw⟩, hold⟩

theorem Transition.holds {old : Option Lease} {d : Hold} (h : Transition guards label old new)
    (hd : label.hold = some d) : Holds guards d old new := by
  cases label with
  | acquire g mono claim renewal =>
    cases hd
    cases old with
    | none =>
      obtain ⟨rfl, rfl, hw⟩ := h
      exact hw.holds (show 1 < 2 ^ 64 by decide) (by decide) fun l hl => by cases hl
    | some l =>
      obtain ⟨_, count, -, hc, rfl, rfl, ht, hr, hw⟩ := h
      exact hw.holds ht hr fun _ hl => by cases hl; exact ⟨count, hc, rfl⟩
  | renew g mono claim renewal =>
    cases hd
    cases old with
    | none => exact h.elim
    | some l =>
      obtain ⟨count, hown, hc, rfl, hr, hw⟩ := h
      have ht : claim.token < 2 ^ 64 := parseCounterAnnotation_lt (owner_eq_some.mp hown).2
      exact hw.holds ht hr fun _ hl => by cases hl; exact ⟨count, hc, rfl⟩
  | release | advance | fence => cases hd

/-! ## Counters, epochs and anchors across one write -/

/-- Renewal counters never go back. -/
def RenewedSince (count : ℕ) (lease : Lease) : Prop := ∃ count', renewalCount lease = .ok count' ∧ count ≤ count'

/-- The token of `claim` is never given to another holder: from here on the token is larger, or the
Lease is still held under `claim`, or it is released. -/
def EpochKept (claim : WriterFenceClaim) (lease : Lease) : Prop :=
  ∃ token, fenceToken lease = .ok token ∧ claim.token ≤ token ∧
    (token = claim.token → lease.holder = none ∨ lease.holder = some claim.holderIdentity)

theorem Transition.renewedSince (h : Transition guards label (some old) new) (hc : RenewedSince count old) :
    RenewedSince count new := by
  obtain ⟨count', hold, hle⟩ := hc
  cases label with
  | acquire | renew =>
    have hw := h.holds rfl
    obtain ⟨c, hr, heq⟩ := hw.renewed old rfl
    rw [hold] at hr
    cases hr
    exact ⟨_, hw.renewalCount, by omega⟩
  | release g claim renewal =>
    obtain ⟨c, -, hr, rfl, hlt, hw⟩ := h
    rw [hold] at hr
    cases hr
    exact ⟨count' + 1, parseCounterAnnotation_of_text hw.renewal hlt, by omega⟩
  | advance fence next =>
    obtain ⟨rfl, -⟩ := h
    exact ⟨count', (advance_frame old next).2.2.trans hold, hle⟩
  | fence f =>
    cases h
    exact ⟨count', (fence_frame old).2.2.1.trans hold, hle⟩

theorem Transition.epochKept (h : Transition guards label (some old) new)
    (hc : EpochKept claim old) : EpochKept claim new := by
  obtain ⟨token, ht, hle, hholder⟩ := hc
  cases label with
  | acquire g mono c renewal =>
    -- the only write that hands the Lease over, and it takes a larger token
    obtain ⟨t, r, ht', -, rfl, -, hlt, -, seconds, -, hw⟩ := h
    rw [ht] at ht'
    cases ht'
    exact ⟨token + 1, hw.fenceToken hlt, by omega, fun heq => by omega⟩
  | renew g mono c renewal =>
    obtain ⟨r, hown, -, -, -, seconds, -, hw⟩ := h
    obtain ⟨hh, hft⟩ := owner_eq_some.mp hown
    rw [ht] at hft
    cases hft
    have hlt : c.token < 2 ^ 64 := parseCounterAnnotation_lt ht
    refine ⟨c.token, hw.fenceToken hlt, hle, fun heq => Or.inr ?_⟩
    rcases hholder heq with hnone | hsome
    · rw [hnone] at hh
      cases hh
    · rw [hw.holder, ← hh, hsome]
  | release g c renewal =>
    obtain ⟨r, -, -, -, -, hw⟩ := h
    exact ⟨token, hw.fenceToken.trans ht, hle, fun _ => Or.inl hw.holder⟩
  | advance fence next =>
    obtain ⟨rfl, -⟩ := h
    exact ⟨token, (advance_frame old next).2.1.trans ht, hle, hholder⟩
  | fence f =>
    cases h
    exact ⟨token, (fence_frame old).2.1.trans ht, hle, hholder⟩

theorem epochKept_of_owner (h : owner lease = some claim) : EpochKept claim lease := by
  obtain ⟨hh, ht⟩ := owner_eq_some.mp h
  exact ⟨claim.token, ht, le_rfl, fun _ => Or.inr hh⟩

/-- Two owners related by a kept epoch are the same or have growing tokens. -/
theorem EpochKept.owner (h : EpochKept claim lease)
    (ho : owner lease = some claim') : claim = claim' ∨ claim.token < claim'.token := by
  obtain ⟨token, ht, hle, hholder⟩ := h
  obtain ⟨hh, ht'⟩ := owner_eq_some.mp ho
  rw [ht] at ht'
  cases ht'
  rcases Nat.lt_or_ge claim.token claim'.token with hlt | hge
  · exact Or.inr hlt
  · have heq : claim'.token = claim.token := by omega
    rcases hholder heq with hnone | hsome
    · rw [hnone] at hh
      cases hh
    · left
      rw [hsome] at hh
      cases claim
      cases claim'
      simp_all

/-- The anchor only advances; once unreadable it stays so. -/
def AnchorLe : Except V3FormatError (Option V3AnchorState) → Except V3FormatError (Option V3AnchorState) → Prop
  | .error e, y => y = .error e
  | .ok none, _ => True
  | .ok (some _), .ok none => False
  | .ok (some a), .ok (some b) => a = b ∨ a.sequence < b.sequence
  | .ok (some _), .error _ => True

theorem AnchorLe.refl (x : Except V3FormatError (Option V3AnchorState)) : AnchorLe x x := by
  match x with
  | .error _ => rfl
  | .ok none => trivial
  | .ok (some _) => exact Or.inl rfl

theorem AnchorLe.trans (h : AnchorLe x y) (h' : AnchorLe y z) : AnchorLe x z := by
  match x, y, z, h, h' with
  | .error _, _, _, h, h' =>
    cases h
    exact h'
  | .ok none, _, _, _, _ => trivial
  | .ok (some _), .error _, _, _, h' =>
    cases h'
    trivial
  | .ok (some _), .ok (some _), .error _, _, _ => trivial
  | .ok (some _), .ok (some _), .ok (some _), h, h' =>
    rcases h with rfl | h
    · exact h'
    · rcases h' with rfl | h'
      · exact Or.inr h
      · exact Or.inr (Nat.lt_trans h h')

/-- What a Lease decodes to after an advance to `next`. -/
theorem anchor_v3LeaseWithState (next : V3AnchorState) (h : v3AnchorStateFromLeaseOptional old = .ok current) :
    v3AnchorStateFromLeaseOptional (v3LeaseWithState old next) = .ok (some next) ∨
      ∃ e, v3AnchorStateFromLeaseOptional (v3LeaseWithState old next) = .error e := by
  have hv2 : hasV2Keys (old.annotations.getD ∅) = false := by
    rw [v3AnchorStateFromLeaseOptional_eq, decodeAnchorOptional] at h
    by_contra hne
    rw [if_pos (by simpa using hne)] at h
    cases h
  have hpresent : anchorKeys.any
      (fun key => ((setAnchor next (old.annotations.getD ∅))[key]?).isSome) = true := by
    rw [List.any_eq_true]
    exact ⟨repositoryFormatKey, by simp [anchorKeys], by rw [(setAnchor_lookup next _).1]; rfl⟩
  have hv2' := (hasV2Keys_setAnchor next (old.annotations.getD ∅)).trans hv2
  rw [v3AnchorStateFromLeaseOptional_eq]
  show decodeAnchorOptional (setAnchor next (old.annotations.getD ∅)) = _ ∨
    ∃ e, decodeAnchorOptional (setAnchor next (old.annotations.getD ∅)) = _
  rw [decodeAnchorOptional, hv2', hpresent, if_neg (by simp), if_neg (by simp)]
  by_cases hd : next.formatRef.digest = ""
  · right
    cases hdec : decodeAnchor (setAnchor next (old.annotations.getD ∅)) with
    | error e => exact ⟨e, rfl⟩
    | ok state => exact absurd hdec (decodeAnchor_setAnchor_empty hd state)
  · left
    rw [decodeAnchor_setAnchor hv2 hd]
    rfl

/-- What an accepted advance leaves in the register. -/
theorem Transition.anchor_written {fence : Option WriterFence} {next : V3AnchorState}
    {old : Option Lease} (h : Transition guards (.advance fence next) old new) :
    v3AnchorStateFromLeaseOptional new = .ok (some next) ∨ ∃ e, v3AnchorStateFromLeaseOptional new = .error e := by
  cases old with
  | none =>
    obtain ⟨-, name, rfl⟩ := h
    exact anchor_v3LeaseWithState next rfl
  | some l =>
    obtain ⟨rfl, ⟨current, hcur, -⟩, -⟩ := h
    exact anchor_v3LeaseWithState next hcur

/-- Every request but an advance leaves the decoded anchor alone; a Lease a guard creates has none. -/
theorem Transition.anchor_kept {old : Option Lease} (h : Transition guards label old new) (hl : label.target = none) :
    v3AnchorStateFromLeaseOptional new = (old.map v3AnchorStateFromLeaseOptional).getD (.ok none) := by
  cases label with
  | acquire | renew =>
    obtain ⟨_, -, hw⟩ := (h.holds rfl).writes
    exact hw.anchor
  | advance => cases hl
  | release g claim renewal =>
    cases old with
    | none => exact h.elim
    | some old =>
      obtain ⟨_, -, -, -, -, hw⟩ := h
      exact hw.anchor
  | fence f =>
    cases old with
    | none => exact h.elim
    | some old =>
      cases h
      exact (fence_frame old).2.2.2

theorem Transition.anchorLe (h : Transition guards label (some old) new) :
    AnchorLe (v3AnchorStateFromLeaseOptional old) (v3AnchorStateFromLeaseOptional new) := by
  cases hl : label.target with
  | none =>
    rw [h.anchor_kept hl]
    exact .refl _
  | some next =>
    obtain ⟨fence, rfl⟩ := label.eq_advance_of_target hl
    have hwritten := h.anchor_written
    obtain ⟨-, ⟨current, hcur, hseq⟩, -, -⟩ := h
    rw [hcur]
    cases current with
    | none => trivial
    | some c =>
      rcases hwritten with hok | ⟨e, herr⟩
      · rw [hok]
        by_cases heq : next = c
        · exact Or.inl heq.symm
        · exact Or.inr (hseq c rfl heq)
      · rw [herr]
        trivial

/-! ## Whole histories -/

/-- Every applied request was a transition. -/
def History (guards : Guards) (s : LeaseShared) : Prop :=
  ∀ i w, s.log[i]? = some w → Transition guards w.label (s.valAt i) w.new

theorem valAt_succ (h : s.log[i]? = some w) : s.valAt (i + 1) = some w.new := by
  simp only [Shared.valAt, h, Option.map_some]

/-- A register that holds a Lease at some revision holds one at every later revision. -/
theorem valAt_isSome_of_le (hi : s.valAt i = some l) (hij : i ≤ j) (hj : j ≤ s.rev) : ∃ l', s.valAt j = some l' := by
  cases j with
  | zero =>
    rw [Nat.le_zero.mp hij] at hi
    exact ⟨l, hi⟩
  | succ k =>
    have hne : s.log[k]? ≠ none := by
      rw [ne_eq, List.getElem?_eq_none_iff]
      exact Nat.not_le.mpr hj
    obtain ⟨w, hw⟩ := Option.ne_none_iff_exists'.mp hne
    exact ⟨w.new, valAt_succ hw⟩

/-- **History induction.** What every applied request preserves holds from any revision on. -/
theorem History.preserved (h : History guards s) {P : Lease → Prop}
    (hstep : ∀ k w old, i ≤ k → s.log[k]? = some w → s.valAt k = some old →
      Transition guards w.label (some old) w.new → P old → P w.new)
    (hij : i ≤ j) (hi : s.valAt i = some l) (hj : s.valAt j = some l') (hP : P l) : P l' := by
  induction hij generalizing l' with
  | refl =>
    rw [hi] at hj
    cases hj
    exact hP
  | @step j hij ih =>
    cases hw : s.log[j]? with
    | none => simp [Shared.valAt, hw] at hj
    | some w =>
      rw [valAt_succ hw] at hj
      cases hj
      have hlt : j < s.log.length := (List.getElem?_eq_some_iff.mp hw).1
      obtain ⟨old, hold⟩ := valAt_isSome_of_le hi hij (Nat.le_of_lt hlt)
      have ht := h j w hw
      rw [hold] at ht
      exact hstep j w old hij hw hold ht (ih hold)

theorem History.renewedSince (h : History guards s) (hij : i ≤ j) (hi : s.valAt i = some l) (hj : s.valAt j = some l')
    (hc : renewalCount l = .ok count) : RenewedSince count l' :=
  h.preserved (fun _ _ _ _ _ _ ht => ht.renewedSince) hij hi hj ⟨count, hc, le_rfl⟩

theorem History.epochKept (h : History guards s) (hij : i ≤ j) (hi : s.valAt i = some l) (hj : s.valAt j = some l')
    (hc : owner l = some claim) : EpochKept claim l' :=
  h.preserved (fun _ _ _ _ _ _ ht => ht.epochKept) hij hi hj (epochKept_of_owner hc)

theorem History.anchorLe (h : History guards s) (hij : i ≤ j) (hi : s.valAt i = some l) (hj : s.valAt j = some l') :
    AnchorLe (v3AnchorStateFromLeaseOptional l) (v3AnchorStateFromLeaseOptional l') :=
  h.preserved (P := fun x => AnchorLe (v3AnchorStateFromLeaseOptional l)
    (v3AnchorStateFromLeaseOptional x)) (fun _ _ _ _ _ _ ht hle => hle.trans ht.anchorLe) hij hi hj (.refl _)

/-- Where a decoded anchor comes from: the initial Lease or an accepted advance. -/
theorem History.anchor_origin (h : History guards s) {state : V3AnchorState} (hi : s.valAt i = some l)
    (ha : v3AnchorStateFromLeaseOptional l = .ok (some state)) :
    (∃ l₀, s.init = some l₀ ∧ v3AnchorStateFromLeaseOptional l₀ = .ok (some state)) ∨
      ∃ w ∈ s.log, w.label.target = some state := by
  induction i generalizing l with
  | zero => exact Or.inl ⟨l, hi, ha⟩
  | succ i ih =>
    cases hw : s.log[i]? with
    | none => simp [Shared.valAt, hw] at hi
    | some w =>
      rw [valAt_succ hw] at hi
      cases hi
      have ht := h i w hw
      cases hl : w.label.target with
      | some next =>
        -- an advance decodes to its own target
        obtain ⟨fence, hlab⟩ := w.label.eq_advance_of_target hl
        rw [hlab] at ht
        rcases ht.anchor_written with hok | ⟨e, herr⟩
        · rw [hok] at ha
          cases ha
          exact Or.inr ⟨w, List.mem_of_getElem? hw, hl⟩
        · rw [herr] at ha
          cases ha
      | none =>
        have hkept := ht.anchor_kept hl
        rw [ha] at hkept
        cases hold : s.valAt i with
        | none =>
          rw [hold] at hkept
          cases hkept
        | some old =>
          rw [hold] at hkept
          exact ih hold hkept.symm

end

end Rs3.K8s
