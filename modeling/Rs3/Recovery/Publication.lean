/-
# Rs3.Recovery.Publication — capturing one successor transition of an accepted registry.

`CapturedRecoveryPublication::new` of `v3/recovery/publication.rs`: the parent is registered under the policy that
governed it, the cutoff moves with the trusted clock, a full live tail is rolled into a page, and a root also
carries the registry after all this.
-/
import Rs3.Recovery.Validity

namespace Rs3.Recovery

open List

/-- One immutable parent and time choice. -/
structure V3PublicationPlan where
  sampledNowMs : Int
  parent : V3AnchorState
  parentPublishTimeMs : Int
  publishTimeMs : Int

structure AcceptedRecoveryState where
  policy : RecoveryPolicy
  snapshot : RecoverySnapshot
  deriving DecidableEq

structure CapturedRecoveryPublication where
  publication : V3PublicationPlan
  previous : AcceptedRecoveryState
  currentPolicy : RecoveryPolicy
  requiredCoverageUntilMs : Int
  capturedSection : RecoverySection

/-- The registry after expiring at `cutoff`, rolling the live tail into `rolled` if there is such a page, and
registering `point`. -/
def RecoverySnapshot.advance (previous : RecoverySnapshot) (cutoff : Int) (rolled : Option RecoveryPageRef)
    (point : RecoveryPoint) : RecoverySnapshot :=
  match rolled with
  | none => { previous.expire cutoff with tail := (previous.expire cutoff).tail ++ [point] }
  | some page =>
    { previous.expire cutoff with pages := (previous.expire cutoff).pages ++ [page], tail := [point] }

def captureSection (previous : RecoverySnapshot) (cutoff : Int) (point : RecoveryPoint)
    (currentPolicy : RecoveryPolicy) (isRoot : Bool) : Except V3FormatError RecoverySection :=
  let expireBeforeMs := if previous.expireBeforeMs < cutoff then some cutoff else none
  if (previous.expire cutoff).tail.length = maxRecoveryTailRecords then do
    ensure ((previous.expire cutoff).pages.length < maxRecoveryPages) .recoveryHistoryCapacity
    let page : RecoveryPage := ⟨(previous.expire cutoff).tail⟩
    let delta : RecoveryDelta := ⟨some point, expireBeforeMs, some 0⟩
    if isRoot then do
      let claims ← page.claims
      return ⟨currentPolicy, delta, some (previous.advance cutoff (some ⟨.thisSection 0, claims⟩) point), [page]⟩
    else return ⟨currentPolicy, delta, none, [page]⟩
  else
    .ok ⟨currentPolicy, ⟨some point, expireBeforeMs, none⟩,
      if isRoot then some (previous.advance cutoff none point) else none, []⟩

/-- The cutoff of a publication: the trusted clock's, never behind the accepted one. -/
def publicationCutoffMs (publication : V3PublicationPlan) (previous : AcceptedRecoveryState)
    (currentPolicy : RecoveryPolicy) : Except V3FormatError Int := do
  let proposed ← currentPolicy.expiryCutoffMs publication.sampledNowMs
  return max proposed previous.snapshot.expireBeforeMs

def CapturedRecoveryPublication.new (sha256 : List UInt8 → Digest) (publication : V3PublicationPlan)
    (previous : AcceptedRecoveryState) (currentPolicy : RecoveryPolicy) (isRoot : Bool) :
    Except V3FormatError CapturedRecoveryPublication := do
  let cutoff ← publicationCutoffMs publication previous currentPolicy
  let previousCoverage ← previous.policy.coverageUntilMs publication.publishTimeMs
  let currentCoverage ← currentPolicy.coverageUntilMs publication.publishTimeMs
  let promised ← previous.policy.promisedUntilMs publication.publishTimeMs
  let point : RecoveryPoint :=
    ⟨publication.parent, publication.parentPublishTimeMs, promised, previous.policy.identity sha256⟩
  let captured ← captureSection previous.snapshot cutoff point currentPolicy isRoot
  captured.validateForCommit sha256
    (some (publication.parent, publication.parentPublishTimeMs, previous.policy))
    publication.publishTimeMs isRoot cutoff
  return ⟨publication, previous, currentPolicy, max previousCoverage currentCoverage, captured⟩

/-! ## The registry accepted at a head -/

/-- A registry as it is accepted at the commit `anchor`, published at `time`: everything in it is older. -/
structure HistoryAt (anchor : V3AnchorState) (time : Int) (s : RecoverySnapshot) : Prop where
  valid : SnapshotValid s
  exact : ∀ page ∈ s.pages, page.location.isExact = true
  tailBefore : ∀ point ∈ s.tail, point.anchor.sequence < anchor.sequence ∧ point.publishTimeMs < time
  pagesBefore : ∀ page ∈ s.pages, page.claims.lastSequence < anchor.sequence
  cutoffBefore : s.expireBeforeMs ≤ time

theorem HistoryAt.normalized (h : HistoryAt anchor time s) : s.validateNormalized = .ok () :=
  RecoverySnapshot.validateNormalized_ok.mpr ⟨h.valid, h.exact⟩

/-- The page the live tail is rolled into, as the registry of the next commit refers to it. -/
def RollsInto (previous : RecoverySnapshot) (cutoff : Int) (enclosing : V3AnchorState) (ordinal : ℕ) :
    Option RecoveryPageRef → Prop
  | none => (previous.expire cutoff).tail.length ≠ maxRecoveryTailRecords
  | some page => (previous.expire cutoff).tail.length = maxRecoveryTailRecords ∧
      (previous.expire cutoff).pages.length < maxRecoveryPages ∧
      page.location = .exact enclosing ordinal 0 ∧
      RecoveryPage.claims ⟨(previous.expire cutoff).tail⟩ = .ok page.claims

section Advance

variable {parent enclosing : V3AnchorState} {time : Int} {previous : RecoverySnapshot} {cutoff : Int}
  {point : RecoveryPoint} {rolled : Option RecoveryPageRef} {ordinal : ℕ}

theorem HistoryAt.expire (h : HistoryAt parent time previous) (hc : previous.expireBeforeMs ≤ cutoff) :
    SnapshotValid (previous.expire cutoff) :=
  h.valid.expire (le_trans h.valid.cutoff hc)

/-- The last point of the rolled page is the last of the live tail. -/
theorem rolled_last_lt (h : HistoryAt parent time previous)
    (hc : RecoveryPage.claims ⟨(previous.expire cutoff).tail⟩ = .ok claims) :
    claims.lastSequence < parent.sequence := by
  obtain ⟨-, -, first, last, -, hl, rfl⟩ := RecoveryPage.claims_ok.mp hc
  have hmem : last ∈ (previous.expire cutoff).tail := mem_of_getLast? hl
  exact (h.tailBefore last (mem_of_mem_filter hmem)).1

/-- A rolled page is a well-formed reference. -/
theorem rolled_valid (h : HistoryAt parent time previous) (henc : validateAnchor enclosing = .ok ())
    (hord : validateOrdinal ordinal = .ok ()) (hnext : parent.sequence.checkedNext = some enclosing.sequence)
    (hr : RollsInto previous cutoff enclosing ordinal (some page)) :
    PageRefValid page := by
  obtain ⟨-, -, hloc, hclaims⟩ := hr
  refine ⟨RecoveryPage.claims_valid hclaims, ?_⟩
  have hlast := rolled_last_lt h hclaims
  have hget := U64.checkedNext_get hnext
  have hlt : page.claims.lastSequence < enclosing.sequence := by
    rw [U64.lt_def] at hlast ⊢
    omega
  simp only [validateLocation, hloc, ok_iff, capacity]
  exact ⟨(), henc, (), hord, by decide, hlt⟩

/-- The live tail is rolled into a page exactly when it is full. -/
def RollsTail (previous : RecoverySnapshot) (cutoff : Int) : Option RecoveryPageRef → Prop
  | none => (previous.expire cutoff).tail.length ≠ maxRecoveryTailRecords
  | some page => (previous.expire cutoff).tail.length = maxRecoveryTailRecords ∧
      (previous.expire cutoff).pages.length < maxRecoveryPages ∧
      RecoveryPage.claims ⟨(previous.expire cutoff).tail⟩ = .ok page.claims

variable (h : HistoryAt parent time previous) (hc : previous.expireBeforeMs ≤ cutoff)
  (hpoint : validatePoint point = .ok ()) (hanchor : point.anchor = parent) (htime : point.publishTimeMs = time)
  (hlive : cutoff < point.protectedUntilMs)

include h hc hpoint hanchor htime hlive

/-- **The advanced registry is well formed**, wherever the rolled page is. -/
theorem HistoryAt.advance_wellFormed (hr : RollsTail previous cutoff rolled)
    (hpv : ∀ page ∈ rolled, PageRefValid page) : SnapshotValid (previous.advance cutoff rolled point) := by
  have hex := h.expire hc
  have hbefore : ∀ q ∈ (previous.expire cutoff).tail, q.Before point := by
    intro q hq
    have hq' := h.tailBefore q (mem_of_mem_filter hq)
    rw [← hanchor, ← htime] at hq'
    exact hq'
  have hpagesBefore : ∀ page ∈ (previous.expire cutoff).pages, page.claims.lastSequence < point.anchor.sequence := by
    intro page hp
    rw [hanchor]
    exact h.pagesBefore page (mem_of_mem_filter hp)
  have hnew : ∀ q ∈ [point], cutoff < q.protectedUntilMs := forall_mem_singleton.mpr hlive
  cases rolled with
  | none =>
    have hlen : (previous.expire cutoff).tail.length ≠ maxRecoveryTailRecords := hr
    have hmax := hex.tailLength
    refine ⟨hex.pagesLength, ?_, hex.tail.append_singleton hpoint hbefore, hex.cutoff,
      forall_mem_append.mpr ⟨hex.tailLive, hnew⟩, hex.pages, hex.order, fun page hp => ?_⟩
    · simp only [RecoverySnapshot.advance, length_append, length_singleton]
      omega
    · exact forall_mem_append.mpr ⟨hex.bridge page hp, forall_mem_singleton.mpr (hpagesBefore page hp)⟩
  | some page =>
    obtain ⟨hfull, hpages, hclaims⟩ := hr
    obtain ⟨-, -, first, last, hf, -, hcl⟩ := RecoveryPage.claims_ok.mp hclaims
    have hfirst : first ∈ (previous.expire cutoff).tail := mem_of_mem_head? hf
    have hlastpage := rolled_last_lt h hclaims
    refine ⟨?_, ?_, ?_, hex.cutoff, hnew, ?_, ?_, ?_⟩
    · simp only [RecoverySnapshot.advance, length_append, length_singleton]
      omega
    · show 1 ≤ maxRecoveryTailRecords
      decide
    · exact ⟨forall_mem_singleton.mpr hpoint, pairwise_singleton _ _⟩
    · -- the whole live tail outlives the cutoff
      have h1 : cutoff < first.protectedUntilMs := hex.tailLive first hfirst
      have h2 := RecoveryPage.deadline_le hclaims hfirst
      exact forall_mem_append.mpr
        ⟨hex.pages, forall_mem_singleton.mpr ⟨hpv page rfl, lt_of_lt_of_le h1 h2⟩⟩
    · show ((previous.expire cutoff).pages ++ [page]).Pairwise RecoveryPageRef.Before
      rw [pairwise_append]
      refine ⟨hex.order, pairwise_singleton _ _, fun p hp => forall_mem_singleton.mpr ?_⟩
      rw [RecoveryPageRef.Before, hcl]
      exact hex.bridge p hp first hfirst
    · have hnewest : ∀ p ∈ (previous.expire cutoff).pages ++ [page], p.claims.lastSequence < point.anchor.sequence :=
        forall_mem_append.mpr ⟨hpagesBefore, forall_mem_singleton.mpr (hanchor ▸ hlastpage)⟩
      exact fun p hp => forall_mem_singleton.mpr (hnewest p hp)

variable (henc : validateAnchor enclosing = .ok ()) (hord : validateOrdinal ordinal = .ok ())
  (hnext : parent.sequence.checkedNext = some enclosing.sequence)
  (hr : RollsInto previous cutoff enclosing ordinal rolled)

include henc hord hnext hr

theorem HistoryAt.advance_valid : SnapshotValid (previous.advance cutoff rolled point) := by
  cases rolled with
  | none =>
    refine h.advance_wellFormed hc hpoint hanchor htime hlive hr ?_
    exact fun page hpage => absurd hpage (Option.not_mem_none page)
  | some page =>
    have hpv := rolled_valid h henc hord hnext hr
    obtain ⟨hfull, hpages, -, hclaims⟩ := hr
    refine h.advance_wellFormed hc hpoint hanchor htime hlive ⟨hfull, hpages, hclaims⟩ ?_
    intro q hq
    rw [← Option.mem_some.mp hq]
    exact hpv

/-- **The advanced registry is the history of the next commit.** -/
theorem HistoryAt.advance (htime' : time < time') (hcut : cutoff ≤ time') :
    HistoryAt enclosing time' (previous.advance cutoff rolled point) := by
  have hlt := U64.lt_checkedNext hnext
  have htail : ∀ q ∈ (previous.expire cutoff).tail,
      q.anchor.sequence < enclosing.sequence ∧ q.publishTimeMs < time' := by
    intro q hq
    obtain ⟨h1, h2⟩ := h.tailBefore q (mem_of_mem_filter hq)
    exact ⟨Nat.lt_trans h1 hlt, lt_trans h2 htime'⟩
  have hnew : ∀ q ∈ [point], q.anchor.sequence < enclosing.sequence ∧ q.publishTimeMs < time' := by
    rw [forall_mem_singleton, hanchor, htime]
    exact ⟨hlt, htime'⟩
  have hpages : ∀ page ∈ (previous.expire cutoff).pages, page.claims.lastSequence < enclosing.sequence :=
    fun page hp => Nat.lt_trans (h.pagesBefore page (mem_of_mem_filter hp)) hlt
  have hexact : ∀ page ∈ (previous.expire cutoff).pages, page.location.isExact = true :=
    fun page hp => h.exact page (mem_of_mem_filter hp)
  have hvalid := h.advance_valid hc hpoint hanchor htime hlive henc hord hnext hr
  cases rolled with
  | none => exact ⟨hvalid, hexact, forall_mem_append.mpr ⟨htail, hnew⟩, hpages, hcut⟩
  | some page =>
    obtain ⟨-, -, hloc, hclaims⟩ := hr
    refine ⟨hvalid, forall_mem_append.mpr ⟨hexact, ?_⟩, hnew, forall_mem_append.mpr ⟨hpages, ?_⟩, hcut⟩
    · rw [forall_mem_singleton, hloc]
      rfl
    · exact forall_mem_singleton.mpr (Nat.lt_trans (rolled_last_lt h hclaims) hlt)

end Advance

end Rs3.Recovery
