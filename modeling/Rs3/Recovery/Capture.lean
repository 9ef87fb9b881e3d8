/-
# Rs3.Recovery.Capture — a captured transition applies to the registry it was captured from.

`apply_delta` repeats, step by step and with its own checks, what `CapturedRecoveryPublication::new` decided in one go.  Here
the two are shown to agree for every accepted predecessor: the captured delta applies, its result is the
advanced registry, and the snapshot of a root normalises to exactly that result.
-/
import Rs3.Recovery.Publication

namespace Rs3.Recovery

open RecoverySection

section

variable {sha256 : List UInt8 → Digest} {plan : V3PublicationPlan} {prev : AcceptedRecoveryState}
  {policy : RecoveryPolicy} {isRoot : Bool} {cap : CapturedRecoveryPublication} {cutoff : Int} {point : RecoveryPoint}
  {captured : RecoverySection} {previous : RecoverySnapshot} {relative : Option RecoveryPageRef}

/-! ## What capturing decides -/

/-- What a captured section holds.  `relative` is the page the live tail is rolled into, as the section itself
refers to it. -/
structure CapturedShape (previous : RecoverySnapshot) (cutoff : Int) (point : RecoveryPoint) (isRoot : Bool)
    (relative : Option RecoveryPageRef) (captured : RecoverySection) : Prop where
  register : captured.delta.register = some point
  expire : captured.delta.expireBeforeMs = if previous.expireBeforeMs < cutoff then some cutoff else none
  snapshot : captured.snapshot = if isRoot then some (previous.advance cutoff relative point) else none
  plain : relative = none → (previous.expire cutoff).tail.length ≠ maxRecoveryTailRecords ∧
    captured.delta.rollTail = none
  rolled : ∀ page ∈ relative, (previous.expire cutoff).tail.length = maxRecoveryTailRecords ∧
    (previous.expire cutoff).pages.length < maxRecoveryPages ∧ captured.delta.rollTail = some 0 ∧
    captured.localPages = [⟨(previous.expire cutoff).tail⟩] ∧ page.location = .thisSection 0 ∧
    RecoveryPage.claims ⟨(previous.expire cutoff).tail⟩ = .ok page.claims

/-- A section whose only page is valid knows the page's claims. -/
theorem validate_singlePage {page : RecoveryPage} (h : captured.validate = .ok ())
    (hp : captured.localPages = [page]) : ∃ claims, page.claims = .ok claims := by
  simp only [validate, bind_eq_ok, hp, validateLocalPages] at h
  obtain ⟨-, -, -, -, -, -, -, ⟨claims, hclaims, -⟩, -⟩ := h
  exact ⟨claims, hclaims⟩

theorem captureSection_shape (h : captureSection previous cutoff point policy isRoot = .ok captured)
    (hvalid : captured.validate = .ok ()) :
    ∃ relative, CapturedShape previous cutoff point isRoot relative captured := by
  by_cases hfull : (previous.expire cutoff).tail.length = maxRecoveryTailRecords
  · simp only [captureSection, if_pos hfull, ok_iff] at h
    obtain ⟨hpages, h⟩ := h
    cases isRoot
    case' true =>
      simp only [if_true, ok_iff] at h
      obtain ⟨claims, hclaims, rfl⟩ := h
    case' false =>
      simp only [Bool.false_eq_true, if_false, pure_eq_ok] at h
      subst h
      obtain ⟨claims, hclaims⟩ := validate_singlePage hvalid rfl
    all_goals
      refine ⟨some ⟨.thisSection 0, claims⟩, rfl, rfl, rfl, ?_, ?_⟩
      · intro hn
        cases hn
      · intro page hp
        cases hp
        exact ⟨hfull, hpages, rfl, rfl, rfl, hclaims⟩
  · simp only [captureSection, if_neg hfull, Except.ok.injEq] at h
    subst h
    exact ⟨none, rfl, rfl, rfl, fun _ => ⟨hfull, rfl⟩, by simp⟩

/-- Everything a captured publication has passed. -/
structure CaptureFacts (sha256 : List UInt8 → Digest) (plan : V3PublicationPlan)
    (prev : AcceptedRecoveryState) (policy : RecoveryPolicy) (isRoot : Bool)
    (cap : CapturedRecoveryPublication) (cutoff : Int) (point : RecoveryPoint)
    (relative : Option RecoveryPageRef) : Prop where
  chosen : publicationCutoffMs plan prev policy = .ok cutoff
  anchor : point.anchor = plan.parent
  time : point.publishTimeMs = plan.parentPublishTimeMs
  shape : CapturedShape prev.snapshot cutoff point isRoot relative cap.capturedSection
  valid : cap.capturedSection.validate = .ok ()
  pointValid : validatePoint point = .ok ()
  parentBefore : plan.parentPublishTimeMs < plan.publishTimeMs
  promised : plan.publishTimeMs < point.protectedUntilMs
  expire : ∀ c ∈ cap.capturedSection.delta.expireBeforeMs, c ≤ plan.publishTimeMs
  publication : cap.publication = plan
  previous : cap.previous = prev
  governs : cap.currentPolicy = policy

theorem captured_facts (h : CapturedRecoveryPublication.new sha256 plan prev policy isRoot = .ok cap) :
    ∃ cutoff point relative, CaptureFacts sha256 plan prev policy isRoot cap cutoff point relative := by
  simp only [CapturedRecoveryPublication.new, ok_iff] at h
  obtain ⟨cutoff, hcut, _, -, _, -, promised, -, captured, hcap, _, hvalid, rfl⟩ := h
  simp only [validateForCommit, validateForHeader, ok_iff, Option.map_some] at hvalid
  obtain ⟨_, ⟨_, hval, ⟨-, -, hexp, -⟩, hbind⟩, -⟩ := hvalid
  obtain ⟨relative, hshape⟩ := captureSection_shape hcap hval
  have hregister := hshape.register
  simp only [validateBinding, hregister, validateChild, ok_iff] at hbind
  obtain ⟨⟨-, -, -, -, hbefore, hpromised⟩, -⟩ := hbind
  have hpoint := hval
  simp only [validate, bind_eq_ok, hregister, validateRegister] at hpoint
  obtain ⟨-, -, -, -, _, hp, -⟩ := hpoint
  exact ⟨cutoff, _, relative, hcut, rfl, rfl, hshape, hval, hp, hbefore, hpromised, hexp, rfl, rfl, rfl⟩

theorem publicationCutoff_ge (h : publicationCutoffMs plan prev policy = .ok cutoff) :
    prev.snapshot.expireBeforeMs ≤ cutoff := by
  simp only [publicationCutoffMs, ok_iff] at h
  obtain ⟨proposed, -, rfl⟩ := h
  exact le_max_right _ _

/-- The cutoff is within the publication time, whether or not it moved. -/
theorem CaptureFacts.cutoff_le (f : CaptureFacts sha256 plan prev policy isRoot cap cutoff point relative)
    (h : HistoryAt plan.parent plan.parentPublishTimeMs prev.snapshot) : cutoff ≤ plan.publishTimeMs := by
  have hexp := f.expire
  rw [f.shape.expire] at hexp
  by_cases hlt : prev.snapshot.expireBeforeMs < cutoff
  · rw [if_pos hlt] at hexp
    exact hexp cutoff rfl
  · have h1 := h.cutoffBefore
    have h2 := f.parentBefore
    omega

/-! ## What applying does -/

/-- Expiring through the delta, whether it names the cutoff or not. -/
theorem applyExpire_captured (hv : SnapshotValid previous) (hc : previous.expireBeforeMs ≤ cutoff)
    (hd : captured.delta.expireBeforeMs = if previous.expireBeforeMs < cutoff then some cutoff else none) :
    captured.applyExpire previous = .ok (previous.expire cutoff) := by
  unfold applyExpire
  rw [hd]
  by_cases hlt : previous.expireBeforeMs < cutoff
  · rw [if_pos hlt]
    simp only [ensure_of hc, ok_bind]
    rfl
  · have heq : cutoff = previous.expireBeforeMs := by omega
    rw [if_neg hlt, heq, hv.expire_self]

variable {s : RecoverySnapshot}

theorem normalizeReferences_exact (h : ∀ page ∈ pages, page.location.isExact = true) (rest : List RecoveryPageRef) :
    captured.normalizeReferences enclosing ordinal (pages ++ rest) =
      (captured.normalizeReferences enclosing ordinal rest).map (pages ++ ·) := by
  induction pages with
  | nil =>
    rw [List.nil_append]
    cases captured.normalizeReferences enclosing ordinal rest <;> rfl
  | cons page pages ih =>
    have hpage : captured.normalizeReference enclosing ordinal page = .ok page := by
      have hex := h page (by simp)
      unfold normalizeReference
      split
      · rename_i hloc
        rw [hloc] at hex
        cases hex
      · rfl
    rw [List.cons_append, normalizeReferences, hpage, ok_bind, ih fun p hp => h p (List.mem_cons_of_mem _ hp)]
    cases captured.normalizeReferences enclosing ordinal rest <;> rfl

variable {enclosing : V3AnchorState} {ordinal : ℕ}

theorem normalizeSnapshot_of (henc : validateAnchor enclosing = .ok ()) (hord : validateOrdinal ordinal = .ok ())
    (hrefs : captured.normalizeReferences enclosing ordinal s.pages = .ok pages)
    (hnorm : RecoverySnapshot.validateNormalized { s with pages := pages } = .ok ()) :
    captured.normalizeSnapshot s enclosing ordinal = .ok { s with pages := pages } := by
  rw [normalizeSnapshot, henc, ok_bind, hord, ok_bind, hrefs, ok_bind, hnorm, ok_bind]
  rfl

/-- The stages of `apply_delta`, one after the other. -/
theorem applyDelta_of (hvalid : captured.validate = .ok ())
    (hprev : previous.validateNormalized = .ok ()) (henc : validateAnchor enclosing = .ok ())
    (hord : validateOrdinal ordinal = .ok ())
    (hseq : ∀ p ∈ captured.delta.register, p.anchor.sequence.checkedNext = some enclosing.sequence)
    (hexpire : captured.applyExpire previous = .ok expired)
    (hroll : captured.applyRoll enclosing ordinal expired = .ok rolled)
    (hregister : captured.applyRegister rolled = .ok next) (hnorm : next.validateNormalized = .ok ())
    (hsnap : ∀ s ∈ captured.snapshot, captured.normalizeSnapshot s enclosing ordinal = .ok next) :
    captured.applyDelta previous enclosing ordinal = .ok next := by
  have hcheck : captured.checkSnapshot enclosing ordinal next = .ok () := by
    unfold checkSnapshot
    split
    · rfl
    · rename_i s hs
      rw [hsnap s hs, ok_bind]
      exact ensure_of rfl
  rw [applyDelta, hvalid, ok_bind, hprev, ok_bind, henc, ok_bind, hord, ok_bind,
    ensure_of hseq, ok_bind, hexpire, ok_bind, hroll, ok_bind, hregister, ok_bind, hnorm, ok_bind, hcheck, ok_bind]
  rfl

theorem applyDelta_ok (h : captured.applyDelta previous enclosing ordinal = .ok next) :
    captured.validate = .ok () ∧ validateAnchor enclosing = .ok () ∧ validateOrdinal ordinal = .ok () ∧
      (∀ p ∈ captured.delta.register, p.anchor.sequence.checkedNext = some enclosing.sequence) ∧
      captured.checkSnapshot enclosing ordinal next = .ok () := by
  simp only [applyDelta, ok_iff] at h
  obtain ⟨_, hvalid, _, -, _, henc, _, hord, hseq, _, -, _, -, _, -, _, -, _, hcheck, rfl⟩ := h
  exact ⟨hvalid, henc, hord, hseq, hcheck⟩

theorem normalizedSnapshot_of (hvalid : captured.validate = .ok ()) (hs : captured.snapshot = some s)
    (hsnap : captured.normalizeSnapshot s enclosing ordinal = .ok next) :
    captured.normalizedSnapshot enclosing ordinal = .ok (some next) := by
  rw [normalizedSnapshot, hvalid, ok_bind, hs]
  simp only [hsnap, ok_bind]
  rfl

/-- The reference to the rolled page in the registry of the next commit. -/
def exactPage (enclosing : V3AnchorState) (ordinal : ℕ) (page : RecoveryPageRef) : RecoveryPageRef :=
  { page with location := .exact enclosing ordinal 0 }

theorem CapturedShape.rollsInto (h : CapturedShape previous cutoff point isRoot relative captured) :
    RollsInto previous cutoff enclosing ordinal (relative.map (exactPage enclosing ordinal)) := by
  cases relative with
  | none => exact (h.plain rfl).1
  | some page =>
    obtain ⟨hfull, hpages, -, -, -, hclaims⟩ := h.rolled page rfl
    exact ⟨hfull, hpages, rfl, hclaims⟩

theorem CapturedShape.page_zero (h : CapturedShape previous cutoff point isRoot relative captured)
    {page : RecoveryPageRef} (hp : page ∈ relative) :
    captured.page 0 = .ok ⟨(previous.expire cutoff).tail⟩ := by
  obtain ⟨-, -, -, hlocal, -⟩ := h.rolled page hp
  rw [RecoverySection.page, hlocal]
  rfl

/-- The relative reference of the snapshot becomes the exact one. -/
theorem CapturedShape.normalizeReferences (h : CapturedShape previous cutoff point isRoot relative captured)
    (hexact : ∀ page ∈ (previous.expire cutoff).pages, page.location.isExact = true) :
    captured.normalizeReferences enclosing ordinal (previous.advance cutoff relative point).pages =
      .ok (previous.advance cutoff (relative.map (exactPage enclosing ordinal)) point).pages := by
  cases relative with
  | none =>
    have hrefs : captured.normalizeReferences enclosing ordinal ((previous.expire cutoff).pages ++ []) =
        .ok ((previous.expire cutoff).pages ++ []) := normalizeReferences_exact hexact []
    rw [List.append_nil] at hrefs
    exact hrefs
  | some page =>
    obtain ⟨-, -, -, -, hloc, hclaims⟩ := h.rolled page rfl
    have hone : captured.normalizeReference enclosing ordinal page = .ok (exactPage enclosing ordinal page) := by
      have hverify : page.verifyPage ⟨(previous.expire cutoff).tail⟩ = .ok () :=
        RecoveryPageRef.verifyPage_ok.mpr hclaims
      simp only [normalizeReference, hloc, h.page_zero rfl, ok_bind, hverify]
      rfl
    refine (normalizeReferences_exact hexact [page]).trans ?_
    rw [normalizeReferences, hone]
    rfl

/-- Rolling and registering through the delta. -/
theorem CapturedShape.applyRoll (h : CapturedShape previous cutoff point isRoot relative captured)
    (hmax : (previous.expire cutoff).tail.length ≤ maxRecoveryTailRecords) :
    ∃ rolled, captured.applyRoll enclosing ordinal (previous.expire cutoff) = .ok rolled ∧
      captured.applyRegister rolled =
        .ok (previous.advance cutoff (relative.map (exactPage enclosing ordinal)) point) := by
  cases hrel : relative with
  | none =>
    obtain ⟨hfull, hroll⟩ := h.plain hrel
    have hcap : capacity ((previous.expire cutoff).tail.length + 1) maxRecoveryTailRecords = .ok () :=
      ensure_of (by omega)
    refine ⟨previous.expire cutoff, ?_, ?_⟩
    · rw [RecoverySection.applyRoll, hroll]
    · simp only [RecoverySection.applyRegister, h.register, hcap, ok_bind]
      rfl
  | some page =>
    obtain ⟨hfull, hpages, hroll, -, -, hclaims⟩ := h.rolled page hrel
    have hne : (previous.expire cutoff).tail ≠ [] := by
      intro hnil
      rw [hnil] at hfull
      cases hfull
    have hcap : capacity ((previous.expire cutoff).pages.length + 1) maxRecoveryPages = .ok () := ensure_of hpages
    refine ⟨⟨(previous.expire cutoff).pages ++ [exactPage enclosing ordinal page], [], cutoff⟩, ?_, ?_⟩
    · simp only [RecoverySection.applyRoll, hroll, h.page_zero hrel, ok_bind, hcap, hclaims]
      rw [ensure_of ⟨trivial, hne⟩]
      rfl
    · simp only [applyRegister, h.register]
      rfl

/-- **Applying a captured delta.**  With the predecessor's registry it gives the advanced registry, which is what
a root's own snapshot normalises to. -/
theorem applyDelta_captured (h : HistoryAt plan.parent plan.parentPublishTimeMs prev.snapshot)
    (f : CaptureFacts sha256 plan prev policy isRoot cap cutoff point relative)
    (henc : validateAnchor enclosing = .ok ()) (hord : validateOrdinal ordinal = .ok ())
    (hnext : plan.parent.sequence.checkedNext = some enclosing.sequence) :
    let next := prev.snapshot.advance cutoff (relative.map (exactPage enclosing ordinal)) point
    cap.capturedSection.applyDelta prev.snapshot enclosing ordinal = .ok next ∧
      (isRoot = true → cap.capturedSection.normalizedSnapshot enclosing ordinal = .ok (some next)) ∧
      HistoryAt enclosing plan.publishTimeMs next := by
  intro next
  have hc := publicationCutoff_ge f.chosen
  have hcut := f.cutoff_le h
  have hlive : cutoff < point.protectedUntilMs := lt_of_le_of_lt hcut f.promised
  have hhist : HistoryAt enclosing plan.publishTimeMs next :=
    h.advance hc f.pointValid f.anchor f.time hlive henc hord hnext f.shape.rollsInto f.parentBefore hcut
  have hexact : ∀ page ∈ (prev.snapshot.expire cutoff).pages, page.location.isExact = true :=
    fun page hp => h.exact page (List.mem_of_mem_filter hp)
  have hsnap : cap.capturedSection.normalizeSnapshot (prev.snapshot.advance cutoff relative point) enclosing
      ordinal = .ok next := by
    have hpages : RecoverySnapshot.mk next.pages (prev.snapshot.advance cutoff relative point).tail
        (prev.snapshot.advance cutoff relative point).expireBeforeMs = next := by
      cases hrel : relative <;> simp only [next, hrel] <;> rfl
    have hnorm := hhist.normalized
    rw [← hpages] at hnorm ⊢
    exact normalizeSnapshot_of henc hord (f.shape.normalizeReferences hexact) hnorm
  have hseq : ∀ p ∈ cap.capturedSection.delta.register, p.anchor.sequence.checkedNext = some enclosing.sequence := by
    intro p hp
    rw [f.shape.register] at hp
    cases hp
    rw [f.anchor]
    exact hnext
  obtain ⟨rolled, hroll, hregister⟩ := f.shape.applyRoll (h.expire hc).tailLength
  refine ⟨?_, ?_, hhist⟩
  · refine applyDelta_of f.valid h.normalized henc hord hseq
      (applyExpire_captured h.valid hc f.shape.expire) hroll hregister hhist.normalized ?_
    intro s hs
    rw [f.shape.snapshot] at hs
    -- only a root section carries a snapshot to compare with
    cases isRoot with
    | true =>
      cases hs
      exact hsnap
    | false => cases hs
  · rintro rfl
    exact normalizedSnapshot_of f.valid f.shape.snapshot hsnap

end

end Rs3.Recovery
