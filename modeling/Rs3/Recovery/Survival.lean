/-
# Rs3.Recovery.Survival — no recovery point is lost before its deadline.

A registered point is a promise with a fixed deadline.  It enters the registry in the tail, may be rolled into a
page of a later commit, and leaves only when the cutoff has passed its deadline.  The cutoff itself never moves
back and never passes a sampled clock minus that sample's uncertainty.
-/
import Rs3.Recovery.RootCut

namespace Rs3.Recovery

open List

open Repository (V3CommitKey)

/-- The commit's transition registers this point. -/
def Registers (commit : V3ReplayCommit) (point : RecoveryPoint) : Prop :=
  ∃ ordinal history, commit.recovery = some (ordinal, history) ∧ history.delta.register = some point

/-- The point is in the tail or in a page the registry refers to, read back from its carrier. -/
def Held (stored : List V3ReplayCommit) (snapshot : RecoverySnapshot) (point : RecoveryPoint) : Prop :=
  point ∈ snapshot.tail ∨
    ∃ page ∈ snapshot.pages, ∃ content, readRecoveryPage stored page = .ok content ∧ point ∈ content.points

section

variable {sha256 : List UInt8 → Digest} {formatRef : V3FormatRef} {options : V3CommitStoreOptions}

/-! ## Reading pages in a growing store -/

theorem validateAnchor_key (h : validateAnchor anchor = .ok ()) :
    ∃ key, V3CommitKey.parse anchor.commitKey = .ok key ∧ key.sequence = anchor.sequence := by
  simp only [validateAnchor, ok_iff] at h
  obtain ⟨key, hkey, ⟨-, hseq⟩, -⟩ := h
  refine ⟨key, ?_, hseq⟩
  cases hparse : V3CommitKey.parse anchor.commitKey with
  | error e =>
    rw [hparse] at hkey
    cases hkey
  | ok found =>
    rw [hparse] at hkey
    cases hkey
    rfl

/-- Valid anchors with one key have one sequence. -/
theorem sequence_eq_of_key (ha : validateAnchor a = .ok ())
    (hb : validateAnchor b = .ok ()) (h : a.commitKey = b.commitKey) : a.sequence = b.sequence := by
  obtain ⟨ka, hka, hsa⟩ := validateAnchor_key ha
  obtain ⟨kb, hkb, hsb⟩ := validateAnchor_key hb
  rw [h, hkb] at hka
  rw [← hsa, ← hsb, Except.ok.inj hka]

variable {stored : List V3ReplayCommit} {samples : List PublicationSample}

variable {commit : V3ReplayCommit} {page : RecoveryPageRef} {policy : RecoveryPolicy}

/-- A newer commit does not hide the carrier of an older page. -/
theorem readRecoveryPage_cons
    (hcommit : validateAnchor (commit.anchorState formatRef) = .ok ()) (hpage : PageRefValid page)
    (hbefore : page.location.notAfter last = true) (hlast : last < commit.header.selfRef.sequence) :
    readRecoveryPage (commit :: stored) page = readRecoveryPage stored page := by
  unfold readRecoveryPage
  cases hloc : page.location with
  | thisSection index => rfl
  | exact anchor ordinal index =>
    have hvalid := hpage.location
    simp only [validateLocation, hloc, bind_eq_ok] at hvalid
    obtain ⟨_, hanchor, -⟩ := hvalid
    rw [hloc] at hbefore
    have hle : anchor.sequence ≤ last := of_decide_eq_true hbefore
    have hmiss : ¬ (commit.header.selfRef.commitKey = anchor.commitKey ∧ commit.versionId = anchor.versionId) := by
      rintro ⟨hkey, -⟩
      have hseq : commit.header.selfRef.sequence = anchor.sequence := sequence_eq_of_key hcommit hanchor hkey
      rw [U64.le_def] at hle
      rw [U64.lt_def, hseq] at hlast
      omega
    simp only [List.find?_cons, hmiss, decide_false]

variable {ordinal : ℕ} {content : RecoveryPage} {plan : V3PublicationPlan} {cutoff : Int} {head : V3ReplayCommit}
  {older : List V3ReplayCommit} {state : AcceptedRecoveryState}

/-- The page just rolled is read from its own commit. -/
theorem readRecoveryPage_rolled
    (hrec : commit.recovery = some (ordinal, history)) (hpage : history.page 0 = .ok content)
    (hclaims : content.claims = .ok page.claims) :
    readRecoveryPage (commit :: stored) (exactPage (commit.anchorState formatRef) ordinal page) = .ok content := by
  have hverify : (exactPage (commit.anchorState formatRef) ordinal page).verifyPage content = .ok () :=
    RecoveryPageRef.verifyPage_ok.mpr hclaims
  have hfacts : decodeRecoveryPage (exactPage (commit.anchorState formatRef) ordinal page) commit = .ok content := by
    simp only [decodeRecoveryPage, exactPage, hrec, okOr, ok_bind, hpage]
    rw [ensure_of ⟨rfl, rfl, rfl, rfl, rfl⟩, ok_bind, ensure_of trivial, ok_bind]
    simp only [exactPage] at hverify
    rw [hverify, ok_bind]
    rfl
  have hfind : (commit :: stored).find? (fun found =>
      found.header.selfRef.commitKey = (commit.anchorState formatRef).commitKey ∧
        found.versionId = (commit.anchorState formatRef).versionId) = some commit :=
    List.find?_cons_of_pos (decide_eq_true ⟨rfl, rfl⟩)
  simp only [readRecoveryPage, exactPage, hfind, okOr, ok_bind]
  exact hfacts

theorem readRecoveryPage_claims
    (h : readRecoveryPage stored page = .ok content) : content.claims = .ok page.claims := by
  unfold readRecoveryPage at h
  cases hloc : page.location with
  | thisSection index =>
    rw [hloc] at h
    cases h
  | exact anchor ordinal index =>
    simp only [hloc, bind_eq_ok, decodeRecoveryPage, pure_eq_ok] at h
    obtain ⟨_, -, _, -, _, -, _, -, page', -, _, hverify, rfl⟩ := h
    exact RecoveryPageRef.verifyPage_ok.mp hverify

/-! ## One publication -/

theorem RecoverySnapshot.advance_expire (previous : RecoverySnapshot) (cutoff : Int)
    (rolled : Option RecoveryPageRef) (point : RecoveryPoint) :
    (previous.advance cutoff rolled point).expireBeforeMs = cutoff := by
  cases rolled <;> rfl

section Step

variable {commit : V3ReplayCommit} {stored : List V3ReplayCommit} {previous : RecoverySnapshot} {cutoff : Int}
  {rolled : Option RecoveryPageRef} {point p : RecoveryPoint}

variable (hread : ∀ page ∈ previous.pages, readRecoveryPage (commit :: stored) page = readRecoveryPage stored page)
  (hrolled : ∀ page ∈ rolled, readRecoveryPage (commit :: stored) page = .ok ⟨(previous.expire cutoff).tail⟩)

include hread hrolled

/-- A held point whose deadline the cutoff has not reached is held after the publication. -/
theorem Held.advance (h : Held stored previous p) (hlive : cutoff < p.protectedUntilMs) :
    Held (commit :: stored) (previous.advance cutoff rolled point) p := by
  rcases h with htail | ⟨page, hpage, content, hcontent, hp⟩
  · -- a live tail point stays in the tail or moves into the rolled page
    have hmem : p ∈ (previous.expire cutoff).tail := mem_filter.mpr ⟨htail, decide_eq_true hlive⟩
    cases rolled with
    | none => exact Or.inl (mem_append_left _ hmem)
    | some page => exact Or.inr ⟨page, mem_append_right _ (by simp), _, hrolled page rfl, hmem⟩
  · -- the page's greatest deadline is at least that of the point
    have hmax := RecoveryPage.deadline_le (readRecoveryPage_claims hcontent) hp
    have hkept : page ∈ (previous.expire cutoff).pages :=
      mem_filter.mpr ⟨hpage, decide_eq_true (lt_of_lt_of_le hlive hmax)⟩
    have hcontent' := hcontent
    rw [← hread page hpage] at hcontent'
    refine Or.inr ⟨page, ?_, content, hcontent', hp⟩
    cases rolled with
    | none => exact hkept
    | some page' => exact mem_append_left _ hkept

/-- A publication adds its own point to the held ones, and no other. -/
theorem Held.of_advance (h : Held (commit :: stored) (previous.advance cutoff rolled point) p) :
    p = point ∨ Held stored previous p := by
  have hold : ∀ page ∈ (previous.expire cutoff).pages, ∀ content,
      readRecoveryPage (commit :: stored) page = .ok content → p ∈ content.points → Held stored previous p := by
    intro page hpage content hcontent hp
    have hmem := mem_of_mem_filter hpage
    rw [hread page hmem] at hcontent
    exact Or.inr ⟨page, hmem, content, hcontent, hp⟩
  cases rolled with
  | none =>
    rcases h with htail | ⟨page, hpage, content, hcontent, hp⟩
    · rcases mem_append.mp htail with htail | hpoint
      · exact Or.inr (Or.inl (mem_of_mem_filter htail))
      · exact Or.inl (mem_singleton.mp hpoint)
    · exact Or.inr (hold page hpage content hcontent hp)
  | some new =>
    rcases h with hpoint | ⟨page, hpage, content, hcontent, hp⟩
    · exact Or.inl (mem_singleton.mp hpoint)
    · rcases mem_append.mp hpage with hpage | hpage
      · exact Or.inr (hold page hpage content hcontent hp)
      · rw [mem_singleton.mp hpage, hrolled new rfl] at hcontent
        cases hcontent
        exact Or.inr (Or.inl (mem_of_mem_filter hp))

omit hread hrolled in
theorem Held.registered : Held stored (previous.advance cutoff rolled point) point := by
  cases rolled with
  | none => exact Or.inl (mem_append_right _ (by simp))
  | some page => exact Or.inl (by simp [RecoverySnapshot.advance])

end Step

/-- The cutoff is kept, or it is the sampled clock minus the policy's uncertainty. -/
theorem publicationCutoffMs_cases {prev : AcceptedRecoveryState} (h : publicationCutoffMs plan prev policy = .ok cutoff)
    (hprev : 0 ≤ prev.snapshot.expireBeforeMs) :
    cutoff = prev.snapshot.expireBeforeMs ∨ cutoff = plan.sampledNowMs - policy.clockUncertaintyMs := by
  simp only [publicationCutoffMs, ok_iff] at h
  obtain ⟨proposed, hproposed, rfl⟩ := h
  obtain ⟨-, rfl⟩ := RecoveryPolicy.expiryCutoffMs_ok hproposed
  omega

/-! ## Every chain of publications -/

/-- What holds of the registry at the newest commit of an accepted chain. -/
structure SurvivalAt (head : V3ReplayCommit) (older : List V3ReplayCommit) (samples : List PublicationSample)
    (snapshot : RecoverySnapshot) : Prop where
  order : (head :: older).Pairwise fun newer old => old.header.selfRef.sequence < newer.header.selfRef.sequence
  registers : ∀ commit ∈ head :: older, ∀ p, Registers commit p →
    p.anchor.sequence.checkedNext = some commit.header.selfRef.sequence
  carriers : ∀ page ∈ snapshot.pages, page.location.notAfter head.header.selfRef.sequence = true
  live : ∀ commit ∈ head :: older, ∀ p, Registers commit p → snapshot.expireBeforeMs < p.protectedUntilMs →
    Held (head :: older) snapshot p
  recorded : ∀ p, Held (head :: older) snapshot p → ∃ commit ∈ head :: older, Registers commit p
  cutoff : snapshot.expireBeforeMs = 0 ∨
    ∃ sample ∈ samples, snapshot.expireBeforeMs = sample.sampledNowMs - sample.policy.clockUncertaintyMs

theorem genesis_survival
    (hrec : commit.recovery = some (1, genesisSection policy)) : SurvivalAt commit [] [] .default := by
  have hnone : ∀ p, ¬ Registers commit p := by
    rintro p ⟨ordinal, history, hfound, hp⟩
    rw [hrec] at hfound
    cases hfound
    cases hp
  refine ⟨pairwise_singleton _ _, ?_, by simp [RecoverySnapshot.default], ?_, ?_, Or.inl rfl⟩
  · exact forall_mem_singleton.mpr fun p hp => absurd hp (hnone p)
  · exact forall_mem_singleton.mpr fun p hp => absurd hp (hnone p)
  · rintro p (hp | ⟨page, hpage, -⟩)
    · cases hp
    · cases hpage

theorem RecoveryPageLocation.notAfter_mono {location : RecoveryPageLocation}
    (h : location.notAfter a = true) (hab : a < b) : location.notAfter b = true := by
  cases location with
  | thisSection index => rfl
  | exact anchor ordinal index =>
    have hle : anchor.sequence ≤ a := of_decide_eq_true h
    exact decide_eq_true (Nat.le_trans hle (Nat.le_of_lt hab))

/-- **One publication keeps every promise.** -/
theorem SurvivalAt.publish {next : AcceptedRecoveryState} {isRoot : Bool} {capture : CapturedRecoveryPublication}
    {point : RecoveryPoint} {relative : Option RecoveryPageRef}
    (h : SurvivalAt head older samples state.snapshot)
    (hhist : HistoryAt (head.anchorState formatRef) head.header.publishTimeMs state.snapshot)
    (hplan : plan.parent = head.anchorState formatRef)
    (facts : CaptureFacts sha256 plan state policy isRoot capture cutoff point relative)
    (pub : PublishedFacts sha256 formatRef plan state next capture commit ordinal)
    (hadvance : next.snapshot = state.snapshot.advance cutoff
      (relative.map (exactPage (commit.anchorState formatRef) ordinal)) point) :
    SurvivalAt commit (head :: older) (⟨plan.sampledNowMs, policy⟩ :: samples) next.snapshot := by
  obtain ⟨-, hcommit, -, hseq, -⟩ := applyDelta_ok pub.applied
  have hlt : head.header.selfRef.sequence < commit.header.selfRef.sequence := by
    have hnext := U64.lt_checkedNext pub.sequence
    rwa [hplan] at hnext
  have hread : ∀ page ∈ state.snapshot.pages,
      readRecoveryPage (commit :: head :: older) page = readRecoveryPage (head :: older) page :=
    fun page hp => readRecoveryPage_cons hcommit (hhist.valid.pages page hp).1 (h.carriers page hp) hlt
  have hrolled : ∀ page ∈ relative.map (exactPage (commit.anchorState formatRef) ordinal),
      readRecoveryPage (commit :: head :: older) page = .ok ⟨(state.snapshot.expire cutoff).tail⟩ := by
    intro page hp
    obtain ⟨inner, hinner, rfl⟩ := Option.mem_map.mp hp
    obtain ⟨-, -, -, -, -, hclaims⟩ := facts.shape.rolled inner hinner
    exact readRecoveryPage_rolled pub.recovery (facts.shape.page_zero hinner) hclaims
  have honly : ∀ p, Registers commit p → p = point := by
    rintro p ⟨found, history, hfound, hp⟩
    rw [pub.recovery] at hfound
    cases hfound
    rw [facts.shape.register] at hp
    exact (Option.some.inj hp).symm
  have hkeep : state.snapshot.expireBeforeMs ≤ cutoff := publicationCutoff_ge facts.chosen
  rw [hadvance]
  refine ⟨?_, ?_, ?_, ?_, ?_, ?_⟩
  · -- the sequences of the chain
    refine pairwise_cons.mpr ⟨forall_mem_cons.mpr ⟨hlt, fun old hold => ?_⟩, h.order⟩
    exact Nat.lt_trans ((pairwise_cons.mp h.order).1 old hold) hlt
  · refine forall_mem_cons.mpr ⟨fun p hp => ?_, h.registers⟩
    rw [honly p hp]
    exact hseq point facts.shape.register
  · -- the carriers of the pages
    have hold : ∀ page ∈ (state.snapshot.expire cutoff).pages,
        page.location.notAfter commit.header.selfRef.sequence = true := fun page hp =>
      RecoveryPageLocation.notAfter_mono (h.carriers page (mem_of_mem_filter hp)) hlt
    cases relative with
    | none => exact hold
    | some inner =>
      exact forall_mem_append.mpr ⟨hold, forall_mem_singleton.mpr (decide_eq_true (Nat.le_refl _))⟩
  · intro c hc p hp hlive
    rw [RecoverySnapshot.advance_expire] at hlive
    rcases mem_cons.mp hc with rfl | hc
    · rw [honly p hp]
      exact Held.registered
    · exact Held.advance hread hrolled (h.live c hc p hp (lt_of_le_of_lt hkeep hlive)) hlive
  · intro p hp
    rcases Held.of_advance hread hrolled hp with rfl | hold
    · exact ⟨commit, mem_cons_self, ordinal, _, pub.recovery, facts.shape.register⟩
    · obtain ⟨c, hc, hreg⟩ := h.recorded p hold
      exact ⟨c, mem_cons_of_mem _ hc, hreg⟩
  · rw [RecoverySnapshot.advance_expire]
    rcases publicationCutoffMs_cases facts.chosen hhist.valid.cutoff with hsame | hnew
    · rw [hsame]
      rcases h.cutoff with hzero | ⟨sample, hmem, heq⟩
      · exact Or.inl hzero
      · exact Or.inr ⟨sample, mem_cons_of_mem _ hmem, heq⟩
    · exact Or.inr ⟨⟨plan.sampledNowMs, policy⟩, mem_cons_self, hnew⟩

/-- The invariant along every run, with the registries of all earlier states below the cutoff. -/
theorem Accepted.survivalAt (h : Accepted sha256 formatRef chain samples state) :
    ∃ head older, chain = head :: older ∧ SurvivalAt head older samples state.snapshot ∧
      ∀ later earlier, chain = later ++ earlier → earlier ≠ [] →
        ∃ samples' before, Accepted sha256 formatRef earlier samples' before ∧
          before.snapshot.expireBeforeMs ≤ state.snapshot.expireBeforeMs := by
  induction h with
  | @genesis now commit policy hparent hkind hanchor htime hrec =>
    refine ⟨commit, [], rfl, genesis_survival hrec, ?_⟩
    intro later earlier hsplit hne
    cases later with
    | nil =>
      rw [nil_append] at hsplit
      rw [← hsplit]
      exact ⟨[], _, .genesis hparent hkind hanchor htime hrec, le_refl _⟩
    | cons first rest =>
      rw [cons_append, List.cons.injEq, eq_comm (a := [])] at hsplit
      exact absurd (append_eq_nil_iff.mp hsplit.2).2 hne
  | @publish options head commit older samples state next policy plan isRoot capture uploaded now accepted
      format configured prepare captured verified adopted ih =>
    obtain ⟨head', older', heq, hsurvives, hearlier⟩ := ih
    cases heq
    obtain ⟨_, _, heq, hat⟩ := accepted.acceptedAt
    cases heq
    have hprepared := prepare
    simp only [prepareChildPublication, ok_iff] at hprepared
    obtain ⟨chosen, -, rfl⟩ := hprepared
    obtain ⟨cutoff, point, relative, ordinal, facts, pub, hadvance, -⟩ :=
      published_advance hat.history captured verified adopted
    refine ⟨commit, head :: older, rfl, hsurvives.publish hat.history rfl facts pub hadvance, ?_⟩
    intro later earlier hsplit hne
    cases later with
    | nil =>
      rw [nil_append] at hsplit
      rw [← hsplit]
      exact ⟨_, next, .publish accepted format configured prepare captured verified adopted, le_refl _⟩
    | cons first rest =>
      rw [cons_append, List.cons.injEq] at hsplit
      obtain ⟨samples', before, hbefore, hle⟩ := hearlier rest earlier hsplit.2 hne
      refine ⟨samples', before, hbefore, le_trans hle ?_⟩
      rw [hadvance, RecoverySnapshot.advance_expire]
      exact publicationCutoff_ge facts.chosen

/-! ## Recovery points are never lost early -/

/-- Points with one anchor are one point: a chain registers each commit at most once. -/
theorem SurvivalAt.registered_unique (h : SurvivalAt head older samples snapshot)
    (hc : c ∈ head :: older) (hd : d ∈ head :: older)
    (hp : Registers c p) (hq : Registers d q) (hanchor : q.anchor = p.anchor) : q = p := by
  have hseq : d.header.selfRef.sequence = c.header.selfRef.sequence := by
    have h1 := h.registers c hc p hp
    have h2 := h.registers d hd q hq
    rw [hanchor, h1] at h2
    exact (Option.some.inj h2).symm
  have hsame : d = c := by
    obtain ⟨i, hi, rfl⟩ := getElem_of_mem hc
    obtain ⟨j, hj, rfl⟩ := getElem_of_mem hd
    have hlt := pairwise_iff_getElem.mp h.order
    rcases Nat.lt_trichotomy i j with hij | rfl | hij
    · exact absurd (hseq ▸ hlt i j hi hj hij) (Nat.lt_irrefl _)
    · rfl
    · exact absurd (hseq ▸ hlt j i hj hi hij) (Nat.lt_irrefl _)
  subst hsame
  obtain ⟨_, _, hfound, hp⟩ := hp
  obtain ⟨_, _, hfound', hq⟩ := hq
  rw [hfound] at hfound'
  cases hfound'
  rw [hp] at hq
  exact (Option.some.inj hq).symm

/-- **Recovery points are never lost early.**  At every accepted chain the replayed registry holds each registered
point whose deadline is beyond the cutoff, with the deadline it was registered with; the cutoff is at least that
of every earlier state, and it is a sampled publication time minus the uncertainty of its policy as soon as it is
not the initial zero. -/
theorem recovery_points_survive {chain : List V3ReplayCommit} {samples : List PublicationSample}
    {state : AcceptedRecoveryState} (h : Accepted sha256 formatRef chain samples state)
    (hformat : options.formatRef = formatRef) :
    replayRecoveryHistory sha256 options chain = .ok (some state) ∧
    (∀ commit ∈ chain, ∀ p, Registers commit p → state.snapshot.expireBeforeMs < p.protectedUntilMs →
      Held chain state.snapshot p) ∧
    (∀ commit ∈ chain, ∀ p q, Registers commit p → Held chain state.snapshot q → q.anchor = p.anchor →
      q.protectedUntilMs = p.protectedUntilMs) ∧
    (∀ later earlier before, chain = later ++ earlier →
      replayRecoveryHistory sha256 options earlier = .ok (some before) →
      before.snapshot.expireBeforeMs ≤ state.snapshot.expireBeforeMs) ∧
    (state.snapshot.expireBeforeMs = 0 ∨ ∃ sample ∈ samples,
      state.snapshot.expireBeforeMs = sample.sampledNowMs - sample.policy.clockUncertaintyMs) := by
  have hreplay : ∀ {chain samples state}, Accepted sha256 formatRef chain samples state →
      replayRecoveryHistory sha256 options chain = .ok (some state) := by
    intro chain samples state h
    obtain ⟨head, older, rfl, hat⟩ := h.acceptedAt
    rw [replayRecoveryHistory, hat.replay options hformat]
    rfl
  obtain ⟨head, older, rfl, hsurvives, hearlier⟩ := h.survivalAt
  refine ⟨hreplay h, hsurvives.live, ?_, ?_, hsurvives.cutoff⟩
  · intro c hc p q hp hq hanchor
    obtain ⟨d, hd, hq'⟩ := hsurvives.recorded q hq
    rw [hsurvives.registered_unique hc hd hp hq' hanchor]
  · intro later earlier before hsplit hbefore
    have hne : earlier ≠ [] := by
      rintro rfl
      cases hbefore
    obtain ⟨samples', st, hst, hle⟩ := hearlier later earlier hsplit hne
    rw [hreplay hst] at hbefore
    cases hbefore
    exact hle

end

/-- On the chain of two roots the genesis commit is registered and held. -/
theorem recovery_points_survive_sample :
    Registers sampleRoot samplePoint ∧ Held [sampleRoot, sampleGenesis] sampleState.snapshot samplePoint := by
  have hreg : Registers sampleRoot samplePoint := ⟨1, _, rfl, rfl⟩
  obtain ⟨-, hlive, -⟩ := recovery_points_survive sampleChain_accepted (rfl : sampleOptions.formatRef = _)
  exact ⟨hreg, hlive sampleRoot (by simp) samplePoint hreg (by decide)⟩

end Rs3.Recovery
