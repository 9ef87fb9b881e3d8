/-
# Rs3.Recovery.Validity — what the checks of a recovery registry establish.

Each validation loop of `Rs3.Recovery.History` is equivalent to a statement about all its elements at once: points
and pages are ordered along the chain, every page names a stretch of sequences of its own, and nothing
listed has expired.
-/
import Rs3.Recovery.History

namespace Rs3.Recovery

open List

/-! ## Points -/

/-- Superseded one after the other. -/
def RecoveryPoint.Before (a b : RecoveryPoint) : Prop :=
  a.anchor.sequence < b.anchor.sequence ∧ a.publishTimeMs < b.publishTimeMs

theorem RecoveryPoint.Before.trans {a b c : RecoveryPoint} (h : a.Before b) (h' : b.Before c) : a.Before c :=
  ⟨Nat.lt_trans h.1 h'.1, lt_trans h.2 h'.2⟩

/-- A well-formed stretch of points. -/
structure PointsValid (points : List RecoveryPoint) : Prop where
  each : ∀ point ∈ points, validatePoint point = .ok ()
  order : points.Pairwise RecoveryPoint.Before

variable {points : List RecoveryPoint} {point first : RecoveryPoint} {page : RecoveryPage}
    {claims : RecoveryPageClaims} {s : RecoverySnapshot}

variable {u : Unit}

theorem validatePointsFrom_ok :
    validatePointsFrom previous points = .ok u ↔
      PointsValid points ∧ ∀ last ∈ previous, ∀ point ∈ points, last.Before point := by
  induction points generalizing previous with
  | nil => exact ⟨fun _ => ⟨⟨by simp, .nil⟩, by simp⟩, fun _ => rfl⟩
  | cons point rest ih =>
    simp only [validatePointsFrom, ok_iff]
    rw [ih]
    constructor
    · rintro ⟨_, hpoint, hlast, hrest, hbefore⟩
      have hfirst : ∀ q ∈ rest, point.Before q := hbefore point rfl
      refine ⟨⟨?_, pairwise_cons.mpr ⟨hfirst, hrest.order⟩⟩, ?_⟩
      · intro q hq
        rcases mem_cons.mp hq with rfl | hq
        · exact hpoint
        · exact hrest.each q hq
      · intro last hl q hq
        rcases mem_cons.mp hq with rfl | hq
        · exact hlast last hl
        · exact RecoveryPoint.Before.trans (hlast last hl) (hfirst q hq)
    · rintro ⟨hvalid, hbefore⟩
      obtain ⟨hfirst, horder⟩ := pairwise_cons.mp hvalid.order
      refine ⟨(), hvalid.each point (by simp), fun last hl => hbefore last hl point (by simp), ?_, ?_⟩
      · exact ⟨fun q hq => hvalid.each q (mem_cons_of_mem _ hq), horder⟩
      · intro last hl q hq
        cases hl
        exact hfirst q hq

theorem validatePoints_ok {maximum : ℕ} :
    validatePoints points maximum = .ok u ↔ points.length ≤ maximum ∧ PointsValid points := by
  simp only [validatePoints, capacity, ok_iff, validatePointsFrom_ok]
  simp

theorem PointsValid.filter (h : PointsValid points) (p : RecoveryPoint → Bool) : PointsValid (points.filter p) :=
  ⟨fun q hq => h.each q (mem_of_mem_filter hq), h.order.filter p⟩

theorem PointsValid.append_singleton (h : PointsValid points) (hp : validatePoint point = .ok ())
    (hb : ∀ q ∈ points, q.Before point) : PointsValid (points ++ [point]) := by
  refine ⟨?_, ?_⟩
  · intro q hq
    rcases mem_append.mp hq with hq | hq
    · exact h.each q hq
    · rw [mem_singleton.mp hq]
      exact hp
  · rw [pairwise_append]
    refine ⟨h.order, pairwise_singleton _ _, ?_⟩
    intro q hq r hr
    rw [mem_singleton.mp hr]
    exact hb q hq

theorem validateAnchor_sequence_pos (h : validateAnchor anchor = .ok ()) : anchor.sequence.get ≠ 0 := by
  simp only [validateAnchor, ok_iff] at h
  obtain ⟨key, -, hseq, -⟩ := h
  exact hseq.1

theorem validatePoint_ok (h : validatePoint point = .ok ()) :
    point.anchor.sequence.get ≠ 0 ∧ 0 ≤ point.publishTimeMs ∧ point.publishTimeMs < point.protectedUntilMs := by
  simp only [validatePoint, ok_iff] at h
  obtain ⟨_, hanchor, htime⟩ := h
  exact ⟨validateAnchor_sequence_pos hanchor, htime⟩

/-! ## Deadlines and claims of a page -/

theorem foldl_extrema : let r := points.foldl (fun (l, h) point =>
      (min l point.protectedUntilMs, max h point.protectedUntilMs)) (low, high)
    r.1 ≤ low ∧ high ≤ r.2 ∧
      (∀ point ∈ points, r.1 ≤ point.protectedUntilMs ∧ point.protectedUntilMs ≤ r.2) ∧
      ∀ bound, bound < low → (∀ point ∈ points, bound < point.protectedUntilMs) → bound < r.1 := by
  induction points generalizing low high with
  | nil => exact ⟨le_rfl, le_rfl, by simp, fun _ h _ => h⟩
  | cons point rest ih =>
    obtain ⟨hlow, hhigh, hall, hbound⟩ := @ih (min low point.protectedUntilMs) (max high point.protectedUntilMs)
    simp only [foldl_cons]
    refine ⟨le_trans hlow (min_le_left _ _), le_trans (le_max_left _ _) hhigh, ?_, ?_⟩
    · intro q hq
      rcases mem_cons.mp hq with rfl | hq
      · exact ⟨le_trans hlow (min_le_right _ _), le_trans (le_max_right _ _) hhigh⟩
      · exact hall q hq
    · intro bound hb hp
      refine hbound bound (lt_min hb (hp point (by simp))) fun q hq => hp q (mem_cons_of_mem _ hq)

theorem deadlineExtrema_bounds (h : point ∈ points) :
    (deadlineExtrema first points).1 ≤ point.protectedUntilMs ∧
      point.protectedUntilMs ≤ (deadlineExtrema first points).2 :=
  foldl_extrema.2.2.1 point h

theorem deadlineExtrema_lt
    (hf : bound < first.protectedUntilMs) (h : ∀ point ∈ points, bound < point.protectedUntilMs) :
    bound < (deadlineExtrema first points).1 :=
  foldl_extrema.2.2.2 bound hf h

theorem RecoveryPage.claims_ok :
    page.claims = .ok claims ↔ page.points.length ≤ maxRecoveryPageRecords ∧ PointsValid page.points ∧
      ∃ first last, page.points.head? = some first ∧ page.points.getLast? = some last ∧
        claims = ⟨page.points.length, first.anchor.sequence, last.anchor.sequence,
          (deadlineExtrema first page.points).1, (deadlineExtrema first page.points).2⟩ := by
  simp only [RecoveryPage.claims, ok_iff, validatePoints_ok]
  constructor
  · rintro ⟨⟨hlen, hvalid⟩, first, hf, last, hl, rfl⟩
    exact ⟨hlen, hvalid, first, last, hf, hl, rfl⟩
  · rintro ⟨hlen, hvalid, first, last, hf, hl, rfl⟩
    exact ⟨⟨hlen, hvalid⟩, first, hf, last, hl, rfl⟩

/-- Sequences grow by at least one from point to point. -/
theorem PointsValid.sequence_span (h : points.Pairwise RecoveryPoint.Before)
    (hf : points.head? = some first) (hl : points.getLast? = some last) :
    first.anchor.sequence.get + (points.length - 1) ≤ last.anchor.sequence.get := by
  induction points generalizing first with
  | nil => cases hf
  | cons point rest ih =>
    cases hf
    cases rest with
    | nil =>
      cases hl
      simp
    | cons next rest =>
      obtain ⟨hfirst, hrest⟩ := pairwise_cons.mp h
      have hspan := ih hrest rfl (by simpa using hl)
      have hlt : point.anchor.sequence.get < next.anchor.sequence.get := (hfirst next (by simp)).1
      simp only [length_cons] at hspan ⊢
      omega

/-- Claims computed from points pass their own check. -/
theorem RecoveryPage.claims_valid (h : page.claims = .ok claims) : validateClaims claims = .ok () := by
  obtain ⟨hlen, hvalid, first, last, hf, hl, rfl⟩ := claims_ok.mp h
  have hmem : first ∈ page.points := mem_of_mem_head? hf
  have hpos : 0 < page.points.length := length_pos_of_mem hmem
  have hspan := PointsValid.sequence_span hvalid.order hf hl
  have hpoint := fun q hq => validatePoint_ok (hvalid.each q hq)
  have hdeadline : ∀ q ∈ page.points, (0 : Int) < q.protectedUntilMs := by
    intro q hq
    obtain ⟨-, h0, h1⟩ := hpoint q hq
    omega
  have hextrema : (deadlineExtrema first page.points).1 ≤ first.protectedUntilMs ∧
      first.protectedUntilMs ≤ (deadlineExtrema first page.points).2 := deadlineExtrema_bounds hmem
  simp only [validateClaims, capacity, ok_iff]
  refine ⟨hlen, by omega, (hpoint first hmem).1, ?_, ?_, ?_, ?_, ?_⟩
  · show first.anchor.sequence.get ≤ last.anchor.sequence.get
    omega
  · intro hone
    have hsingle : page.points = [first] := by
      obtain ⟨x, hx⟩ := length_eq_one_iff.mp hone
      rw [hx] at hf
      cases hf
      exact hx
    rw [hsingle] at hl
    cases hl
    rfl
  · show page.points.length - 1 ≤ last.anchor.sequence.get - first.anchor.sequence.get
    omega
  · exact deadlineExtrema_lt (hdeadline first hmem) hdeadline
  · exact le_trans hextrema.1 hextrema.2

theorem RecoveryPageRef.verifyPage_ok {reference : RecoveryPageRef} :
    reference.verifyPage page = .ok u ↔ page.claims = .ok reference.claims := by
  simp only [RecoveryPageRef.verifyPage, ok_iff]
  constructor
  · rintro ⟨claims, hc, rfl⟩
    exact hc
  · intro h
    exact ⟨_, h, rfl⟩

/-- No point of a page outlives the maximum its claims name. -/
theorem RecoveryPage.deadline_le (h : page.claims = .ok claims) (hp : point ∈ page.points) :
    point.protectedUntilMs ≤ claims.maximumDeadlineMs := by
  obtain ⟨-, -, first, last, -, -, rfl⟩ := claims_ok.mp h
  exact (deadlineExtrema_bounds hp).2

/-! ## Registries -/

/-- What is checked of one page reference on its own. -/
structure PageRefValid (page : RecoveryPageRef) : Prop where
  claims : validateClaims page.claims = .ok ()
  location : validateLocation page = .ok ()

theorem PageRefValid.first_le_last {page : RecoveryPageRef} (h : PageRefValid page) :
    page.claims.firstSequence.get ≤ page.claims.lastSequence.get := by
  have hc := h.claims
  simp only [validateClaims, ok_iff] at hc
  obtain ⟨-, -, -, -, hle, -⟩ := hc
  exact hle

/-- The pages cover growing stretches of sequences. -/
def RecoveryPageRef.Before (a b : RecoveryPageRef) : Prop := a.claims.lastSequence < b.claims.firstSequence

theorem validatePages_ok {pages : List RecoveryPageRef} :
    validatePages expire previous pages = .ok out ↔
      (∀ page ∈ pages, PageRefValid page ∧ expire < page.claims.maximumDeadlineMs) ∧
      pages.Pairwise RecoveryPageRef.Before ∧
      (∀ last ∈ previous, ∀ page ∈ pages, last < page.claims.firstSequence) ∧
      out = (pages.getLast?.map fun page => page.claims.lastSequence).or previous := by
  induction pages generalizing previous with
  | nil =>
    simp only [validatePages, Except.ok.injEq, not_mem_nil, false_implies, implies_true,
      List.Pairwise.nil, List.getLast?_nil, Option.map_none, Option.none_or, true_and]
    exact eq_comm
  | cons page rest ih =>
    simp only [validatePages, ok_iff]
    rw [ih]
    have hlast : ((page :: rest).getLast?.map fun p => p.claims.lastSequence) =
        ((rest.getLast?.map fun p => p.claims.lastSequence).or (some page.claims.lastSequence)) := by
      cases hr : rest.getLast? with
      | none =>
        rw [List.getLast?_eq_none_iff] at hr
        subst hr
        rfl
      | some last =>
        rw [List.getLast?_cons, hr]
        rfl
    constructor
    · rintro ⟨_, hclaims, _, hlocation, ⟨hlive, hprevious⟩, hall, horder, hfirst, hout⟩
      have hpage : PageRefValid page := ⟨hclaims, hlocation⟩
      refine ⟨?_, pairwise_cons.mpr ⟨hfirst _ rfl, horder⟩, ?_, ?_⟩
      · intro q hq
        rcases mem_cons.mp hq with rfl | hq
        · exact ⟨hpage, hlive⟩
        · exact hall q hq
      · intro last hl q hq
        rcases mem_cons.mp hq with rfl | hq
        · exact hprevious last hl
        · -- along the stretch of `page`
          have h1 := hprevious last hl
          have h2 := hpage.first_le_last
          have h3 := hfirst _ rfl q hq
          rw [U64.lt_def] at h1 h3 ⊢
          omega
      · rw [hout, hlast]
        cases rest.getLast?.map fun p => p.claims.lastSequence <;> rfl
    · rintro ⟨hall, horder, hprevious, hout⟩
      obtain ⟨hfirst, hrest⟩ := pairwise_cons.mp horder
      obtain ⟨hpage, hlive⟩ := hall page (by simp)
      refine ⟨(), hpage.claims, (), hpage.location, ⟨hlive, fun last hl => hprevious last hl page (by simp)⟩,
        fun q hq => hall q (mem_cons_of_mem _ hq), hrest, ?_, ?_⟩
      · intro last hl q hq
        cases hl
        exact hfirst q hq
      · rw [hout, hlast]
        cases rest.getLast?.map fun p => p.claims.lastSequence <;> rfl

/-- **A well-formed registry.** -/
structure SnapshotValid (s : RecoverySnapshot) : Prop where
  pagesLength : s.pages.length ≤ maxRecoveryPages
  tailLength : s.tail.length ≤ maxRecoveryTailRecords
  tail : PointsValid s.tail
  cutoff : 0 ≤ s.expireBeforeMs
  tailLive : ∀ point ∈ s.tail, s.expireBeforeMs < point.protectedUntilMs
  pages : ∀ page ∈ s.pages, PageRefValid page ∧ s.expireBeforeMs < page.claims.maximumDeadlineMs
  order : s.pages.Pairwise RecoveryPageRef.Before
  /-- Every page is about sequences before the tail. -/
  bridge : ∀ page ∈ s.pages, ∀ point ∈ s.tail, page.claims.lastSequence < point.anchor.sequence

/-- The last page ends after every other page. -/
theorem last_page_max {pages : List RecoveryPageRef} (hv : ∀ page ∈ pages, PageRefValid page)
    (ho : pages.Pairwise RecoveryPageRef.Before) {last : RecoveryPageRef}
    (hl : pages.getLast? = some last) :
    ∀ page ∈ pages, page.claims.lastSequence.get ≤ last.claims.lastSequence.get := by
  intro page hp
  obtain ⟨front, hfront⟩ := List.getLast?_eq_some_iff.mp hl
  subst hfront
  rcases mem_append.mp hp with hp | hp
  · have hb : page.claims.lastSequence.get < last.claims.firstSequence.get :=
      (pairwise_append.mp ho).2.2 page hp last (by simp)
    have hle := (hv last (by simp)).first_le_last
    omega
  · rw [mem_singleton.mp hp]

theorem validateSnapshot_ok : validateSnapshot s = .ok u ↔ SnapshotValid s := by
  simp only [validateSnapshot, capacity, ok_iff, validatePoints_ok, validatePages_ok]
  constructor
  · rintro ⟨hpl, ⟨htl, htail⟩, ⟨hcut, hlive⟩, previous, ⟨hpages, horder, -, rfl⟩, hbridge⟩
    refine ⟨hpl, htl, htail, hcut, hlive, hpages, horder, ?_⟩
    intro page hp point hq
    -- through the last page and the first point
    obtain ⟨last, hlast⟩ : ∃ last, s.pages.getLast? = some last := by
      cases h : s.pages.getLast? with
      | none =>
        rw [List.getLast?_eq_none_iff] at h
        rw [h] at hp
        cases hp
      | some last => exact ⟨last, rfl⟩
    have hle := last_page_max (fun q hq => (hpages q hq).1) horder hlast page hp
    obtain ⟨first, rest, hcons⟩ : ∃ first rest, s.tail = first :: rest := exists_cons_of_ne_nil (ne_nil_of_mem hq)
    have hlt : last.claims.lastSequence < first.anchor.sequence := by
      refine hbridge _ ?_ first ?_
      · rw [hlast]
        rfl
      · rw [hcons]
        rfl
    have hfirst : first.anchor.sequence.get ≤ point.anchor.sequence.get := by
      have horder := htail.order
      rw [hcons] at horder hq
      rcases mem_cons.mp hq with rfl | hq
      · exact le_rfl
      · exact Nat.le_of_lt ((pairwise_cons.mp horder).1 point hq).1
    rw [U64.lt_def] at hlt ⊢
    omega
  · intro h
    refine ⟨h.pagesLength, ⟨h.tailLength, h.tail⟩, ⟨h.cutoff, h.tailLive⟩, _, ⟨h.pages, h.order, by simp, rfl⟩, ?_⟩
    intro last hl point hp
    simp only [Option.or_none, Option.mem_def, Option.map_eq_some_iff] at hl
    obtain ⟨page, hpage, rfl⟩ := hl
    exact h.bridge page (mem_of_getLast? hpage) point (mem_of_mem_head? hp)

theorem RecoverySnapshot.validateNormalized_ok :
    s.validateNormalized = .ok u ↔ SnapshotValid s ∧ ∀ page ∈ s.pages, page.location.isExact = true := by
  simp only [validateNormalized, ok_iff, validateSnapshot_ok]

/-- Expiring a well-formed registry leaves a well-formed one. -/
theorem SnapshotValid.expire (h : SnapshotValid s) {cutoff : Int}
    (hc : 0 ≤ cutoff) : SnapshotValid (s.expire cutoff) where
  pagesLength := le_trans (length_filter_le _ _) h.pagesLength
  tailLength := le_trans (length_filter_le _ _) h.tailLength
  tail := h.tail.filter _
  cutoff := hc
  tailLive := by
    intro point hp
    show cutoff < point.protectedUntilMs
    simpa using (mem_filter.mp hp).2
  pages := by
    intro page hp
    obtain ⟨hp, hlive⟩ := mem_filter.mp hp
    refine ⟨(h.pages page hp).1, ?_⟩
    show cutoff < page.claims.maximumDeadlineMs
    simpa using hlive
  order := h.order.filter _
  bridge := by
    intro page hp point hq
    exact h.bridge page (mem_of_mem_filter hp) point (mem_of_mem_filter hq)

/-- At its own cutoff a well-formed registry has nothing to expire. -/
theorem SnapshotValid.expire_self (h : SnapshotValid s) : s.expire s.expireBeforeMs = s := by
  have htail : s.tail.filter (fun point => s.expireBeforeMs < point.protectedUntilMs) = s.tail := by
    apply filter_eq_self.mpr
    intro point hp
    simpa using h.tailLive point hp
  have hpages : s.pages.filter (fun page => s.expireBeforeMs < page.claims.maximumDeadlineMs) = s.pages := by
    apply filter_eq_self.mpr
    intro page hp
    simpa using (h.pages page hp).2
  rw [RecoverySnapshot.expire, htail, hpages]

end Rs3.Recovery
