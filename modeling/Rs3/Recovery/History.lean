/-
# Rs3.Recovery.History — the recovery registry, its validation and its transitions.

`v3/recovery/history.rs` without its wire format.  A registry keeps the points superseded most recently in its
tail and older ones in sealed pages, which live in the sections of earlier commits and are referenced by
their claims.  A section carries one transition of the registry and, at a root, the registry after it.
-/
import Rs3.Recovery.Policy
import Rs3.Repository.CommitKey
import Rs3.Repository.Commit

namespace Rs3.Recovery

open Repository (V3CommitKey V3CommitParentRef)

def maxRecoveryTailRecords : ℕ := 4096
def maxRecoveryPages : ℕ := 1024
def maxRecoveryPageRecords : ℕ := 4096
def maxObjectIdBytes : ℕ := 1024
def maxVersionIdBytes : ℕ := 1024
def maxKeyIdBytes : ℕ := 255
def maxCommitSections : ℕ := 3

/-! ## Data -/

/-- A fixed promise for one superseded accepted point. -/
structure RecoveryPoint where
  anchor : V3AnchorState
  publishTimeMs : Int
  protectedUntilMs : Int
  policyId : Digest
  deriving DecidableEq

/-- One transition of the registry. -/
structure RecoveryDelta where
  register : Option RecoveryPoint
  expireBeforeMs : Option Int
  /-- Index of a local page containing exactly the surviving prior active tail. -/
  rollTail : Option ℕ
  deriving DecidableEq

/-- `RecoveryDelta::default()`. -/
def RecoveryDelta.default : RecoveryDelta := ⟨none, none, none⟩

structure RecoveryPage where
  points : List RecoveryPoint
  deriving DecidableEq

structure RecoveryPageClaims where
  recordCount : ℕ
  firstSequence : Sequence
  lastSequence : Sequence
  minimumDeadlineMs : Int
  maximumDeadlineMs : Int
  deriving DecidableEq

inductive RecoveryPageLocation where
  /-- Valid only in the authenticated section containing this page. -/
  | thisSection (pageIndex : ℕ)
  | exact (anchor : V3AnchorState) (sectionOrdinal pageIndex : ℕ)
  deriving DecidableEq

structure RecoveryPageRef where
  location : RecoveryPageLocation
  claims : RecoveryPageClaims
  deriving DecidableEq

/-- The registry after a transition. -/
structure RecoverySnapshot where
  pages : List RecoveryPageRef
  tail : List RecoveryPoint
  expireBeforeMs : Int
  deriving DecidableEq

/-- `RecoverySnapshot::default()`. -/
def RecoverySnapshot.default : RecoverySnapshot := ⟨[], [], 0⟩

structure RecoverySection where
  currentPolicy : RecoveryPolicy
  delta : RecoveryDelta
  snapshot : Option RecoverySnapshot
  localPages : List RecoveryPage
  deriving DecidableEq

/-! ## Checks -/

def capacity (length maximum : ℕ) : Except V3FormatError Unit := ensure (length ≤ maximum) .recoveryHistoryCapacity

def boundedText (text : String) (maximum : ℕ) : Except V3FormatError Unit := do
  ensure (text ≠ "") .invalidRecoveryHistory
  capacity text.utf8ByteSize maximum

def validateOrdinal (ordinal : ℕ) : Except V3FormatError Unit :=
  ensure (ordinal < maxCommitSections) .invalidRecoveryHistory

def validateAnchor (anchor : V3AnchorState) : Except V3FormatError Unit := do
  let key ← okOr (V3CommitKey.parse anchor.commitKey).toOption .invalidRecoveryHistory
  ensure (anchor.sequence.get ≠ 0 ∧ key.sequence = anchor.sequence) .invalidRecoveryHistory
  boundedText anchor.commitKey.asStr maxObjectIdBytes
  boundedText anchor.signingKeyId.asStr maxKeyIdBytes
  let version ← okOr anchor.versionId .invalidRecoveryHistory
  boundedText version.asStr maxVersionIdBytes
  ensure (anchor.formatRef.generation.get ≠ 0) .invalidRecoveryHistory
  boundedText anchor.formatRef.objectId.asStr maxObjectIdBytes
  let version ← okOr anchor.formatRef.versionId .invalidRecoveryHistory
  boundedText version.asStr maxVersionIdBytes
  ensure (anchor.formatRef.digest.utf8ByteSize = 64) .invalidRecoveryHistory
  let digest ← okOr (Text.hexDecode anchor.formatRef.digest) .invalidRecoveryHistory
  ensure (digest.length = 32 ∧ Text.hexEncode digest = anchor.formatRef.digest) .invalidRecoveryHistory

def validatePoint (point : RecoveryPoint) : Except V3FormatError Unit := do
  validateAnchor point.anchor
  ensure (0 ≤ point.publishTimeMs ∧ point.publishTimeMs < point.protectedUntilMs) .invalidRecoveryHistory

/-- The loop of `validate_points`; `previous` is the last point seen. -/
def validatePointsFrom : Option RecoveryPoint → List RecoveryPoint → Except V3FormatError Unit
  | _, [] => .ok ()
  | previous, point :: rest => do
    validatePoint point
    ensure (∀ last ∈ previous, last.anchor.sequence < point.anchor.sequence ∧
      last.publishTimeMs < point.publishTimeMs) .invalidRecoveryHistory
    validatePointsFrom (some point) rest

def validatePoints (points : List RecoveryPoint) (maximum : ℕ) : Except V3FormatError Unit := do
  capacity points.length maximum
  validatePointsFrom none points

def validateClaims (claims : RecoveryPageClaims) : Except V3FormatError Unit := do
  capacity claims.recordCount maxRecoveryPageRecords
  ensure (claims.recordCount ≠ 0 ∧ claims.firstSequence.get ≠ 0 ∧
    claims.firstSequence ≤ claims.lastSequence ∧
    (claims.recordCount = 1 → claims.firstSequence = claims.lastSequence) ∧
    claims.recordCount - 1 ≤ claims.lastSequence.get - claims.firstSequence.get ∧
    0 < claims.minimumDeadlineMs ∧ claims.minimumDeadlineMs ≤ claims.maximumDeadlineMs) .invalidRecoveryHistory

/-- What a page reference says about where its page is. -/
def validateLocation (page : RecoveryPageRef) : Except V3FormatError Unit :=
  match page.location with
  | .thisSection pageIndex => capacity (pageIndex + 1) maxRecoveryPages
  | .exact anchor sectionOrdinal pageIndex => do
    validateAnchor anchor
    validateOrdinal sectionOrdinal
    capacity (pageIndex + 1) maxRecoveryPages
    ensure (page.claims.lastSequence < anchor.sequence) .invalidRecoveryHistory

/-- The page loop of `validate_snapshot`; returns the last sequence seen. -/
def validatePages (expireBeforeMs : Int) :
    Option Sequence → List RecoveryPageRef → Except V3FormatError (Option Sequence)
  | previous, [] => .ok previous
  | previous, page :: rest => do
    validateClaims page.claims
    validateLocation page
    ensure (expireBeforeMs < page.claims.maximumDeadlineMs ∧
      ∀ last ∈ previous, last < page.claims.firstSequence) .invalidRecoveryHistory
    validatePages expireBeforeMs (some page.claims.lastSequence) rest

def validateSnapshot (snapshot : RecoverySnapshot) : Except V3FormatError Unit := do
  capacity snapshot.pages.length maxRecoveryPages
  validatePoints snapshot.tail maxRecoveryTailRecords
  ensure (0 ≤ snapshot.expireBeforeMs ∧
    ∀ point ∈ snapshot.tail, snapshot.expireBeforeMs < point.protectedUntilMs) .invalidRecoveryHistory
  let previous ← validatePages snapshot.expireBeforeMs none snapshot.pages
  ensure (∀ last ∈ previous, ∀ point ∈ snapshot.tail.head?, last < point.anchor.sequence) .invalidRecoveryHistory

/-- No reference is relative to its section. -/
def RecoveryPageLocation.isExact : RecoveryPageLocation → Bool
  | .thisSection _ => false
  | .exact _ _ _ => true

/-- A carrier is not newer than the given sequence. -/
def RecoveryPageLocation.notAfter (location : RecoveryPageLocation) (sequence : Sequence) : Bool :=
  match location with
  | .thisSection _ => true
  | .exact anchor _ _ => anchor.sequence ≤ sequence

def RecoverySnapshot.validateNormalized (snapshot : RecoverySnapshot) : Except V3FormatError Unit := do
  validateSnapshot snapshot
  ensure (∀ page ∈ snapshot.pages, page.location.isExact = true) .invalidRecoveryHistory

/-! ## Pages -/

/-- The extrema of the deadlines of a page, starting from its first point. -/
def deadlineExtrema (first : RecoveryPoint) (points : List RecoveryPoint) : Int × Int :=
  points.foldl (fun (low, high) point => (min low point.protectedUntilMs, max high point.protectedUntilMs))
    (first.protectedUntilMs, first.protectedUntilMs)

def RecoveryPage.claims (page : RecoveryPage) : Except V3FormatError RecoveryPageClaims := do
  validatePoints page.points maxRecoveryPageRecords
  let first ← okOr page.points.head? .invalidRecoveryHistory
  let last ← okOr page.points.getLast? .invalidRecoveryHistory
  return ⟨page.points.length, first.anchor.sequence, last.anchor.sequence,
    (deadlineExtrema first page.points).1, (deadlineExtrema first page.points).2⟩

def RecoveryPageRef.verifyPage (reference : RecoveryPageRef) (page : RecoveryPage) :
    Except V3FormatError Unit := do
  let claims ← page.claims
  ensure (reference.claims = claims) .invalidRecoveryHistory

namespace RecoverySection

variable (self : RecoverySection) (enclosing : V3AnchorState) (ordinal : ℕ)

/-- Page records only. -/
def page (pageIndex : ℕ) : Except V3FormatError RecoveryPage := okOr self.localPages[pageIndex]? .invalidRecoveryHistory

/-! ## Section validation -/

def validateRegister : Option RecoveryPoint → Except V3FormatError Unit
  | none => .ok ()
  | some point => validatePoint point

def validateLocalPages : Option Sequence → List RecoveryPage → Except V3FormatError Unit
  | _, [] => .ok ()
  | previous, page :: rest => do
    let claims ← page.claims
    ensure (∀ last ∈ previous, last < claims.firstSequence) .invalidRecoveryHistory
    validateLocalPages (some claims.lastSequence) rest

/-- Local pages the transition uses. -/
def useRoll (used : List Bool) : Except V3FormatError (List Bool) :=
  match self.delta.rollTail with
  | none => .ok used
  | some index => do
    let _ ← self.page index
    return used.set index true

/-- Local pages the snapshot refers to, each verified. -/
def useReferences (self : RecoverySection) : List Bool → List RecoveryPageRef → Except V3FormatError (List Bool)
  | used, [] => .ok used
  | used, reference :: rest =>
    match reference.location with
    | .thisSection pageIndex => do
      let page ← self.page pageIndex
      reference.verifyPage page
      self.useReferences (used.set pageIndex true) rest
    | .exact _ _ _ => self.useReferences used rest

def useSnapshot (used : List Bool) : Except V3FormatError (List Bool) :=
  match self.snapshot with
  | none => .ok used
  | some snapshot => do
    validateSnapshot snapshot
    ensure (∀ cutoff ∈ self.delta.expireBeforeMs, cutoff = snapshot.expireBeforeMs) .invalidRecoveryHistory
    self.useReferences used snapshot.pages

def validate : Except V3FormatError Unit := do
  capacity self.localPages.length maxRecoveryPages
  ensure (∀ cutoff ∈ self.delta.expireBeforeMs, 0 ≤ cutoff) .invalidRecoveryHistory
  validateRegister self.delta.register
  validateLocalPages none self.localPages
  let used ← self.useRoll (List.replicate self.localPages.length false)
  let used ← self.useSnapshot used
  ensure (∀ flag ∈ used, flag = true) .invalidRecoveryHistory

/-- A first root registers nothing and starts an empty registry. -/
def validateGenesis : Except V3FormatError Unit := do
  let snapshot ← okOr self.snapshot .invalidRecoveryHistory
  ensure (snapshot.pages = [] ∧ snapshot.tail = [] ∧ snapshot.expireBeforeMs = 0 ∧
    self.localPages = [] ∧ self.delta.expireBeforeMs = none ∧ self.delta.rollTail = none) .invalidRecoveryHistory

/-- A child registers exactly its parent. -/
def validateChild (parent : V3CommitParentRef) (point : RecoveryPoint)
    (publishTimeMs : Int) : Except V3FormatError Unit := do
  ensure (point.anchor.sequence = parent.sequence ∧ point.anchor.commitKey = parent.commitKey ∧
    point.anchor.bodyDigest = parent.bodyDigest ∧ point.anchor.versionId = parent.versionId ∧
    point.publishTimeMs < publishTimeMs ∧ publishTimeMs < point.protectedUntilMs) .invalidRecoveryHistory
  ensure (∀ snapshot ∈ self.snapshot, snapshot.tail.getLast? = some point ∧
    ∀ page ∈ snapshot.pages, page.location.notAfter parent.sequence = true) .invalidRecoveryHistory
  ensure (∀ page ∈ self.localPages, ∀ old ∈ page.points, old.anchor.sequence < parent.sequence) .invalidRecoveryHistory

section

variable (parent : Option V3CommitParentRef) (publishTimeMs : Int) (isRoot : Bool)

def validateBinding : Except V3FormatError Unit :=
  match parent, self.delta.register with
  | none, none => if isRoot then self.validateGenesis else .error .invalidRecoveryHistory
  | some parent, some point => self.validateChild parent point publishTimeMs
  | _, _ => .error .invalidRecoveryHistory

def validateForHeader : Except V3FormatError Unit := do
  self.validate
  ensure (0 ≤ publishTimeMs ∧ self.snapshot.isSome = isRoot ∧
    (∀ cutoff ∈ self.delta.expireBeforeMs, cutoff ≤ publishTimeMs) ∧
    ∀ snapshot ∈ self.snapshot, snapshot.expireBeforeMs ≤ publishTimeMs) .invalidRecoveryHistory
  self.validateBinding parent publishTimeMs isRoot

end

section

variable (sha256 : List UInt8 → Digest) (self : RecoverySection)

/-- What the transition must promise to its predecessor. -/
def validatePromise (publishTimeMs : Int) : Option (V3AnchorState × Int × RecoveryPolicy) → Except V3FormatError Unit
  | none => .ok ()
  | some (anchor, parentTime, policy) => do
    let point ← okOr self.delta.register .invalidRecoveryHistory
    let promised ← policy.promisedUntilMs publishTimeMs
    ensure (point.anchor = anchor ∧ point.publishTimeMs = parentTime ∧
      promised ≤ point.protectedUntilMs ∧ point.policyId = policy.identity sha256) .invalidRecoveryHistory

def validateForCommit (parent : Option (V3AnchorState × Int × RecoveryPolicy)) (publishTimeMs : Int) (isRoot : Bool)
    (safeExpiryMs : Int) : Except V3FormatError Unit := do
  self.validateForHeader (parent.map fun p => .ofAnchor p.1) publishTimeMs isRoot
  ensure (0 ≤ safeExpiryMs ∧ ∀ cutoff ∈ self.delta.expireBeforeMs, cutoff ≤ safeExpiryMs) .invalidRecoveryHistory
  self.validatePromise sha256 publishTimeMs parent

end

/-! ## Transitions -/

def normalizeReference (reference : RecoveryPageRef) : Except V3FormatError RecoveryPageRef :=
  match reference.location with
  | .thisSection pageIndex => do
    let page ← self.page pageIndex
    reference.verifyPage page
    return { reference with location := .exact enclosing ordinal pageIndex }
  | .exact _ _ _ => .ok reference

def normalizeReferences (self : RecoverySection) (enclosing : V3AnchorState) (ordinal : ℕ) :
    List RecoveryPageRef → Except V3FormatError (List RecoveryPageRef)
  | [] => .ok []
  | reference :: rest => do
    let reference ← self.normalizeReference enclosing ordinal reference
    let rest ← self.normalizeReferences enclosing ordinal rest
    return reference :: rest

def normalizeSnapshot (snapshot : RecoverySnapshot)
    (enclosing : V3AnchorState) (ordinal : ℕ) : Except V3FormatError RecoverySnapshot := do
  validateAnchor enclosing
  validateOrdinal ordinal
  let pages ← self.normalizeReferences enclosing ordinal snapshot.pages
  RecoverySnapshot.validateNormalized { snapshot with pages := pages }
  return { snapshot with pages := pages }

/-- `normalized_snapshot`. -/
def normalizedSnapshot : Except V3FormatError (Option RecoverySnapshot) := do
  self.validate
  match self.snapshot with
  | none => .ok none
  | some snapshot => do
    let normalized ← self.normalizeSnapshot snapshot enclosing ordinal
    return some normalized

end RecoverySection

/-- Drop every promise and every page whose deadlines have passed. -/
def RecoverySnapshot.expire (snapshot : RecoverySnapshot) (cutoff : Int) : RecoverySnapshot where
  pages := snapshot.pages.filter fun page => cutoff < page.claims.maximumDeadlineMs
  tail := snapshot.tail.filter fun point => cutoff < point.protectedUntilMs
  expireBeforeMs := cutoff

namespace RecoverySection

variable (self : RecoverySection) (enclosing : V3AnchorState) (ordinal : ℕ)

section

variable (next : RecoverySnapshot)

def applyExpire : Except V3FormatError RecoverySnapshot :=
  match self.delta.expireBeforeMs with
  | none => .ok next
  | some cutoff => do
    ensure (next.expireBeforeMs ≤ cutoff) .invalidRecoveryHistory
    return next.expire cutoff

def applyRoll : Except V3FormatError RecoverySnapshot :=
  match self.delta.rollTail with
  | none => .ok next
  | some index => do
    let page ← self.page index
    ensure (page.points = next.tail ∧ next.tail ≠ []) .invalidRecoveryHistory
    capacity (next.pages.length + 1) maxRecoveryPages
    let claims ← page.claims
    return { next with pages := next.pages ++ [⟨.exact enclosing ordinal index, claims⟩], tail := [] }

def applyRegister : Except V3FormatError RecoverySnapshot :=
  match self.delta.register with
  | none => .ok next
  | some point => do
    capacity (next.tail.length + 1) maxRecoveryTailRecords
    return { next with tail := next.tail ++ [point] }

/-- A root must carry exactly the registry after its transition. -/
def checkSnapshot : Except V3FormatError Unit :=
  match self.snapshot with
  | none => .ok ()
  | some snapshot => do
    let normalized ← self.normalizeSnapshot snapshot enclosing ordinal
    ensure (normalized = next) .invalidRecoveryHistory

end

def applyDelta (previous : RecoverySnapshot) (enclosing : V3AnchorState)
    (sectionOrdinal : ℕ) : Except V3FormatError RecoverySnapshot := do
  self.validate
  previous.validateNormalized
  validateAnchor enclosing
  validateOrdinal sectionOrdinal
  ensure (∀ point ∈ self.delta.register, point.anchor.sequence.checkedNext = some enclosing.sequence)
    .invalidRecoveryHistory
  let next ← self.applyExpire previous
  let next ← self.applyRoll enclosing sectionOrdinal next
  let next ← self.applyRegister next
  next.validateNormalized
  self.checkSnapshot enclosing sectionOrdinal next
  return next

end RecoverySection

end Rs3.Recovery
