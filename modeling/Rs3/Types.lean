/-
# Rs3.Types — the identifiers every layer of the repository shares.

The validated newtypes of `rs3-types`, the accepted anchor state of `rs3-repository` and the part of its
error taxonomy the modelled functions return.  Each newtype carries the check of its constructor, so an
identifier that the source would refuse cannot be built.
-/
import Mathlib.Algebra.Order.Ring.Int

namespace Rs3

/-! ## Validated strings -/

/-- `char::is_whitespace`: the Unicode `White_Space` property. -/
def isWhitespace (c : Char) : Bool :=
  let n := c.toNat
  (9 ≤ n && n ≤ 13) || n == 0x20 || n == 0x85 || n == 0xA0 || n == 0x1680 ||
    (0x2000 ≤ n && n ≤ 0x200A) || n == 0x2028 || n == 0x2029 || n == 0x202F || n == 0x205F ||
    n == 0x3000

/-- `validate_non_empty`: something is left after trimming. -/
def validateNonEmpty (value : String) : Bool := value.toList.any fun c => !isWhitespace c

/-- Opaque backend object identifier. -/
@[ext]
structure BackendObjectId where
  asStr : String
  valid : validateNonEmpty asStr = true
  deriving DecidableEq

/-- Opaque provider version identifier for a backend object. -/
@[ext]
structure BackendVersionId where
  asStr : String
  valid : validateNonEmpty asStr = true
  deriving DecidableEq

/-- Key identifier. -/
@[ext]
structure KeyId where
  asStr : String
  valid : validateNonEmpty asStr = true
  deriving DecidableEq

def BackendObjectId.new? (value : String) : Option BackendObjectId :=
  if h : validateNonEmpty value = true then some ⟨value, h⟩ else none

def BackendVersionId.new? (value : String) : Option BackendVersionId :=
  if h : validateNonEmpty value = true then some ⟨value, h⟩ else none

def KeyId.new? (value : String) : Option KeyId := if h : validateNonEmpty value = true then some ⟨value, h⟩ else none

@[simp] theorem BackendObjectId.new?_eq_some : BackendObjectId.new? value = some x ↔ value = x.asStr := by
  cases x
  grind [BackendObjectId.new?]

@[simp]
theorem BackendObjectId.new?_asStr (x : BackendObjectId) : BackendObjectId.new? x.asStr = some x :=
  BackendObjectId.new?_eq_some.mpr rfl

@[simp] theorem BackendVersionId.new?_eq_some : BackendVersionId.new? value = some x ↔ value = x.asStr := by
  cases x
  grind [BackendVersionId.new?]

@[simp]
theorem BackendVersionId.new?_asStr (x : BackendVersionId) : BackendVersionId.new? x.asStr = some x :=
  BackendVersionId.new?_eq_some.mpr rfl

@[simp] theorem KeyId.new?_eq_some : KeyId.new? value = some x ↔ value = x.asStr := by
  cases x
  grind [KeyId.new?]

@[simp]
theorem KeyId.new?_asStr (x : KeyId) : KeyId.new? x.asStr = some x := KeyId.new?_eq_some.mpr rfl

/-! ## Sequences and digests -/

/-- An unsigned 64-bit counter. -/
@[ext]
structure U64 where
  get : ℕ
  isLt : get < 2 ^ 64
  deriving DecidableEq

namespace U64

variable {a b : U64}

instance : LE U64 := ⟨fun a b => a.get ≤ b.get⟩
instance : LT U64 := ⟨fun a b => a.get < b.get⟩
instance (a b : U64) : Decidable (a ≤ b) := inferInstanceAs (Decidable (a.get ≤ b.get))
instance (a b : U64) : Decidable (a < b) := inferInstanceAs (Decidable (a.get < b.get))

theorem le_def : a ≤ b ↔ a.get ≤ b.get := Iff.rfl
theorem lt_def : a < b ↔ a.get < b.get := Iff.rfl

instance (n : ℕ) : OfNat U64 n := ⟨⟨n % 2 ^ 64, Nat.mod_lt n (by decide)⟩⟩

/-- A number as a counter. -/
def ofNat? (n : ℕ) : Option U64 := if h : n < 2 ^ 64 then some ⟨n, h⟩ else none

@[simp] theorem ofNat?_eq_some : ofNat? n = some a ↔ n = a.get := by
  unfold ofNat?
  constructor
  · intro h
    split at h
    · cases h
      rfl
    · cases h
  · rintro rfl
    rw [dif_pos a.isLt]

/-- `checked_add(1)`. -/
def checkedNext (a : U64) : Option U64 := if h : a.get + 1 < 2 ^ 64 then some ⟨a.get + 1, h⟩ else none

theorem checkedNext_get (h : a.checkedNext = some b) : b.get = a.get + 1 := by
  unfold checkedNext at h
  split at h
  · cases h
    rfl
  · cases h

theorem lt_checkedNext (h : a.checkedNext = some b) : a < b := (checkedNext_get h).ge

end U64

/-- Commit sequence and namespace generation. -/
abbrev Sequence := U64

/-- A 32-byte digest. -/
abbrev Digest := Vector UInt8 32

/-- Exactly 32 bytes. -/
def Digest.ofBytes? (bytes : List UInt8) : Option Digest :=
  if h : bytes.length = 32 then some ⟨bytes.toArray, by simpa using h⟩ else none

/-! ## Anchor state -/

/-- Active encrypted format-root reference. -/
@[ext]
structure V3FormatRef where
  generation : U64
  digest : String
  objectId : BackendObjectId
  versionId : Option BackendVersionId
  deriving DecidableEq

/-- Accepted v3 commit anchor state. -/
@[ext]
structure V3AnchorState where
  sequence : Sequence
  commitKey : BackendObjectId
  bodyDigest : Digest
  versionId : Option BackendVersionId
  signingKeyId : KeyId
  formatRef : V3FormatRef
  deriving DecidableEq

/-- The errors the modelled functions return. -/
inductive V3FormatError where
  | typeValidation
  | invalidPublicationTime
  | anchorReadFailed
  | anchorAdvanceFailed
  | anchorReconciliationRequired
  | staleAnchor
  | storageOperationFailed
  | invalidCommitKey
  | invalidRecoveryPolicy
  | invalidRecoveryHistory
  | recoveryHistoryCapacity
  | invalidHeaderField
  | invalidIndexRun
  | indexRunLimitExceeded
  | invalidIndexRoot
  | indexRootLimitExceeded
  | invalidPayloadPack
  | payloadPackLimitExceeded
  | sectionBounds
  | objectTooLarge
  | cryptoOperation
  | unsupportedSection
  | replayBudgetExceeded
  | maintenanceBudgetExceeded
  | missingAnchor
  | truncatedBody
  | truncatedHeader
  | unsupportedFormatVersion
  | unsupportedReaderVersion
  | unsupportedCapabilities
  | nonzeroReserved
  | headerTooLarge
  | malformedCbor
  | nonCanonicalCbor
  | missingHeaderField
  | invalidAlgorithms
  | selfKeyMismatch
  | signatureVerification
  | bodyDigestMismatch
  | sectionDigestMismatch
  | reservedSectionFlags
  | randomnessUnavailable
  | objectBodyReadFailed
  | objectLengthMismatch
  | providerProfileFailed
  deriving DecidableEq, Repr

end Rs3
