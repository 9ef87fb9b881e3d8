/-
# Rs3.Repository.AuthContext — what the associated data of a sealed object is bound to.

Every authenticated encryption of the repository is given associated data under one of five labels: the directory and
the frames of an index run (`v3/index_run.rs`), an index root (`v3/index_root.rs`), a recovery section
(`v3/recovery/section.rs`), and a payload segment (`rs3-crypto/src/payload.rs`), which belongs to a pack when it names
a section and is detached when it does not.  All of them start from `repository_context_from_refs`.  Equal associated
data come from equal inputs: no label starts another one, and every field says where it ends.
-/
import Rs3.Lib.Delimited
import Rs3.Index.RootSeal
import Rs3.Index.RunFrames
import Rs3.Payload.Segmented

namespace Rs3.Repository

open List

open Index (IndexRunFrameRole LogicalPath)
open Payload (V3PayloadPackFacts V3PayloadPackRecordRef PayloadPackContext segmentContext detachedSegmentContext)
open Crypto (PayloadSegmentContext)

/-! ## Repository context -/

structure RepositoryId where
  asStr : String
  valid : validateNonEmpty asStr = true

def repositoryContextDomain : Bytes := utf8 "rs3:v02-repository-context:repository-and-keyring:v1\n"

/-- A length that has to fit `w` bits before it is written. -/
def lengthBytes (w : ℕ) (e : V3FormatError) (len : ℕ) : Except V3FormatError Bytes := do
  let len ← okOr (tryFrom w len) e
  return toBe (w / 8) len

/-- `repository_context_from_refs`. -/
def repositoryContextFromRefs (repositoryId : RepositoryId) (keyring : V3KeyringEnvelopeRef) :
    Except V3FormatError Bytes := do
  let repositoryLen ← lengthBytes 32 .invalidHeaderField repositoryId.asStr.utf8ByteSize
  let keyringLen ← lengthBytes 32 .invalidHeaderField keyring.objectId.asStr.utf8ByteSize
  return repositoryContextDomain ++ (repositoryLen ++ (utf8 repositoryId.asStr ++ (keyringLen ++
    (utf8 keyring.objectId.asStr ++ keyring.digest.toList))))

/-- The repository, the keyring envelope and the object that a sealed value belongs to. -/
@[ext]
structure AuthScope where
  repositoryId : RepositoryId
  keyring : V3KeyringEnvelopeRef
  object : BackendObjectId

/-! ## Index runs -/

structure RunHeader where
  headerLen : ℕ
  storedLen : ℕ
  sectionOrdinal : ℕ
  frameCount : ℕ
  runId : Digest
  keyId : KeyId
  directoryPlaintextLen : ℕ
  directoryCiphertextLen : ℕ

/-- The widths of the integers. -/
structure RunHeader.Typed (header : RunHeader) : Prop where
  headerLen : header.headerLen < 256 ^ 4
  storedLen : header.storedLen < 256 ^ 8
  sectionOrdinal : header.sectionOrdinal < 256 ^ 4
  frameCount : header.frameCount < 256 ^ 4
  directoryPlaintextLen : header.directoryPlaintextLen < 256 ^ 4
  directoryCiphertextLen : header.directoryCiphertextLen < 256 ^ 4

/-- `INDEX_RUN_FORMAT_GENERATION`. -/
def indexRunFormatGeneration : ℕ := 2

/-- `validate_context_bytes`. -/
def validateContextBytes (repositoryContext : Bytes) (containingObject : BackendObjectId) : Except V3FormatError Unit :=
  ensure (repositoryContext ≠ [] ∧ repositoryContext.length ≤ 4096 ∧ containingObject.asStr.utf8ByteSize ≤ 1024)
    .indexRunLimitExceeded

/-- `common_associated_data`. -/
def commonAssociatedData (repositoryContext : Bytes) (containingObject : BackendObjectId) (header : RunHeader) :
    Except V3FormatError Bytes := do
  validateContextBytes repositoryContext containingObject
  let contextLen ← lengthBytes 32 .indexRunLimitExceeded repositoryContext.length
  let objectLen ← lengthBytes 32 .indexRunLimitExceeded containingObject.asStr.utf8ByteSize
  let keyLen ← lengthBytes 16 .indexRunLimitExceeded header.keyId.asStr.utf8ByteSize
  return toBe 2 indexRunFormatGeneration ++ (contextLen ++ (repositoryContext ++ (objectLen ++
    (utf8 containingObject.asStr ++ (toBe 4 header.sectionOrdinal ++ (header.runId.toList ++ (toBe 4 header.headerLen ++
    (toBe 8 header.storedLen ++ (toBe 4 header.frameCount ++ (keyLen ++ (utf8 header.keyId.asStr ++
    (toBe 4 header.directoryPlaintextLen ++ toBe 4 header.directoryCiphertextLen))))))))))))

/-- `IndexRunSearchBound`; the blind key is its raw bytes. -/
inductive IndexRunSearchBound where
  | blindKey (blindKey : Digest) (mutationOrdinal : ℕ)
  | listing (path : LogicalPath) (mutationOrdinal : ℕ)

def IndexRunSearchBound.mutationOrdinal : IndexRunSearchBound → ℕ
  | blindKey _ ordinal => ordinal
  | listing _ ordinal => ordinal

/-- `encode_bound`. -/
def encodeBound : Option IndexRunSearchBound → Except V3FormatError Bytes
  | none => .ok [0]
  | some (.blindKey blindKey ordinal) => .ok (1 :: (blindKey.toList ++ toBe 4 ordinal))
  | some (.listing path ordinal) => do
    let pathLen ← lengthBytes 16 .indexRunLimitExceeded path.asStr.utf8ByteSize
    return 2 :: (pathLen ++ (utf8 path.asStr ++ toBe 4 ordinal))

structure V3IndexRunFrameDescriptor where
  ordinal : ℕ
  role : IndexRunFrameRole
  roleOrdinal : ℕ
  offset : ℕ
  storedLen : ℕ
  plaintextLen : ℕ
  recordCount : ℕ
  firstBound : Option IndexRunSearchBound
  lastBound : Option IndexRunSearchBound

def BoundTyped (bound : Option IndexRunSearchBound) : Prop := ∀ b ∈ bound, b.mutationOrdinal < 256 ^ 4

structure V3IndexRunFrameDescriptor.Typed (descriptor : V3IndexRunFrameDescriptor) : Prop where
  ordinal : descriptor.ordinal < 256 ^ 4
  roleOrdinal : descriptor.roleOrdinal < 256 ^ 4
  offset : descriptor.offset < 256 ^ 8
  storedLen : descriptor.storedLen < 256 ^ 4
  plaintextLen : descriptor.plaintextLen < 256 ^ 4
  recordCount : descriptor.recordCount < 256 ^ 4
  firstBound : BoundTyped descriptor.firstBound
  lastBound : BoundTyped descriptor.lastBound

/-- `encode_descriptor`. -/
def encodeDescriptor (descriptor : V3IndexRunFrameDescriptor) : Except V3FormatError Bytes := do
  let first ← encodeBound descriptor.firstBound
  let last ← encodeBound descriptor.lastBound
  return toBe 4 descriptor.ordinal ++ (UInt8.ofNat descriptor.role.tag :: ([0, 0, 0] ++ (toBe 4 descriptor.roleOrdinal ++
    (toBe 8 descriptor.offset ++ (toBe 4 descriptor.storedLen ++ (toBe 4 descriptor.plaintextLen ++
    (toBe 4 descriptor.recordCount ++ (first ++ last))))))))

/-! ## Recovery sections -/

/-- What `seal` of a recovery section writes before the nonce. -/
structure RecoveryHeader where
  ordinal : ℕ
  plaintextLen : ℕ
  identity : Digest
  keyId : KeyId

structure RecoveryHeader.Typed (header : RecoveryHeader) : Prop where
  ordinal : header.ordinal < 256 ^ 4
  plaintextLen : header.plaintextLen < 256 ^ 8

/-- Magic, version, key length, ordinal, plaintext length, identity, key. -/
def recoveryHeaderBytes (header : RecoveryHeader) : Except V3FormatError Bytes := do
  ensure (header.keyId.asStr.utf8ByteSize ≠ 0 ∧ header.keyId.asStr.utf8ByteSize ≤ 255) .invalidRecoveryHistory
  return utf8 "rs3:rcv\n" ++ (toBe 2 1 ++ (toBe 2 header.keyId.asStr.utf8ByteSize ++ (toBe 4 header.ordinal ++
    (toBe 8 header.plaintextLen ++ (header.identity.toList ++ utf8 header.keyId.asStr)))))

/-- `associated_data` of a recovery section, after its label. -/
def recoveryAssociatedData (context : Bytes) (object : BackendObjectId) (header : Bytes) :
    Except V3FormatError Bytes := do
  ensure (context ≠ [] ∧ context.length ≤ 4096 ∧ object.asStr.utf8ByteSize ≤ 1024) .invalidRecoveryHistory
  return toBe 4 context.length ++ (context ++ (toBe 4 object.asStr.utf8ByteSize ++ (utf8 object.asStr ++ header)))

/-! ## Contexts -/

/-- The labels of associated data. -/
inductive AuthDomain where
  | runDirectory
  | runFrame
  | root
  | recovery
  | segment
  deriving DecidableEq

def AuthDomain.label : AuthDomain → Bytes
  | runDirectory => utf8 "rs3:index-run-directory-aad:v02\n"
  | runFrame => utf8 "rs3:index-run-frame-aad:v02\n"
  | root => IndexRoot.aadDomain
  | recovery => utf8 "rs3:recovery-section-aad:v03\n"
  | segment => utf8 "rs3:payload-segment-aad:v3"

/-- What one authenticated encryption is given. -/
inductive AuthContext where
  | runDirectory (scope : AuthScope) (header : RunHeader)
  | runFrame (scope : AuthScope) (header : RunHeader) (directoryDigest : Digest)
      (descriptor : V3IndexRunFrameDescriptor)
  | root (scope : AuthScope) (header : IndexRoot.RootHeader)
  | recovery (scope : AuthScope) (header : RecoveryHeader)
  | packSegment (scope : AuthScope) (sectionOrdinal : ℕ) (facts : V3PayloadPackFacts) (record : V3PayloadPackRecordRef)
      (plaintextLen segmentOrdinal segmentLen : ℕ)
  | detachedSegment (scope : AuthScope) (keyId : KeyId) (carrierId attemptId : Digest)
      (partNumber ordinal plaintextLen chunkSize : ℕ) (isFinal : Bool)

namespace AuthContext

def scope : AuthContext → AuthScope
  | runDirectory scope _ | runFrame scope _ _ _ | root scope _ | recovery scope _ | packSegment scope _ _ _ _ _ _
  | detachedSegment scope _ _ _ _ _ _ _ _ => scope

def domain : AuthContext → AuthDomain
  | runDirectory _ _ => .runDirectory
  | runFrame _ _ _ _ => .runFrame
  | root _ _ => .root
  | recovery _ _ => .recovery
  | packSegment _ _ _ _ _ _ _ | detachedSegment _ _ _ _ _ _ _ _ _ => .segment

/-- The widths of the integers that are bound. -/
def Typed : AuthContext → Prop
  | runDirectory _ header => header.Typed
  | runFrame _ header _ descriptor => header.Typed ∧ descriptor.Typed
  | root _ header => header.headerLen < 256 ^ 4 ∧ header.storedLen < 256 ^ 8 ∧ header.sectionOrdinal < 256 ^ 4 ∧
      header.ciphertextLen < 256 ^ 4
  | recovery _ header => header.Typed
  | packSegment _ sectionOrdinal _ record plaintextLen segmentOrdinal _ => sectionOrdinal < 256 ^ 4 ∧
      record.recordOrdinal < 256 ^ 4 ∧ record.physicalOffset < 256 ^ 4 ∧ plaintextLen < 256 ^ 8 ∧
      segmentOrdinal < 256 ^ 8
  | detachedSegment _ _ _ _ partNumber ordinal _ chunkSize _ => partNumber < 256 ^ 4 ∧ ordinal < 256 ^ 8 ∧
      chunkSize < 256 ^ 8

/-- The associated data of a context, under the repository context of its scope. -/
def associatedDataIn (repositoryContext : Bytes) : AuthContext → Except V3FormatError Bytes
  | runDirectory scope header => do
    let common ← commonAssociatedData repositoryContext scope.object header
    return AuthDomain.runDirectory.label ++ common
  | runFrame scope header directoryDigest descriptor => do
    let common ← commonAssociatedData repositoryContext scope.object header
    let described ← encodeDescriptor descriptor
    return AuthDomain.runFrame.label ++ (common ++ (directoryDigest.toList ++ described))
  | root scope header => IndexRoot.associatedData repositoryContext scope.object header
  | recovery scope header => do
    let headerBytes ← recoveryHeaderBytes header
    let bound ← recoveryAssociatedData repositoryContext scope.object headerBytes
    return AuthDomain.recovery.label ++ bound
  | packSegment scope sectionOrdinal facts record plaintextLen segmentOrdinal segmentLen => do
    let context ← segmentContext ⟨repositoryContext, scope.object, sectionOrdinal⟩ facts record plaintextLen
      segmentOrdinal segmentLen
    context.associatedData facts.contentKeyId
  | detachedSegment scope keyId carrierId attemptId partNumber ordinal plaintextLen chunkSize isFinal =>
    (detachedSegmentContext repositoryContext scope.object carrierId attemptId partNumber ordinal plaintextLen chunkSize
      isFinal).associatedData keyId

def associatedData (context : AuthContext) : Except V3FormatError Bytes := do
  let repositoryContext ← repositoryContextFromRefs context.scope.repositoryId context.scope.keyring
  context.associatedDataIn repositoryContext

end AuthContext

/-! ## Fields -/

attribute [ext] RepositoryId RunHeader RecoveryHeader V3IndexRunFrameDescriptor IndexRoot.RootHeader PayloadSegmentContext
  V3PayloadPackRecordRef PayloadPackContext V3PayloadPackFacts

variable {bytes : Bytes} {object : BackendObjectId} {segmentOrdinal : ℕ}

theorem lengthBytes_eq_ok : lengthBytes w e len = .ok bytes ↔ len < 2 ^ w ∧ bytes = toBe (w / 8) len := by
  simp only [lengthBytes, ok_iff, tryFrom_eq_some]
  constructor
  · rintro ⟨_, ⟨hlen, rfl⟩, rfl⟩
    exact ⟨hlen, rfl⟩
  · rintro ⟨hlen, rfl⟩
    exact ⟨len, ⟨hlen, rfl⟩, rfl⟩

/-- **The repository context determines the repository, the keyring object and its digest.** -/
theorem repositoryContext_inj (h : repositoryContextFromRefs repositoryId keyring = .ok bytes)
    (h' : repositoryContextFromRefs repositoryId' keyring' = .ok bytes) :
    repositoryId = repositoryId' ∧ keyring = keyring' := by
  simp only [repositoryContextFromRefs, ok_iff, lengthBytes_eq_ok] at h h'
  obtain ⟨_, ⟨hid', rfl⟩, _, ⟨hobject', rfl⟩, rfl⟩ := h'
  obtain ⟨_, ⟨hid, rfl⟩, _, ⟨hobject, rfl⟩, heq⟩ := h
  have h := append_cancel_left heq
  simp only [← append_assoc (toBe _ _) (utf8 _)] at h
  obtain ⟨hidEq, h⟩ := delimited_textFramed 4 hid hid' h
  obtain ⟨hobjectEq, hdigest⟩ := delimited_textFramed 4 hobject hobject' h
  refine ⟨RepositoryId.ext hidEq, ?_⟩
  cases keyring
  cases keyring'
  obtain rfl := BackendObjectId.ext hobjectEq
  obtain rfl := Vector.toList_inj.mp hdigest
  rfl

variable {record' : V3PayloadPackRecordRef}

theorem commonAssociatedData_inj (ht : header.Typed) (ht' : header'.Typed)
    (h : commonAssociatedData context object header = .ok bytes)
    (h' : commonAssociatedData context' object' header' = .ok bytes') (heq : bytes ++ rest = bytes' ++ rest') :
    context = context' ∧ object = object' ∧ header = header' ∧ rest = rest' := by
  simp only [commonAssociatedData, validateContextBytes, ok_iff, lengthBytes_eq_ok] at h h'
  obtain ⟨-, _, ⟨hcontext, rfl⟩, _, ⟨hobject, rfl⟩, _, ⟨hkey, rfl⟩, rfl⟩ := h
  obtain ⟨-, _, ⟨hcontext', rfl⟩, _, ⟨hobject', rfl⟩, _, ⟨hkey', rfl⟩, rfl⟩ := h'
  simp only [append_assoc] at heq
  have h := append_cancel_left heq
  simp only [← append_assoc (toBe _ _) (utf8 _), ← append_assoc (toBe _ _) context,
    ← append_assoc (toBe _ _) context'] at h
  obtain ⟨hcontextEq, h⟩ := delimited_lengthFramed 4 hcontext hcontext' h
  obtain ⟨hobjectEq, h⟩ := delimited_textFramed 4 hobject hobject' h
  obtain ⟨hsection, h⟩ := delimited_toBe 4 ht.sectionOrdinal ht'.sectionOrdinal h
  obtain ⟨hrun, h⟩ := delimited_vector 32 trivial trivial h
  obtain ⟨hheaderLen, h⟩ := delimited_toBe 4 ht.headerLen ht'.headerLen h
  obtain ⟨hstored, h⟩ := delimited_toBe 8 ht.storedLen ht'.storedLen h
  obtain ⟨hframes, h⟩ := delimited_toBe 4 ht.frameCount ht'.frameCount h
  obtain ⟨hkeyEq, h⟩ := delimited_textFramed 2 hkey hkey' h
  obtain ⟨hplain, h⟩ := delimited_toBe 4 ht.directoryPlaintextLen ht'.directoryPlaintextLen h
  obtain ⟨hcipher, hrest⟩ := delimited_toBe 4 ht.directoryCiphertextLen ht'.directoryCiphertextLen h
  refine ⟨hcontextEq, BackendObjectId.ext hobjectEq, ?_, hrest⟩
  exact RunHeader.ext hheaderLen hstored hsection hframes hrun (KeyId.ext hkeyEq) hplain hcipher

theorem encodeBound_inj (ht : BoundTyped bound) (ht' : BoundTyped bound') (h : encodeBound bound = .ok bytes)
    (h' : encodeBound bound' = .ok bytes') (heq : bytes ++ rest = bytes' ++ rest') : bound = bound' ∧ rest = rest' := by
  rcases bound with _ | ⟨key, ordinal⟩ | ⟨path, ordinal⟩ <;>
    rcases bound' with _ | ⟨key', ordinal'⟩ | ⟨path', ordinal'⟩ <;>
    simp only [encodeBound, ok_iff, lengthBytes_eq_ok, Except.ok.injEq] at h h'
  -- the tags differ off the diagonal
  case none.none =>
    subst h h'
    exact ⟨rfl, (List.cons.inj heq).2⟩
  case some.blindKey.some.blindKey =>
    subst h h'
    simp only [cons_append, append_assoc, List.cons.injEq, true_and] at heq
    obtain ⟨rfl, h⟩ := delimited_vector 32 trivial trivial heq
    obtain ⟨rfl, hrest⟩ := delimited_toBe 4 (ht _ rfl) (ht' _ rfl) h
    exact ⟨rfl, hrest⟩
  case some.listing.some.listing =>
    obtain ⟨_, ⟨hpath, rfl⟩, rfl⟩ := h
    obtain ⟨_, ⟨hpath', rfl⟩, rfl⟩ := h'
    simp only [cons_append, append_assoc, List.cons.injEq, true_and] at heq
    simp only [← append_assoc (toBe _ _) (utf8 _)] at heq
    obtain ⟨hpathEq, h⟩ := delimited_textFramed 2 hpath hpath' heq
    obtain ⟨rfl, hrest⟩ := delimited_toBe 4 (ht _ rfl) (ht' _ rfl) h
    obtain rfl := LogicalPath.ext hpathEq
    exact ⟨rfl, hrest⟩
  all_goals
    obtain ⟨_, -, rfl⟩ := h
    obtain ⟨_, -, rfl⟩ := h'
    simp at heq

theorem encodeDescriptor_inj
    (ht : descriptor.Typed) (ht' : descriptor'.Typed) (h : encodeDescriptor descriptor = .ok bytes)
    (h' : encodeDescriptor descriptor' = .ok bytes) : descriptor = descriptor' := by
  simp only [encodeDescriptor, ok_iff] at h h'
  obtain ⟨first', hfirst', last', hlast', rfl⟩ := h'
  obtain ⟨first, hfirst, last, hlast, heq⟩ := h
  obtain ⟨hordinal, h⟩ := delimited_toBe 4 ht.ordinal ht'.ordinal heq
  obtain ⟨hrole, h⟩ := List.cons.inj h
  have h := append_cancel_left h
  obtain ⟨hroleOrdinal, h⟩ := delimited_toBe 4 ht.roleOrdinal ht'.roleOrdinal h
  obtain ⟨hoffset, h⟩ := delimited_toBe 8 ht.offset ht'.offset h
  obtain ⟨hstored, h⟩ := delimited_toBe 4 ht.storedLen ht'.storedLen h
  obtain ⟨hplain, h⟩ := delimited_toBe 4 ht.plaintextLen ht'.plaintextLen h
  obtain ⟨hcount, h⟩ := delimited_toBe 4 ht.recordCount ht'.recordCount h
  obtain ⟨hfirstEq, h⟩ := encodeBound_inj ht.firstBound ht'.firstBound hfirst hfirst' h
  obtain ⟨hlastEq, -⟩ := encodeBound_inj ht.lastBound ht'.lastBound hlast hlast' (congrArg (· ++ []) h)
  have hroleEq : descriptor.role = descriptor'.role := by
    revert hrole
    cases descriptor.role <;> cases descriptor'.role <;> decide
  exact V3IndexRunFrameDescriptor.ext hordinal hroleEq hroleOrdinal hoffset hstored hplain hcount hfirstEq hlastEq

theorem rootAssociatedData_inj
    (ht : header.headerLen < 256 ^ 4 ∧ header.storedLen < 256 ^ 8 ∧ header.sectionOrdinal < 256 ^ 4 ∧
      header.ciphertextLen < 256 ^ 4)
    (ht' : header'.headerLen < 256 ^ 4 ∧ header'.storedLen < 256 ^ 8 ∧ header'.sectionOrdinal < 256 ^ 4 ∧
      header'.ciphertextLen < 256 ^ 4) (h : IndexRoot.associatedData context object header = .ok bytes)
    (h' : IndexRoot.associatedData context' object' header' = .ok bytes) :
    context = context' ∧ object = object' ∧ header = header' := by
  simp only [IndexRoot.associatedData, ok_iff, tryFrom_eq_some, IndexRoot.pushString_eq_ok] at h h'
  obtain ⟨_, -, _, ⟨hcontext', rfl⟩, _, ⟨hobject', rfl⟩, _, ⟨hkey', rfl⟩, rfl⟩ := h'
  obtain ⟨_, -, _, ⟨hcontext, rfl⟩, _, ⟨hobject, rfl⟩, _, ⟨hkey, rfl⟩, heq⟩ := h
  have h := append_cancel_left heq
  simp only [← append_assoc (toBe _ _) context, ← append_assoc (toBe _ _) context'] at h
  obtain ⟨hcontextEq, h⟩ := delimited_lengthFramed 4 hcontext hcontext' h
  obtain ⟨hobjectEq, h⟩ := delimited_lengthFramed 2 hobject hobject' h
  have h := append_cancel_left (append_cancel_left h)
  obtain ⟨hheaderLen, h⟩ := delimited_toBe 4 ht.1 ht'.1 h
  obtain ⟨hstored, h⟩ := delimited_toBe 8 ht.2.1 ht'.2.1 h
  obtain ⟨hsection, h⟩ := delimited_toBe 4 ht.2.2.1 ht'.2.2.1 h
  obtain ⟨hroot, h⟩ := delimited_vector 32 trivial trivial h
  obtain ⟨hkeyEq, h⟩ := delimited_lengthFramed 2 hkey hkey' h
  have hcipher := Delimited.eq (delimited_toBe 4) ht.2.2.2 ht'.2.2.2 h
  refine ⟨hcontextEq, BackendObjectId.ext (utf8_inj hobjectEq), ?_⟩
  exact IndexRoot.RootHeader.ext hheaderLen hstored hsection hroot (KeyId.ext (utf8_inj hkeyEq)) hcipher

theorem recoveryAssociatedData_inj (ht : header.Typed) (ht' : header'.Typed)
    (hheader : recoveryHeaderBytes header = .ok headerBytes) (hheader' : recoveryHeaderBytes header' = .ok headerBytes')
    (h : recoveryAssociatedData context object headerBytes = .ok bytes)
    (h' : recoveryAssociatedData context' object' headerBytes' = .ok bytes) :
    context = context' ∧ object = object' ∧ header = header' := by
  simp only [recoveryAssociatedData, recoveryHeaderBytes, ok_iff] at h h' hheader hheader'
  obtain ⟨⟨-, hcontext', hobject'⟩, rfl⟩ := h'
  obtain ⟨⟨-, hcontext, hobject⟩, heq⟩ := h
  obtain ⟨⟨-, hkey⟩, rfl⟩ := hheader
  obtain ⟨⟨-, hkey'⟩, rfl⟩ := hheader'
  simp only [← append_assoc (toBe _ _) context, ← append_assoc (toBe _ _) context',
    ← append_assoc (toBe _ _) (utf8 _)] at heq
  obtain ⟨hcontextEq, h⟩ := Delimited.of_le (delimited_lengthFramed 4) (by decide) hcontext hcontext' heq
  obtain ⟨hobjectEq, h⟩ := Delimited.of_le (delimited_textFramed 4) (by decide) hobject hobject' h
  have h := append_cancel_left (append_cancel_left h)
  -- the length of the key comes first, the key last
  obtain ⟨-, h⟩ := Delimited.of_le (delimited_toBe 2) (by decide) hkey hkey' h
  obtain ⟨hordinal, h⟩ := delimited_toBe 4 ht.ordinal ht'.ordinal h
  obtain ⟨hplain, h⟩ := delimited_toBe 8 ht.plaintextLen ht'.plaintextLen h
  obtain ⟨hidentity, hkeyEq⟩ := delimited_vector 32 trivial trivial h
  refine ⟨hcontextEq, BackendObjectId.ext hobjectEq, ?_⟩
  exact RecoveryHeader.ext hordinal hplain hidentity (KeyId.ext (utf8_inj hkeyEq))

/-! ## Segments -/

/-- The integers of a segment context that its own checks do not bound. -/
structure SegmentTyped (context : PayloadSegmentContext) : Prop where
  sectionOrdinal : ∀ ordinal ∈ context.sectionOrdinal, ordinal < 256 ^ 4
  partOrdinal : context.partOrdinal < 256 ^ 4
  segmentOrdinal : context.segmentOrdinal < 256 ^ 8

/-- The section of a segment: a tag, and the ordinal when there is one. -/
def sectionBytes : Option ℕ → Bytes
  | none => [0]
  | some ordinal => 1 :: toBe 4 ordinal

theorem sectionBytes_inj (ht : ∀ n ∈ ordinal, n < 256 ^ 4)
    (ht' : ∀ n ∈ ordinal', n < 256 ^ 4) (h : sectionBytes ordinal ++ rest = sectionBytes ordinal' ++ rest') :
    ordinal = ordinal' ∧ rest = rest' := by
  rcases ordinal with _ | ordinal <;> rcases ordinal' with _ | ordinal'
  · exact ⟨rfl, (List.cons.inj h).2⟩
  · exact absurd (List.cons.inj h).1 (by decide)
  · exact absurd (List.cons.inj h).1 (by decide)
  · obtain ⟨rfl, hrest⟩ := delimited_toBe 4 (ht _ rfl) (ht' _ rfl) (List.cons.inj h).2
    exact ⟨rfl, hrest⟩

variable {record : V3PayloadPackRecordRef}

/-- **The associated data of a segment determines the key and the whole context.** -/
theorem segmentAssociatedData_inj {context' : PayloadSegmentContext}
    (ht : SegmentTyped context) (ht' : SegmentTyped context') (h : context.associatedData keyId = .ok bytes)
    (h' : context'.associatedData keyId' = .ok bytes) : context = context' ∧ keyId = keyId' := by
  simp only [PayloadSegmentContext.associatedData, PayloadSegmentContext.nonceContext, ok_iff, append_assoc] at h h'
  obtain ⟨⟨-, hcontext', hobject', hlayout', hkey', -, hplain'⟩, rfl⟩ := h'
  obtain ⟨⟨-, hcontext, hobject, hlayout, hkey, -, hplain⟩, heq⟩ := h
  rw [← length_utf8] at hobject hobject' hkey hkey'
  have h := append_cancel_left heq
  obtain ⟨hcontextEq, h⟩ := Delimited.of_le (delimited_lengthFramed 8) (by decide) hcontext hcontext' h
  obtain ⟨hobjectEq, h⟩ := Delimited.of_le (delimited_lengthFramed 8) (by decide) hobject hobject' h
  obtain ⟨hkeyEq, h⟩ := Delimited.of_le (delimited_lengthFramed 8) (by decide) hkey hkey' h
  obtain ⟨hsection, h⟩ := sectionBytes_inj ht.sectionOrdinal ht'.sectionOrdinal h
  obtain ⟨hcarrier, h⟩ := delimited_vector 32 trivial trivial h
  obtain ⟨hattempt, h⟩ := delimited_vector 32 trivial trivial h
  obtain ⟨hpart, h⟩ := delimited_toBe 4 ht.partOrdinal ht'.partOrdinal h
  obtain ⟨hsegment, h⟩ := delimited_toBe 8 ht.segmentOrdinal ht'.segmentOrdinal h
  obtain ⟨hplainEq, h⟩ := Delimited.of_le (delimited_toBe 8) (by decide) hplain hplain' h
  obtain ⟨hfinal, h⟩ := List.cons.inj h
  obtain ⟨hlayoutEq, -⟩ := Delimited.of_le (delimited_lengthFramed 8) (by decide) hlayout hlayout' (congrArg (· ++ []) h)
  have hfinalEq : context.isFinal = context'.isFinal := by
    revert hfinal
    cases context.isFinal <;> cases context'.isFinal <;> decide
  refine ⟨?_, KeyId.ext (utf8_inj hkeyEq)⟩
  exact PayloadSegmentContext.ext hcontextEq (BackendObjectId.ext (utf8_inj hobjectEq)) hsection hcarrier hattempt hpart
    hsegment hplainEq hfinalEq hlayoutEq

theorem packLayout_inj (hrecord : record.recordOrdinal < 256 ^ 4 ∧ record.physicalOffset < 256 ^ 4)
    (hrecord' : record'.recordOrdinal < 256 ^ 4 ∧ record'.physicalOffset < 256 ^ 4)
    (hplain : plaintextLen < 256 ^ 8) (hplain' : plaintextLen' < 256 ^ 8)
    (h : Payload.segmentAssociatedData facts record plaintextLen segmentOrdinal segmentLen = .ok bytes)
    (h' : Payload.segmentAssociatedData facts' record' plaintextLen' segmentOrdinal' segmentLen' = .ok bytes) :
    facts.storedLen = facts'.storedLen ∧ facts.recordCount = facts'.recordCount ∧ record = record' ∧
      plaintextLen = plaintextLen' := by
  simp only [Payload.segmentAssociatedData, ok_iff, append_assoc] at h h'
  obtain ⟨_, -, _, -, _, -, rfl⟩ := h'
  obtain ⟨_, -, _, -, _, -, heq⟩ := h
  have hpack (facts : V3PayloadPackFacts) : facts.storedLen < 256 ^ 4 ∧ facts.recordCount < 256 ^ 4 :=
    ⟨Nat.lt_of_le_of_lt facts.valid.2.2.1 (by decide), Nat.lt_of_le_of_lt facts.valid.2.2.2.2 (by decide)⟩
  have h := append_cancel_left heq
  obtain ⟨hstored, h⟩ := delimited_toBe 4 (hpack facts).1 (hpack facts').1 h
  obtain ⟨hcount, h⟩ := delimited_toBe 4 (hpack facts).2 (hpack facts').2 h
  obtain ⟨hordinal, h⟩ := delimited_toBe 4 hrecord.1 hrecord'.1 h
  obtain ⟨hoffset, h⟩ := delimited_toBe 4 hrecord.2 hrecord'.2 h
  obtain ⟨hplainEq, -⟩ := delimited_toBe 8 hplain hplain' h
  exact ⟨hstored, hcount, V3PayloadPackRecordRef.ext hordinal hoffset, hplainEq⟩

/-- What `segmentContext` hands to the cipher. -/
theorem exists_packSegmentContext {object : PayloadPackContext}
    (hsection : object.sectionOrdinal < 256 ^ 4) (hrecord : record.recordOrdinal < 256 ^ 4)
    (hsegment : segmentOrdinal < 256 ^ 8)
    (h : segmentContext object facts record plaintextLen segmentOrdinal segmentLen = .ok context) :
    SegmentTyped context ∧ ∃ isFinal layout,
      Payload.segmentAssociatedData facts record plaintextLen segmentOrdinal segmentLen = .ok layout ∧
      context = Payload.cryptoSegmentContext object facts record segmentOrdinal segmentLen isFinal layout := by
  simp only [segmentContext, ok_iff] at h
  obtain ⟨layout, hlayout, count, -, rfl⟩ := h
  refine ⟨⟨fun n hn => ?_, hrecord, hsegment⟩, _, layout, hlayout, rfl⟩
  obtain rfl := Option.some.inj hn
  exact hsection

theorem packSegment_inj {object object' : PayloadPackContext} {context' : PayloadSegmentContext}
    (h : segmentContext object facts record plaintextLen segmentOrdinal segmentLen = .ok context)
    (h' : segmentContext object' facts' record' plaintextLen' segmentOrdinal' segmentLen' = .ok context')
    (ht : object.sectionOrdinal < 256 ^ 4 ∧ record.recordOrdinal < 256 ^ 4 ∧ record.physicalOffset < 256 ^ 4 ∧
      plaintextLen < 256 ^ 8 ∧ segmentOrdinal < 256 ^ 8)
    (ht' : object'.sectionOrdinal < 256 ^ 4 ∧ record'.recordOrdinal < 256 ^ 4 ∧ record'.physicalOffset < 256 ^ 4 ∧
      plaintextLen' < 256 ^ 8 ∧ segmentOrdinal' < 256 ^ 8)
    (hdata : context.associatedData facts.contentKeyId = .ok bytes)
    (hdata' : context'.associatedData facts'.contentKeyId = .ok bytes) :
    object = object' ∧ facts = facts' ∧ record = record' ∧ plaintextLen = plaintextLen' ∧
      segmentOrdinal = segmentOrdinal' ∧ segmentLen = segmentLen' := by
  obtain ⟨hsection, hordinal, hoffset, hplain, hsegment⟩ := ht
  obtain ⟨hsection', hordinal', hoffset', hplain', hsegment'⟩ := ht'
  obtain ⟨htyped, _, layout, hlayout, rfl⟩ := exists_packSegmentContext hsection hordinal hsegment h
  obtain ⟨htyped', _, layout', hlayout', rfl⟩ := exists_packSegmentContext hsection' hordinal' hsegment' h'
  obtain ⟨hcontexts, hkey⟩ := segmentAssociatedData_inj htyped htyped' hdata hdata'
  simp only [Payload.cryptoSegmentContext, PayloadSegmentContext.mk.injEq, Option.some.injEq] at hcontexts
  obtain ⟨hcontext, hobject, hsectionEq, hpack, hattempt, -, hsegmentEq, hlen, -, rfl⟩ := hcontexts
  obtain ⟨hstored, hcount, hrecord, hplainEq⟩ :=
    packLayout_inj ⟨hordinal, hoffset⟩ ⟨hordinal', hoffset'⟩ hplain hplain' hlayout hlayout'
  refine ⟨?_, ?_, hrecord, hplainEq, hsegmentEq, hlen⟩
  · exact PayloadPackContext.ext hcontext hobject hsectionEq
  · exact V3PayloadPackFacts.ext hpack hattempt hkey hstored hcount

theorem detachedSegmentTyped (hpart : partNumber < 256 ^ 4) (hordinal : ordinal < 256 ^ 8) :
    SegmentTyped (detachedSegmentContext repositoryContext object carrierId attemptId partNumber ordinal plaintextLen
      chunkSize isFinal) :=
  ⟨fun n hn => absurd hn (Option.not_mem_none n), hpart, hordinal⟩

/-- A pack segment names a section and a detached one does not. -/
theorem pack_ne_detached {object : PayloadPackContext} {detached : PayloadSegmentContext}
    (hsection : object.sectionOrdinal < 256 ^ 4) (hrecord : record.recordOrdinal < 256 ^ 4)
    (hsegment : segmentOrdinal < 256 ^ 8) (hdetached : SegmentTyped detached) (hnone : detached.sectionOrdinal = none)
    (h : segmentContext object facts record plaintextLen segmentOrdinal segmentLen = .ok context)
    (hdata : context.associatedData facts.contentKeyId = .ok bytes) : detached.associatedData keyId ≠ .ok bytes := by
  intro hdata'
  obtain ⟨htyped, _, layout, -, rfl⟩ := exists_packSegmentContext hsection hrecord hsegment h
  obtain ⟨rfl, -⟩ := segmentAssociatedData_inj htyped hdetached hdata hdata'
  exact Option.some_ne_none _ hnone

/-! ## Separation -/

theorem label_take_ne {a b : AuthDomain} (h : a ≠ b) :
    a.label.take (min a.label.length b.label.length) ≠ b.label.take (min a.label.length b.label.length) := by
  revert h
  cases a <;> cases b <;> decide +kernel

namespace AuthContext

variable {a b : AuthContext}

theorem exists_label {context : AuthContext}
    (h : context.associatedDataIn repositoryContext = .ok bytes) : ∃ rest, bytes = context.domain.label ++ rest := by
  have hsegment {segment : PayloadSegmentContext} {keyId : KeyId} (h : segment.associatedData keyId = .ok bytes) :
      ∃ rest, bytes = AuthDomain.segment.label ++ rest := by
    simp only [PayloadSegmentContext.associatedData, ok_iff, append_assoc] at h
    obtain ⟨_, -, rfl⟩ := h
    exact ⟨_, rfl⟩
  cases context with
  | runDirectory scope header =>
    simp only [associatedDataIn, ok_iff] at h
    obtain ⟨common, -, rfl⟩ := h
    exact ⟨common, rfl⟩
  | runFrame scope header directoryDigest descriptor =>
    simp only [associatedDataIn, ok_iff] at h
    obtain ⟨common, -, described, -, rfl⟩ := h
    exact ⟨_, rfl⟩
  | root scope header =>
    simp only [associatedDataIn, IndexRoot.associatedData, ok_iff] at h
    obtain ⟨_, -, _, -, _, -, _, -, rfl⟩ := h
    exact ⟨_, rfl⟩
  | recovery scope header =>
    simp only [associatedDataIn, ok_iff] at h
    obtain ⟨_, -, bound, -, rfl⟩ := h
    exact ⟨bound, rfl⟩
  | packSegment scope sectionOrdinal facts record plaintextLen segmentOrdinal segmentLen =>
    simp only [associatedDataIn, bind_eq_ok] at h
    obtain ⟨segment, -, hdata⟩ := h
    exact hsegment hdata
  | detachedSegment scope keyId carrierId attemptId partNumber ordinal plaintextLen chunkSize isFinal =>
    exact hsegment h

/-- Equal associated data have one label. -/
theorem domain_eq
    (ha : a.associatedDataIn repositoryContext = .ok bytes) (hb : b.associatedDataIn repositoryContext' = .ok bytes) :
    a.domain = b.domain := by
  obtain ⟨rest, hrest⟩ := exists_label ha
  obtain ⟨rest', hrest'⟩ := exists_label hb
  by_contra hne
  exact append_ne_of_take_ne (label_take_ne hne) (hrest.symm.trans hrest')

/-- Equal associated data, up to the repository and the keyring, which are in the repository context. -/
theorem eq_of_associatedDataIn (hat : a.Typed) (hbt : b.Typed) (ha : a.associatedDataIn repositoryContext = .ok bytes)
    (hb : b.associatedDataIn repositoryContext' = .ok bytes) :
    repositoryContext = repositoryContext' ∧ (a.scope.repositoryId = b.scope.repositoryId →
      a.scope.keyring = b.scope.keyring → a = b) := by
  have hdomain := domain_eq ha hb
  cases a <;> cases b <;> simp only [domain, reduceCtorEq] at hdomain
  case runDirectory.runDirectory s header s' header' =>
    simp only [associatedDataIn, ok_iff] at ha hb
    obtain ⟨common', hcommon', rfl⟩ := hb
    obtain ⟨common, hcommon, heq⟩ := ha
    have heq := congrArg (· ++ []) (append_cancel_left heq)
    obtain ⟨hcontext, hobject, rfl, -⟩ := commonAssociatedData_inj hat hbt hcommon hcommon' heq
    exact ⟨hcontext, fun hid hkeyring => (AuthScope.ext hid hkeyring hobject : s = s') ▸ rfl⟩
  case runFrame.runFrame s header digest descriptor s' header' digest' descriptor' =>
    simp only [associatedDataIn, ok_iff] at ha hb
    obtain ⟨common', hcommon', described', hdescribed', rfl⟩ := hb
    obtain ⟨common, hcommon, described, hdescribed, heq⟩ := ha
    obtain ⟨hcontext, hobject, rfl, h⟩ :=
      commonAssociatedData_inj hat.1 hbt.1 hcommon hcommon' (append_cancel_left heq)
    obtain ⟨rfl, rfl⟩ := delimited_vector 32 trivial trivial h
    obtain rfl := encodeDescriptor_inj hat.2 hbt.2 hdescribed hdescribed'
    exact ⟨hcontext, fun hid hkeyring => (AuthScope.ext hid hkeyring hobject : s = s') ▸ rfl⟩
  case root.root s header s' header' =>
    obtain ⟨hcontext, hobject, rfl⟩ := rootAssociatedData_inj hat hbt ha hb
    exact ⟨hcontext, fun hid hkeyring => (AuthScope.ext hid hkeyring hobject : s = s') ▸ rfl⟩
  case recovery.recovery s header s' header' =>
    simp only [associatedDataIn, ok_iff] at ha hb
    obtain ⟨headerBytes, hheader, bound, hbound, rfl⟩ := ha
    obtain ⟨headerBytes', hheader', bound', hbound', heq⟩ := hb
    rw [append_cancel_left heq] at hbound'
    obtain ⟨hcontext, hobject, rfl⟩ := recoveryAssociatedData_inj hat hbt hheader hheader' hbound hbound'
    exact ⟨hcontext, fun hid hkeyring => (AuthScope.ext hid hkeyring hobject : s = s') ▸ rfl⟩
  case packSegment.packSegment s ordinal facts record plain segment len s' ordinal' facts' record' plain' segment' len' =>
    simp only [associatedDataIn, bind_eq_ok] at ha hb
    obtain ⟨context, hcontext, ha⟩ := ha
    obtain ⟨context', hcontext', hb⟩ := hb
    obtain ⟨hobject, rfl, rfl, rfl, rfl, rfl⟩ := packSegment_inj hcontext hcontext' hat hbt ha hb
    simp only [PayloadPackContext.mk.injEq] at hobject
    obtain ⟨hcontext, hobject, rfl⟩ := hobject
    exact ⟨hcontext, fun hid hkeyring => (AuthScope.ext hid hkeyring hobject : s = s') ▸ rfl⟩
  case packSegment.detachedSegment =>
    simp only [associatedDataIn, bind_eq_ok] at ha
    obtain ⟨context, hcontext, ha⟩ := ha
    exact absurd hb (pack_ne_detached hat.1 hat.2.1 hat.2.2.2.2 (detachedSegmentTyped hbt.1 hbt.2.1) rfl hcontext ha)
  case detachedSegment.packSegment =>
    simp only [associatedDataIn, bind_eq_ok] at hb
    obtain ⟨context, hcontext, hb⟩ := hb
    exact absurd ha (pack_ne_detached hbt.1 hbt.2.1 hbt.2.2.2.2 (detachedSegmentTyped hat.1 hat.2.1) rfl hcontext hb)
  case detachedSegment.detachedSegment s key carrier attempt part ordinal plain chunk final s' key' carrier' attempt' part'
      ordinal' plain' chunk' final' =>
    obtain ⟨hcontexts, hkey⟩ :=
      segmentAssociatedData_inj (detachedSegmentTyped hat.1 hat.2.1) (detachedSegmentTyped hbt.1 hbt.2.1) ha hb
    simp only [detachedSegmentContext, PayloadSegmentContext.mk.injEq] at hcontexts
    obtain ⟨hcontext, hobject, -, hcarrier, hattempt, hpart, hordinal, hplain, hfinal, hlayout⟩ := hcontexts
    have hchunk := Delimited.eq (delimited_toBe 8) hat.2.2 hbt.2.2 hlayout
    refine ⟨hcontext, fun hid hkeyring => ?_⟩
    obtain rfl : s = s' := AuthScope.ext hid hkeyring hobject
    rw [hkey, hcarrier, hattempt, hpart, hordinal, hplain, hchunk, hfinal]

end AuthContext

/-- **Authentication contexts are injective and separated.**  Equal associated data have the same label and come from
the same context, with its repository, keyring reference, object, ordinals, identities, lengths and final flag; and the
repository context alone determines the repository and the keyring reference. -/
theorem auth_contexts_separated :
    (∀ (a b : AuthContext) (bytes : Bytes), a.Typed → b.Typed → a.associatedData = .ok bytes →
      b.associatedData = .ok bytes → a.domain = b.domain ∧ a = b) ∧
    ∀ (repositoryId repositoryId' : RepositoryId) (keyring keyring' : V3KeyringEnvelopeRef) (bytes : Bytes),
      repositoryContextFromRefs repositoryId keyring = .ok bytes →
      repositoryContextFromRefs repositoryId' keyring' = .ok bytes → repositoryId = repositoryId' ∧ keyring = keyring' := by
  constructor
  · intro a b bytes hat hbt ha hb
    simp only [AuthContext.associatedData, bind_eq_ok] at ha hb
    obtain ⟨context, hcontext, ha⟩ := ha
    obtain ⟨context', hcontext', hb⟩ := hb
    obtain ⟨rfl, heq⟩ := AuthContext.eq_of_associatedDataIn hat hbt ha hb
    obtain ⟨hid, hkeyring⟩ := repositoryContext_inj hcontext hcontext'
    exact ⟨AuthContext.domain_eq ha hb, heq hid hkeyring⟩
  · intro repositoryId repositoryId' keyring keyring' bytes h h'
    exact repositoryContext_inj h h'

end Rs3.Repository
