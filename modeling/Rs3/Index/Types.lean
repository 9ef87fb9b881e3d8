/-
# Rs3.Index.Types — the records of the namespace index and of its durable runs.

The data types of `rs3-index` (`lib.rs`, `run.rs`) and the object metadata of `rs3-types` that they carry.  A blind
key is kept in one form: the source has the raw bytes of a run and their lowercase hex text in memory, and
converts between the two.  Reference counting (`Arc`, `Box`) is not modelled.
-/
import Rs3.Lib.Fallible
import Rs3.Repository.Commit

namespace Rs3.Index

/-! ## Identifiers -/

/-- Client-visible object path. -/
@[ext]
structure LogicalPath where
  asStr : String
  valid : validateNonEmpty asStr = true

/-- Keyed digest of a path under one namespace key. -/
@[ext]
structure BlindIndexKey where
  asStr : String
  valid : validateNonEmpty asStr = true

/-- Opaque identifier of trusted metadata. -/
@[ext]
structure ManifestId where
  asStr : String
  valid : validateNonEmpty asStr = true

instance : DecidableEq LogicalPath := fun _ _ => decidable_of_iff _ LogicalPath.ext_iff.symm
instance : DecidableEq BlindIndexKey := fun _ _ => decidable_of_iff _ BlindIndexKey.ext_iff.symm
instance : DecidableEq ManifestId := fun _ _ => decidable_of_iff _ ManifestId.ext_iff.symm

instance : Ord LogicalPath := ⟨compareOn LogicalPath.asStr⟩
instance : Ord BlindIndexKey := ⟨compareOn BlindIndexKey.asStr⟩
instance : Ord ManifestId := ⟨compareOn ManifestId.asStr⟩
instance : Ord BackendObjectId := ⟨compareOn BackendObjectId.asStr⟩
instance : Ord BackendVersionId := ⟨compareOn BackendVersionId.asStr⟩
instance : Ord KeyId := ⟨compareOn KeyId.asStr⟩
instance : Ord U64 := ⟨compareOn U64.get⟩

instance : Std.TransOrd LogicalPath := inferInstanceAs (Std.TransCmp (compareOn LogicalPath.asStr))
instance : Std.TransOrd BlindIndexKey := inferInstanceAs (Std.TransCmp (compareOn BlindIndexKey.asStr))
instance : Std.TransOrd ManifestId := inferInstanceAs (Std.TransCmp (compareOn ManifestId.asStr))
instance : Std.TransOrd Digest := inferInstanceAs (Std.TransOrd (Vector UInt8 32))

instance : Std.LawfulEqOrd LogicalPath where
  eq_of_compare h := LogicalPath.ext (Std.LawfulEqOrd.eq_of_compare h)
  compare_self := Std.ReflCmp.compare_self

instance : Std.LawfulEqOrd BlindIndexKey where
  eq_of_compare h := BlindIndexKey.ext (Std.LawfulEqOrd.eq_of_compare h)
  compare_self := Std.ReflCmp.compare_self

instance : Std.LawfulEqOrd ManifestId where
  eq_of_compare h := ManifestId.ext (Std.LawfulEqOrd.eq_of_compare h)
  compare_self := Std.ReflCmp.compare_self

/-! ## Object metadata -/

/-- `Md5Digest`. -/
abbrev Md5Digest := Vector UInt8 16

/-- A plaintext ETag; `parts` is zero for an ordinary put. -/
structure ObjectEtag where
  digest : Md5Digest
  parts : ℕ
  deriving DecidableEq

def ObjectEtag.partCount (etag : ObjectEtag) : Option ℕ := if etag.parts = 0 then none else some etag.parts

inductive ChecksumAlgorithm where
  | crc32
  | crc32c
  | crc64Nvme
  | sha1
  | sha256
  deriving DecidableEq, Repr

inductive ChecksumType where
  | fullObject
  | composite (parts : ℕ)
  deriving DecidableEq, Repr

structure ObjectChecksum where
  algorithm : ChecksumAlgorithm
  kind : ChecksumType
  digest : List UInt8
  deriving DecidableEq, Repr

inductive RetentionMode where
  | none
  | governance
  | compliance
  deriving DecidableEq, Repr

@[ext]
structure RetentionPolicy where
  mode : RetentionMode
  retainDays : ℕ
  deriving DecidableEq, Repr

inductive LegalHoldStatus where
  | off
  | on
  deriving DecidableEq, Repr

/-! ## Payload carriers -/

/-- One selected independently sealed part. -/
structure PayloadPart where
  partNumber : ℕ
  attemptId : Digest
  plaintextLen : ℕ
  deriving DecidableEq, Ord

/-- Authenticated layout of a detached payload. -/
structure PayloadLayout where
  chunkSize : ℕ
  plaintextLen : ℕ
  keyId : KeyId
  carrierId : Digest
  parts : List PayloadPart
  deriving DecidableEq, Ord

/-- Commit and section facts shared by the records of one payload pack. -/
structure V3PackCarrierReference where
  commitKey : BackendObjectId
  commitVersionId : Option BackendVersionId
  bodyDigest : Digest
  commitStoredLen : ℕ
  packSectionOrdinal : ℕ
  packOffset : ℕ
  length : ℕ
  packId : Digest
  attemptId : Digest
  contentKeyId : KeyId
  keyringEnvelopeObjectId : BackendObjectId
  keyringEnvelopeDigest : Digest
  packRecordCount : ℕ
  deriving DecidableEq

structure V3PackRecordReference where
  recordOrdinal : ℕ
  recordOffset : ℕ
  deriving DecidableEq

/-- Facts of one standalone object with a streamed payload. -/
structure V3StandaloneStreamCarrierReference where
  objectId : BackendObjectId
  versionId : Option BackendVersionId
  objectDigest : Digest
  storedLen : ℕ
  keyringEnvelopeObjectId : BackendObjectId
  keyringEnvelopeDigest : Digest
  payloadLayout : PayloadLayout
  deriving DecidableEq

/-- Payload location of a namespace entry. -/
inductive PayloadReference where
  | v3Pack (carrier : V3PackCarrierReference) (record : V3PackRecordReference)
  /-- Staged value awaiting a carrier; never persisted. -/
  | pending
  | v3StandaloneStream (carrier : V3StandaloneStreamCarrierReference)
  deriving DecidableEq

/-! ## Namespace entries -/

/-- Metadata that answers namespace lookups. -/
structure NamespaceEntry where
  namespaceKeyId : KeyId
  blindKey : BlindIndexKey
  objectId : BackendObjectId
  objectVersionId : Option BackendVersionId
  payloadRef : Option PayloadReference
  manifestId : ManifestId
  contentLen : ℕ
  modifiedAtMs : Int
  generation : Sequence
  retention : Option RetentionPolicy
  legalHold : Option LegalHoldStatus
  deriving DecidableEq

/-- Trusted metadata of one object version. -/
structure TrustedManifest where
  etag : ObjectEtag
  checksum : Option ObjectChecksum
  key : LogicalPath
  contentLen : ℕ
  modifiedAtMs : Int
  retention : Option RetentionPolicy
  legalHold : Option LegalHoldStatus
  deriving DecidableEq

/-- A staged index mutation; the sealed manifest and the unused prefix tokens are left out. -/
inductive IndexDelta where
  | upsert (entry : NamespaceEntry)
  | tombstone (namespaceKeyId : KeyId) (blindKey : BlindIndexKey) (path : LogicalPath) (generation : Sequence)
  deriving DecidableEq

namespace IndexDelta

def blindKey : IndexDelta → BlindIndexKey
  | upsert entry => entry.blindKey
  | tombstone _ blindKey _ _ => blindKey

def generation : IndexDelta → Sequence
  | upsert entry => entry.generation
  | tombstone _ _ _ generation => generation

end IndexDelta

/-! ## Index runs -/

structure IndexRunKeyringRef where
  objectId : BackendObjectId
  digest : Digest
  deriving DecidableEq, Ord

/-- Exact external payload-pack container. -/
structure IndexRunContainer where
  objectId : BackendObjectId
  versionId : Option BackendVersionId
  storedLen : ℕ
  commitBodyDigest : Digest
  keyringEnvelope : IndexRunKeyringRef
  packSectionOffset : ℕ
  packSectionOrdinal : ℕ
  packSectionLen : ℕ
  packId : Digest
  attemptId : Digest
  contentKeyId : KeyId
  packRecordCount : ℕ
  deriving DecidableEq, Ord

/-- Exact standalone streamed-payload object. -/
structure IndexRunStandaloneStreamContainer where
  objectId : BackendObjectId
  versionId : Option BackendVersionId
  storedLen : ℕ
  objectDigest : Digest
  keyringEnvelope : IndexRunKeyringRef
  payloadLayout : PayloadLayout
  deriving DecidableEq, Ord

/-- Facts of the payload pack in the commit of the run. -/
structure IndexRunSelfPack where
  packId : Digest
  attemptId : Digest
  contentKeyId : KeyId
  storedLen : ℕ
  recordCount : ℕ
  deriving DecidableEq

structure IndexPackRecordPointer where
  recordOrdinal : ℕ
  physicalOffset : ℕ
  deriving DecidableEq

/-- Compact payload location inside a run. -/
inductive IndexPayloadPointer where
  | empty
  | selfPack (record : IndexPackRecordPointer)
  | externalPack (containerOrdinal : ℕ) (record : IndexPackRecordPointer)
  | externalStandaloneStream (containerOrdinal : ℕ)
  deriving DecidableEq

structure IndexUpsert where
  mutationOrdinal : ℕ
  blindKey : BlindIndexKey
  namespaceKeyId : KeyId
  path : LogicalPath
  generation : Sequence
  payload : IndexPayloadPointer
  contentLen : ℕ
  modifiedAtMs : Int
  retention : Option RetentionPolicy
  legalHold : Option LegalHoldStatus
  etag : ObjectEtag
  checksum : Option ObjectChecksum
  deriving DecidableEq

structure IndexTombstone where
  mutationOrdinal : ℕ
  blindKey : BlindIndexKey
  namespaceKeyId : KeyId
  path : LogicalPath
  generation : Sequence
  deriving DecidableEq

inductive IndexMutation where
  | upsert (upsert : IndexUpsert)
  | tombstone (tombstone : IndexTombstone)
  deriving DecidableEq

namespace IndexMutation

/-- `mutation_blind_key`. -/
def blindKey : IndexMutation → BlindIndexKey
  | upsert u => u.blindKey
  | tombstone t => t.blindKey

/-- `mutation_generation`. -/
def generation : IndexMutation → Sequence
  | upsert u => u.generation
  | tombstone t => t.generation

def path : IndexMutation → LogicalPath
  | upsert u => u.path
  | tombstone t => t.path

end IndexMutation

/-! ## Completion receipts -/

/-- Authenticated result of one accepted multipart completion. -/
structure CompletionReceipt where
  uploadId : Digest
  commitSequence : Sequence
  selectionDigest : Digest
  attemptsDigest : Digest
  key : LogicalPath
  contentLen : ℕ
  etag : ObjectEtag
  checksum : Option ObjectChecksum
  deriving DecidableEq

/-- Plaintext index run. -/
structure IndexRun where
  completionReceipt : Option CompletionReceipt
  sequence : Sequence
  selfPack : Option IndexRunSelfPack
  containers : List IndexRunContainer
  standaloneStreamContainers : List IndexRunStandaloneStreamContainer
  mutations : List IndexMutation
  deriving DecidableEq

end Rs3.Index
