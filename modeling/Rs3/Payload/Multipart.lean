/-
# Rs3.Payload.Multipart — client multipart uploads.

`v3/repository/multipart.rs` and `multipart/body.rs`.  Each part is sealed on its own while its plaintext streams by; a
new attempt for a number replaces the old one.  Completion checks the selection against the latest attempts, builds the
layout of the parts that are not empty, and reads the completed object back against the digests of the sealed parts.
-/
import Rs3.Payload.StreamWrite
import Rs3.Storage.BlobRead

namespace Rs3.Payload

open Crypto Storage
open Rs3.Index (PayloadLayout PayloadPart ObjectEtag ObjectChecksum ChecksumAlgorithm ChecksumType Md5Digest
  maxPayloadParts)

def partSegmentBytes : ℕ := 64 * 1024

def multipartMaxPartBytes : ℕ := 5 * 1024 * 1024 * 1024

def multipartMinPartBytes : ℕ := 5 * 1024 * 1024

inductive MultipartError where
  | format (error : V3FormatError)
  | contentMd5Mismatch
  deriving DecidableEq

/-! ## Sealing a part while it streams by -/

/-- A chunk that a reader may not produce. -/
def InvalidChunk (chunk : Bytes) : Prop := chunk = [] ∨ blobReadChunkBytes < chunk.length

instance (chunk : Bytes) : Decidable (InvalidChunk chunk) := by
  unfold InvalidChunk
  infer_instance

/-- Collect `wanted` bytes, from what is pending and then from chunk after chunk; a chunk is refused when it is invalid
or longer than the bytes that may still come, if there is such a limit. -/
def collect (limit : Option ℕ) (wanted : ℕ) (taken pending : Bytes) : List Reply → Option (Bytes × Bytes × List Reply)
  | [] => if wanted ≤ pending.length then some (taken ++ pending.take wanted, pending.drop wanted, []) else none
  | .failed :: rest =>
    if wanted ≤ pending.length then some (taken ++ pending.take wanted, pending.drop wanted, .failed :: rest) else none
  | .chunk chunk :: rest =>
    if wanted ≤ pending.length then
      some (taken ++ pending.take wanted, pending.drop wanted, .chunk chunk :: rest)
    else if InvalidChunk chunk ∨ ∃ most ∈ limit, most - pending.length < chunk.length then none
    else collect (limit.map (· - pending.length)) (wanted - pending.length) (taken ++ pending) chunk rest

/-- `require_eof`. -/
def AtEof (pending : Bytes) (input : List Reply) : Prop := pending = [] ∧ input = []

instance (pending : Bytes) (input : List Reply) : Decidable (AtEof pending input) := by
  unfold AtEof
  infer_instance

section Parts

variable {K : Type} (aead : TaggedAead K) (keyring : KeyRing K) (objectId : BackendObjectId)

/-- `EncryptedPartBody`, polled to its end: the sealed segments of the plaintext, and the plaintext that was hashed. -/
def encryptedPartBody (sealer : SegmentedPayloadSealer) (remaining segment : ℕ) (pending : Bytes) (input : List Reply) :
    Option (List Bytes × Bytes) :=
  if remaining = 0 then
    if AtEof pending input then some ([], []) else none
  else do
    let target := min remaining partSegmentBytes
    let (plaintext, pending, input) ← collect (some remaining) target [] pending input
    if remaining - target = 0 then
      if AtEof pending input then do
        let bytes ← (sealer.sealSegment aead.toAead keyring objectId segment plaintext true).toOption
        some ([bytes], plaintext)
      else none
    else do
      let bytes ← (sealer.sealSegment aead.toAead keyring objectId segment plaintext false).toOption
      let rest ← encryptedPartBody sealer (remaining - target) (segment + 1) pending input
      some (bytes :: rest.1, plaintext ++ rest.2)
termination_by remaining
decreasing_by
  simp only [partSegmentBytes]
  omega

/-! ## Parts -/

/-- `BlobMultipartPart`: the provider's token of a part. -/
structure BlobMultipartPart where
  index : ℕ
  contentLen : ℕ
  deriving DecidableEq

structure V3UploadedPart where
  scope : ℕ
  backend : BlobMultipartPart
  part : PayloadPart
  digest : Digest
  checksum : Option ObjectChecksum
  md5 : Md5Digest
  deriving DecidableEq

/-- `V3MultipartUpload`; the scope is the identity of the session. -/
structure V3MultipartUpload (K : Type) where
  objectId : BackendObjectId
  keyring : KeyRing K
  context : Bytes
  carrierId : Digest
  scope : ℕ
  checksumPolicy : Option ChecksumAlgorithm
  parts : ℕ → Option V3UploadedPart

def V3MultipartUpload.insert {K : Type} (upload : V3MultipartUpload K) (number : ℕ) (part : V3UploadedPart) :
    V3MultipartUpload K :=
  { upload with parts := fun other => if other = number then some part else upload.parts other }

/-- One call of `upload_part`: the client's number, body, checksum and hash, the random attempt, and what the provider
does: whether it reads the sealed body to its end, and what it answers. -/
structure PartCall where
  partNumber : ℕ
  exactLen : ℕ
  body : List Reply
  checksum : Option (Option ObjectChecksum)
  expectedMd5 : Option Md5Digest
  attemptId : Digest
  readsBody : Bool
  answer : Except V3FormatError BlobMultipartPart

/-- The hashes of the provider's side and of the client's side. -/
structure PartHashes where
  sha256 : Bytes → Digest
  md5 : Bytes → Md5Digest

variable (hashes : PartHashes)

section

variable (upload : V3MultipartUpload K)

/-- The sealed body and the digests it leaves, when it is read to its end. -/
def sealedBody (call : PartCall) (sealer : SegmentedPayloadSealer) : Option (Bytes × Digest × Md5Digest) := do
  let sealed ← encryptedPartBody aead upload.keyring upload.objectId sealer call.exactLen 0 [] call.body
  if call.readsBody = true then some (sealed.1.flatten, hashes.sha256 sealed.1.flatten, hashes.md5 sealed.2) else none

/-- A checksum that the policy of the upload does not allow. -/
def ChecksumRefused (policy : Option ChecksumAlgorithm) (checksum : ObjectChecksum) : Prop :=
  checksum.kind ≠ ChecksumType.fullObject ∨ policy ≠ some checksum.algorithm

instance (policy : Option ChecksumAlgorithm) (checksum : ObjectChecksum) : Decidable (ChecksumRefused policy checksum) := by
  unfold ChecksumRefused
  infer_instance

/-- `upload_part`. -/
def uploadPart (call : PartCall) : Except MultipartError (V3UploadedPart × V3MultipartUpload K) := do
  ensure (upload.checksumPolicy.isSome = call.checksum.isSome) (.format .invalidHeaderField)
  ensure (call.partNumber ≠ 0) (.format .invalidHeaderField)
  let index := call.partNumber - 1
  let sealer ← (SegmentedPayloadSealer.new upload.keyring partSegmentBytes upload.context upload.carrierId
    call.partNumber call.attemptId).mapError fun _ => .format .invalidHeaderField
  let ciphertextLen ← (sealer.sealedLenForPlaintextLen call.exactLen).mapError
    fun _ => .format .invalidHeaderField
  ensure (ciphertextLen ≤ multipartMaxPartBytes) (.format .invalidHeaderField)
  let digests := sealedBody aead hashes upload call sealer
  ensure ((digests.all fun body => call.expectedMd5.all (· = body.2.2)) = true) .contentMd5Mismatch
  let backend ← call.answer.mapError .format
  ensure (backend.index = index ∧ backend.contentLen = ciphertextLen) (.format .providerProfileFailed)
  let body ← okOr digests (.format .providerProfileFailed)
  -- a checksum that comes in a trailer is known now
  ensure (call.checksum ≠ some none) (.format .invalidHeaderField)
  ensure (∀ checksum ∈ call.checksum.join, ¬ ChecksumRefused upload.checksumPolicy checksum)
    (.format .invalidHeaderField)
  let uploaded : V3UploadedPart := ⟨upload.scope, backend, ⟨call.partNumber, call.attemptId, call.exactLen⟩, body.2.1,
    call.checksum.join, body.2.2⟩
  return (uploaded, upload.insert call.partNumber uploaded)

/-- The session after a call; a call that fails replaces nothing. -/
def afterCall (call : PartCall) : V3MultipartUpload K :=
  match uploadPart aead hashes upload call with
  | .ok (_, upload') => upload'
  | .error _ => upload

def afterCalls (calls : List PartCall) : V3MultipartUpload K := calls.foldl (afterCall aead hashes) upload

/-! ## Completion -/

/-- One part of the selection, after the last number and the plaintext length so far. -/
def selectPart (count : ℕ) (state : ℕ × ℕ) (entry : V3UploadedPart × ℕ) : Except V3FormatError (ℕ × ℕ) := do
  let (part, index) := entry
  ensure (¬((upload.parts part.part.partNumber).all (fun latest => latest.part.attemptId ≠ part.part.attemptId) = true ∨
    upload.scope ≠ part.scope ∨ part.part.partNumber ≤ state.1 ∨ 10000 < part.part.partNumber ∨
    (index + 1 < count ∧ part.part.plaintextLen < multipartMinPartBytes))) .invalidHeaderField
  let plaintextLen ← okOr (checkedAdd 64 state.2 part.part.plaintextLen) .invalidHeaderField
  return (part.part.partNumber, plaintextLen)

end

/-- `validate_multipart_selection`: the layout, or none when all parts are empty. -/
def validateMultipartSelection (storeContext : Except V3FormatError Bytes) (inflight : Bool)
    (upload : V3MultipartUpload K) (parts : List V3UploadedPart) : Except V3FormatError (Option SegmentedPayloadLayout) := do
  let context ← storeContext.mapError fun _ => .invalidHeaderField
  ensure (¬(context ≠ upload.context ∨ inflight = false ∨ parts = [] ∨ maxPayloadParts < parts.length))
    .invalidHeaderField
  let (_, plaintextLen) ← parts.zipIdx.foldlM (selectPart upload parts.length) (0, 0)
  if plaintextLen = 0 then return none
  else do
    let key ← (upload.keyring.primaryKey .content).mapError fun _ => .invalidHeaderField
    let layout ← (SegmentedPayloadLayout.new ⟨partSegmentBytes, plaintextLen, key.id, upload.carrierId,
      (parts.filter fun part => part.part.plaintextLen ≠ 0).map V3UploadedPart.part⟩ context).mapError
        fun _ => .invalidHeaderField
    return some layout

/-- One part of `verify_selected_parts`: the next bytes of the object, against the digest of the sealed part. -/
def verifyPart (state : Bytes × Bytes × List Reply) (part : V3UploadedPart) :
    Except V3FormatError (Bytes × Bytes × List Reply) := do
  let (whole, pending, reader) := state
  let (bytes, pending, reader) ← okOr (collect none part.backend.contentLen [] pending reader) .providerProfileFailed
  ensure (hashes.sha256 bytes = part.digest) .providerProfileFailed
  return (whole ++ bytes, pending, reader)

/-- `verify_selected_parts`, on what the opened reader answers; a failing reader is reported like a wrong body. -/
def verifySelectedParts (reader : List Reply) (exactLen expectedLen : ℕ) (parts : List V3UploadedPart) :
    Except V3FormatError Digest := do
  ensure (exactLen = expectedLen) .providerProfileFailed
  let (whole, pending, reader) ← parts.foldlM (verifyPart hashes) ([], [], reader)
  ensure (AtEof pending reader) .providerProfileFailed
  return hashes.sha256 whole

/-- What the provider answers to a completion: to completing, to opening the object (its announced length and what the
transport delivers), and to the checks of protection. -/
structure CompletionProvider where
  complete : List BlobMultipartPart → Except V3FormatError BlobMetadata
  extendRetention : Except V3FormatError Unit
  openObject : Option BackendVersionId → Except V3FormatError (ℕ × List Reply)
  verifyProtection : BlobMetadata → Except V3FormatError (Option BackendVersionId)
  abort : Except V3FormatError Unit
  retainedVersions : Bool

/-- `V3VerifiedMultipartUpload`. -/
structure V3VerifiedMultipartUpload where
  etag : ObjectEtag
  stored : Option V3StoredStandalonePayload

/-- `multipart_etag`. -/
def multipartEtag (md5 : Bytes → Md5Digest) (parts : List Md5Digest) : Except V3FormatError ObjectEtag := do
  ensure (1 ≤ parts.length ∧ parts.length ≤ 10000) .invalidHeaderField
  return ⟨md5 (parts.map Vector.toList).flatten, parts.length⟩

/-- `complete_client_multipart_upload`. -/
def completeClientMultipartUpload (storeContext : Except V3FormatError Bytes) (inflight : Bool)
    (provider : CompletionProvider) (upload : V3MultipartUpload K) (parts : List V3UploadedPart) :
    Except V3FormatError V3VerifiedMultipartUpload := do
  let layout ← validateMultipartSelection storeContext inflight upload parts
  let etag ← multipartEtag hashes.md5 (parts.map V3UploadedPart.md5)
  match layout with
  | none => do
    provider.abort
    return ⟨etag, none⟩
  | some layout => do
    let expectedLen ← okOr layout.reference.storedLen .invalidHeaderField
    let metadata ← provider.complete (parts.map V3UploadedPart.backend)
    ensure (metadata.objectId = upload.objectId ∧ metadata.contentLen = expectedLen) .providerProfileFailed
    ensure (¬(provider.retainedVersions = true ∧ metadata.versionId = none)) .providerProfileFailed
    provider.extendRetention
    let (exactLen, source) ← provider.openObject metadata.versionId
    let digest ← verifySelectedParts hashes (exactBlobRead exactLen source) exactLen expectedLen parts
    let versionId ← provider.verifyProtection metadata
    return ⟨etag, some ⟨etag, upload.objectId, versionId, expectedLen, digest, layout⟩⟩

end Parts

end Rs3.Payload
