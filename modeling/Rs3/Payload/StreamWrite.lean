/-
# Rs3.Payload.StreamWrite — streaming upload of a standalone payload.

`write_standalone_streaming_payload` of `v3/repository.rs` with its two buffers: the plaintext is cut into segments, of
which the last full one waits until it is known not to be final, and the sealed segments are cut into parts of the
upload.  The provider and the events of the client's body are parameters.
-/
import Rs3.Payload.ResolvedRead
import Rs3.Lib.BlockBuffer

namespace Rs3.Payload

open Crypto
open Rs3.Index (PayloadLayout ObjectEtag divCeil)

/-! ## The body, the provider and the request -/

/-- What the next poll of the client's body yields, while it has not ended. -/
inductive BodyEvent where
  | chunk (bytes : Bytes)
  | readFailed
  | otherError
  | stalled
  | cancelled

/-- The error that an event ends the upload with. -/
def BodyEvent.failure : BodyEvent → Option V3FormatError
  | .chunk _ => none
  | .readFailed | .stalled | .cancelled => some .objectBodyReadFailed
  | .otherError => some .storageOperationFailed

def BodyEvent.bytes : BodyEvent → Bytes
  | .chunk bytes => bytes
  | _ => []

def bodyBytes (events : List BodyEvent) : Bytes := (events.map BodyEvent.bytes).flatten

structure BlobMetadata where
  objectId : BackendObjectId
  contentLen : ℕ
  versionId : Option BackendVersionId

/-- What the provider answers: to opening the upload, to each part, to completing the upload with its parts, and to the
extension of retention and the check of the stored object afterwards. -/
structure UploadProvider where
  createUpload : Except V3FormatError Unit
  putPart : ℕ → Bytes → Bool
  complete : List Bytes → Except V3FormatError BlobMetadata
  verify : BlobMetadata → ℕ → Digest → Except V3FormatError (Option BackendVersionId)

/-- Where the upload looks at its cancellation besides waiting for the body. -/
inductive CancellationCheck where
  | entry
  | created
  | sealed
  | flushed

structure V3StandalonePayloadWrite where
  objectId : BackendObjectId
  expectedPlaintextLen : Option ℕ
  maxPlaintextLen : ℕ
  payloadSegmentSize : ℕ
  multipartPartSize : ℕ
  /-- `validate_write_protection_profile` on the requested retention and hold. -/
  protection : Except V3FormatError Unit
  isCancelled : CancellationCheck → Bool
  max_lt : maxPlaintextLen < 2 ^ 64

/-- What uploads take from the repository; the attempt identity is random. -/
structure UploadContext (K : Type) where
  aead : TaggedAead K
  keyring : KeyRing K
  repositoryContext : Except V3FormatError Bytes
  attemptId : Digest
  sha256 : Bytes → Digest
  etag : Bytes → ObjectEtag
  retainedVersions : Bool

structure V3StoredStandalonePayload where
  etag : ObjectEtag
  objectId : BackendObjectId
  versionId : Option BackendVersionId
  objectLen : ℕ
  objectDigest : Digest
  payloadLayout : SegmentedPayloadLayout

/-! ## Parts of the upload -/

/-- The parts put so far. -/
structure Uploaded where
  index : ℕ
  parts : List Bytes

/-- `put_part` of a full part. -/
def putPart (provider : UploadProvider) (uploaded : Uploaded) (part : Bytes) : Except V3FormatError Uploaded := do
  ensure (provider.putPart uploaded.index part = true) .storageOperationFailed
  let index ← okOr (checkedAdd 64 uploaded.index 1) .storageOperationFailed
  return ⟨index, uploaded.parts ++ [part]⟩

/-- `MultipartObjectAssembler`, with the hasher of the object as the bytes hashed so far. -/
structure SegmentWriter (partSize : ℕ) where
  hashed : Bytes
  uploaded : Uploaded
  currentPart : BlockBuffer UInt8 partSize

/-- `MultipartObjectAssembler::new`. -/
def SegmentWriter.new (partSize : ℕ) : Except V3FormatError (SegmentWriter partSize) :=
  if h : 0 < partSize then .ok ⟨[], ⟨0, []⟩, ⟨[], h⟩⟩ else .error .sectionBounds

/-- `push_bytes`. -/
def SegmentWriter.pushBytes {partSize : ℕ} (provider : UploadProvider) (writer : SegmentWriter partSize)
    (bytes : Bytes) : Except V3FormatError (SegmentWriter partSize) := do
  let pushed ← writer.currentPart.absorb (putPart provider) writer.uploaded bytes
  return ⟨writer.hashed ++ bytes, pushed.1, pushed.2⟩

/-- `flush_final_part`: the parts of the finished upload. -/
def SegmentWriter.flushFinalPart {partSize : ℕ} (provider : UploadProvider) (writer : SegmentWriter partSize) :
    Except V3FormatError (List Bytes) :=
  if writer.currentPart.held = [] then return writer.uploaded.parts
  else do
    ensure (provider.putPart writer.uploaded.index writer.currentPart.held = true) .storageOperationFailed
    return writer.uploaded.parts ++ [writer.currentPart.held]

/-! ## Segments of the plaintext -/

/-- The state of the loop over the body besides its segment buffer. -/
structure SealState (partSize : ℕ) where
  writer : SegmentWriter partSize
  pendingSegment : Option (ℕ × Bytes)
  nextSegmentIndex : ℕ

section Upload

variable {K : Type} (context : UploadContext K) (provider : UploadProvider) (write : V3StandalonePayloadWrite)

section Segments

variable (sealer : SegmentedPayloadSealer)

/-- `push_standalone_payload_segment`; the caller reports every failure alike. -/
def pushStandalonePayloadSegment {partSize : ℕ} (writer : SegmentWriter partSize) (segmentIndex : ℕ) (plaintext : Bytes)
    (isFinal : Bool) : Except V3FormatError (SegmentWriter partSize) := do
  let ciphertext ← (sealer.sealSegment context.aead.toAead context.keyring write.objectId segmentIndex plaintext
    isFinal).mapError fun _ => .storageOperationFailed
  writer.pushBytes provider ciphertext

/-- The pending segment, if there is one. -/
def pushPending {partSize : ℕ} (writer : SegmentWriter partSize) (pendingSegment : Option (ℕ × Bytes)) (isFinal : Bool) :
    Except V3FormatError (SegmentWriter partSize) :=
  match pendingSegment with
  | some (readyIndex, readySegment) =>
    pushStandalonePayloadSegment context provider write sealer writer readyIndex readySegment isFinal
  | none => .ok writer

/-- A full segment takes the place of the pending one, which is not the last. -/
def segmentFull {partSize : ℕ} (state : SealState partSize) (segment : Bytes) :
    Except V3FormatError (SealState partSize) := do
  let writer ← pushPending context provider write sealer state.writer state.pendingSegment false
  let next ← okOr (checkedAdd 64 state.nextSegmentIndex 1) .sectionBounds
  return ⟨writer, some (state.nextSegmentIndex, segment), next⟩

/-- What the loop over the body carries; the hasher of the plaintext is the bytes hashed so far. -/
structure BodyState (partSize segmentSize : ℕ) where
  plaintextSeen : ℕ
  md5 : Bytes
  sealed : SealState partSize
  segmentBuffer : BlockBuffer UInt8 segmentSize

def consumeBody {partSize segmentSize : ℕ} (state : BodyState partSize segmentSize) :
    List BodyEvent → Except V3FormatError (BodyState partSize segmentSize)
  | [] => .ok state
  | .chunk bytes :: rest =>
    -- empty chunks are not the end of the body
    if bytes = [] then consumeBody state rest
    else do
      let seen ← okOr (checkedAdd 64 state.plaintextSeen bytes.length) .sectionBounds
      ensure (seen ≤ write.maxPlaintextLen)
        (if write.expectedPlaintextLen.isSome then .objectLengthMismatch else .objectTooLarge)
      let absorbed ← state.segmentBuffer.absorb (segmentFull context provider write sealer) state.sealed bytes
      consumeBody ⟨seen, state.md5 ++ bytes, absorbed.1, absorbed.2⟩ rest
  | event :: _ => .error (event.failure.getD .storageOperationFailed)

/-- The segments left when the body has ended: the last one is final. -/
def finishSegments {partSize segmentSize : ℕ} (state : SealState partSize) (segmentBuffer : BlockBuffer UInt8 segmentSize) :
    Except V3FormatError (SegmentWriter partSize) :=
  if segmentBuffer.held = [] then pushPending context provider write sealer state.writer state.pendingSegment true
  else do
    let writer ← pushPending context provider write sealer state.writer state.pendingSegment false
    pushStandalonePayloadSegment context provider write sealer writer state.nextSegmentIndex segmentBuffer.held true

/-- Everything that is sealed from a body, with its plaintext length and its plaintext hash. -/
def sealBody {partSize : ℕ} (writer : SegmentWriter partSize) (hsize : 0 < write.payloadSegmentSize)
    (events : List BodyEvent) : Except V3FormatError (ℕ × Bytes × SegmentWriter partSize) := do
  let body ← @consumeBody _ context provider write sealer _ write.payloadSegmentSize
    ⟨0, [], ⟨writer, none, 0⟩, ⟨[], hsize⟩⟩ events
  ensure (∀ expected ∈ write.expectedPlaintextLen, body.plaintextSeen = expected) .objectLengthMismatch
  let writer ← finishSegments context provider write sealer body.sealed body.segmentBuffer
  return (body.plaintextSeen, body.md5, writer)

end Segments

/-- What is known when the parts are all put. -/
structure PreparedUpload where
  parts : List Bytes
  payloadLayout : SegmentedPayloadLayout
  objectLen : ℕ
  objectBytes : Bytes
  plaintext : Bytes

def uploadSealer : Except V3FormatError SegmentedPayloadSealer := do
  let repositoryContext ← context.repositoryContext
  let carrierId ← standaloneCarrierId write.objectId
  (SegmentedPayloadSealer.new context.keyring write.payloadSegmentSize repositoryContext carrierId 1
    context.attemptId).mapError fun _ => .invalidHeaderField

/-- The upload up to its completion.  The sealer has refused an empty segment size. -/
def prepareUpload (events : List BodyEvent) : Except V3FormatError PreparedUpload := do
  write.protection
  ensure (write.isCancelled .entry = false) .objectBodyReadFailed
  let sealer ← uploadSealer context write
  let writer ← SegmentWriter.new write.multipartPartSize
  provider.createUpload
  ensure (write.isCancelled .created = false) .objectBodyReadFailed
  if hsize : 0 < write.payloadSegmentSize then do
    let (plaintextSeen, plaintext, writer) ← sealBody context provider write sealer writer hsize events
    let payloadLayout ← (sealer.layoutReference plaintextSeen).mapError fun _ => .invalidHeaderField
    let objectLen ← (sealer.sealedLenForPlaintextLen plaintextSeen).mapError fun _ => .sectionBounds
    ensure (write.isCancelled .sealed = false) .objectBodyReadFailed
    let parts ← writer.flushFinalPart provider
    ensure (write.isCancelled .flushed = false) .objectBodyReadFailed
    return ⟨parts, payloadLayout, objectLen, writer.hashed, plaintext⟩
  else .error .invalidHeaderField

/-- What is checked of the completed object. -/
def verifyUpload (prepared : PreparedUpload) (metadata : BlobMetadata) : Except V3FormatError V3StoredStandalonePayload := do
  ensure (metadata.objectId = write.objectId ∧ metadata.contentLen = prepared.objectLen) .providerProfileFailed
  ensure (context.retainedVersions = true → metadata.versionId ≠ none) .providerProfileFailed
  let versionId ← provider.verify metadata prepared.objectLen (context.sha256 prepared.objectBytes)
  return ⟨context.etag prepared.plaintext, write.objectId, versionId, prepared.objectLen,
    context.sha256 prepared.objectBytes, prepared.payloadLayout⟩

/-- The end of an upload: the parts it asked the provider to publish, if it came to that, and its result. -/
structure UploadOutcome where
  published : Option (List Bytes)
  result : Except V3FormatError V3StoredStandalonePayload

/-- `write_standalone_streaming_payload`. -/
def writeStandaloneStreamingPayload (events : List BodyEvent) : UploadOutcome :=
  match prepareUpload context provider write events with
  | .error error => ⟨none, .error error⟩
  | .ok prepared => ⟨some prepared.parts, do
      let metadata ← provider.complete prepared.parts
      verifyUpload context provider write prepared metadata⟩

end Upload

end Rs3.Payload
