/-
# Rs3.Payload.Segmented — detached payloads: parts, segments and ranges.

`payload.rs` of `rs3-repository`.  A detached payload is the concatenation of independently sealed parts; each part is
cut into segments of the layout's chunk size, and the last segment of a part may be short.  A validated layout keeps
the running sums at each part boundary, so that a byte or a segment ordinal is found by its part first.
-/
import Rs3.Payload.Pack
import Rs3.Index.RunValidate

namespace Rs3.Payload

open Rs3.Crypto
open Rs3.Index (PayloadLayout PayloadPart divCeil maxPayloadParts)

/-- The errors of `payload.rs`. -/
inductive PayloadError where
  | invalidRange
  | invalidObjectFormat (objectId : BackendObjectId)
  | crypto (error : V3FormatError)
  deriving DecidableEq

/-! ## Layouts -/

/-- Plaintext bytes, ciphertext bytes and segments before a part. -/
structure PartStart where
  plaintext : ℕ
  ciphertext : ℕ
  «segment» : ℕ
  deriving DecidableEq

/-- `SegmentedPayloadLayout`: a descriptor with its prefix sums. -/
structure SegmentedPayloadLayout where
  reference : PayloadLayout
  repositoryContext : Bytes
  starts : List PartStart
  storedLen : ℕ
  segmentCount : ℕ
  deriving DecidableEq

namespace SegmentedPayloadLayout

/-- The loop of `new`: the start of this part, then the sums after it. -/
def addPart (chunkSize : ℕ) (state : List PartStart × PartStart) (part : PayloadPart) :
    Except PayloadError (List PartStart × PartStart) := do
  let next := state.2
  let count := divCeil part.plaintextLen chunkSize
  let plaintext ← okOr (checkedAdd 64 next.plaintext part.plaintextLen) .invalidRange
  let payload ← okOr (checkedAdd 64 next.ciphertext part.plaintextLen) .invalidRange
  let tags ← okOr (checkedMul 64 count tagLen) .invalidRange
  let ciphertext ← okOr (checkedAdd 64 payload tags) .invalidRange
  let nextSegment ← okOr (checkedAdd 64 next.segment count) .invalidRange
  return (state.1 ++ [next], ⟨plaintext, ciphertext, nextSegment⟩)

/-- `SegmentedPayloadLayout::new`. -/
def new (reference : PayloadLayout) (repositoryContext : Bytes) : Except PayloadError SegmentedPayloadLayout := do
  let storedLen ← okOr reference.storedLen .invalidRange
  ensure (¬(repositoryContext = [] ∨ 4096 < repositoryContext.length)) .invalidRange
  let sums ← reference.parts.foldlM (addPart reference.chunkSize) ([], ⟨0, 0, 0⟩)
  return ⟨reference, repositoryContext, sums.1, storedLen, sums.2.segment⟩

end SegmentedPayloadLayout

/-- `partition_point` on entries that are already partitioned. -/
def partitionPoint {α : Type} (p : α → Bool) (xs : List α) : ℕ := (xs.takeWhile p).length

structure SegmentFacts where
  part : PayloadPart
  ordinal : ℕ
  plaintextLen : ℕ
  plaintextOffset : ℕ
  ciphertextOffset : ℕ
  isFinal : Bool

/-- The facts of the segment `relative` of a part. -/
def segmentFacts (chunkSize : ℕ) (start : PartStart) (part : PayloadPart) (relative : ℕ) : SegmentFacts where
  part := part
  ordinal := relative
  plaintextLen := min (part.plaintextLen - relative * chunkSize) chunkSize
  plaintextOffset := start.plaintext + relative * chunkSize
  ciphertextOffset := start.ciphertext + relative * chunkSize + relative * tagLen
  isFinal := relative * chunkSize + min (part.plaintextLen - relative * chunkSize) chunkSize = part.plaintextLen

namespace SegmentedPayloadLayout

variable (layout : SegmentedPayloadLayout)

/-- `segment_at_byte`. -/
def segmentAtByte (offset : ℕ) : Except PayloadError ℕ := do
  ensure (offset < layout.reference.plaintextLen) .invalidRange
  let part := partitionPoint (fun start => start.plaintext ≤ offset) layout.starts - 1
  let start ← okOr layout.starts[part]? .invalidRange
  okOr (checkedAdd 64 start.segment ((offset - start.plaintext) / layout.reference.chunkSize)) .invalidRange

/-- `SegmentedPayloadLayout::segment`. -/
def «segment» (ordinal : ℕ) : Except PayloadError SegmentFacts := do
  ensure (ordinal < layout.segmentCount) .invalidRange
  let partIndex := partitionPoint (fun start => start.segment ≤ ordinal) layout.starts - 1
  let start ← okOr layout.starts[partIndex]? .invalidRange
  let part ← okOr layout.reference.parts[partIndex]? .invalidRange
  let _ ← okOr (checkedMul 64 (ordinal - start.segment) layout.reference.chunkSize) .invalidRange
  return segmentFacts layout.reference.chunkSize start part (ordinal - start.segment)

/-- `plaintext_offset`: the start of a segment, or the total length at the end. -/
def plaintextOffset (ordinal : ℕ) : Except PayloadError ℕ :=
  if ordinal = layout.segmentCount then return layout.reference.plaintextLen
  else do
    let facts ← layout.segment ordinal
    return facts.plaintextOffset

end SegmentedPayloadLayout

/-! ## Sealing -/

/-- `SegmentedPayloadSealer`: one encryption attempt for one part. -/
structure SegmentedPayloadSealer where
  chunkSize : ℕ
  keyId : KeyId
  repositoryContext : Bytes
  carrierId : Digest
  attemptId : Digest
  partNumber : ℕ

def detachedSegmentContext (repositoryContext : Bytes) (objectId : BackendObjectId) (carrierId attemptId : Digest)
    (partNumber ordinal plaintextLen chunkSize : ℕ) (isFinal : Bool) : PayloadSegmentContext where
  repositoryContext := repositoryContext
  containingObject := objectId
  sectionOrdinal := none
  carrierId := carrierId
  attemptId := attemptId
  partOrdinal := partNumber
  segmentOrdinal := ordinal
  plaintextLen := plaintextLen
  isFinal := isFinal
  layoutContext := toBe 8 chunkSize

/-- `MAX_PAYLOAD_SEGMENT_SIZE`. -/
def maxPayloadSegmentSize : ℕ := 64 * 1024 * 1024

section

variable {K : Type} (aead : Aead K) (keyring : KeyRing K)

namespace SegmentedPayloadSealer

/-- `SegmentedPayloadSealer::new`; the attempt identity is random. -/
def new (chunkSize : ℕ) (repositoryContext : Bytes) (carrierId : Digest) (partNumber : ℕ) (attemptId : Digest) :
    Except PayloadError SegmentedPayloadSealer := do
  ensure (¬(chunkSize = 0 ∨ maxPayloadSegmentSize < chunkSize ∨ repositoryContext = [] ∨
    4096 < repositoryContext.length ∨ partNumber = 0 ∨ maxPayloadParts < partNumber)) .invalidRange
  let key ← (keyring.primaryKey .content).mapError .crypto
  return ⟨chunkSize, key.id, repositoryContext, carrierId, attemptId, partNumber⟩

variable (sealer : SegmentedPayloadSealer)

/-- `layout_reference`. -/
def layoutReference (plaintextLen : ℕ) : Except PayloadError SegmentedPayloadLayout :=
  SegmentedPayloadLayout.new ⟨sealer.chunkSize, plaintextLen, sealer.keyId, sealer.carrierId,
    [⟨sealer.partNumber, sealer.attemptId, plaintextLen⟩]⟩ sealer.repositoryContext

/-- `sealed_len_for_plaintext_len`. -/
def sealedLenForPlaintextLen (plaintextLen : ℕ) : Except PayloadError ℕ := do
  let tags ← okOr (checkedMul 64 (divCeil plaintextLen sealer.chunkSize) tagLen) .invalidRange
  okOr (checkedAdd 64 plaintextLen tags) .invalidRange

/-- `seal_segment`. -/
def sealSegment (objectId : BackendObjectId) (segmentIndex : ℕ) (plaintext : Bytes) (isFinal : Bool) :
    Except PayloadError Bytes := do
  ensure (¬(plaintext.length = 0 ∨ sealer.chunkSize < plaintext.length ∨
    (isFinal = false ∧ plaintext.length ≠ sealer.chunkSize))) (.invalidObjectFormat objectId)
  let sealed ← (sealPayloadSegment aead keyring (detachedSegmentContext sealer.repositoryContext objectId
    sealer.carrierId sealer.attemptId sealer.partNumber segmentIndex plaintext.length sealer.chunkSize isFinal)
    plaintext).mapError .crypto
  ensure (sealed.keyId = sealer.keyId) (.invalidObjectFormat objectId)
  return sealed.ciphertext

/-- The plaintext of segment `j`. -/
def chunk (chunkSize : ℕ) (plaintext : Bytes) (j : ℕ) : Bytes := slice plaintext (j * chunkSize) ((j + 1) * chunkSize)

/-- One-shot sealing, as `seal_payload_object` does it: every segment in order, the last one final. -/
def sealPart (objectId : BackendObjectId) (plaintext : Bytes) : Except PayloadError (List Bytes) :=
  (List.range (divCeil plaintext.length sealer.chunkSize)).mapM fun j =>
    sealer.sealSegment aead keyring objectId j (chunk sealer.chunkSize plaintext j)
      (j + 1 = divCeil plaintext.length sealer.chunkSize)

end SegmentedPayloadSealer

/-! ## Ranges -/

/-- `SegmentSelection`. -/
structure SegmentSelection where
  start : ℕ
  stop : ℕ
  startSegment : ℕ
  endSegment : ℕ

section

variable (layout : SegmentedPayloadLayout)

/-- `SegmentSelection::new`. -/
def SegmentSelection.new (range : ByteRange) : Except PayloadError SegmentSelection := do
  let bounds ← match range with
    | .full => pure (0, layout.reference.plaintextLen)
    | .slice offset len => do
      let stop ← okOr (checkedAdd 64 offset len) .invalidRange
      ensure (¬(len = 0 ∨ layout.reference.plaintextLen < stop)) .invalidRange
      pure (offset, stop)
  let startSegment ← layout.segmentAtByte bounds.1
  let lastSegment ← layout.segmentAtByte (bounds.2 - 1)
  return ⟨bounds.1, bounds.2, startSegment, lastSegment + 1⟩

/-- `SegmentCiphertextSpan`. -/
structure SegmentCiphertextSpan where
  offset : ℕ
  len : ℕ
  startSegment : ℕ
  segmentCount : ℕ
  deriving DecidableEq

/-- `segmented_ciphertext_span`. -/
def segmentedCiphertextSpan (range : ByteRange) : Except PayloadError SegmentCiphertextSpan := do
  let selection ← SegmentSelection.new layout range
  let first ← layout.segment selection.startSegment
  let last ← layout.segment (selection.endSegment - 1)
  return ⟨first.ciphertextOffset, last.ciphertextOffset + last.plaintextLen + tagLen - first.ciphertextOffset,
    selection.startSegment, selection.endSegment - selection.startSegment⟩

/-- `append_segment_overlap`. -/
def appendSegmentOverlap (output : Bytes) (selection : SegmentSelection) (facts : SegmentFacts) (plaintext : Bytes) :
    Except PayloadError Bytes := do
  let overlap ← okOr (getRange plaintext (max selection.start facts.plaintextOffset - facts.plaintextOffset)
    (min selection.stop (facts.plaintextOffset + facts.plaintextLen) - facts.plaintextOffset)) .invalidRange
  return output ++ overlap

/-- The plaintext and the segments opened so far. -/
structure OpenedSegmentedPayloadSpan where
  plaintext : Bytes
  segments : List (ℕ × Bytes)

def SegmentFacts.context (objectId : BackendObjectId) (facts : SegmentFacts) : PayloadSegmentContext :=
  detachedSegmentContext layout.repositoryContext objectId layout.reference.carrierId facts.part.attemptId
    facts.part.partNumber facts.ordinal facts.plaintextLen layout.reference.chunkSize facts.isFinal

end

variable (objectId : BackendObjectId) (layout : SegmentedPayloadLayout)

/-- One segment of `open_segmented_payload_span_inner`. -/
def openSelectedSegment (selection : SegmentSelection)
    (span : SegmentCiphertextSpan) (ciphertext : Bytes) (opened : OpenedSegmentedPayloadSpan) (ordinal : ℕ) :
    Except PayloadError OpenedSegmentedPayloadSpan := do
  let facts ← layout.segment ordinal
  let start := facts.ciphertextOffset - span.offset
  let stop ← okOr (checkedAdd 64 start (facts.plaintextLen + tagLen)) .invalidRange
  let sealed ← okOr (getRange ciphertext start stop) .invalidRange
  let plaintext ← (openPayloadSegment aead keyring (facts.context layout objectId) layout.reference.keyId
    sealed).mapError .crypto
  let output ← appendSegmentOverlap opened.plaintext selection facts plaintext
  return ⟨output, opened.segments ++ [(ordinal, plaintext)]⟩

section

variable (range : ByteRange) (span : SegmentCiphertextSpan) (ciphertext : Bytes)

/-- `open_segmented_payload_span_with_segments`. -/
def openSegmentedPayloadSpanWithSegments : Except PayloadError OpenedSegmentedPayloadSpan := do
  let expected ← segmentedCiphertextSpan layout range
  ensure (span = expected ∧ ciphertext.length = span.len) (.invalidObjectFormat objectId)
  let selection ← SegmentSelection.new layout range
  (List.range' selection.startSegment (selection.endSegment - selection.startSegment)).foldlM
    (openSelectedSegment aead keyring objectId layout selection span ciphertext) ⟨[], []⟩

/-- `open_segmented_payload_span`. -/
def openSegmentedPayloadSpan : Except PayloadError Bytes := do
  let opened ← openSegmentedPayloadSpanWithSegments aead keyring objectId layout range span ciphertext
  return opened.plaintext

end

/-- `open_payload_object`. -/
def openPayloadObject (body : Bytes) (range : ByteRange) : Except PayloadError Bytes := do
  ensure (body.length = layout.storedLen) (.invalidObjectFormat objectId)
  let span ← segmentedCiphertextSpan layout range
  openSegmentedPayloadSpan aead keyring objectId layout range span (slice body span.offset (span.offset + span.len))

end

section

variable (objectId : BackendObjectId) (layout : SegmentedPayloadLayout)

/-- One segment of `open_segmented_payload_cached_segments`. -/
def appendCachedSegment (selection : SegmentSelection)
    (startSegment : ℕ) (output : Bytes) (entry : Bytes × ℕ) : Except PayloadError Bytes := do
  let facts ← layout.segment (startSegment + entry.2)
  ensure (entry.1.length = facts.plaintextLen) (.invalidObjectFormat objectId)
  appendSegmentOverlap output selection facts entry.1

/-- `open_segmented_payload_cached_segments`. -/
def openSegmentedPayloadCachedSegments (range : ByteRange)
    (startSegment : ℕ) (segments : List Bytes) : Except PayloadError Bytes := do
  let selection ← SegmentSelection.new layout range
  ensure (startSegment = selection.startSegment ∧
    segments.length = selection.endSegment - selection.startSegment) (.invalidObjectFormat objectId)
  segments.zipIdx.foldlM (appendCachedSegment objectId layout selection startSegment) []

end

end Rs3.Payload
