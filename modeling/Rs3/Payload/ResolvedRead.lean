/-
# Rs3.Payload.ResolvedRead — range reads of a resolved object, whatever carries its payload.

`get_resolved_range` of `v3/service.rs` with its three sources of bytes: a record of a payload pack, a detached stream
read from the backend, and the caches of whole sections and of decrypted segments.  The store is immutable, so a read
is given the bytes of the exact object version that the payload reference names; failures of the provider are outside.
-/
import Rs3.Payload.SegmentedRead
import Rs3.Repository.CommitKey

namespace Rs3.Payload

open List

open Crypto
open Rs3.Index (NamespaceEntry PayloadReference PayloadLayout V3PackCarrierReference V3PackRecordReference
  V3StandaloneStreamCarrierReference)

/-- The errors of a read. -/
inductive GetError where
  | format (error : V3FormatError)
  | invalidRange
  | invalidObjectFormat (objectId : BackendObjectId)
  deriving DecidableEq

def ReadError.toGet : ReadError → GetError
  | .format error => .format error
  | .invalidRange => .invalidRange

def PayloadError.toGet : PayloadError → GetError
  | .invalidRange => .invalidRange
  | .invalidObjectFormat objectId => .invalidObjectFormat objectId
  | .crypto error => .format error

/-! ## Standalone objects -/

def standalonePrefixText : String := "objects/v03/"

/-- `standalone_carrier_id`: the random identity in the object key. -/
def standaloneCarrierId (objectId : BackendObjectId) : Except V3FormatError Digest := do
  let encoded ← okOr (standalonePrefixText.toList.isPrefixOf? objectId.asStr.toList) .invalidHeaderField
  okOr (Repository.parseRandomSegment encoded) .invalidHeaderField

structure V3StandalonePayloadRead where
  objectId : BackendObjectId
  versionId : Option BackendVersionId
  objectDigest : Digest
  storedLen : ℕ
  keyringEnvelopeObjectId : BackendObjectId
  keyringEnvelopeDigest : Digest
  payloadLayout : PayloadLayout
  contentLen : ℕ

def standaloneRead (carrier : V3StandaloneStreamCarrierReference) (contentLen : ℕ) :
    V3StandalonePayloadRead where
  objectId := carrier.objectId
  versionId := carrier.versionId
  objectDigest := carrier.objectDigest
  storedLen := carrier.storedLen
  keyringEnvelopeObjectId := carrier.keyringEnvelopeObjectId
  keyringEnvelopeDigest := carrier.keyringEnvelopeDigest
  payloadLayout := carrier.payloadLayout
  contentLen := contentLen

/-- `stream_payload_read`. -/
def streamPayloadRead (payloadRef : PayloadReference) (contentLen : ℕ) : Option V3StandalonePayloadRead :=
  match payloadRef with
  | .v3StandaloneStream carrier => some (standaloneRead carrier contentLen)
  | _ => none

def commitPackRead (carrier : V3PackCarrierReference) (record : V3PackRecordReference) (contentLen : ℕ) :
    V3CommitPackRead where
  commitKey := carrier.commitKey
  commitStoredLen := carrier.commitStoredLen
  packSectionOrdinal := carrier.packSectionOrdinal
  packOffset := carrier.packOffset
  length := carrier.length
  packId := carrier.packId
  attemptId := carrier.attemptId
  contentKeyId := carrier.contentKeyId
  packRecordCount := carrier.packRecordCount
  recordOrdinal := record.recordOrdinal
  recordOffset := record.recordOffset
  contentLen := contentLen

/-- What is cached of one payload: decrypted segments, and the whole stored body. -/
structure ReadCaches where
  segments : SegmentCache
  body : Option Bytes

/-- What reads take from the repository: its keys, the context an envelope reference gives, the section digest, and
whether the provider keeps versions under retention. -/
structure ReadService (K : Type) where
  aead : TaggedAead K
  keyring : KeyRing K
  repositoryContextFromRefs : BackendObjectId → Digest → Except V3FormatError Bytes
  digestV3Section : Bytes → Digest
  retainedVersions : Bool

namespace ReadService

variable {K : Type} (service : ReadService K)

section

variable (payload : V3StandalonePayloadRead)

/-- `stream_payload_layout`. -/
def streamPayloadLayout : Except GetError SegmentedPayloadLayout := do
  let context ← (service.repositoryContextFromRefs payload.keyringEnvelopeObjectId
    payload.keyringEnvelopeDigest).mapError .format
  (SegmentedPayloadLayout.new payload.payloadLayout context).mapError PayloadError.toGet

/-- `ensure_payload_layout_matches_content_len`. -/
def ensurePayloadLayoutMatchesContentLen (layout : SegmentedPayloadLayout) (contentLen : ℕ) (objectId : BackendObjectId) :
    Except GetError Unit :=
  ensure (layout.reference.plaintextLen = contentLen) (.invalidObjectFormat objectId)

/-- `validated_stream_payload_start`. -/
def validatedStreamPayloadStart : Except GetError ℕ := do
  ensure (payload.storedLen ≠ 0) (.format .invalidHeaderField)
  let carrierId ← (standaloneCarrierId payload.objectId).mapError .format
  ensure (¬(service.retainedVersions = true ∧ payload.versionId = none)) (.format .invalidHeaderField)
  let layout ← service.streamPayloadLayout payload
  ensure (¬(layout.reference.carrierId ≠ carrierId ∨ layout.storedLen ≠ payload.storedLen))
    (.format .invalidHeaderField)
  ensurePayloadLayoutMatchesContentLen layout payload.contentLen payload.objectId
  return 0

/-- `open_cached_decrypted_segments`: the range, when every selected segment is cached.  On a miss the lengths of the
missing segments are looked up, for the metrics. -/
def openCachedDecryptedSegments (objectId : BackendObjectId) (layout : SegmentedPayloadLayout) (cache : SegmentCache)
    (range : ByteRange) : Except PayloadError (Option Bytes) := do
  let selection ← SegmentSelection.new layout range
  let count := selection.endSegment - selection.startSegment
  match cachedDecryptedSegmentSpan cache selection.startSegment count with
  | some segments => do
    let plaintext ← openSegmentedPayloadCachedSegments objectId layout range selection.startSegment segments
    return some plaintext
  | none => do
    let _ ← ((List.range' selection.startSegment count).filter fun o => cache o = none).mapM layout.segment
    return none

section

variable (stored : Bytes) (caches : ReadCaches) (range : ByteRange)

/-- `read_stream_payload_range`. -/
def readStreamPayloadRange : Except GetError (Bytes × ReadCaches) := do
  let payloadStart ← service.validatedStreamPayloadStart payload
  if range = .full then do
    ensure (stored.length = payload.storedLen) (.format .truncatedBody)
    ensure (service.digestV3Section stored = payload.objectDigest) (.invalidObjectFormat payload.objectId)
    let layout ← service.streamPayloadLayout payload
    let plaintext ← (openPayloadObject service.aead.toAead service.keyring payload.objectId layout stored
      range).mapError PayloadError.toGet
    ensure (plaintext.length = payload.contentLen) (GetError.invalidObjectFormat payload.objectId)
    return (plaintext, { caches with body := some stored })
  else do
    let layout ← service.streamPayloadLayout payload
    ensure (layout.storedLen = payload.storedLen) (.invalidObjectFormat payload.objectId)
    ensurePayloadLayoutMatchesContentLen layout payload.contentLen payload.objectId
    let span ← (segmentedCiphertextSpan layout range).mapError PayloadError.toGet
    match ← (openCachedDecryptedSegments payload.objectId layout caches.segments range).mapError PayloadError.toGet with
    | some plaintext => return (plaintext, caches)
    | none => do
      let offset ← okOr (checkedAdd 64 payloadStart span.offset) (GetError.format .sectionBounds)
      let ciphertext ← okOr (getRange stored offset (offset + span.len)) (.format .truncatedBody)
      let opened ← (openSegmentedPayloadSpanWithSegments service.aead.toAead service.keyring payload.objectId layout
        range span ciphertext).mapError PayloadError.toGet
      return (opened.plaintext, { caches with segments := cacheDecryptedSegmentSpan caches.segments opened.segments })

/-- The packed branch of `get_resolved_range`. -/
def readPackedRange (carrier : V3PackCarrierReference) (record : V3PackRecordReference) (contentLen : ℕ)
    (stored : Bytes) (caches : ReadCaches) (range : ByteRange) : Except GetError (Bytes × ReadCaches) := do
  let pack := commitPackRead carrier record contentLen
  let _ ← pack.facts.mapError .format
  let context ← (service.repositoryContextFromRefs carrier.keyringEnvelopeObjectId
    carrier.keyringEnvelopeDigest).mapError .format
  let read ← (readPackRangeFromCommit service.aead.toAead service.keyring context pack stored caches.segments
    range).mapError ReadError.toGet
  return (read.1, { caches with segments := read.2 })

/-- The detached branch of `get_resolved_range`: the cached body, or the stream. -/
def readDetachedRange : Except GetError (Bytes × ReadCaches) :=
  match caches.body with
  | some body => do
    let layout ← service.streamPayloadLayout payload
    ensurePayloadLayoutMatchesContentLen layout payload.contentLen payload.objectId
    let plaintext ← (openPayloadObject service.aead.toAead service.keyring payload.objectId layout body
      range).mapError PayloadError.toGet
    return (plaintext, caches)
  | none => service.readStreamPayloadRange payload stored caches range

end

end

/-- `get_resolved_range`. -/
def getResolvedRange (entry : NamespaceEntry) (stored : Bytes) (caches : ReadCaches) (range : ByteRange) :
    Except GetError (Bytes × ReadCaches) :=
  if entry.contentLen = 0 then
    if range = .full ∨ range = .slice 0 0 then .ok ([], caches) else .error .invalidRange
  else
    match entry.payloadRef with
    | none => .error (.invalidObjectFormat entry.objectId)
    | some (.v3Pack carrier record) => service.readPackedRange carrier record entry.contentLen stored caches range
    | some payloadRef =>
      match streamPayloadRead payloadRef entry.contentLen with
      | none => .error (.invalidObjectFormat entry.objectId)
      | some payload => service.readDetachedRange payload stored caches range

end ReadService

/-! ## What the caches go through -/

inductive ReadEvent where
  | read (range : ByteRange)
  | evictSegment (ordinal : ℕ)
  | evictBody

section

variable {K : Type} (service : ReadService K) (entry : NamespaceEntry) (stored : Bytes)

/-- The caches after one event; a failed read caches nothing. -/
def ReadCaches.after (caches : ReadCaches) : ReadEvent → ReadCaches
  | .read range =>
    match service.getResolvedRange entry stored caches range with
    | .ok (_, caches') => caches'
    | .error _ => caches
  | .evictSegment ordinal => { caches with segments := caches.segments.evict ordinal }
  | .evictBody => { caches with body := none }

def cachesAfter (events : List ReadEvent) : ReadCaches :=
  events.foldl (ReadCaches.after service entry stored) ⟨fun _ => none, none⟩

end

/-! ## Stored contents -/

instance (len : ℕ) (range : ByteRange) : Decidable (range.InBounds len) := by
  cases range <;> simp only [ByteRange.InBounds] <;> infer_instance

instance (range : ByteRange) : Decidable range.Nonempty := by
  cases range <;> simp only [ByteRange.Nonempty] <;> infer_instance

variable {K : Type} {service : ReadService K} {entry : NamespaceEntry} {stored content : Bytes}

/-- A content carried by a record of a sealed pack, which is a section of a commit. -/
structure PackCarries (service : ReadService K) (entry : NamespaceEntry) (stored content : Bytes)
    (carrier : V3PackCarrierReference) (reference : V3PackRecordReference) (object : PayloadPackContext)
    (sealed : V3SealedPayloadPack) (record : V3PayloadPackRecord) : Prop where
  payloadRef : entry.payloadRef = some (.v3Pack carrier reference)
  context : service.repositoryContextFromRefs carrier.keyringEnvelopeObjectId carrier.keyringEnvelopeDigest =
    .ok object.repositoryContext
  sealed_eq : ∃ (inputs : List Bytes) (packId attemptId : Digest) (order : List ℕ) (i : ℕ),
    sealV3PayloadPackWithLayout service.aead.toAead service.keyring object
    inputs packId attemptId order = .ok sealed ∧
    inputs[i]? = some content ∧ sealed.layout.records[i]? = some record
  reads : ReadsFrom object sealed.layout.facts record sealed.bytes stored
    (commitPackRead carrier reference entry.contentLen)

/-- A content carried by a detached stream: the sealed parts of its layout, with their digest and length. -/
structure StreamCarries (service : ReadService K) (entry : NamespaceEntry) (stored content : Bytes)
    (carrier : V3StandaloneStreamCarrierReference) (layout : SegmentedPayloadLayout) : Prop where
  payloadRef : entry.payloadRef = some (.v3StandaloneStream carrier)
  context : service.repositoryContextFromRefs carrier.keyringEnvelopeObjectId carrier.keyringEnvelopeDigest =
    .ok layout.repositoryContext
  layout_eq : SegmentedPayloadLayout.new carrier.payloadLayout layout.repositoryContext = .ok layout
  sealed : ∃ contents, PartsSealed service.aead.toAead service.keyring carrier.objectId layout contents ∧
    (contents.map Prod.fst).flatten = content ∧ (contents.map Prod.snd).flatten.flatten = stored
  storedLen : carrier.storedLen = stored.length
  digest : carrier.objectDigest = service.digestV3Section stored
  carrierId : standaloneCarrierId carrier.objectId = .ok layout.reference.carrierId
  version : service.retainedVersions = true → carrier.versionId ≠ none

section

variable (service : ReadService K) (entry : NamespaceEntry) (stored content : Bytes)

/-- An entry whose content is carried by a pack; an empty content has no payload. -/
def StoredInPack : Prop :=
  entry.contentLen = content.length ∧ (content ≠ [] → ∃ carrier reference object sealed record,
    PackCarries service entry stored content carrier reference object sealed record)

/-- An entry whose content is carried by a detached stream; an empty content has no payload. -/
def StoredInStream : Prop :=
  entry.contentLen = content.length ∧ (content ≠ [] → ∃ carrier layout,
    StreamCarries service entry stored content carrier layout)

end

def outcome (result : Except GetError (Bytes × ReadCaches)) : Except GetError Bytes := result.map Prod.fst

theorem getResolvedRange_empty (hlen : entry.contentLen = ([] : Bytes).length) (caches : ReadCaches) (range : ByteRange) :
    service.getResolvedRange entry stored caches range =
      if range.InBounds 0 then .ok (range.of [], caches) else .error .invalidRange := by
  rw [ReadService.getResolvedRange, if_pos (show entry.contentLen = 0 from hlen)]
  cases range with
  | full => rfl
  | slice offset count =>
    have hiff : offset + count ≤ 0 ↔ offset = 0 ∧ count = 0 := by omega
    simp [ByteRange.InBounds, ByteRange.of, Rs3.slice, hiff]

/-! ## Packed contents -/

variable {carrier : V3PackCarrierReference} {sealed : V3SealedPayloadPack}

theorem readPackedRange_eq (h : PackCarries service entry stored content carrier reference object sealed record)
    (hcaches : CacheSound content caches.segments) (range : ByteRange) :
    if range.InBounds content.length then
      ∃ caches', service.readPackedRange carrier reference entry.contentLen stored caches range =
        .ok (range.of content, caches') ∧ CacheSound content caches'.segments
    else service.readPackedRange carrier reference entry.contentLen stored caches range = .error .invalidRange := by
  obtain ⟨inputs, packId, attemptId, order, i, hsealed, hi, hrecord⟩ := h.sealed_eq
  have hpack := sealV3PayloadPackWithLayout_sealed hsealed
  obtain ⟨record', hrecord', hin⟩ := hpack.recordIn hi
  rw [hrecord] at hrecord'
  cases hrecord'
  simp only [ReadService.readPackedRange, h.reads.facts_eq, h.context, Except.mapError, ok_bind]
  split
  · rename_i hrange
    obtain ⟨cache', hexact, hsound⟩ := readPackRangeFromCommit_exact hin h.reads hpack.context hcaches hrange
    exact ⟨{ caches with segments := cache' }, by rw [hexact]; rfl, hsound⟩
  · rename_i hrange
    rw [readPackRangeFromCommit_invalidRange hin h.reads hrange]
    rfl

/-! ## Detached contents -/

/-- The caches of a detached payload hold its segments and its body. -/
structure DetachedCaches (layout : SegmentedPayloadLayout) (stored content : Bytes) (caches : ReadCaches) : Prop where
  segments : Caches (segmentPlaintext layout content) caches.segments
  body : ∀ body, caches.body = some body → body = stored

namespace StreamCarries

variable {carrier : V3StandaloneStreamCarrierReference} {layout : SegmentedPayloadLayout}
  (h : StreamCarries service entry stored content carrier layout)
include h

theorem located : Located layout ∧ layout.reference = carrier.payloadLayout :=
  let ⟨hlocated, hreference, _, _⟩ := SegmentedPayloadLayout.new_located h.layout_eq
  ⟨hlocated, hreference⟩

theorem opensTo : OpensTo service.aead.toAead service.keyring carrier.objectId layout content stored := by
  obtain ⟨contents, hsealed, rfl, rfl⟩ := h.sealed
  exact hsealed.opensTo h.located.1

theorem streamPayloadLayout_eq : service.streamPayloadLayout (standaloneRead carrier entry.contentLen) = .ok layout := by
  simp only [ReadService.streamPayloadLayout, standaloneRead, h.context, h.layout_eq, Except.mapError, ok_bind]

theorem stored_length : stored.length = layout.storedLen := h.opensTo.body_length

theorem storedLen_check (error : GetError) :
    ensure (layout.storedLen = (standaloneRead carrier entry.contentLen).storedLen) error = .ok () :=
  ensure_of (h.stored_length.symm.trans h.storedLen.symm)

theorem contentLen_check (hlen : entry.contentLen = content.length) (error : GetError) :
    ensure (layout.reference.plaintextLen = (standaloneRead carrier entry.contentLen).contentLen) error = .ok () :=
  ensure_of (h.opensTo.plaintext_length.symm.trans hlen.symm)

theorem validatedStreamPayloadStart_eq (hlen : entry.contentLen = content.length) :
    service.validatedStreamPayloadStart (standaloneRead carrier entry.contentLen) = .ok 0 := by
  have hstored := h.stored_length
  have hlocated := h.located.1
  have hpos := hlocated.nonempty.trans_le hlocated.plaintextLen_le
  have hcarrier := h.storedLen
  have hplain := h.opensTo.plaintext_length
  simp only [ReadService.validatedStreamPayloadStart, h.streamPayloadLayout_eq, ok_bind, ok_iff,
    ReadService.ensurePayloadLayoutMatchesContentLen]
  simp only [standaloneRead]
  refine ⟨by omega, _, h.carrierId, ?_, ?_, by omega, trivial⟩
  · rintro ⟨hretained, hnone⟩
    exact h.version hretained hnone
  · rintro (hne | hne)
    · exact hne rfl
    · omega

variable {range : ByteRange} {caches : ReadCaches}

/-- The lookup answers the requested bytes, or misses. -/
theorem openCachedDecryptedSegments_eq (hcache : Caches (segmentPlaintext layout content) cache)
    (hrange : range.InBounds layout.reference.plaintextLen) (hne : range.Nonempty) :
    ReadService.openCachedDecryptedSegments carrier.objectId layout cache range = .ok (some (range.of content)) ∨
      ReadService.openCachedDecryptedSegments carrier.objectId layout cache range = .ok none := by
  have hlocated := h.located.1
  obtain ⟨selection, hnew, hsel, -⟩ := hlocated.selection_eq hrange hne
  obtain ⟨span, hspan, -, -, hcached⟩ := openSegmentedPayloadSpanWithSegments_eq hlocated h.opensTo hrange hne
  rw [segmentedCiphertextSpan_eq hlocated hnew hsel] at hspan
  cases hspan
  simp only [ReadService.openCachedDecryptedSegments, hnew, ok_bind]
  cases hlookup : cachedDecryptedSegmentSpan cache selection.startSegment
      (selection.endSegment - selection.startSegment) with
  | some found =>
    left
    have hfound : found = (selectedSegments layout content (selectedSpan layout selection)).map Prod.snd := by
      rw [hcache.lookup _ hlookup, selectedSegments, map_map]
      apply ext_getElem <;> simp [selectedSpan]
    rw [hfound]
    simp only [selectedSpan] at hcached ⊢
    rw [hcached]
    rfl
  | none =>
    right
    have hmissing : ∃ facts, ((List.range' selection.startSegment
        (selection.endSegment - selection.startSegment)).filter fun o => cache o = none).mapM layout.segment =
          .ok facts := by
      refine exists_mapM_of_forall fun o ho => ?_
      have hmem := mem_range'_1.mp (mem_of_mem_filter ho)
      have hle := hsel.segments_le
      have hlt := hsel.segments_lt
      obtain ⟨facts, -, hsegment⟩ := hlocated.segment_eq (o := o) (by omega)
      exact ⟨facts, hsegment⟩
    obtain ⟨facts, hfacts⟩ := hmissing
    rw [hfacts]
    rfl

theorem readStreamPayloadRange_slice (hlen : entry.contentLen = content.length)
    (hcaches : DetachedCaches layout stored content caches) (hslice : range ≠ .full)
    (hrange : range.InBounds layout.reference.plaintextLen) (hne : range.Nonempty) :
    ∃ caches', service.readStreamPayloadRange (standaloneRead carrier entry.contentLen) stored caches range =
    .ok (range.of content, caches') ∧ DetachedCaches layout stored content caches' := by
  have hlocated := h.located.1
  have hbounded := hlocated.bounded
  have hstored := h.stored_length
  have hplain := h.opensTo.plaintext_length
  have hcarrier := h.storedLen
  obtain ⟨span, hspan, hinside, hopen, -⟩ := openSegmentedPayloadSpanWithSegments_eq hlocated h.opensTo hrange hne
  simp only [ReadService.readStreamPayloadRange, h.validatedStreamPayloadStart_eq hlen, h.streamPayloadLayout_eq,
    if_neg hslice, ok_bind, ReadService.ensurePayloadLayoutMatchesContentLen, hspan, Except.mapError, h.storedLen_check,
    h.contentLen_check hlen]
  rw [show (standaloneRead carrier entry.contentLen).objectId = carrier.objectId from rfl]
  rcases h.openCachedDecryptedSegments_eq hcaches.segments hrange hne with hhit | hmiss
  · rw [hhit]
    exact ⟨caches, rfl, hcaches⟩
  · rw [hmiss]
    refine ⟨{ caches with segments := cacheDecryptedSegmentSpan caches.segments (selectedSegments layout content span) },
      ?_, hcaches.segments.insert fun segment hsegment => ?_, hcaches.body⟩
    · simp only [ok_bind, Nat.zero_add, checkedAdd, if_pos (show span.offset < 2 ^ 64 by omega), okOr, getRange,
        if_pos (show span.offset ≤ span.offset + span.len ∧ span.offset + span.len ≤ stored.length from
          ⟨Nat.le_add_right _ _, hinside⟩), hopen]
      rfl
    · obtain ⟨o, -, rfl⟩ := mem_map.mp hsegment
      rfl

theorem readStreamPayloadRange_full (hlen : entry.contentLen = content.length)
    (hcaches : DetachedCaches layout stored content caches) :
    ∃ caches', service.readStreamPayloadRange (standaloneRead carrier entry.contentLen) stored caches .full =
    .ok (content, caches') ∧ DetachedCaches layout stored content caches' := by
  have hopen : openPayloadObject _ _ _ _ _ .full = _ := openPayloadObject_eq h.located.1 h.opensTo trivial trivial
  have hcarrier := h.storedLen
  simp only [ReadService.readStreamPayloadRange, h.validatedStreamPayloadStart_eq hlen, h.streamPayloadLayout_eq,
    ok_bind, if_true]
  rw [ensure_of (show stored.length = (standaloneRead carrier entry.contentLen).storedLen from hcarrier.symm), ok_bind,
    ensure_of (show service.digestV3Section stored = (standaloneRead carrier entry.contentLen).objectDigest from
      h.digest.symm), ok_bind, show (standaloneRead carrier entry.contentLen).objectId = carrier.objectId from rfl, hopen]
  simp only [Except.mapError, ok_bind, ByteRange.of]
  rw [ensure_of (show content.length = (standaloneRead carrier entry.contentLen).contentLen from hlen.symm), ok_bind]
  refine ⟨_, rfl, hcaches.segments, fun body hbody => ?_⟩
  cases hbody
  rfl

theorem readStreamPayloadRange_invalidRange (hlen : entry.contentLen = content.length)
    (hrange : ¬(range.InBounds layout.reference.plaintextLen ∧ range.Nonempty)) (caches : ReadCaches) :
    service.readStreamPayloadRange (standaloneRead carrier entry.contentLen) stored caches range = .error .invalidRange := by
  have hstored := h.stored_length
  have hslice : range ≠ .full := by
    rintro rfl
    exact hrange ⟨trivial, trivial⟩
  have hspan := (reads_invalidRange hrange service.aead.toAead service.keyring carrier.objectId hstored).1
  simp only [ReadService.readStreamPayloadRange, h.validatedStreamPayloadStart_eq hlen, h.streamPayloadLayout_eq,
    if_neg hslice, ok_bind, ReadService.ensurePayloadLayoutMatchesContentLen, hspan, Except.mapError, h.storedLen_check,
    h.contentLen_check hlen, error_bind]
  rfl

/-- A read of a detached content, from the cached body or from the stream. -/
theorem readDetachedRange_eq (hlen : entry.contentLen = content.length)
    (hcaches : DetachedCaches layout stored content caches) (range : ByteRange) :
    if range.InBounds content.length ∧ range.Nonempty then
      ∃ caches', service.readDetachedRange (standaloneRead carrier entry.contentLen) stored caches range =
      .ok (range.of content, caches') ∧ DetachedCaches layout stored content caches'
    else service.readDetachedRange (standaloneRead carrier entry.contentLen) stored caches range = .error .invalidRange := by
  have hlocated := h.located.1
  have hplain := h.opensTo.plaintext_length
  have hcontent : ensure (layout.reference.plaintextLen = (standaloneRead carrier entry.contentLen).contentLen)
      (GetError.invalidObjectFormat (standaloneRead carrier entry.contentLen).objectId) = .ok () :=
      ensure_of (by simp only [standaloneRead]; omega)
  rw [hplain]
  cases hbody : caches.body with
  | some body =>
    -- a cached body is opened in memory, the store is not asked
    obtain rfl := hcaches.body body hbody
    simp only [ReadService.readDetachedRange, hbody, h.streamPayloadLayout_eq, ok_bind,
      ReadService.ensurePayloadLayoutMatchesContentLen, hcontent]
    split
    · rename_i hrange
      refine ⟨caches, ?_, hcaches⟩
      rw [show (standaloneRead carrier entry.contentLen).objectId = carrier.objectId from rfl,
        openPayloadObject_eq hlocated h.opensTo hrange.1 hrange.2]
      rfl
    · rename_i hrange
      rw [show (standaloneRead carrier entry.contentLen).objectId = carrier.objectId from rfl,
        (reads_invalidRange hrange service.aead.toAead service.keyring carrier.objectId h.stored_length).2.1]
      rfl
  | none =>
    simp only [ReadService.readDetachedRange, hbody]
    split
    · rename_i hrange
      by_cases hfull : range = .full
      · subst hfull
        exact h.readStreamPayloadRange_full hlen hcaches
      · exact h.readStreamPayloadRange_slice hlen hcaches hfull hrange.1 hrange.2
    · rename_i hrange
      exact h.readStreamPayloadRange_invalidRange hlen hrange caches

theorem getResolvedRange_eq (hlen : entry.contentLen = content.length) (hne : content ≠ []) (caches : ReadCaches)
    (range : ByteRange) :
    service.getResolvedRange entry stored caches range =
      service.readDetachedRange (standaloneRead carrier entry.contentLen) stored caches range := by
  have hpos : entry.contentLen ≠ 0 := by
    rw [hlen]
    exact fun hzero => hne (length_eq_zero_iff.mp hzero)
  simp only [ReadService.getResolvedRange, if_neg hpos, h.payloadRef, streamPayloadRead]

end StreamCarries

theorem PackCarries.getResolvedRange_eq
    (h : PackCarries service entry stored content carrier reference object sealed record)
    (hlen : entry.contentLen = content.length) (hne : content ≠ []) (caches : ReadCaches) (range : ByteRange) :
    service.getResolvedRange entry stored caches range =
      service.readPackedRange carrier reference entry.contentLen stored caches range := by
  have hpos : entry.contentLen ≠ 0 := by
    rw [hlen]
    exact fun hzero => hne (length_eq_zero_iff.mp hzero)
  simp only [ReadService.getResolvedRange, if_neg hpos, h.payloadRef]

/-! ## Reads over histories -/

/-- What a read answers for a content, by whether the range is one that the carrier serves. -/
def answer (serves : Prop) [Decidable serves] (range : ByteRange) (content : Bytes) : Except GetError Bytes :=
  if serves then .ok (range.of content) else .error .invalidRange

/-- Caches that stay good, and reads that answer from good caches, give the answer after any history. -/
theorem outcome_of_history {Good : ReadCaches → Prop} {serves : ByteRange → Prop} [∀ range, Decidable (serves range)]
    (hempty : Good ⟨fun _ => none, none⟩)
    (hevict : ∀ caches, Good caches → (∀ ordinal, Good { caches with segments := caches.segments.evict ordinal }) ∧
      Good { caches with body := none })
    (hread : ∀ caches, Good caches → ∀ range,
      if serves range then ∃ caches', service.getResolvedRange entry stored caches range =
        .ok (range.of content, caches') ∧ Good caches'
      else service.getResolvedRange entry stored caches range = .error .invalidRange)
    (events : List ReadEvent) (range : ByteRange) :
    outcome (service.getResolvedRange entry stored (cachesAfter service entry stored events) range) =
      answer (serves range) range content := by
  have hafter : ∀ caches, Good caches → ∀ event, Good (caches.after service entry stored event) := by
    intro caches hgood event
    cases event with
    | evictSegment ordinal => exact (hevict caches hgood).1 ordinal
    | evictBody => exact (hevict caches hgood).2
    | read range =>
      have hrange := hread caches hgood range
      -- a refused read leaves the caches as they were
      simp only [ReadCaches.after]
      split at hrange
      · obtain ⟨caches', hok, hgood'⟩ := hrange
        rw [hok]
        exact hgood'
      · rw [hrange]
        exact hgood
  have hhistory : ∀ (events : List ReadEvent) caches, Good caches →
      Good (events.foldl (ReadCaches.after service entry stored) caches) := by
    intro events
    induction events with
    | nil => exact fun caches hgood => hgood
    | cons event events ih => exact fun caches hgood => ih _ (hafter caches hgood event)
  have hrange := hread _ (hhistory events _ hempty) range
  rw [cachesAfter, answer]
  split at hrange
  · rename_i hserves
    obtain ⟨caches', hok, -⟩ := hrange
    rw [hok, if_pos hserves]
    rfl
  · rename_i hserves
    rw [hrange, if_neg hserves]
    rfl

theorem outcome_empty (hlen : entry.contentLen = ([] : Bytes).length) (events : List ReadEvent) (range : ByteRange) :
    outcome (service.getResolvedRange entry stored (cachesAfter service entry stored events) range) =
      answer (range.InBounds 0) range [] := by
  rw [getResolvedRange_empty hlen, answer]
  split <;> rfl

theorem outcome_packed (h : StoredInPack service entry stored content) (events : List ReadEvent) (range : ByteRange) :
    outcome (service.getResolvedRange entry stored (cachesAfter service entry stored events) range) =
      answer (range.InBounds content.length) range content := by
  by_cases hne : content = []
  · subst hne
    exact outcome_empty h.1 events range
  · obtain ⟨carrier, reference, object, sealed, record, hcarries⟩ := h.2 hne
    refine @outcome_of_history _ _ _ _ _ (fun caches => CacheSound content caches.segments)
      (fun range => range.InBounds content.length) _ (fun _ _ hnone => nomatch hnone)
      (fun caches hgood => ⟨hgood.caches.evict, hgood⟩) (fun caches hgood range => ?_) events range
    rw [hcarries.getResolvedRange_eq h.1 hne]
    exact readPackedRange_eq hcarries hgood range

theorem outcome_detached (h : StoredInStream service entry stored content) (hne : content ≠ [])
    (events : List ReadEvent) (range : ByteRange) :
    outcome (service.getResolvedRange entry stored (cachesAfter service entry stored events) range) =
      answer (range.InBounds content.length ∧ range.Nonempty) range content := by
  obtain ⟨carrier, layout, hcarries⟩ := h.2 hne
  refine @outcome_of_history _ _ _ _ _ (DetachedCaches layout stored content)
    (fun range => range.InBounds content.length ∧ range.Nonempty) _
    ⟨fun _ _ hnone => (nomatch hnone), fun _ hnone => (nomatch hnone)⟩
    (fun caches hgood => ⟨fun ordinal => ⟨hgood.segments.evict ordinal, hgood.body⟩,
      ⟨hgood.segments, fun _ hnone => (nomatch hnone)⟩⟩) (fun caches hgood range => ?_) events range
  rw [hcarries.getResolvedRange_eq h.1 hne]
  exact hcarries.readDetachedRange_eq h.1 hgood range

/-- The ranges that both carriers answer alike: every range of an empty content, and every range but a slice of no
bytes that starts within the content. -/
def AnsweredAlike (content : Bytes) (range : ByteRange) : Prop :=
  content ≠ [] → ∀ offset, range = .slice offset 0 → content.length < offset

theorem served_iff {range : ByteRange} (halike : AnsweredAlike content range) (hne : content ≠ []) :
    (range.InBounds content.length ∧ range.Nonempty) ↔ range.InBounds content.length := by
  refine ⟨And.left, fun hin => ⟨hin, ?_⟩⟩
  cases range with
  | full => trivial
  | slice offset count =>
    refine Nat.pos_of_ne_zero fun hzero => ?_
    subst hzero
    exact absurd (halike hne offset rfl) (Nat.not_lt.mpr hin)

/-- **When reads do not depend on the carrier.**  The same content, in a pack and in a detached stream, after any
histories of reads and evictions: the pack answers the bytes of every range in bounds and the range error otherwise,
and the stream gives the same outcome exactly for the ranges that are `AnsweredAlike`. -/
theorem carriers_agree {packEntry streamEntry : NamespaceEntry} {commit body : Bytes}
    (hpack : StoredInPack service packEntry commit content) (hstream : StoredInStream service streamEntry body content)
    (range : ByteRange) (packEvents streamEvents : List ReadEvent) :
    outcome (service.getResolvedRange packEntry commit (cachesAfter service packEntry commit packEvents) range) =
        answer (range.InBounds content.length) range content ∧
      (outcome (service.getResolvedRange streamEntry body (cachesAfter service streamEntry body streamEvents) range) =
          outcome (service.getResolvedRange packEntry commit (cachesAfter service packEntry commit packEvents) range) ↔
        AnsweredAlike content range) := by
  have hpacked := outcome_packed hpack packEvents range
  refine ⟨hpacked, ?_⟩
  rw [hpacked]
  by_cases hne : content = []
  · subst hne
    exact iff_of_true (outcome_empty hstream.1 streamEvents range) fun hne => absurd rfl hne
  rw [outcome_detached hstream hne]
  constructor
  · rintro hsame - offset rfl
    -- within the content the pack answers no bytes, and the stream the range error
    by_contra hin
    have hbounds : (ByteRange.slice offset 0).InBounds content.length := Nat.not_lt.mp hin
    have hempty : ¬(ByteRange.slice offset 0).Nonempty := Nat.lt_irrefl 0
    simp [answer, hbounds, hempty] at hsame
  · intro halike
    simp only [answer, served_iff halike hne]

/-! ## One content in both carriers -/

def sampleService : ReadService Unit where
  aead := plainTaggedAead
  keyring := sampleKeyring
  repositoryContextFromRefs _ _ := .ok [1]
  digestV3Section _ := Vector.replicate 32 0
  retainedVersions := false

def sampleEntry (payloadRef : PayloadReference) : NamespaceEntry where
  namespaceKeyId := ⟨"namespace-1", by decide⟩
  blindKey := ⟨"07", by decide⟩
  objectId := sampleStreamId
  objectVersionId := none
  payloadRef := some payloadRef
  manifestId := ⟨"manifest-1", by decide⟩
  contentLen := 4
  modifiedAtMs := 0
  generation := 1
  retention := none
  legalHold := none

def sampleStreamBody : Bytes := (sampleContents.map Prod.snd).flatten.flatten

def sampleStreamCarrier : V3StandaloneStreamCarrierReference where
  objectId := sampleStreamId
  versionId := none
  objectDigest := Vector.replicate 32 0
  storedLen := 52
  keyringEnvelopeObjectId := sampleStreamId
  keyringEnvelopeDigest := Vector.replicate 32 0
  payloadLayout := sampleReference

theorem sampleStream_stored : StoredInStream sampleService (sampleEntry (.v3StandaloneStream sampleStreamCarrier))
    sampleStreamBody [1, 2, 3, 4] :=
  ⟨rfl, fun _ => ⟨sampleStreamCarrier, sampleLayout, rfl, rfl, sampleLayout_new,
    ⟨sampleContents, sampleContents_sealed, rfl, rfl⟩, rfl, rfl, by decide +kernel, nofun⟩⟩

/-- The carrier of the first record of a pack that is a commit by itself. -/
def samplePackCarrier (sealed : V3SealedPayloadPack) : V3PackCarrierReference where
  commitKey := sampleObject.containingObject
  commitVersionId := none
  bodyDigest := Vector.replicate 32 0
  commitStoredLen := sealed.bytes.length
  packSectionOrdinal := sampleObject.sectionOrdinal
  packOffset := 0
  length := sealed.layout.facts.storedLen
  packId := sealed.layout.facts.packId
  attemptId := sealed.layout.facts.attemptId
  contentKeyId := sealed.layout.facts.contentKeyId
  keyringEnvelopeObjectId := sampleStreamId
  keyringEnvelopeDigest := Vector.replicate 32 0
  packRecordCount := sealed.layout.facts.recordCount

theorem samplePack_stored : ∃ entry commit, StoredInPack sampleService entry commit [1, 2, 3, 4] := by
  have hok : samplePack.isOk = true := by decide +kernel
  cases hsealed : samplePack with
  | error e =>
    rw [hsealed] at hok
    cases hok
  | ok sealed =>
    have hpack := sealV3PayloadPackWithLayout_sealed hsealed
    obtain ⟨record, hrecord, hin⟩ := hpack.recordIn (i := 0) rfl
    have hmax := sealed.layout.facts.valid.2.2.1
    have hlength := hpack.length
    simp only [maxPackBytes] at hmax
    refine ⟨sampleEntry (.v3Pack (samplePackCarrier sealed)
      ⟨record.reference.recordOrdinal, record.reference.physicalOffset⟩), sealed.bytes, rfl, fun _ =>
        ⟨_, _, sampleObject, sealed, record, rfl, rfl, ⟨_, _, _, _, 0, hsealed, rfl, hrecord⟩, ?_⟩⟩
    refine ⟨rfl, rfl, rfl, rfl, rfl, rfl, rfl, rfl, hin.sealed.1, ⟨rfl, ?_⟩, ?_, ?_⟩
    · show sealed.bytes.length < 2 ^ 64
      omega
    · show 0 + sealed.layout.facts.storedLen ≤ sealed.bytes.length
      omega
    · show slice sealed.bytes 0 (0 + sealed.layout.facts.storedLen) = sealed.bytes
      rw [Nat.zero_add, ← hlength, slice, take_length, drop_zero]

/-- A slice inside the content, read from either carrier. -/
theorem carriers_agree_sample : ∃ entry commit, ∀ packEvents streamEvents,
    outcome (sampleService.getResolvedRange entry commit (cachesAfter sampleService entry commit packEvents)
        (.slice 1 2)) = .ok [2, 3] ∧
      outcome (sampleService.getResolvedRange (sampleEntry (.v3StandaloneStream sampleStreamCarrier)) sampleStreamBody
        (cachesAfter sampleService (sampleEntry (.v3StandaloneStream sampleStreamCarrier)) sampleStreamBody streamEvents)
        (.slice 1 2)) = .ok [2, 3] := by
  obtain ⟨entry, commit, hstored⟩ := samplePack_stored
  refine ⟨entry, commit, fun packEvents streamEvents => ?_⟩
  obtain ⟨hpacked, halike⟩ := carriers_agree hstored sampleStream_stored (.slice 1 2) packEvents streamEvents
  exact ⟨hpacked, (halike.mpr fun _ _ h => by cases h).trans hpacked⟩

/-- **A slice of no bytes tells the carriers apart**: a pack answers it with nothing, a stream refuses it. -/
theorem empty_slice_tells_carriers_apart : ∃ packEntry streamEntry commit body,
    StoredInPack sampleService packEntry commit [1, 2, 3, 4] ∧
      StoredInStream sampleService streamEntry body [1, 2, 3, 4] ∧
      outcome (sampleService.getResolvedRange packEntry commit (cachesAfter sampleService packEntry commit [])
        (.slice 0 0)) = .ok [] ∧
      outcome (sampleService.getResolvedRange streamEntry body (cachesAfter sampleService streamEntry body [])
        (.slice 0 0)) = .error .invalidRange := by
  obtain ⟨entry, commit, hstored⟩ := samplePack_stored
  exact ⟨entry, _, commit, _, hstored, sampleStream_stored, outcome_packed hstored [] (.slice 0 0),
    outcome_detached sampleStream_stored (by decide) [] (.slice 0 0)⟩

end Rs3.Payload
