/-
# Rs3.Index.RunFrames — decoding the plaintext frames of an index run.

`decode_index_run_frames` of `rs3-index/src/run.rs`.  Metadata frames come first and fill the tables (self pack,
containers, namespace keys, receipt); namespace frames fill one slot per mutation; listing frames take the namespace half
out of its slot and pair it.  The driver lets the role of a frame only move forward, so the tables no longer change once
a payload pointer was checked against them.
-/
import Rs3.Index.RunProjections

namespace Rs3.Index

open List IndexRunError

/-! ## Frame headers -/

inductive IndexRunFrameRole where
  | metadata
  | namespaces
  | listing
  deriving DecidableEq

/-- `frame_role_tag`. -/
def IndexRunFrameRole.tag : IndexRunFrameRole → ℕ
  | metadata => 0
  | namespaces => 1
  | listing => 2

/-- `INDEX_RUN_PLAINTEXT_DOMAIN`. -/
def indexRunPlaintextDomain : Bytes := utf8 "rs3:index-run-frame-plaintext:v2\n"

/-- `INDEX_RUN_WIRE_VERSION`. -/
def indexRunWireVersion : ℕ := 10

/-- `STANDALONE_CONTAINER_MAX_BYTES`. -/
def standaloneContainerMaxBytes : ℕ := 512 * 1024

section

variable (limits : IndexRunLimits)

/-- `record_limit`. -/
def recordLimit (role : IndexRunFrameRole) (tag : Option UInt8) : ℕ :=
  if role = .metadata ∧ tag = some 2 then min standaloneContainerMaxBytes limits.maxFrameBytes
  else limits.maxRecordBytes

structure DecodedFrameHeader where
  role : IndexRunFrameRole
  roleOrdinal : ℕ
  sequence : Sequence
  mutationCount : ℕ
  roleRecordCount : ℕ
  frameRecordCount : ℕ
  selfPack : Option (Option IndexRunSelfPack)
  namespaceKeyCount : Option ℕ

def decodeFrameRole : RunReader IndexRunFrameRole := do
  let tag ← readByte
  if tag = 0 then return .metadata
  else if tag = 1 then return .namespaces
  else if tag = 2 then return .listing
  else throw (.invalidTag "frame role" tag)

/-- A metadata frame may also hold the optional completion receipt. -/
def roleRecordLimit : IndexRunFrameRole → Except IndexRunError ℕ
  | .metadata =>
    okOr ((checkedAdd 64 limits.maxContainers limits.maxMutations).bind fun count => checkedAdd 64 count 1)
      .integerOverflow
  | .namespaces => .ok limits.maxMutations
  | .listing => .ok limits.maxMutations

/-- The self pack of a metadata frame's header. -/
def decodeSelfPack : RunReader (Option IndexRunSelfPack) := do
  let tag ← readByte
  if tag = 0 then return none
  else if tag = 1 then do
    let packId ← readDigest
    let attemptId ← readDigest
    let contentKeyId ← typedString "content key id" limits.maxKeyIdBytes KeyId.new?
    let storedLen ← readU64
    let recordCount ← readU32Varint
    let pack : IndexRunSelfPack := ⟨packId, attemptId, contentKeyId, storedLen, recordCount⟩
    validateSelfPack limits (some pack)
    return some pack
  else throw (.invalidTag "self payload option" tag)

/-- What only the header of a metadata frame has. -/
def decodeMetadataFacts : IndexRunFrameRole → RunReader (Option (Option IndexRunSelfPack) × Option ℕ)
  | .metadata => do
    let selfPack ← decodeSelfPack limits
    let namespaceKeyCount ← boundedCount "namespace key count" limits.maxMutations
    return (some selfPack, some namespaceKeyCount)
  | .namespaces => return (none, none)
  | .listing => return (none, none)

/-- `decode_frame_header`. -/
def decodeFrameHeader : RunReader DecodedFrameHeader := do
  let domain ← readBytes indexRunPlaintextDomain.length
  ensure (domain = indexRunPlaintextDomain) invalidDomain
  let version ← Reader.be unexpectedEof 2
  ensure (version = indexRunWireVersion) (unsupportedVersion version)
  let role ← decodeFrameRole
  let roleOrdinal ← readU32Varint
  let sequenceBits ← readU64
  let sequence ← okOr (U64.ofNat? sequenceBits) integerOverflow
  let mutationCount ← readU32Varint
  let limit ← roleRecordLimit limits role
  let roleRecordCount ← boundedCount "role record count" limit
  let frameRecordCount ← boundedCount "frame record count" limit
  let facts ← decodeMetadataFacts limits role
  return ⟨role, roleOrdinal, sequence, mutationCount, roleRecordCount, frameRecordCount, facts.1, facts.2⟩

end

/-! ## The decoder -/

structure IndexRunFrameDecoder where
  completionReceipt : Option CompletionReceipt := none
  selfPack : Option IndexRunSelfPack := none
  sawSelfPayloadFact : Bool := false
  containers : List IndexRunContainer := []
  standaloneStreamContainers : List IndexRunStandaloneStreamContainer := []
  namespaceKeyIds : List KeyId := []
  declaredNamespaceKeyCount : Option ℕ := none
  namespaces : List (Option NamespaceProjection) := []
  mutations : List (Option IndexMutation) := []
  sawStandaloneStreamContainer : Bool := false
  sawNamespaceKeyId : Bool := false
  previousNamespaceKey : Option (Bytes × ℕ) := none
  previousListingKey : Option (Bytes × ℕ) := none
  uses : PayloadUses := {}
  usedNamespaceKeyIds : List ℕ := []
  sawNamespace : Bool := false
  sawListing : Bool := false

def IndexRunFrameDecoder.tables (decoder : IndexRunFrameDecoder) : PayloadTables :=
  ⟨decoder.selfPack, decoder.containers, decoder.standaloneStreamContainers⟩

section Decoder

variable (limits : IndexRunLimits)

/-- `for _ in 0..count`. -/
def repeated {σ : Type} (step : σ → RunReader σ) : ℕ → σ → RunReader σ
  | 0, state => pure state
  | count + 1, state => do
    let next ← step state
    repeated step count next

variable (decoder : IndexRunFrameDecoder)

/-- `validate_next_container_count`. -/
def validateNextContainerCount : Except IndexRunError Unit := do
  let actual ← okOr ((checkedAdd 64 decoder.containers.length decoder.standaloneStreamContainers.length).bind
    fun count => checkedAdd 64 count 1) .integerOverflow
  validateCount "container count" actual limits.maxContainers

/-- Namespace key identifiers strictly increase. -/
def validateNamespaceKeyOrder (previous : Option KeyId) (key : KeyId) : Except IndexRunError Unit :=
  match previous.map fun previous => compare previous.asStr key.asStr with
  | some .eq => .error .duplicateNamespaceKey
  | some .gt => .error .invalidNamespaceKeyOrder
  | _ => .ok ()

def decodeContainerRecord : RunReader IndexRunFrameDecoder := do
  ensure (¬(decoder.sawStandaloneStreamContainer ∨ decoder.sawNamespaceKeyId)) invalidContainerOrder
  validateNextContainerCount limits decoder
  let container ← decodeContainer limits
  validateContainerOrder (decoder.containers.getLast?.map IndexRunContainer.exact) container.exact
  return { decoder with containers := decoder.containers ++ [container] }

def decodeStandaloneRecord : RunReader IndexRunFrameDecoder := do
  ensure (¬decoder.sawNamespaceKeyId) invalidContainerOrder
  validateNextContainerCount limits decoder
  let container ← decodeStandaloneStreamContainer limits
  validateContainerOrder (decoder.standaloneStreamContainers.getLast?.map IndexRunStandaloneStreamContainer.exact)
    container.exact
  return { decoder with
    sawStandaloneStreamContainer := true
    standaloneStreamContainers := decoder.standaloneStreamContainers ++ [container] }

def decodeNamespaceKeyRecord : RunReader IndexRunFrameDecoder := do
  let declared ← okOr decoder.declaredNamespaceKeyCount frameFactsMismatch
  ensure (decoder.namespaceKeyIds.length < declared) frameFactsMismatch
  let namespaceKeyId ← typedString "namespace key id" limits.maxKeyIdBytes KeyId.new?
  validateNamespaceKeyOrder decoder.namespaceKeyIds.getLast? namespaceKeyId
  return { decoder with
    sawNamespaceKeyId := true
    namespaceKeyIds := decoder.namespaceKeyIds ++ [namespaceKeyId] }

/-- The receipt takes the rest of its record. -/
def decodeReceiptRecord : RunReader IndexRunFrameDecoder := fun remaining => do
  let receipt ← (CompletionReceipt.decode remaining).mapError fun _ => .frameFactsMismatch
  return ({ decoder with completionReceipt := some receipt }, [])

def decodeMetadataFields : RunReader IndexRunFrameDecoder := do
  let tag ← readByte
  if tag = 0 then decodeContainerRecord limits decoder
  else if tag = 2 then decodeStandaloneRecord limits decoder
  else if tag = 3 then decodeNamespaceKeyRecord limits decoder
  else if tag = 4 then decodeReceiptRecord decoder
  else throw (.invalidTag "container type" tag)

/-- One round of `decode_metadata`. -/
def decodeMetadataRecord : RunReader IndexRunFrameDecoder := do
  ensure (decoder.completionReceipt = none) invalidContainerOrder
  let record ← readRecord (max (min standaloneContainerMaxBytes limits.maxFrameBytes) limits.maxRecordBytes)
  validateCount "metadata record bytes" record.length (recordLimit limits .metadata record.head?)
  Reader.whole (decodeMetadataFields limits decoder) recordLengthMismatch record

/-- The facts of a metadata frame's header agree with those of the frames before it. -/
def acceptMetadataHeader (header : DecodedFrameHeader) : Except IndexRunError IndexRunFrameDecoder := do
  let keyCount ← okOr header.namespaceKeyCount .frameFactsMismatch
  ensure (keyCount ≤ header.roleRecordCount ∧ keyCount ≤ header.mutationCount) .frameFactsMismatch
  ensure (decoder.declaredNamespaceKeyCount.all fun count => count = keyCount) .frameFactsMismatch
  let selfPack ← okOr header.selfPack .frameFactsMismatch
  ensure (¬(decoder.sawSelfPayloadFact ∧ decoder.selfPack ≠ selfPack)) .frameFactsMismatch
  return { decoder with
    declaredNamespaceKeyCount := some keyCount
    selfPack := selfPack
    sawSelfPayloadFact := true }

/-- `decode_metadata`. -/
def decodeMetadata (header : DecodedFrameHeader) : RunReader IndexRunFrameDecoder := do
  let accepted ← acceptMetadataHeader decoder header
  repeated (decodeMetadataRecord limits) header.frameRecordCount accepted

/-- `resize_with(count, || None)`. -/
def resizeSlots {α : Type} (slots : List (Option α)) (count : ℕ) : List (Option α) :=
  slots.take count ++ List.replicate (count - slots.length) none

/-- Keys of a projection strictly increase, first by the bytes, then by the ordinal. -/
def keyBefore (previous key : Bytes × ℕ) : Prop := previous.1 < key.1 ∨ previous.1 = key.1 ∧ previous.2 < key.2

instance (previous key : Bytes × ℕ) : Decidable (keyBefore previous key) := inferInstanceAs (Decidable (_ ∨ _))

def decodeNamespaceFields : RunReader (ℕ × NamespaceProjection × ℕ) := do
  let ordinal ← readU32Varint
  let projection ← decodeNamespaceProjection decoder.namespaceKeyIds decoder.tables
  return (ordinal, projection)

/-- One round of `decode_namespace`. -/
def decodeNamespaceRecord : RunReader IndexRunFrameDecoder := do
  let record ← readRecord limits.maxRecordBytes
  let (ordinal, projection, keyOrdinal) ←
    Reader.whole (decodeNamespaceFields decoder) recordLengthMismatch record
  let key := (projection.blindKey.raw, ordinal)
  ensure (decoder.previousNamespaceKey.all fun previous => keyBefore previous key)
    (invalidProjectionOrder "namespace")
  let slot ← okOr decoder.namespaces[ordinal]? (invalidProjectionOrdinal "namespace" ordinal)
  ensure (slot = none) (duplicateProjectionOrdinal "namespace" ordinal)
  return { decoder with
    uses := decoder.uses.insert projection.payload
    usedNamespaceKeyIds := keyOrdinal :: decoder.usedNamespaceKeyIds
    previousNamespaceKey := some key
    namespaces := decoder.namespaces.set ordinal (some projection) }

/-- The first namespace frame makes room for one slot per mutation. -/
def openNamespaces (count : ℕ) : IndexRunFrameDecoder :=
  if decoder.sawNamespace then decoder
  else { decoder with
    namespaces := resizeSlots decoder.namespaces count
    mutations := resizeSlots decoder.mutations count
    sawNamespace := true }

/-- `decode_namespace`. -/
def decodeNamespace (header : DecodedFrameHeader) : RunReader IndexRunFrameDecoder := do
  let declared ← okOr decoder.declaredNamespaceKeyCount frameFactsMismatch
  ensure (decoder.namespaceKeyIds.length = declared) frameFactsMismatch
  ensure (header.roleRecordCount = header.mutationCount) frameFactsMismatch
  repeated (decodeNamespaceRecord limits) header.frameRecordCount (openNamespaces decoder header.mutationCount)

/-- `pair_projections`. -/
def pairProjections (ordinal : ℕ) (names : NamespaceProjection) (listing : ListingProjection) :
    Except IndexRunError IndexMutation :=
  match names, listing with
  | .upsert n, .upsert l => do
    ensure (n.generation = l.generation ∧ n.contentLen = l.contentLen ∧ n.modifiedAtMs = l.modifiedAtMs)
      (.projectionMismatch ordinal)
    return .upsert ⟨ordinal, n.blindKey, n.namespaceKeyId, l.path, l.generation, n.payload, l.contentLen,
      l.modifiedAtMs, n.retention, n.legalHold, n.etag, n.checksum⟩
  | .tombstone blindKey namespaceKeyId namesGeneration, .tombstone path generation => do
    ensure (namesGeneration = generation) (.projectionMismatch ordinal)
    return .tombstone ⟨ordinal, blindKey, namespaceKeyId, path, generation⟩
  | .upsert _, .tombstone _ _ => .error (.projectionMismatch ordinal)
  | .tombstone _ _ _, .upsert _ => .error (.projectionMismatch ordinal)

def decodeListingFields (previousPath : Bytes) : RunReader (LogicalPath × ℕ × ListingProjection) := do
  let path ← decodeListingPath limits previousPath
  let ordinal ← readU32Varint
  let listing ← decodeListingProjection path
  return (path, ordinal, listing)

/-- One round of `decode_listing`; paths are front-coded within a frame. -/
def decodeListingRecord (state : IndexRunFrameDecoder × Bytes) : RunReader (IndexRunFrameDecoder × Bytes) := do
  let record ← readRecord limits.maxRecordBytes
  let (path, ordinal, listing) ←
    Reader.whole (decodeListingFields limits state.2) recordLengthMismatch record
  let key := (utf8 listing.path.asStr, ordinal)
  ensure (state.1.previousListingKey.all fun previous => keyBefore previous key)
    (invalidProjectionOrder "listing")
  let slot ← okOr state.1.mutations[ordinal]? (invalidProjectionOrdinal "listing" ordinal)
  ensure (slot = none) (duplicateProjectionOrdinal "listing" ordinal)
  let names ← okOr state.1.namespaces[ordinal]? (invalidProjectionOrdinal "namespace" ordinal)
  let projection ← okOr names (projectionMismatch ordinal)
  let mutation ← pairProjections ordinal projection listing
  return ({ state.1 with
    previousListingKey := some key
    namespaces := state.1.namespaces.set ordinal none
    mutations := state.1.mutations.set ordinal (some mutation) }, utf8 path.asStr)

/-- `decode_listing`. -/
def decodeListing (header : DecodedFrameHeader) : RunReader IndexRunFrameDecoder := do
  ensure (header.roleRecordCount = header.mutationCount) frameFactsMismatch
  let result ← repeated (decodeListingRecord limits) header.frameRecordCount ({ decoder with sawListing := true }, [])
  return result.1

/-- Every slot must be filled. -/
def orderedMutation (slot : Option IndexMutation × ℕ) : Except IndexRunError IndexMutation := do
  let ordinal ← okOr (tryFrom 32 slot.2) .integerOverflow
  okOr slot.1 (.projectionMismatch ordinal)

/-- `IndexRunFrameDecoder::finish`. -/
def IndexRunFrameDecoder.finish (sequence : Sequence) (count : ℕ)
    (metadataTotal : Option ℕ) : Except IndexRunError IndexRun := do
  ensure (¬(0 < count ∧ (¬decoder.sawNamespace ∨ ¬decoder.sawListing))) .invalidFrameOrder
  ensure (¬(count = 0 ∧ (decoder.sawNamespace ∨ decoder.sawListing))) .frameFactsMismatch
  let declared ← okOr decoder.declaredNamespaceKeyCount .frameFactsMismatch
  ensure (decoder.namespaceKeyIds.length = declared) .frameFactsMismatch
  let total ← okOr (((checkedAdd 64 decoder.containers.length decoder.standaloneStreamContainers.length).bind
    fun n => checkedAdd 64 n decoder.namespaceKeyIds.length).bind
    fun n => checkedAdd 64 n decoder.completionReceipt.toList.length) .integerOverflow
  let expected ← okOr metadataTotal .invalidFrameOrder
  ensure (total = expected) .frameFactsMismatch
  validateDistinctContainerObjects decoder.containers decoder.standaloneStreamContainers
  validateContainerUse decoder.containers.length decoder.uses.containers decoder.uses.selfPack decoder.selfPack
  validateStandaloneStreamContainerUse decoder.standaloneStreamContainers.length
    decoder.uses.standaloneStreamContainers
  validateNamespaceKeyUse decoder.namespaceKeyIds.length decoder.usedNamespaceKeyIds
  let mutations ← decoder.mutations.zipIdx.mapM orderedMutation
  validateRepeatedRecordFacts mutations
  let run : IndexRun := ⟨decoder.completionReceipt, sequence, decoder.selfPack, decoder.containers,
    decoder.standaloneStreamContainers, mutations⟩
  validateCompletionReceipt run
  return run

/-! ## The driver -/

/-- What `decode_index_run_frames` carries from frame to frame. -/
structure FrameProgress where
  decoder : IndexRunFrameDecoder := {}
  metadataTotal : Option ℕ := none
  sequence : Option Sequence := none
  mutationCount : Option ℕ := none
  expectedRole : IndexRunFrameRole := .metadata
  expectedRoleOrdinal : ℕ := 0
  roleTotal : Option ℕ := none
  roleSeen : ℕ := 0

section

variable (progress : FrameProgress)

/-- A frame of another role starts the next role, once the one before is complete. -/
def FrameProgress.enterRole (header : DecodedFrameHeader) : Except IndexRunError FrameProgress :=
  if header.role = progress.expectedRole ∧ header.roleOrdinal = progress.expectedRoleOrdinal then .ok progress
  else do
    ensure (header.role.tag = progress.expectedRole.tag + 1 ∧ header.roleOrdinal = 0) .invalidFrameOrder
    let total ← okOr progress.roleTotal .invalidFrameOrder
    ensure (progress.roleSeen = total) .invalidFrameOrder
    return { progress with expectedRole := header.role, expectedRoleOrdinal := 0, roleSeen := 0, roleTotal := none }

/-- The first frame fixes the number of mutations. -/
def acceptMutationCount (mutationCount : ℕ) : Option ℕ → Except IndexRunError Unit
  | none => validateCount "mutation count" mutationCount limits.maxMutations
  | some count => ensure (count = mutationCount) .frameFactsMismatch

/-- The facts that all frames, or all frames of a role, share. -/
def FrameProgress.acceptHeader (header : DecodedFrameHeader) : Except IndexRunError FrameProgress := do
  let nextOrdinal ← okOr (checkedAdd 32 progress.expectedRoleOrdinal 1) .integerOverflow
  ensure (progress.sequence.all fun sequence => sequence = header.sequence) .frameFactsMismatch
  acceptMutationCount limits header.mutationCount progress.mutationCount
  ensure (progress.roleTotal.all fun total => total = header.roleRecordCount) .frameFactsMismatch
  let seen ← okOr (checkedAdd 64 progress.roleSeen header.frameRecordCount) .integerOverflow
  ensure (seen ≤ header.roleRecordCount) .frameFactsMismatch
  return { progress with
    expectedRoleOrdinal := nextOrdinal
    sequence := some header.sequence
    mutationCount := some header.mutationCount
    roleTotal := some header.roleRecordCount
    roleSeen := seen }

def FrameProgress.decodeRecords (header : DecodedFrameHeader) : RunReader FrameProgress := do
  match header.role with
  | .metadata =>
    let decoder ← decodeMetadata limits progress.decoder header
    return { progress with decoder := decoder, metadataTotal := some header.roleRecordCount }
  | .namespaces =>
    let decoder ← decodeNamespace limits progress.decoder header
    return { progress with decoder := decoder }
  | .listing =>
    let decoder ← decodeListing limits progress.decoder header
    return { progress with decoder := decoder }

def decodeFrameBody : RunReader FrameProgress := do
  let header ← decodeFrameHeader limits
  let entered ← progress.enterRole header
  let accepted ← entered.acceptHeader limits header
  accepted.decodeRecords limits header

def decodeFrame (encoded : Bytes) : Except IndexRunError FrameProgress := do
  validateCount "frame bytes" encoded.length limits.maxFrameBytes
  Reader.whole (decodeFrameBody limits progress) .trailingBytes encoded

end

/-- `decode_index_run_frames`. -/
def decodeIndexRunFrames (frames : List Bytes) : Except IndexRunError IndexRun := do
  ensure (frames ≠ []) .invalidFrameOrder
  let total ← frames.foldlM (fun total frame => okOr (checkedAdd 64 total frame.length) .integerOverflow) 0
  validateCount "total frame bytes" total limits.maxTotalBytes
  let progress ← frames.foldlM (decodeFrame limits) {}
  let roleTotal ← okOr progress.roleTotal .invalidFrameOrder
  ensure (progress.roleSeen = roleTotal) .invalidFrameOrder
  let count ← okOr progress.mutationCount .invalidFrameOrder
  let sequence ← okOr progress.sequence .invalidFrameOrder
  progress.decoder.finish sequence count progress.metadataTotal

end Decoder

/-! ## What a decoded run satisfies -/

/-- The payload pointer of an upsert passed every check against the tables. -/
def PayloadAccepted (tables : PayloadTables) (pointer : IndexPayloadPointer) (contentLen : ℕ) : Prop :=
  tables.Holds pointer ∧ validateEmptyPayload pointer contentLen = .ok () ∧
    validatePayloadPointer tables pointer contentLen = .ok ()

def MutationAccepted (tables : PayloadTables) (mutation : IndexMutation) : Prop :=
  ∀ u, mutation = .upsert u → PayloadAccepted tables u.payload u.contentLen

/-- The tables of a decoder are within the limits, and what its slots hold was checked against them. -/
structure IndexRunFrameDecoder.Sound (limits : IndexRunLimits) (decoder : IndexRunFrameDecoder) : Prop where
  selfPack : validateSelfPack limits decoder.selfPack = .ok ()
  containers : ∀ container ∈ decoder.containers, ContainerFits limits container
  namespaces : ∀ projection, some projection ∈ decoder.namespaces → projection.Fits decoder.tables
  mutations : ∀ mutation, some mutation ∈ decoder.mutations → MutationAccepted decoder.tables mutation

def IndexRunFrameDecoder.NoSlots (decoder : IndexRunFrameDecoder) : Prop :=
  decoder.namespaces = [] ∧ decoder.mutations = []

section Sound

variable {limits : IndexRunLimits} {decoder decoder' : IndexRunFrameDecoder} {input rest : Bytes}

variable {count : ℕ} {α : Type} {frames : List Bytes} {run : IndexRun}

theorem repeated_keeps {σ : Type} {step : σ → RunReader σ} {P : σ → Prop}
    (hstep : ∀ s s' input rest, P s → (step s).run input = .ok (s', rest) → P s') {s s' : σ}
    {input rest : Bytes} (hs : P s) (h : (repeated step count s).run input = .ok (s', rest)) : P s' := by
  induction count generalizing s input with
  | zero =>
    obtain ⟨rfl, -⟩ := Reader.pure_eq_ok.mp h
    exact hs
  | succ count ih =>
    obtain ⟨next, mid, hnext, hrest⟩ := Reader.bind_eq_ok.mp h
    exact ih (hstep s next input mid hs hnext) hrest

/-- Tables may change as long as nothing refers to them. -/
theorem IndexRunFrameDecoder.Sound.of_noSlots (hself : validateSelfPack limits decoder.selfPack = .ok ())
    (hcontainers : ∀ container ∈ decoder.containers, ContainerFits limits container) (hempty : decoder.NoSlots) :
    decoder.Sound limits := by
  obtain ⟨hnames, hmutations⟩ := hempty
  refine ⟨hself, hcontainers, ?_, ?_⟩
  · rw [hnames]
    intro projection h
    cases h
  · rw [hmutations]
    intro mutation h
    cases h

theorem decodeSelfPack_valid
    (h : (decodeSelfPack limits).run input = .ok (pack, rest)) : validateSelfPack limits pack = .ok () := by
  obtain ⟨tag, mid, -, h⟩ := Reader.bind_eq_ok.mp h
  split_ifs at h with h0 h1
  · obtain ⟨rfl, -⟩ := Reader.pure_eq_ok.mp h
    rfl
  · simp only [Reader.ok_iff] at h
    obtain ⟨_, _, -, _, _, -, _, _, -, _, _, -, _, _, -, _, _, ⟨hvalid, -⟩, rfl, -⟩ := h
    exact hvalid
  · cases h

variable {header : DecodedFrameHeader} {progress : FrameProgress}

theorem decodeFrameHeader_selfPack (h : (decodeFrameHeader limits).run input = .ok (header, rest)) :
    ∀ pack, header.selfPack = some pack → validateSelfPack limits pack = .ok () := by
  simp only [decodeFrameHeader, Reader.ok_iff] at h
  obtain ⟨_, _, -, _, _, -, _, _, -, _, _, -, role, _, -, _, _, -, _, _, -, _, _, -, _, _, -, _, _, -, _, _, -, _, _, -,
    facts, _, hfacts, rfl, -⟩ := h
  intro pack hpack
  cases role with
  | metadata =>
    simp only [decodeMetadataFacts, Reader.ok_iff] at hfacts
    obtain ⟨_, _, hself, _, _, -, rfl, -⟩ := hfacts
    obtain rfl := Option.some.inj hpack
    exact decodeSelfPack_valid hself
  | namespaces =>
    obtain ⟨rfl, -⟩ := Reader.pure_eq_ok.mp hfacts
    cases hpack
  | listing =>
    obtain ⟨rfl, -⟩ := Reader.pure_eq_ok.mp hfacts
    cases hpack

/-- A metadata record only extends the tables. -/
theorem decodeMetadataFields_keeps (hsound : decoder.Sound limits) (hempty : decoder.NoSlots)
    (h : (decodeMetadataFields limits decoder).run input = .ok (decoder', rest)) :
    decoder'.Sound limits ∧ decoder'.NoSlots := by
  obtain ⟨tag, mid, -, h⟩ := Reader.bind_eq_ok.mp h
  split_ifs at h
  · simp only [decodeContainerRecord, Reader.ok_iff, decodeContainer_eq_ok] at h
    obtain ⟨_, _, -, _, _, -, container, _, ⟨⟨-, hfits⟩, -⟩, _, _, -, rfl, -⟩ := h
    refine ⟨.of_noSlots hsound.selfPack ?_ hempty, hempty⟩
    intro c hc
    rcases mem_append.mp hc with hold | hnew
    · exact hsound.containers c hold
    · rw [mem_singleton.mp hnew]
      exact hfits
  · simp only [decodeStandaloneRecord, Reader.ok_iff] at h
    obtain ⟨_, _, -, _, _, -, _, _, -, _, _, -, rfl, -⟩ := h
    exact ⟨.of_noSlots hsound.selfPack hsound.containers hempty, hempty⟩
  · simp only [decodeNamespaceKeyRecord, Reader.ok_iff] at h
    obtain ⟨_, _, -, _, _, -, _, _, -, _, _, -, rfl, -⟩ := h
    exact ⟨.of_noSlots hsound.selfPack hsound.containers hempty, hempty⟩
  · have hreceipt : ∃ receipt, decoder' = { decoder with completionReceipt := receipt } := by
      unfold decodeReceiptRecord at h
      simp only [StateT.run, ok_iff, Prod.mk.injEq] at h
      obtain ⟨receipt, -, rfl, -⟩ := h
      exact ⟨some receipt, rfl⟩
    obtain ⟨receipt, rfl⟩ := hreceipt
    exact ⟨.of_noSlots hsound.selfPack hsound.containers hempty, hempty⟩
  · cases h

theorem decodeMetadata_keeps (hsound : decoder.Sound limits) (hempty : decoder.NoSlots)
    (hheader : ∀ pack, header.selfPack = some pack → validateSelfPack limits pack = .ok ())
    (h : (decodeMetadata limits decoder header).run input = .ok (decoder', rest)) :
    decoder'.Sound limits ∧ decoder'.NoSlots := by
  simp only [decodeMetadata, Reader.ok_iff, acceptMetadataHeader, bind_eq_ok, okOr_eq_ok, pure_eq_ok] at h
  obtain ⟨accepted, _, ⟨⟨_, -, _, -, _, -, pack, hpack, _, -, rfl⟩, -⟩, hloop⟩ := h
  refine repeated_keeps (P := fun d => d.Sound limits ∧ d.NoSlots) ?_
    ⟨.of_noSlots (hheader pack hpack) hsound.containers hempty, hempty⟩ hloop
  intro s s' input rest hs hstep
  simp only [decodeMetadataRecord, Reader.ok_iff, Reader.whole_eq_ok] at hstep
  obtain ⟨_, _, -, _, _, -, _, _, -, hfields, -⟩ := hstep
  exact decodeMetadataFields_keeps hs.1 hs.2 hfields

/-- Slots that were empty, or hold what satisfies `P`. -/
theorem mem_set_some {slots : List (Option α)} {P : α → Prop}
    (hold : ∀ x, some x ∈ slots → P x) (hnew : P a) : ∀ x, some x ∈ slots.set i (some a) → P x := by
  intro x hx
  rcases mem_or_eq_of_mem_set hx with h | h
  · exact hold x h
  · obtain rfl := Option.some.inj h
    exact hnew

theorem mem_set_none {slots : List (Option α)} {P : α → Prop}
    (hold : ∀ x, some x ∈ slots → P x) : ∀ x, some x ∈ slots.set i none → P x := by
  intro x hx
  rcases mem_or_eq_of_mem_set hx with h | h
  · exact hold x h
  · cases h

theorem mem_resizeSlots (h : some a ∈ resizeSlots slots count) : some a ∈ slots := by
  rcases mem_append.mp h with h | h
  · exact mem_of_mem_take h
  · cases eq_of_mem_replicate h

theorem decodeNamespaceRecord_keeps (hsound : decoder.Sound limits)
    (h : (decodeNamespaceRecord limits decoder).run input = .ok (decoder', rest)) : decoder'.Sound limits := by
  simp only [decodeNamespaceRecord, Reader.ok_iff, Reader.whole_eq_ok, decodeNamespaceFields] at h
  obtain ⟨_, _, -, _, _, ⟨⟨_, _, -, _, _, hprojection, rfl, -⟩, -⟩, _, _, -, _, _, -, _, _, -, rfl, -⟩ := h
  obtain ⟨⟨⟨-, hfits⟩, -⟩, -⟩ := decodeNamespaceProjection_eq_ok.mp hprojection
  exact ⟨hsound.selfPack, hsound.containers, mem_set_some hsound.namespaces hfits, hsound.mutations⟩

theorem decodeNamespace_keeps (hsound : decoder.Sound limits)
    (h : (decodeNamespace limits decoder header).run input = .ok (decoder', rest)) : decoder'.Sound limits := by
  simp only [decodeNamespace, Reader.bind_eq_ok] at h
  obtain ⟨_, _, -, _, _, -, _, _, -, hloop⟩ := h
  refine repeated_keeps (P := fun d => d.Sound limits) (fun s s' _ _ hs hstep => decodeNamespaceRecord_keeps hs hstep)
    ?_ hloop
  unfold openNamespaces
  split_ifs
  · exact hsound
  · exact ⟨hsound.selfPack, hsound.containers, fun p hp => hsound.namespaces p (mem_resizeSlots hp),
      fun m hm => hsound.mutations m (mem_resizeSlots hm)⟩

/-- A paired mutation keeps the payload of its namespace half. -/
theorem pairProjections_accepted (hfits : names.Fits tables)
    (h : pairProjections ordinal names listing = .ok mutation) : MutationAccepted tables mutation := by
  intro u hu
  subst hu
  cases names with
  | tombstone _ _ _ =>
    cases listing with
    | upsert _ => cases h
    | tombstone _ _ =>
      simp only [pairProjections, bind_eq_ok, pure_eq_ok] at h
      obtain ⟨_, -, hu⟩ := h
      cases hu
  | upsert n =>
    cases listing with
    | tombstone _ _ => cases h
    | upsert l =>
      simp only [pairProjections, bind_eq_ok, ensure_eq_ok, pure_eq_ok, IndexMutation.upsert.injEq] at h
      obtain ⟨_, ⟨-, hlen, -⟩, rfl⟩ := h
      have haccepted : PayloadAccepted tables n.payload n.contentLen := hfits
      rw [hlen] at haccepted
      exact haccepted

theorem decodeListingRecord_keeps (hsound : decoder.Sound limits)
    (h : (decodeListingRecord limits (decoder, path)).run input = .ok ((decoder', path'), rest)) :
    decoder'.Sound limits := by
  simp only [decodeListingRecord, Reader.ok_iff, okOr_eq_ok, Prod.mk.injEq] at h
  obtain ⟨_, _, -, _, _, -, _, _, -, _, _, -, _, _, -, names, _, ⟨hslot, -⟩, projection, _, ⟨rfl, -⟩, mutation, _,
    ⟨hpair, -⟩, ⟨rfl, -⟩, -⟩ := h
  have hfits := hsound.namespaces projection (mem_of_getElem? hslot)
  exact ⟨hsound.selfPack, hsound.containers, mem_set_none hsound.namespaces,
    mem_set_some hsound.mutations (pairProjections_accepted hfits hpair)⟩

theorem decodeListing_keeps (hsound : decoder.Sound limits)
    (h : (decodeListing limits decoder header).run input = .ok (decoder', rest)) : decoder'.Sound limits := by
  simp only [decodeListing, Reader.ok_iff] at h
  obtain ⟨_, _, -, result, _, hloop, rfl, -⟩ := h
  refine repeated_keeps (P := fun state : IndexRunFrameDecoder × Bytes => state.1.Sound limits) ?_ ?_ hloop
  · intro s s' input rest hs hstep
    exact decodeListingRecord_keeps hs hstep
  · exact ⟨hsound.selfPack, hsound.containers, hsound.namespaces, hsound.mutations⟩

/-- Before the first namespace frame there are no slots. -/
structure FrameProgress.Sound (limits : IndexRunLimits) (progress : FrameProgress) : Prop where
  decoder : progress.decoder.Sound limits
  noSlots : progress.expectedRole = .metadata → progress.decoder.NoSlots

theorem FrameProgress.enterRole_keeps (hsound : progress.Sound limits) (h : progress.enterRole header = .ok entered) :
    entered.Sound limits ∧ entered.expectedRole = header.role := by
  unfold FrameProgress.enterRole at h
  split_ifs at h with hsame
  · obtain rfl := Except.ok.inj h
    exact ⟨hsound, hsame.1.symm⟩
  · simp only [bind_eq_ok, ensure_eq_ok, pure_eq_ok] at h
    obtain ⟨_, ⟨htag, -⟩, _, -, _, -, rfl⟩ := h
    refine ⟨⟨hsound.decoder, ?_⟩, rfl⟩
    intro hrole
    -- The role moves forward by one, so it is not the first.
    rw [show header.role = .metadata from hrole] at htag
    cases htag

theorem FrameProgress.acceptHeader_keeps
    (hsound : progress.Sound limits) (h : progress.acceptHeader limits header = .ok accepted) :
    accepted.Sound limits ∧ accepted.expectedRole = progress.expectedRole := by
  simp only [FrameProgress.acceptHeader, ok_iff] at h
  obtain ⟨_, -, _, -, _, -, _, -, _, -, _, -, rfl⟩ := h
  exact ⟨⟨hsound.decoder, hsound.noSlots⟩, rfl⟩

theorem FrameProgress.decodeRecords_keeps
    (hsound : progress.Sound limits) (hrole : progress.expectedRole = header.role)
    (hheader : ∀ pack, header.selfPack = some pack → validateSelfPack limits pack = .ok ())
    (h : (progress.decodeRecords limits header).run input = .ok (progress', rest)) : progress'.Sound limits := by
  unfold FrameProgress.decodeRecords at h
  cases hr : header.role with
  | metadata =>
    simp only [hr, Reader.ok_iff] at h
    obtain ⟨decoder', _, hdecode, rfl, -⟩ := h
    obtain ⟨hdecoder, hempty⟩ := decodeMetadata_keeps hsound.decoder (hsound.noSlots (hrole.trans hr)) hheader hdecode
    exact ⟨hdecoder, fun _ => hempty⟩
  | namespaces =>
    simp only [hr, Reader.ok_iff] at h
    obtain ⟨decoder', _, hdecode, rfl, -⟩ := h
    refine ⟨decodeNamespace_keeps hsound.decoder hdecode, fun hmetadata => ?_⟩
    cases (hrole.trans hr).symm.trans hmetadata
  | listing =>
    simp only [hr, Reader.ok_iff] at h
    obtain ⟨decoder', _, hdecode, rfl, -⟩ := h
    refine ⟨decodeListing_keeps hsound.decoder hdecode, fun hmetadata => ?_⟩
    cases (hrole.trans hr).symm.trans hmetadata

theorem decodeFrame_keeps (hsound : progress.Sound limits)
    (h : decodeFrame limits progress encoded = .ok progress') : progress'.Sound limits := by
  simp only [decodeFrame, bind_eq_ok, Reader.whole_eq_ok, decodeFrameBody, Reader.ok_iff] at h
  obtain ⟨_, -, header, _, hheader, entered, _, ⟨henter, -⟩, accepted, _, ⟨haccept, -⟩, hrecords⟩ := h
  obtain ⟨hentered, hrole⟩ := FrameProgress.enterRole_keeps hsound henter
  obtain ⟨haccepted, hsame⟩ := FrameProgress.acceptHeader_keeps hentered haccept
  exact FrameProgress.decodeRecords_keeps haccepted (hsame.trans hrole) (decodeFrameHeader_selfPack hheader) hrecords

theorem decodeFrames_keeps (hsound : progress.Sound limits)
    (h : frames.foldlM (decodeFrame limits) progress = .ok progress') : progress'.Sound limits := by
  induction frames generalizing progress with
  | nil =>
    obtain rfl := Except.ok.inj h
    exact hsound
  | cons frame frames ih =>
    rw [foldlM_cons, bind_eq_ok] at h
    obtain ⟨next, hnext, hrest⟩ := h
    exact ih (decodeFrame_keeps hsound hnext) hrest

/-- The tables of a run are within the limits and every payload pointer was checked against them. -/
structure IndexRun.PayloadsAccepted (limits : IndexRunLimits) (run : IndexRun) : Prop where
  selfPack : validateSelfPack limits run.selfPack = .ok ()
  containers : ∀ container ∈ run.containers, ContainerFits limits container
  mutations : ∀ mutation ∈ run.mutations, MutationAccepted run.tables mutation

theorem decodeIndexRunFrames_accepted
    (h : decodeIndexRunFrames limits frames = .ok run) : run.PayloadsAccepted limits := by
  simp only [decodeIndexRunFrames, bind_eq_ok, IndexRunFrameDecoder.finish, pure_eq_ok] at h
  obtain ⟨_, -, _, -, _, -, progress, hframes, _, -, _, -, _, -, _, -, _, -, _, -, _, -, _, -, _, -, _, -, _, -, _, -, _,
    -, _, -, _, -, mutations, hmutations, _, -, _, -, rfl⟩ := h
  have hinitial : FrameProgress.Sound limits {} :=
    ⟨.of_noSlots rfl (fun _ h => (not_mem_nil h).elim) ⟨rfl, rfl⟩, fun _ => ⟨rfl, rfl⟩⟩
  have hsound := (decodeFrames_keeps hinitial hframes).decoder
  refine ⟨hsound.selfPack, hsound.containers, ?_⟩
  intro mutation hmutation
  obtain ⟨slot, hslot, hordered⟩ := (mem_of_mapM hmutations).1 mutation hmutation
  simp only [orderedMutation, bind_eq_ok, okOr_eq_ok] at hordered
  obtain ⟨_, -, hsome⟩ := hordered
  refine hsound.mutations mutation ?_
  rw [← hsome]
  exact fst_mem_of_mem_zipIdx hslot

end Sound

end Rs3.Index
