/-
# Rs3.Repository.CommitParse — building and parsing whole commit objects.

The second half of `v3/commit.rs`: the fixed prefix, the signed span, the section layout, and the two ways an object
is read (all of it, or its header and its length).  The results: a header and a region that are encoded come back
unchanged, with the sections cutting the region exactly; an accepted header re-encodes to its bytes; and the two
readers agree but for the digests, which only the full one compares, and the sign of the publication time, which only
the repository's bounded reader does.
-/
import Mathlib.Data.FinEnum
import Rs3.Recovery.Time
import Rs3.Repository.CommitObject

namespace Rs3.CommitObject

open List

open Cbor
open Repository (V3CommitKind V3CommitSelfRef V3CommitParentRef V3KeyringEnvelopeRef V3CommitKey)

/-! ## The header span -/

/-- `V3_HEADER_META_LEN`. -/
def headerMetaLen : ℕ := 40

/-- `MAX_HEADER_CBOR_LEN`. -/
def maxHeaderCborLen : ℕ := 8192 - headerMetaLen

/-- `V3_COMMIT_MAGIC`. -/
def commitMagic : Bytes := utf8 "rs3:cmt\n"

/-- `V3_FORMAT_VERSION`. -/
def formatVersion : ℕ := 3

/-- `V3_MIN_READER_VERSION`. -/
def minReaderVersion : ℕ := 3

/-- The forty bytes before a header of this length. -/
def fixedHeaderBytes (cborLen : ℕ) : Bytes :=
  commitMagic ++ toBe 4 formatVersion ++ toBe 4 minReaderVersion ++ toBe 4 cborLen ++ List.replicate 20 0

def headerSpan (header : V3CommitHeader) (signatureMode : SignatureMode) : Except V3FormatError Bytes := do
  let cbor := encodeHeaderCbor header signatureMode
  ensure (cbor.length ≤ maxHeaderCborLen) .headerTooLarge
  return fixedHeaderBytes cbor.length ++ cbor

structure FixedHeader where
  headerLen : ℕ
  headerSpanLen : ℕ
  deriving DecidableEq

def parseFixedHeader (input : Bytes) : Except V3FormatError FixedHeader := do
  ensure (headerMetaLen ≤ input.length ∧ slice input 0 8 = commitMagic) .truncatedHeader
  ensure (ofBe (slice input 8 12) = formatVersion) .unsupportedFormatVersion
  ensure (ofBe (slice input 12 16) = minReaderVersion) .unsupportedReaderVersion
  ensure (∀ byte ∈ slice input 20 28, byte = 0) .unsupportedCapabilities
  ensure (∀ byte ∈ slice input 28 40, byte = 0) .nonzeroReserved
  let headerLen := ofBe (slice input 16 20)
  ensure (headerLen ≤ maxHeaderCborLen) .headerTooLarge
  return ⟨headerLen, headerMetaLen + headerLen⟩

/-! ## Section layout -/

def flagMustUnderstand : UInt8 := 0x01

def flagCompressed : UInt8 := 0x02

def layoutStep (sectionRegionLen nextStart : ℕ) (descriptor : V3SectionDescriptor) : Except V3FormatError ℕ := do
  ensure (descriptor.flags &&& ~~~(flagMustUnderstand ||| flagCompressed) = 0) .reservedSectionFlags
  ensure (¬ (descriptor.flags &&& flagMustUnderstand ≠ 0 ∧ ¬ descriptor.sectionType.isSupported)) .unsupportedSection
  let stop ← okOr (checkedAdd 64 descriptor.offset.get descriptor.length.get) .sectionBounds
  ensure (descriptor.offset.get = nextStart ∧ stop ≤ sectionRegionLen) .sectionBounds
  return stop

section

variable (sectionIndex : List V3SectionDescriptor)

def validateSectionLayout (sectionRegionLen : ℕ) : Except V3FormatError Unit := do
  ensure (sectionIndex.length ≤ maxCommitSections) .invalidHeaderField
  let nextStart ← sectionIndex.foldlM (layoutStep sectionRegionLen) 0
  ensure (nextStart = sectionRegionLen) .sectionBounds

/-- The section types that a commit of this kind may have. -/
def validSectionTypes (kind : V3CommitKind) (hasParent : Bool) (types : List V3SectionType) : Bool :=
  match kind with
  | .root => types = [.indexRoot] || types = [.indexRoot, .recovery]
  | .delta => hasParent && (types = [.indexRun] || types = [.payloadPack, .indexRun] ||
      types = [.indexRun, .recovery] || types = [.payloadPack, .indexRun, .recovery])

def validateParentSequence (header : V3CommitHeader) : Except V3FormatError Unit :=
  match header.parent with
  | none => ensure (header.selfRef.sequence = 1) .invalidHeaderField
  | some parent => ensure (parent.sequence.checkedNext = some header.selfRef.sequence) .invalidHeaderField

def validateCommitSectionSemantics (header : V3CommitHeader) : Except V3FormatError Unit := do
  validateParentSequence header
  ensure (∀ descriptor ∈ header.sectionIndex, descriptor.flags = flagMustUnderstand) .invalidHeaderField
  ensure (validSectionTypes header.kind header.parent.isSome (header.sectionIndex.map V3SectionDescriptor.sectionType))
    .invalidHeaderField

/-! ## Objects -/

/-- The half-open ranges of the sections in the section region. -/
def sectionSpans : List (ℕ × ℕ) :=
  sectionIndex.map fun descriptor => (descriptor.offset.get, descriptor.offset.get + descriptor.length.get)

def sectionBytes (sectionRegion : Bytes) : List Bytes :=
  (sectionSpans sectionIndex).map fun span => slice sectionRegion span.1 span.2

end

structure V3ParsedCommitHeader where
  header : V3CommitHeader
  headerLen : ℕ
  sectionsStart : ℕ

structure V3ParsedCommit where
  parsedHeader : V3ParsedCommitHeader
  versionId : Option BackendVersionId
  body : Bytes

section

variable (sha256 : Bytes → Digest) (verify : KeyId → Bytes → Signature → Bool)

/-- One round of the digest loop, with what has been hashed so far. -/
def digestStep (sectionRegion hashed : Bytes) (descriptor : V3SectionDescriptor) : Except V3FormatError Bytes := do
  let stop ← okOr (checkedAdd 64 descriptor.offset.get descriptor.length.get) .sectionBounds
  let bytes := slice sectionRegion descriptor.offset.get stop
  ensure (sha256 bytes = descriptor.digest) .sectionDigestMismatch
  return hashed ++ bytes

def bodyDigestForV3Sections (sectionIndex : List V3SectionDescriptor) (sectionRegion : Bytes) :
    Except V3FormatError Digest := do
  let sectionRegionLen ← okOr (tryFrom 64 sectionRegion.length) .sectionBounds
  validateSectionLayout sectionIndex sectionRegionLen
  let hashed ← sectionIndex.foldlM (digestStep sha256 sectionRegion) []
  return sha256 hashed

def encodeObject (header : V3CommitHeader) (sectionRegion : Bytes) : Except V3FormatError Bytes := do
  validateCommitSectionSemantics header
  let digest ← bodyDigestForV3Sections sha256 header.sectionIndex sectionRegion
  ensure (digest = header.bodyDigest) .bodyDigestMismatch
  let span ← headerSpan header .actual
  return span ++ sectionRegion

variable (objectId : BackendObjectId)

/-- `verify` is the signature check of the keyring, under the checkpoint key with the given identifier. -/
def parseV3CommitHeader (input : Bytes) : Except V3FormatError V3ParsedCommitHeader := do
  let fixed ← parseFixedHeader input
  let headerSpanBytes ← okOr (getRange input 0 fixed.headerSpanLen) .truncatedHeader
  let headerCbor := slice headerSpanBytes headerMetaLen (headerMetaLen + fixed.headerLen)
  let header ← decodeHeaderCbor headerCbor
  ensure (encodeHeaderCbor header .actual = headerCbor) .nonCanonicalCbor
  ensure (header.algorithms = .v03) .invalidAlgorithms
  let commitKey ← V3CommitKey.parse header.selfRef.commitKey
  ensure (commitKey.sequence = header.selfRef.sequence) .selfKeyMismatch
  ensure (header.selfRef.commitKey = objectId) .selfKeyMismatch
  let signingBytes ← headerSpan header .zero
  ensure (verify header.signingKeyId signingBytes header.signature) .signatureVerification
  return ⟨header, fixed.headerLen, fixed.headerSpanLen⟩

def parseV3CommitObject (body : Bytes) : Except V3FormatError V3ParsedCommit := do
  let parsedHeader ← parseV3CommitHeader verify objectId body
  ensure (parsedHeader.sectionsStart ≤ body.length) .truncatedBody
  let sectionRegion := body.drop parsedHeader.sectionsStart
  let digest ← bodyDigestForV3Sections sha256 parsedHeader.header.sectionIndex sectionRegion
  ensure (digest = parsedHeader.header.bodyDigest) .bodyDigestMismatch
  validateCommitSectionSemantics parsedHeader.header
  return ⟨parsedHeader, none, body⟩

/-- The structural checks of the full parser: `parse_v3_commit_object` without its comparisons of digests. -/
def parseV3CommitStructure (body : Bytes) : Except V3FormatError V3ParsedCommitHeader := do
  let parsedHeader ← parseV3CommitHeader verify objectId body
  ensure (parsedHeader.sectionsStart ≤ body.length) .truncatedBody
  let sectionRegionLen ← okOr (tryFrom 64 (body.drop parsedHeader.sectionsStart).length) .sectionBounds
  validateSectionLayout parsedHeader.header.sectionIndex sectionRegionLen
  validateCommitSectionSemantics parsedHeader.header
  return parsedHeader

def v3CommitHeaderSpanLen (input : Bytes) : Except V3FormatError ℕ := do
  let fixed ← parseFixedHeader input
  return fixed.headerSpanLen

/-- The bounded header path: forty bytes, then as many as they announce, then the header. -/
def boundedCommitHeader (body : Bytes) : Except V3FormatError V3ParsedCommitHeader := do
  let start ← okOr (getRange body 0 headerMetaLen) .storageOperationFailed
  let headerSpanLen ← v3CommitHeaderSpanLen start
  let headerBytes ← okOr (getRange body 0 headerSpanLen) .storageOperationFailed
  parseV3CommitHeader verify objectId headerBytes

/-- `read_commit_header_at`, over the object that the store has under the key and version. -/
def readCommitHeader (body : Bytes) : Except V3FormatError V3ParsedCommitHeader := do
  let parsed ← boundedCommitHeader verify objectId body
  Recovery.validateParentTime none parsed.header.publishTimeMs
  return parsed

end

def validateV3CommitObjectLen (parsedHeader : V3ParsedCommitHeader) (objectLen : ℕ) : Except V3FormatError Unit := do
  let sectionRegionLen ← okOr (checkedSub objectLen parsedHeader.sectionsStart) .truncatedBody
  validateSectionLayout parsedHeader.header.sectionIndex sectionRegionLen
  validateCommitSectionSemantics parsedHeader.header

/-! ## The layout loop -/

variable {sectionIndex : List V3SectionDescriptor}

variable {sectionRegionLen : ℕ} {header : V3CommitHeader}

/-- The sections that the loop accepts follow each other, and every end that it computes fits in 64 bits. -/
theorem layoutLoop_accepted (hstart : start < 2 ^ 64)
    (h : sectionIndex.foldlM (layoutStep sectionRegionLen) start = .ok stop) :
    Consecutive start (sectionSpans sectionIndex) stop ∧ stop < 2 ^ 64 ∧
      ∀ descriptor ∈ sectionIndex, descriptor.offset.get + descriptor.length.get < 2 ^ 64 := by
  induction sectionIndex generalizing start with
  | nil =>
    cases h
    exact ⟨rfl, hstart, by simp⟩
  | cons descriptor rest ih =>
    rw [foldlM_cons, bind_eq_ok] at h
    obtain ⟨next, hstep, hrest⟩ := h
    simp only [layoutStep, ok_iff, checkedAdd_eq_some] at hstep
    obtain ⟨-, -, _, ⟨hlt, rfl⟩, ⟨hoffset, -⟩, rfl⟩ := hstep
    obtain ⟨hconsecutive, hstop, hbounded⟩ := ih hlt hrest
    exact ⟨⟨hoffset, Nat.le_add_right _ _, hconsecutive⟩, hstop, forall_mem_cons.mpr ⟨hlt, hbounded⟩⟩

structure LayoutAccepted (sectionIndex : List V3SectionDescriptor) (sectionRegionLen : ℕ) : Prop where
  count : sectionIndex.length ≤ maxCommitSections
  consecutive : Consecutive 0 (sectionSpans sectionIndex) sectionRegionLen
  region : sectionRegionLen < 2 ^ 64
  bounded : ∀ descriptor ∈ sectionIndex, descriptor.offset.get + descriptor.length.get < 2 ^ 64

theorem layoutAccepted
    (h : validateSectionLayout sectionIndex sectionRegionLen = .ok u) : LayoutAccepted sectionIndex sectionRegionLen := by
  simp only [validateSectionLayout, ok_iff] at h
  obtain ⟨hlen, _, hloop, rfl⟩ := h
  obtain ⟨hconsecutive, hregion, hbounded⟩ := layoutLoop_accepted (by decide) hloop
  exact ⟨hlen, hconsecutive, hregion, hbounded⟩

variable {sectionRegion : Bytes}

/-- An accepted layout cuts the region into its sections. -/
theorem sectionBytes_flatten (h : validateSectionLayout sectionIndex sectionRegion.length = .ok u) :
    (sectionBytes sectionIndex sectionRegion).flatten = sectionRegion := by
  rw [sectionBytes, (layoutAccepted h).consecutive.flatten_slices]
  simp [slice]

/-! ## The fixed prefix -/

theorem length_fixedHeaderBytes (cborLen : ℕ) : (fixedHeaderBytes cborLen).length = headerMetaLen := by
  have hmagic : commitMagic.length = 8 := by decide
  simp [fixedHeaderBytes, hmagic, headerMetaLen]

/-- The prefix in the pieces that the parser looks at. -/
theorem fixedHeaderBytes_eq :
    fixedHeaderBytes cborLen = commitMagic ++ (toBe 4 formatVersion ++ (toBe 4 minReaderVersion ++ (toBe 4 cborLen ++
      (List.replicate 8 0 ++ List.replicate 12 0)))) := by
  simp only [fixedHeaderBytes, append_assoc]
  rfl

theorem parseFixedHeader_eq_ok :
    parseFixedHeader input = .ok fixed ↔ ∃ headerLen rest, headerLen ≤ maxHeaderCborLen ∧
      fixed = ⟨headerLen, headerMetaLen + headerLen⟩ ∧ input = fixedHeaderBytes headerLen ++ rest := by
  simp only [parseFixedHeader, ok_iff]
  constructor
  · rintro ⟨⟨hlen, hmagic⟩, hformat, hreader, hcapabilities, hreserved, hmax, rfl⟩
    have hlen : 40 ≤ input.length := hlen
    refine ⟨ofBe (slice input 16 20), input.drop 40, hmax, rfl, ?_⟩
    -- each range of the input is what its field says
    have hword {start stop n : ℕ} (hstop : stop ≤ 40) (hword : stop - start = 4)
        (h : ofBe (slice input start stop) = n) : slice input start stop = toBe 4 n := by
      rw [← h, ← hword, ← length_slice_of_le (hstop.trans hlen), toBe_ofBe]
    have hzeros {start stop k : ℕ} (hstop : stop ≤ 40) (hk : stop - start = k)
        (h : ∀ byte ∈ slice input start stop, byte = 0) : slice input start stop = List.replicate k 0 :=
      eq_replicate_iff.mpr ⟨by rw [length_slice_of_le (hstop.trans hlen), hk], h⟩
    have hcount : slice input 16 20 = toBe 4 (ofBe (slice input 16 20)) := hword (by decide) (by decide) rfl
    rw [fixedHeaderBytes_eq, ← hmagic, ← hword (by decide) (by decide) hformat,
      ← hword (by decide) (by decide) hreader, ← hcount,
      ← hzeros (by decide) (by decide) hcapabilities, ← hzeros (by decide) (by decide) hreserved]
    rw [slice_append_slice input (by decide) (by decide), slice_append_slice input (by decide) (by decide),
      slice_append_slice input (by decide) (by decide), slice_append_slice input (by decide) (by decide),
      slice_append_slice input (by decide) (by decide), slice_zero_append_drop]
  · rintro ⟨headerLen, rest, hmax, rfl, rfl⟩
    have hm : commitMagic.length = 8 := by decide
    have hsmall : headerLen < 256 ^ 4 := lt_of_le_of_lt hmax (by decide)
    have hlen : headerMetaLen ≤ (fixedHeaderBytes headerLen ++ rest).length := by
      rw [length_append, length_fixedHeaderBytes]
      exact Nat.le_add_right _ _
    rw [fixedHeaderBytes_eq] at hlen ⊢
    -- the ranges that the parser reads are the pieces of the prefix
    generalize hinput : _ ++ rest = input at hlen ⊢
    simp only [append_assoc] at hinput
    have h0 : slice input 0 8 = commitMagic := by simp [← hinput, slice, hm]
    have h8 : slice input 8 12 = toBe 4 formatVersion := by simp [← hinput, slice, take_append, hm]
    have h12 : slice input 12 16 = toBe 4 minReaderVersion := by simp [← hinput, slice, take_append, drop_append, hm]
    have h16 : slice input 16 20 = toBe 4 headerLen := by simp [← hinput, slice, take_append, drop_append,
      drop_of_length_le, hm]
    have h20 : slice input 20 28 = List.replicate 8 0 := by simp [← hinput, slice, take_append, drop_append,
      drop_of_length_le, hm]
    have h28 : slice input 28 40 = List.replicate 12 0 := by simp [← hinput, slice, take_append, drop_append,
      drop_of_length_le, hm]
    rw [h0, h8, h12, h16, h20, h28, ofBe_toBe hsmall]
    exact ⟨⟨hlen, rfl⟩, ofBe_toBe (by decide), ofBe_toBe (by decide), fun _ => eq_of_mem_replicate,
      fun _ => eq_of_mem_replicate, hmax, rfl⟩

/-! ## Headers -/

/-- What the parser asks of a header beyond its form. -/
structure Authentic (verify : KeyId → Bytes → Signature → Bool) (objectId : BackendObjectId)
    (header : V3CommitHeader) : Prop where
  algorithms : header.algorithms = .v03
  commitKey : ∃ key, V3CommitKey.parse header.selfRef.commitKey = .ok key ∧ key.sequence = header.selfRef.sequence
  objectId : header.selfRef.commitKey = objectId
  signature : ∃ signingBytes, headerSpan header .zero = .ok signingBytes ∧
    verify header.signingKeyId signingBytes header.signature = true

/-- The bytes of a signed header, and the facts that the parser reports about them. -/
structure SpanOf (parsed : V3ParsedCommitHeader) (span : Bytes) : Prop where
  fits : HeaderFits parsed.header
  small : (encodeHeaderCbor parsed.header .actual).length ≤ maxHeaderCborLen
  headerLen : parsed.headerLen = (encodeHeaderCbor parsed.header .actual).length
  sectionsStart : parsed.sectionsStart = headerMetaLen + (encodeHeaderCbor parsed.header .actual).length
  bytes : span = fixedHeaderBytes (encodeHeaderCbor parsed.header .actual).length ++
    encodeHeaderCbor parsed.header .actual

theorem SpanOf.length {parsed : V3ParsedCommitHeader} {span : Bytes} (h : SpanOf parsed span) :
    span.length = parsed.sectionsStart := by
  rw [h.bytes, h.sectionsStart, length_append, length_fixedHeaderBytes]

section

variable {sha256 : Bytes → Digest} {verify : KeyId → Bytes → Signature → Bool} {objectId : BackendObjectId}
  {input body : Bytes} {parsed : V3ParsedCommitHeader}

/-- **The header parser is exact**: it accepts what starts with the span of an authentic header. -/
theorem parseV3CommitHeader_eq_ok : parseV3CommitHeader verify objectId input = .ok parsed ↔
    Authentic verify objectId parsed.header ∧ ∃ span rest, SpanOf parsed span ∧ input = span ++ rest := by
  simp only [parseV3CommitHeader, ok_iff, getRange_eq_some, parseFixedHeader_eq_ok, decodeHeaderCbor_eq_ok]
  constructor
  · rintro ⟨_, ⟨headerLen, rest, hmax, rfl, rfl⟩, _, ⟨⟨-, hspan⟩, rfl⟩, header, ⟨hfits, hcbor⟩, -, halgorithms, key,
      hkey, hsequence, hobject, signing, hsigning, hverify, rfl⟩
    refine ⟨⟨halgorithms, ⟨key, hkey, hsequence⟩, hobject, signing, hsigning, hverify⟩, ?_⟩
    have hfixed := length_fixedHeaderBytes headerLen
    simp only [length_append, hfixed] at hspan hcbor
    -- the header is the range after the prefix
    rw [slice_slice (by omega), Nat.zero_add, Nat.zero_add] at hcbor
    have hlen : (encodeHeaderCbor header .actual).length = headerLen := by
      rw [← hcbor, length_slice_of_le (by rw [length_append, hfixed]; exact hspan)]
      omega
    refine ⟨fixedHeaderBytes headerLen ++ encodeHeaderCbor header .actual, rest.drop headerLen,
      ⟨hfits, by rwa [hlen], hlen.symm, by rw [hlen], by rw [hlen]⟩, ?_⟩
    have hrest : encodeHeaderCbor header .actual = rest.take headerLen := by
      rw [← hcbor, slice, take_append, drop_append, hfixed]
      simp [hfixed]
    rw [append_assoc, hrest, take_append_drop]
  · rintro ⟨⟨halgorithms, ⟨key, hkey, hsequence⟩, hobject, signing, hsigning, hverify⟩, span, rest, hspan, rfl⟩
    obtain ⟨header, headerLen, sectionsStart⟩ := parsed
    obtain ⟨hfits, hsmall, hheaderLen, hstart, hbytes⟩ := hspan
    have hfixed := length_fixedHeaderBytes (encodeHeaderCbor header .actual).length
    generalize hcbor : encodeHeaderCbor header .actual = cbor at hsmall hheaderLen hstart hbytes hfixed
    subst hbytes hheaderLen hstart
    have hinput : fixedHeaderBytes cbor.length ++ cbor ++ rest = fixedHeaderBytes cbor.length ++ (cbor ++ rest) :=
      append_assoc _ _ _
    have hlen : headerMetaLen + cbor.length ≤ (fixedHeaderBytes cbor.length ++ cbor ++ rest).length := by
      simp only [length_append, hfixed]
      omega
    have hrange : slice (fixedHeaderBytes cbor.length ++ cbor ++ rest) 0 (headerMetaLen + cbor.length) =
        fixedHeaderBytes cbor.length ++ cbor :=
      slice_append_middle [] (fixedHeaderBytes cbor.length ++ cbor) rest rfl
        (by rw [length_nil, length_append, hfixed, Nat.zero_add])
    have hslice : slice (fixedHeaderBytes cbor.length ++ cbor) headerMetaLen (headerMetaLen + cbor.length) = cbor :=
      slice_append_right hfixed rfl
    refine ⟨⟨cbor.length, headerMetaLen + cbor.length⟩, ⟨cbor.length, cbor ++ rest, hsmall, rfl, hinput⟩,
      fixedHeaderBytes cbor.length ++ cbor, ⟨⟨Nat.zero_le _, hlen⟩, hrange⟩, header, ⟨hfits, ?_⟩, ?_, halgorithms, key,
      hkey, hsequence, hobject, signing, hsigning, hverify, rfl⟩
    · exact hslice.trans hcbor.symm
    · exact hcbor.trans hslice.symm

/-- The bounded path accepts the same headers. -/
theorem boundedCommitHeader_eq_ok : boundedCommitHeader verify objectId body = .ok parsed ↔
    parseV3CommitHeader verify objectId body = .ok parsed := by
  simp only [boundedCommitHeader, v3CommitHeaderSpanLen, ok_iff, getRange_eq_some, parseFixedHeader_eq_ok]
  constructor
  · rintro ⟨_, -, spanLen, -, _, ⟨⟨-, hlen⟩, rfl⟩, hparse⟩
    obtain ⟨hauthentic, span, rest, hspan, hinput⟩ := parseV3CommitHeader_eq_ok.mp hparse
    refine parseV3CommitHeader_eq_ok.mpr ⟨hauthentic, span, rest ++ body.drop spanLen, hspan, ?_⟩
    rw [← append_assoc, ← hinput, slice_zero_append_drop]
  · intro hparse
    obtain ⟨hauthentic, span, rest, hspan, rfl⟩ := parseV3CommitHeader_eq_ok.mp hparse
    have hlen := hspan.length
    have hstart := hspan.sectionsStart
    have hbytes := hspan.bytes
    have hfixed := length_fixedHeaderBytes (encodeHeaderCbor parsed.header .actual).length
    refine ⟨_, ⟨⟨Nat.zero_le _, ?_⟩, rfl⟩, parsed.sectionsStart, ⟨_, ⟨_, [], hspan.small, rfl, ?_⟩, hstart.symm⟩, span,
      ⟨⟨Nat.zero_le _, ?_⟩, ?_⟩, ?_⟩
    · rw [length_append, hlen, hstart]
      omega
    · rw [append_nil, hbytes, append_assoc]
      exact slice_append_middle [] (fixedHeaderBytes _) _ rfl (by rw [length_nil, Nat.zero_add, hfixed])
    · rw [length_append]
      omega
    · exact slice_append_middle [] span rest rfl (by rw [length_nil, Nat.zero_add, hlen])
    · exact parseV3CommitHeader_eq_ok.mpr ⟨hauthentic, span, [], hspan, (append_nil span).symm⟩

/-- The reader of the repository also asks for a publication time after the epoch. -/
theorem readCommitHeader_eq_ok : readCommitHeader verify objectId body = .ok parsed ↔
    boundedCommitHeader verify objectId body = .ok parsed ∧ 0 ≤ parsed.header.publishTimeMs := by
  simp only [readCommitHeader, Recovery.validateParentTime, ok_iff]
  constructor
  · rintro ⟨_, hparsed, htime, rfl⟩
    exact ⟨hparsed, htime⟩
  · rintro ⟨hparsed, htime⟩
    exact ⟨parsed, hparsed, htime, rfl⟩

/-! ## Digests -/

/-- What only the full reader checks: the digest of every section and of the region. -/
structure DigestsMatch (sha256 : Bytes → Digest) (header : V3CommitHeader) (sectionRegion : Bytes) : Prop where
  sections : ∀ descriptor ∈ header.sectionIndex,
    sha256 (slice sectionRegion descriptor.offset.get (descriptor.offset.get + descriptor.length.get)) =
      descriptor.digest
  body : sha256 sectionRegion = header.bodyDigest

theorem digestLoop_eq_ok
    (hbounded : ∀ descriptor ∈ sectionIndex, descriptor.offset.get + descriptor.length.get < 2 ^ 64) :
    sectionIndex.foldlM (digestStep sha256 sectionRegion) hashed = .ok out ↔
      (∀ descriptor ∈ sectionIndex,
        sha256 (slice sectionRegion descriptor.offset.get (descriptor.offset.get + descriptor.length.get)) =
          descriptor.digest) ∧ hashed ++ (sectionBytes sectionIndex sectionRegion).flatten = out := by
  induction sectionIndex generalizing hashed with
  | nil => simp [sectionBytes, sectionSpans]
  | cons descriptor rest ih =>
    rw [forall_mem_cons] at hbounded
    simp only [foldlM_cons, digestStep, ok_iff, checkedAdd_eq_some, existsAndEq, hbounded.1, true_and, ih hbounded.2,
      forall_mem_cons, sectionBytes, sectionSpans, map_cons, flatten_cons, append_assoc, and_assoc]

theorem bodyDigest_eq_ok :
    bodyDigestForV3Sections sha256 header.sectionIndex sectionRegion = .ok header.bodyDigest ↔
      validateSectionLayout header.sectionIndex sectionRegion.length = .ok () ∧
        DigestsMatch sha256 header sectionRegion := by
  simp only [bodyDigestForV3Sections, ok_iff, tryFrom_eq_some]
  constructor
  · rintro ⟨_, ⟨-, rfl⟩, _, hlayout, hashed, hloop, hdigest⟩
    obtain ⟨hsections, rfl⟩ := (digestLoop_eq_ok (layoutAccepted hlayout).bounded).mp hloop
    rw [nil_append, sectionBytes_flatten hlayout] at hdigest
    exact ⟨hlayout, hsections, hdigest⟩
  · rintro ⟨hlayout, hsections, hdigest⟩
    have haccepted := layoutAccepted hlayout
    refine ⟨_, ⟨haccepted.region, rfl⟩, (), hlayout, sectionRegion,
      (digestLoop_eq_ok haccepted.bounded).mpr ⟨hsections, ?_⟩, hdigest⟩
    rw [nil_append, sectionBytes_flatten hlayout]

/-! ## Objects -/

/-- The bounded path and the length check make the structural checks. -/
theorem parseV3CommitStructure_eq_ok : parseV3CommitStructure verify objectId body = .ok parsed ↔
    boundedCommitHeader verify objectId body = .ok parsed ∧ validateV3CommitObjectLen parsed body.length = .ok () := by
  simp only [parseV3CommitStructure, validateV3CommitObjectLen, boundedCommitHeader_eq_ok, ok_iff, checkedSub_eq_some,
    tryFrom_eq_some, length_drop]
  constructor
  · rintro ⟨_, hparse, hstart, _, ⟨-, rfl⟩, _, hlayout, _, hsemantics, rfl⟩
    exact ⟨hparse, _, ⟨hstart, rfl⟩, (), hlayout, hsemantics⟩
  · rintro ⟨hparse, _, ⟨hstart, rfl⟩, _, hlayout, hsemantics⟩
    exact ⟨parsed, hparse, hstart, _, ⟨(layoutAccepted hlayout).region, rfl⟩, (), hlayout, (), hsemantics, rfl⟩

/-- The full parser is its structural checks and the digests. -/
theorem parseV3CommitObject_eq_ok :
    parseV3CommitObject sha256 verify objectId body = .ok commit ↔
      parseV3CommitStructure verify objectId body = .ok commit.parsedHeader ∧
      DigestsMatch sha256 commit.parsedHeader.header (body.drop commit.parsedHeader.sectionsStart) ∧
      commit.versionId = none ∧ commit.body = body := by
  obtain ⟨parsed, versionId, body'⟩ := commit
  simp only [parseV3CommitObject, parseV3CommitStructure, ok_iff, tryFrom_eq_some, V3ParsedCommit.mk.injEq]
  constructor
  · rintro ⟨_, hparse, hstart, _, hdigest, rfl, _, hsemantics, rfl, rfl, rfl⟩
    obtain ⟨hlayout, hmatch⟩ := bodyDigest_eq_ok.mp hdigest
    exact ⟨⟨_, hparse, hstart, _, ⟨(layoutAccepted hlayout).region, rfl⟩, (), hlayout, (), hsemantics, rfl⟩,
      hmatch, rfl, rfl⟩
  · rintro ⟨⟨_, hparse, hstart, _, ⟨-, rfl⟩, _, hlayout, _, hsemantics, rfl⟩, hmatch, rfl, rfl⟩
    exact ⟨_, hparse, hstart, _, bodyDigest_eq_ok.mpr ⟨hlayout, hmatch⟩, rfl, (), hsemantics, rfl, rfl, rfl⟩

end

/-! ## Headers that are encoded -/

theorem V3SectionType.Canonical.of_isSupported {sectionType : V3SectionType} (h : sectionType.isSupported = true) :
    sectionType.Canonical := by
  cases sectionType with
  | unknown => cases h
  | _ => rfl

/-- Every allowed list has only known types. -/
theorem isSupported_of_validSectionTypes {types : List V3SectionType}
    (h : validSectionTypes kind hasParent types = true) : ∀ sectionType ∈ types, sectionType.isSupported = true := by
  cases kind <;> simp only [validSectionTypes, Bool.or_eq_true, Bool.and_eq_true, decide_eq_true_eq] at h
  · obtain ⟨-, ((rfl | rfl) | rfl) | rfl⟩ := h <;> decide
  · obtain rfl | rfl := h <;> decide

theorem SectionsFit.of_valid (hlen : header.sectionIndex.length ≤ maxCommitSections)
    (h : validateCommitSectionSemantics header = .ok u) : SectionsFit header.sectionIndex := by
  simp only [validateCommitSectionSemantics, ok_iff] at h
  obtain ⟨_, -, -, htypes⟩ := h
  exact ⟨hlen, fun descriptor hmem => .of_isSupported
    (isSupported_of_validSectionTypes htypes _ (mem_map_of_mem hmem))⟩

theorem fits_of_le (h : (writeText text).length ≤ n) (hn : n < 2 ^ 64) : Fits text :=
  ((length_le_writeText text).trans h).trans_lt hn

theorem fits_of_bytes_le (h : (writeBytes (utf8 text)).length ≤ n) (hn : n < 2 ^ 64) : Fits text :=
  ((length_le_writeBytes _).trans h).trans_lt hn

theorem ParentRefFits.of_small (h : (encodeParentRef parent).length ≤ n) (hn : n < 2 ^ 64) : ParentRefFits parent := by
  simp only [encodeParentRef, length_append] at h
  refine ⟨fits_of_le (n := n) (by omega) hn, fun versionId hversion => fits_of_bytes_le (n := n) ?_ hn⟩
  simp only [hversion, writeNullable] at h
  omega

theorem AlgorithmsFit.of_small (h : (encodeAlgorithms algorithms).length ≤ n)
    (hn : n < 2 ^ 64) : AlgorithmsFit algorithms := by
  simp only [encodeAlgorithms, length_append] at h
  exact ⟨fits_of_le (n := n) (by omega) hn, fits_of_le (n := n) (by omega) hn, fits_of_le (n := n) (by omega) hn,
    fits_of_le (n := n) (by omega) hn, fits_of_le (n := n) (by omega) hn⟩

/-- A header whose encoding is small enough fits. -/
theorem HeaderFits.of_small (hsections : SectionsFit header.sectionIndex)
    (h : (encodeHeaderCbor header .actual).length ≤ n) (hn : n < 2 ^ 64) : HeaderFits header := by
  rw [encodeHeaderCbor_actual] at h
  simp only [length_append] at h
  -- drop the pieces of the sum up to each text; omega would compare the pieces with each other
  have drop {a b : ℕ} (hsum : a + b ≤ n) : b ≤ n := (Nat.le_add_left b a).trans hsum
  have keep {a b : ℕ} (hsum : a + b ≤ n) : a ≤ n := (Nat.le_add_right a b).trans hsum
  have hself := drop (drop h)
  have hparent := drop (drop hself)
  have halgorithms := drop (drop (drop (drop (drop (drop hparent)))))
  have hkeyring := drop (drop halgorithms)
  have hkeyId := drop (drop (drop (drop (drop (drop (drop (drop (drop hkeyring))))))))
  refine ⟨fits_of_le (n := n) ?_ hn, fun parent hsome => .of_small (n := n) ?_ hn, .of_small (keep halgorithms) hn,
    fits_of_le (n := n) ?_ hn, hsections, fits_of_bytes_le (keep hkeyId) hn⟩
  · have hself := keep hself
    simp only [encodeSelfRef, length_append] at hself
    exact drop hself
  · have hparent := keep hparent
    rwa [hsome, writeNullable] at hparent
  · have hkeyring := keep hkeyring
    simp only [encodeKeyringRef, length_append] at hkeyring
    exact drop (keep (keep hkeyring))

/-- The signature has the same length whether it is there or zeroed. -/
theorem length_encodeHeaderCbor_zero (header : V3CommitHeader) :
    (encodeHeaderCbor header .zero).length = (encodeHeaderCbor header .actual).length := by
  have hsignature : (writeBytes header.signature.toList).length = (writeBytes (List.replicate 64 0)).length := by
    simp only [writeBytes, length_append, Vector.length_toList, length_replicate]
  unfold encodeHeaderCbor
  simp only [length_append, hsignature]

/-- A header that can be encoded can be signed. -/
theorem exists_headerSpan_zero (header : V3CommitHeader)
    (h : (encodeHeaderCbor header .actual).length ≤ maxHeaderCborLen) :
    ∃ signingBytes, headerSpan header .zero = .ok signingBytes := by
  rw [← length_encodeHeaderCbor_zero] at h
  exact ⟨_, by rw [headerSpan, ensure_of h]; rfl⟩

section

variable {sha256 : Bytes → Digest} {verify : KeyId → Bytes → Signature → Bool} {objectId : BackendObjectId}

variable {header : V3CommitHeader}

theorem encodeObject_eq_ok : encodeObject sha256 header sectionRegion = .ok object ↔
      validateCommitSectionSemantics header = .ok () ∧
      validateSectionLayout header.sectionIndex sectionRegion.length = .ok () ∧
      DigestsMatch sha256 header sectionRegion ∧
      (encodeHeaderCbor header .actual).length ≤ maxHeaderCborLen ∧
      fixedHeaderBytes (encodeHeaderCbor header .actual).length ++ encodeHeaderCbor header .actual ++ sectionRegion =
        object := by
  simp only [encodeObject, headerSpan, ok_iff]
  constructor
  · rintro ⟨_, hsemantics, _, hdigest, rfl, _, ⟨hsmall, rfl⟩, hobject⟩
    obtain ⟨hlayout, hmatch⟩ := bodyDigest_eq_ok.mp hdigest
    exact ⟨hsemantics, hlayout, hmatch, hsmall, hobject⟩
  · rintro ⟨hsemantics, hlayout, hmatch, hsmall, hobject⟩
    exact ⟨(), hsemantics, _, bodyDigest_eq_ok.mpr ⟨hlayout, hmatch⟩, rfl, _, ⟨hsmall, rfl⟩, hobject⟩

def V3CommitHeader.parsed (header : V3CommitHeader) : V3ParsedCommitHeader :=
  ⟨header, (encodeHeaderCbor header .actual).length, headerMetaLen + (encodeHeaderCbor header .actual).length⟩

theorem spanOf_parsed (hfits : HeaderFits header)
    (hsmall : (encodeHeaderCbor header .actual).length ≤ maxHeaderCborLen) :
    SpanOf header.parsed (fixedHeaderBytes (encodeHeaderCbor header .actual).length ++
      encodeHeaderCbor header .actual) := by
  constructor <;> simp only [V3CommitHeader.parsed] <;> assumption

/-- Two spans at the start of the same bytes are spans of the same header. -/
theorem SpanOf.unique {parsed parsed' : V3ParsedCommitHeader} {span span' rest rest' : Bytes} (h : SpanOf parsed span)
    (h' : SpanOf parsed' span') (heq : span ++ rest = span' ++ rest') : parsed = parsed' := by
  have hfixed := parseFixedHeader_eq_ok.mpr ⟨_, encodeHeaderCbor parsed.header .actual ++ rest, h.small, rfl, rfl⟩
  have hfixed' := parseFixedHeader_eq_ok.mpr ⟨_, encodeHeaderCbor parsed'.header .actual ++ rest', h'.small, rfl, rfl⟩
  rw [← append_assoc, ← h.bytes, heq, h'.bytes, append_assoc, hfixed'] at hfixed
  have hlen := congrArg FixedHeader.headerLen (Except.ok.inj hfixed)
  simp only at hlen
  have hcbor : encodeHeaderCbor parsed'.header .actual = encodeHeaderCbor parsed.header .actual := by
    rw [h.bytes, h'.bytes, hlen, append_assoc, append_assoc] at heq
    exact ((append_inj (append_cancel_left heq) hlen.symm).1).symm
  have hdecode := decodeHeaderCbor_eq_ok.mpr ⟨h.fits, rfl⟩
  have hdecode' := decodeHeaderCbor_eq_ok.mpr ⟨h'.fits, rfl⟩
  rw [← hcbor, hdecode'] at hdecode
  have hheader : parsed'.header = parsed.header := Except.ok.inj hdecode
  obtain ⟨header, headerLen, sectionsStart⟩ := parsed
  obtain ⟨header', headerLen', sectionsStart'⟩ := parsed'
  simp only at hheader
  have hL := h.headerLen
  have hL' := h'.headerLen
  have hS := h.sectionsStart
  have hS' := h'.sectionsStart
  simp only [hheader] at hL hL' hS hS'
  rw [hheader, hL, hL', hS, hS']

/-- **Round trip of objects.**  The parser accepts an encoded object exactly when its header is authentic, and then
returns that header. -/
theorem parse_encodeObject {object : Bytes}
    (h : encodeObject sha256 header sectionRegion = .ok object) {commit : V3ParsedCommit} :
    parseV3CommitObject sha256 verify objectId object = .ok commit ↔
      Authentic verify objectId header ∧ commit = ⟨header.parsed, none, object⟩ := by
  obtain ⟨hsemantics, hlayout, hmatch, hsmall, hobject⟩ := encodeObject_eq_ok.mp h
  have hfits : HeaderFits header := .of_small (.of_valid (layoutAccepted hlayout).count hsemantics) hsmall (by decide)
  have hspan := spanOf_parsed hfits hsmall
  have hdrop : object.drop header.parsed.sectionsStart = sectionRegion := by
    rw [← hobject, ← hspan.length, drop_left]
  have hlen : object.length = header.parsed.sectionsStart + sectionRegion.length := by
    rw [← hobject, length_append, hspan.length]
  rw [parseV3CommitObject_eq_ok, parseV3CommitStructure_eq_ok, boundedCommitHeader_eq_ok, parseV3CommitHeader_eq_ok]
  constructor
  · rintro ⟨⟨⟨hauthentic, span, rest, hspan', hinput⟩, -⟩, -, hversion, hbody⟩
    have hparsed : header.parsed = commit.parsedHeader := hspan.unique hspan' (hobject.trans hinput)
    obtain ⟨parsedHeader, versionId, body⟩ := commit
    simp only at hparsed hversion hbody hauthentic
    subst hparsed hversion hbody
    exact ⟨hauthentic, rfl⟩
  · rintro ⟨hauthentic, rfl⟩
    refine ⟨⟨⟨hauthentic, _, sectionRegion, hspan, hobject.symm⟩, ?_⟩, ?_, rfl, rfl⟩
    · simp only [validateV3CommitObjectLen, ok_iff, checkedSub_eq_some]
      refine ⟨sectionRegion.length, ⟨by omega, by omega⟩, (), hlayout, hsemantics⟩
    · simp only [hdrop]
      exact hmatch

end

/-- **Commit objects are exact.**  A signed header and its sections survive encoding and parsing, and the sections cut
the region without gap, overlap or remainder; the header decoder accepts canonical bytes only; and the bounded path
with the length check accepts an object exactly when the full parser does, up to the digests that only the full one
compares and the publication time, whose sign only the reader of the repository checks. -/
theorem commit_objects_exact (sha256 : Bytes → Digest) (verify : KeyId → Bytes → Signature → Bool) :
    (∀ header sectionRegion object, encodeObject sha256 header sectionRegion = .ok object →
      Authentic verify header.selfRef.commitKey header →
      ∃ commit, parseV3CommitObject sha256 verify header.selfRef.commitKey object = .ok commit ∧
        commit.parsedHeader.header = header ∧ object.drop commit.parsedHeader.sectionsStart = sectionRegion ∧
        Consecutive 0 (sectionSpans header.sectionIndex) sectionRegion.length ∧
        (sectionBytes header.sectionIndex sectionRegion).flatten = sectionRegion) ∧
    (∀ input header, decodeHeaderCbor input = .ok header → encodeHeaderCbor header .actual = input) ∧
    (∀ objectId body parsed,
      (boundedCommitHeader verify objectId body = .ok parsed ∧ validateV3CommitObjectLen parsed body.length = .ok () ↔
        parseV3CommitStructure verify objectId body = .ok parsed) ∧
      (readCommitHeader verify objectId body = .ok parsed ∧ validateV3CommitObjectLen parsed body.length = .ok () ↔
        parseV3CommitStructure verify objectId body = .ok parsed ∧ 0 ≤ parsed.header.publishTimeMs) ∧
      (parseV3CommitObject sha256 verify objectId body = .ok ⟨parsed, none, body⟩ ↔
        parseV3CommitStructure verify objectId body = .ok parsed ∧
          DigestsMatch sha256 parsed.header (body.drop parsed.sectionsStart))) := by
  refine ⟨fun header sectionRegion object hencode hauthentic => ?_, fun input header h => ?_, fun objectId body parsed => ?_⟩
  · obtain ⟨hsemantics, hlayout, -, hsmall, hobject⟩ := encodeObject_eq_ok.mp hencode
    have hfits : HeaderFits header := .of_small (.of_valid (layoutAccepted hlayout).count hsemantics) hsmall (by decide)
    refine ⟨_, (parse_encodeObject hencode).mpr ⟨hauthentic, rfl⟩, rfl, ?_,
      (layoutAccepted hlayout).consecutive, sectionBytes_flatten hlayout⟩
    rw [← hobject, ← (spanOf_parsed hfits hsmall).length, drop_left]
  · exact (decodeHeaderCbor_eq_ok.mp h).2.symm
  · refine ⟨parseV3CommitStructure_eq_ok.symm, ?_, ?_⟩
    · rw [readCommitHeader_eq_ok, parseV3CommitStructure_eq_ok]
      tauto
    · rw [parseV3CommitObject_eq_ok]
      simp

/-! ### A signed commit with three sections -/

/-- Sums of bytes in the place of digests and signatures. -/
def sumDigest (bytes : Bytes) : Digest := Vector.replicate 32 (bytes.foldl UInt8.add 0)

def sumVerify (keyId : KeyId) (bytes : Bytes) (signature : Signature) : Bool :=
  keyId.asStr = "signing" && signature = Vector.replicate 64 (bytes.foldl UInt8.add 0)

theorem firstKey_valid : validateNonEmpty
    "commits/v03/00000000000000000001/AAAAAAAAAAAAAAAAAAAAAAAAAAAAAAAAAAAAAAAAAAA" = true := by decide

theorem secondKey_valid : validateNonEmpty
    "commits/v03/00000000000000000002/AAAAAAAAAAAAAAAAAAAAAAAAAAAAAAAAAAAAAAAAAAA" = true := by decide

def firstKey : BackendObjectId :=
  ⟨"commits/v03/00000000000000000001/AAAAAAAAAAAAAAAAAAAAAAAAAAAAAAAAAAAAAAAAAAA", firstKey_valid⟩

def secondKey : BackendObjectId :=
  ⟨"commits/v03/00000000000000000002/AAAAAAAAAAAAAAAAAAAAAAAAAAAAAAAAAAAAAAAAAAA", secondKey_valid⟩

theorem signingKey_valid : validateNonEmpty "signing" = true := by decide

/-- The header of a second commit over the region below, under given algorithm identifiers. -/
def secondHeader (algorithms : V3Algorithms) (signature : UInt8) : V3CommitHeader :=
  ⟨⟨⟨2, secondKey⟩, some ⟨1, firstKey, sumDigest [7], none⟩, 1000, .delta, ⟨firstKey, sumDigest [8]⟩, sumDigest [21],
      ⟨"signing", signingKey_valid⟩⟩, algorithms,
    [⟨.payloadPack, 0, 3, flagMustUnderstand, sumDigest [6]⟩, ⟨.indexRun, 3, 2, flagMustUnderstand, sumDigest [9]⟩,
      ⟨.recovery, 5, 1, flagMustUnderstand, sumDigest [6]⟩], Vector.replicate 64 signature, by decide⟩

def secondRegion : Bytes := [1, 2, 3, 4, 5, 6]

theorem exists_encodeObject {header : V3CommitHeader} {region : Bytes}
    (h : (encodeObject sumDigest header region).toOption.isSome = true) :
    ∃ object, encodeObject sumDigest header region = .ok object := by
  cases hencode : encodeObject sumDigest header region with
  | ok object => exact ⟨object, rfl⟩
  | error e =>
    rw [hencode] at h
    cases h

/-- The sum of the signing bytes. -/
def secondSignature : UInt8 := ((headerSpan (secondHeader .v03 0) .zero).toOption.getD []).foldl UInt8.add 0

theorem secondHeader_authentic : Authentic sumVerify secondKey (secondHeader .v03 secondSignature) := by
  obtain ⟨signingBytes, hsigning⟩ := exists_headerSpan_zero (secondHeader .v03 secondSignature) (by decide +kernel)
  refine ⟨rfl, ⟨⟨2, Vector.replicate 32 0, secondKey⟩, by decide +kernel, rfl⟩, rfl, signingBytes, hsigning, ?_⟩
  -- the signing bytes have a zero signature, so they are those of the header without one
  have hsame : headerSpan (secondHeader .v03 0) .zero = .ok signingBytes := hsigning
  have hsignature : secondSignature = signingBytes.foldl UInt8.add 0 := by
    rw [secondSignature, hsame]
    rfl
  rw [hsignature]
  simp [sumVerify, secondHeader]

/-- The commit is parsed with its three sections, and accepted by the bounded path and its length. -/
theorem commit_objects_exact_second :
    ∃ object commit, encodeObject sumDigest (secondHeader .v03 secondSignature) secondRegion = .ok object ∧
      parseV3CommitObject sumDigest sumVerify secondKey object = .ok commit ∧
      commit.parsedHeader.header = secondHeader .v03 secondSignature ∧
      sectionBytes commit.parsedHeader.header.sectionIndex (object.drop commit.parsedHeader.sectionsStart) =
        [[1, 2, 3], [4, 5], [6]] ∧
      readCommitHeader sumVerify secondKey object = .ok commit.parsedHeader ∧
      validateV3CommitObjectLen commit.parsedHeader object.length = .ok () := by
  obtain ⟨object, hencode⟩ : ∃ object, encodeObject sumDigest (secondHeader .v03 secondSignature) secondRegion =
    .ok object := exists_encodeObject (by decide +kernel)
  obtain ⟨hparses, -, hreads⟩ := commit_objects_exact sumDigest sumVerify
  obtain ⟨commit, hparse, hheader, hregion, -⟩ := hparses _ _ _ hencode secondHeader_authentic
  obtain ⟨-, hread, hfull⟩ := hreads secondKey object commit.parsedHeader
  obtain ⟨-, hversion, hbody⟩ := (parseV3CommitObject_eq_ok.mp hparse).2
  have hsame : commit = ⟨commit.parsedHeader, none, object⟩ := by rw [← hversion, ← hbody]
  have htime : 0 ≤ commit.parsedHeader.header.publishTimeMs := by
    rw [hheader]
    decide
  obtain ⟨hbounded, hlen⟩ := hread.mpr ⟨(hfull.mp (hsame ▸ hparse)).1, htime⟩
  refine ⟨object, commit, hencode, hparse, hheader, ?_, hbounded, hlen⟩
  rw [hregion, hheader]
  decide +kernel

/-- `encode_object` does not ask for the v03 algorithms, which every parser requires. -/
theorem encoded_object_not_parsed :
    ∃ object, encodeObject sumDigest (secondHeader ⟨"", "", "", "", ""⟩ 0) secondRegion = .ok object ∧
      ∀ verify objectId commit, parseV3CommitObject sumDigest verify objectId object ≠ .ok commit := by
  obtain ⟨object, hencode⟩ : ∃ object, encodeObject sumDigest (secondHeader ⟨"", "", "", "", ""⟩ 0) secondRegion =
    .ok object := exists_encodeObject (by decide +kernel)
  refine ⟨object, hencode, fun verify objectId commit hparse => ?_⟩
  have halgorithms := ((parse_encodeObject hencode).mp hparse).1.algorithms
  exact absurd halgorithms (by decide)

end Rs3.CommitObject
