/-
# Rs3.Recovery.SectionCodec — the wire form of recovery sections.

`RecoverySection::encode` and `decode` of `v3/recovery/history.rs`.  The encoder validates the section first and then
writes canonical CBOR item by item, each after a check that it still fits.  The decoder reads the same schema,
validates every part as it goes and the section as a whole at the end.

Both are characterised by one wire form (`RecoverySection.wire`): what is written, and the only thing that is read.
-/
import Rs3.Lib.Writer
import Rs3.Recovery.Validity

namespace Rs3.Recovery

open List RecoverySection V3FormatError

open Cbor Writer
open Repository (V3CommitKey)

/-- `MAX_RECOVERY_SECTION_BYTES`. -/
def maxRecoverySectionBytes : ℕ := 8 * 1024 * 1024

/-- `WIRE_VERSION`. -/
def wireVersion : ℕ := 1

/-! ## Writer -/

abbrev SectionWriter := Writer V3FormatError Unit

namespace SectionWriter

/-- One item; the room is checked before it is written. -/
def item (additional : ℕ) (bytes : Bytes) : SectionWriter :=
  Writer.emit maxRecoverySectionBytes .recoveryHistoryCapacity additional bytes

def u64 (value : ℕ) : SectionWriter := item (headLen value) (writeU64 value)

def i64 (value : Int) : SectionWriter :=
  item (headLen (if 0 ≤ value then value.toNat else (-1 - value).toNat)) (writeI64 value)

def array (len : ℕ) : SectionWriter := item (headLen len) (writeArrayLen len)

/-- A sum that saturates does not fit either. -/
def data (value : Bytes) : SectionWriter := item (value.length + headLen value.length) (writeBytes value)

def text (value : String) : SectionWriter := item (value.utf8ByteSize + headLen value.utf8ByteSize) (writeText value)

def null : SectionWriter := item 1 writeNull

end SectionWriter

open SectionWriter

/-! ## Encoding -/

def encodeAnchor (anchor : V3AnchorState) : SectionWriter := do
  array 6
  u64 anchor.sequence.get
  text anchor.commitKey.asStr
  data anchor.bodyDigest.toList
  let version ← okOr anchor.versionId invalidRecoveryHistory
  text version.asStr
  text anchor.signingKeyId.asStr
  array 4
  u64 anchor.formatRef.generation.get
  let digest ← okOr (Text.hexDecode anchor.formatRef.digest) invalidRecoveryHistory
  data digest
  text anchor.formatRef.objectId.asStr
  let version ← okOr anchor.formatRef.versionId invalidRecoveryHistory
  text version.asStr

def encodePoint (point : RecoveryPoint) : SectionWriter := do
  array 4
  encodeAnchor point.anchor
  i64 point.publishTimeMs
  i64 point.protectedUntilMs
  data point.policyId.toList

def encodePoints (points : List RecoveryPoint) : SectionWriter := do
  array points.length
  forM points encodePoint

def encodeOptional {α : Type} (encode : α → SectionWriter) : Option α → SectionWriter
  | some value => encode value
  | none => null

def encodeDelta (delta : RecoveryDelta) : SectionWriter := do
  array 3
  encodeOptional encodePoint delta.register
  encodeOptional i64 delta.expireBeforeMs
  encodeOptional u64 delta.rollTail

def encodeClaims (claims : RecoveryPageClaims) : SectionWriter := do
  array 5
  u64 claims.recordCount
  u64 claims.firstSequence.get
  u64 claims.lastSequence.get
  i64 claims.minimumDeadlineMs
  i64 claims.maximumDeadlineMs

def encodeLocation : RecoveryPageLocation → SectionWriter
  | .thisSection pageIndex => do
    array 2
    u64 0
    u64 pageIndex
  | .exact anchor sectionOrdinal pageIndex => do
    array 4
    u64 1
    encodeAnchor anchor
    u64 sectionOrdinal
    u64 pageIndex

def encodePageRef (reference : RecoveryPageRef) : SectionWriter := do
  array 2
  encodeLocation reference.location
  encodeClaims reference.claims

def encodeSnapshot (snapshot : RecoverySnapshot) : SectionWriter := do
  array 3
  array snapshot.pages.length
  forM snapshot.pages encodePageRef
  encodePoints snapshot.tail
  i64 snapshot.expireBeforeMs

def encodePolicy (policy : RecoveryPolicy) : SectionWriter := do
  array 3
  u64 policy.windowDays
  u64 policy.renewalMarginSeconds
  u64 policy.clockUncertaintyMs

def encodeItems (self : RecoverySection) : SectionWriter := do
  array 5
  u64 wireVersion
  encodePolicy self.currentPolicy
  encodeDelta self.delta
  encodeOptional encodeSnapshot self.snapshot
  array self.localPages.length
  forM self.localPages fun page => encodePoints page.points

def RecoverySection.encode (self : RecoverySection) : Except V3FormatError Bytes := do
  self.validate
  let written ← (encodeItems self).run []
  return written.2

/-! ## Decoding -/

/-- Every CBOR error is an invalid history. -/
def read {α : Type} (p : Reader CborError α) : Reader V3FormatError α := p.mapError fun _ => .invalidRecoveryHistory

def fixedArray (expected : ℕ) : Reader V3FormatError Unit := do
  let count ← read readArrayLen
  ensure (count = expected) invalidRecoveryHistory

def boundedArray (maximum : ℕ) : Reader V3FormatError ℕ := do
  let count ← read readArrayLen
  capacity count maximum
  return count

def readU32 : Reader V3FormatError ℕ := do
  let value ← read readU64
  okOr (tryFrom 32 value) invalidRecoveryHistory

def readCount : Reader V3FormatError U64 := do
  let value ← read readU64
  okOr (U64.ofNat? value) invalidRecoveryHistory

def readDigest : Reader V3FormatError Digest := do
  let bytes ← read (readBytesBounded 32)
  okOr (exactly 32 bytes) invalidRecoveryHistory

def readObjectId : Reader V3FormatError BackendObjectId := do
  let value ← read (readTextBounded maxObjectIdBytes)
  okOr (BackendObjectId.new? value) invalidRecoveryHistory

def readVersionId : Reader V3FormatError BackendVersionId := do
  let value ← read (readTextBounded maxVersionIdBytes)
  okOr (BackendVersionId.new? value) invalidRecoveryHistory

def readKeyId : Reader V3FormatError KeyId := do
  let value ← read (readTextBounded maxKeyIdBytes)
  okOr (KeyId.new? value) invalidRecoveryHistory

def decodeAnchor : Reader V3FormatError V3AnchorState := do
  fixedArray 6
  let sequence ← readCount
  let commitKey ← readObjectId
  let bodyDigest ← readDigest
  let versionId ← readVersionId
  let signingKeyId ← readKeyId
  fixedArray 4
  let generation ← readCount
  let digest ← readDigest
  let objectId ← readObjectId
  let formatVersion ← readVersionId
  let anchor : V3AnchorState :=
    ⟨sequence, commitKey, bodyDigest, some versionId, signingKeyId,
      ⟨generation, Text.hexEncode digest.toList, objectId, some formatVersion⟩⟩
  validateAnchor anchor
  return anchor

def decodePoint : Reader V3FormatError RecoveryPoint := do
  fixedArray 4
  let anchor ← decodeAnchor
  let publishTimeMs ← read readI64
  let protectedUntilMs ← read readI64
  let policyId ← readDigest
  let point : RecoveryPoint := ⟨anchor, publishTimeMs, protectedUntilMs, policyId⟩
  validatePoint point
  return point

def decodePoints (maximum : ℕ) : Reader V3FormatError (List RecoveryPoint) := do
  let count ← boundedArray maximum
  let points ← Reader.many decodePoint count
  validatePoints points maximum
  return points

def decodeDelta : Reader V3FormatError RecoveryDelta := do
  fixedArray 3
  let register ← readNullable .invalidRecoveryHistory decodePoint
  let expireBeforeMs ← readNullable .invalidRecoveryHistory (read readI64)
  let rollTail ← readNullable .invalidRecoveryHistory readU32
  return ⟨register, expireBeforeMs, rollTail⟩

def decodeClaims : Reader V3FormatError RecoveryPageClaims := do
  fixedArray 5
  let recordCount ← readU32
  let firstSequence ← readCount
  let lastSequence ← readCount
  let minimumDeadlineMs ← read readI64
  let maximumDeadlineMs ← read readI64
  let claims : RecoveryPageClaims := ⟨recordCount, firstSequence, lastSequence, minimumDeadlineMs, maximumDeadlineMs⟩
  validateClaims claims
  return claims

/-- The two forms are told apart by the tag and the width together. -/
def decodeLocation : Reader V3FormatError RecoveryPageLocation := do
  let width ← read readArrayLen
  let tag ← read readU64
  if tag = 0 ∧ width = 2 then
    let pageIndex ← readU32
    return .thisSection pageIndex
  else if tag = 1 ∧ width = 4 then
    let anchor ← decodeAnchor
    let sectionOrdinal ← readU32
    let pageIndex ← readU32
    return .exact anchor sectionOrdinal pageIndex
  else liftM (.error .invalidRecoveryHistory : Except V3FormatError RecoveryPageLocation)

def decodePageRef : Reader V3FormatError RecoveryPageRef := do
  fixedArray 2
  let location ← decodeLocation
  let claims ← decodeClaims
  return ⟨location, claims⟩

def decodeSnapshot : Reader V3FormatError RecoverySnapshot := do
  fixedArray 3
  let count ← boundedArray maxRecoveryPages
  let pages ← Reader.many decodePageRef count
  let tail ← decodePoints maxRecoveryTailRecords
  let expireBeforeMs ← read readI64
  let snapshot : RecoverySnapshot := ⟨pages, tail, expireBeforeMs⟩
  validateSnapshot snapshot
  return snapshot

def decodePolicy : Reader V3FormatError RecoveryPolicy := do
  fixedArray 3
  let windowDays ← readU32
  let renewalMarginSeconds ← readU32
  let clockUncertaintyMs ← readU32
  RecoveryPolicy.new windowDays renewalMarginSeconds clockUncertaintyMs

def decodePage : Reader V3FormatError RecoveryPage := do
  let points ← decodePoints maxRecoveryPageRecords
  return ⟨points⟩

def decodeItems : Reader V3FormatError RecoverySection := do
  fixedArray 5
  let version ← read readU64
  ensure (version = wireVersion) invalidRecoveryHistory
  let currentPolicy ← decodePolicy
  let delta ← decodeDelta
  let snapshot ← readNullable .invalidRecoveryHistory decodeSnapshot
  let count ← boundedArray maxRecoveryPages
  let localPages ← Reader.many decodePage count
  return ⟨currentPolicy, delta, snapshot, localPages⟩

def RecoverySection.decode (bytes : Bytes) : Except V3FormatError RecoverySection := do
  capacity bytes.length maxRecoverySectionBytes
  let self ← Reader.whole decodeItems .invalidRecoveryHistory bytes
  self.validate
  return self

/-! ## The wire form -/

/-- The text of an optional version; only present ones are written. -/
def versionText (version : Option BackendVersionId) : String := (version.map BackendVersionId.asStr).getD ""

def anchorWire (anchor : V3AnchorState) : Bytes :=
  writeArrayLen 6 ++ (writeU64 anchor.sequence.get ++ (writeText anchor.commitKey.asStr ++
    (writeBytes anchor.bodyDigest.toList ++ (writeText (versionText anchor.versionId) ++
    (writeText anchor.signingKeyId.asStr ++ (writeArrayLen 4 ++ (writeU64 anchor.formatRef.generation.get ++
    (writeBytes ((Text.hexDecode anchor.formatRef.digest).getD []) ++ (writeText anchor.formatRef.objectId.asStr ++
    writeText (versionText anchor.formatRef.versionId))))))))))

def pointWire (point : RecoveryPoint) : Bytes :=
  writeArrayLen 4 ++ (anchorWire point.anchor ++ (writeI64 point.publishTimeMs ++
    (writeI64 point.protectedUntilMs ++ writeBytes point.policyId.toList)))

def pointsWire (points : List RecoveryPoint) : Bytes := writeArrayLen points.length ++ points.flatMap pointWire

def deltaWire (delta : RecoveryDelta) : Bytes :=
  writeArrayLen 3 ++ (writeNullable pointWire delta.register ++ (writeNullable writeI64 delta.expireBeforeMs ++
    writeNullable writeU64 delta.rollTail))

def claimsWire (claims : RecoveryPageClaims) : Bytes :=
  writeArrayLen 5 ++ (writeU64 claims.recordCount ++ (writeU64 claims.firstSequence.get ++
    (writeU64 claims.lastSequence.get ++ (writeI64 claims.minimumDeadlineMs ++ writeI64 claims.maximumDeadlineMs))))

def locationWire : RecoveryPageLocation → Bytes
  | .thisSection pageIndex => writeArrayLen 2 ++ (writeU64 0 ++ writeU64 pageIndex)
  | .exact anchor sectionOrdinal pageIndex =>
    writeArrayLen 4 ++ (writeU64 1 ++ (anchorWire anchor ++ (writeU64 sectionOrdinal ++ writeU64 pageIndex)))

def pageRefWire (reference : RecoveryPageRef) : Bytes :=
  writeArrayLen 2 ++ (locationWire reference.location ++ claimsWire reference.claims)

def snapshotWire (snapshot : RecoverySnapshot) : Bytes :=
  writeArrayLen 3 ++ (writeArrayLen snapshot.pages.length ++ (snapshot.pages.flatMap pageRefWire ++
    (pointsWire snapshot.tail ++ writeI64 snapshot.expireBeforeMs)))

def policyWire (policy : RecoveryPolicy) : Bytes :=
  writeArrayLen 3 ++ (writeU64 policy.windowDays ++ (writeU64 policy.renewalMarginSeconds ++
    writeU64 policy.clockUncertaintyMs))

def pageWire (page : RecoveryPage) : Bytes := pointsWire page.points

def RecoverySection.wire (self : RecoverySection) : Bytes :=
  writeArrayLen 5 ++ (writeU64 wireVersion ++ (policyWire self.currentPolicy ++ (deltaWire self.delta ++
    (writeNullable snapshotWire self.snapshot ++ (writeArrayLen self.localPages.length ++
    self.localPages.flatMap pageWire)))))

/-! ## What the encoder writes -/

/-- The optional parts that the encoder insists on. -/
def AnchorComplete (anchor : V3AnchorState) : Prop :=
  anchor.versionId.isSome = true ∧ (Text.hexDecode anchor.formatRef.digest).isSome = true ∧
    anchor.formatRef.versionId.isSome = true

def LocationComplete : RecoveryPageLocation → Prop
  | .thisSection _ => True
  | .exact anchor _ _ => AnchorComplete anchor

def PointsComplete (points : List RecoveryPoint) : Prop := ∀ point ∈ points, AnchorComplete point.anchor

def SnapshotComplete (snapshot : RecoverySnapshot) : Prop :=
  (∀ page ∈ snapshot.pages, LocationComplete page.location) ∧ PointsComplete snapshot.tail

def RecoverySection.Complete (self : RecoverySection) : Prop :=
  (∀ point, self.delta.register = some point → AnchorComplete point.anchor) ∧
    (∀ snapshot, self.snapshot = some snapshot → SnapshotComplete snapshot) ∧
    ∀ page ∈ self.localPages, PointsComplete page.points

section Encoder

/-- What a piece of the encoder writes. -/
abbrev Emits (w : SectionWriter) (valid : Prop) (wire : Bytes) : Prop := Writes maxRecoverySectionBytes w valid wire

theorem Emits.imp {w : SectionWriter} {valid valid' : Prop} {wire : Bytes} (h : Emits w valid wire)
    (hiff : valid ↔ valid') : Emits w valid' wire := by
  rw [← propext hiff]
  exact h

theorem item_emits (h : additional = bytes.length) : Emits (item additional bytes) True bytes := Writes.emit (by decide) h

theorem u64_emits (value : ℕ) : Emits (u64 value) True (writeU64 value) := item_emits (headLen_eq 0 value)

theorem array_emits (len : ℕ) : Emits (array len) True (writeArrayLen len) := item_emits (headLen_eq 4 len)

theorem i64_emits (value : Int) : Emits (i64 value) True (writeI64 value) := by
  refine item_emits ?_
  unfold writeI64
  split
  · exact headLen_eq 0 _
  · exact headLen_eq 1 _

theorem data_emits : Emits (data value) True (writeBytes value) := by
  refine item_emits ?_
  rw [writeBytes, length_append, headLen_eq 2, Nat.add_comm]

theorem text_emits (value : String) : Emits (text value) True (writeText value) := by
  refine item_emits ?_
  rw [writeText, length_append, length_utf8, headLen_eq 3, Nat.add_comm]

theorem null_emits : Emits null True writeNull := item_emits rfl

theorem encodeAnchor_emits : Emits (encodeAnchor anchor) (AnchorComplete anchor) (anchorWire anchor) := by
  have hformat := Writes.bind_some (e := invalidRecoveryHistory) (x := anchor.formatRef.versionId)
    fun version hversion => (by
      rw [hversion]
      exact text_emits version.asStr :
      Emits (text version.asStr) True (writeText (versionText anchor.formatRef.versionId)))
  have hdigest := Writes.bind_some (e := invalidRecoveryHistory)
    (x := Text.hexDecode anchor.formatRef.digest) fun digest hhex => (by
      rw [hhex]
      exact (data_emits).seq ((text_emits anchor.formatRef.objectId.asStr).seq hformat) :
      Emits _ _ (writeBytes ((Text.hexDecode anchor.formatRef.digest).getD []) ++ _))
  have hversion := Writes.bind_some (e := invalidRecoveryHistory) (x := anchor.versionId)
    fun version hversion => (by
      rw [hversion]
      exact (text_emits version.asStr).seq ((text_emits anchor.signingKeyId.asStr).seq ((array_emits 4).seq
        ((u64_emits anchor.formatRef.generation.get).seq hdigest))) :
      Emits _ _ (writeText (versionText anchor.versionId) ++ _))
  refine Emits.imp ((array_emits 6).seq ((u64_emits _).seq ((text_emits _).seq ((data_emits).seq hversion)))) ?_
  simp only [AnchorComplete, true_and, and_true]

theorem encodePoint_emits (point : RecoveryPoint) :
    Emits (encodePoint point) (AnchorComplete point.anchor) (pointWire point) := by
  refine Emits.imp ((array_emits 4).seq ((encodeAnchor_emits).seq ((i64_emits _).seq ((i64_emits _).seq
    (data_emits))))) ?_
  simp only [true_and, and_true]

theorem encodePoints_emits : Emits (encodePoints points) (PointsComplete points) (pointsWire points) := by
  refine Emits.imp ((array_emits _).seq (Writes.forM encodePoint_emits)) ?_
  simp only [true_and, PointsComplete]

theorem encodeOptional_emits {α : Type} {encode : α → SectionWriter} {valid : α → Prop} {wire : α → Bytes}
    (h : ∀ a, Emits (encode a) (valid a) (wire a)) (value : Option α) :
    Emits (encodeOptional encode value) (∀ a, value = some a → valid a) (writeNullable wire value) := by
  cases value with
  | none =>
    refine Emits.imp null_emits ?_
    simp only [reduceCtorEq, false_implies, implies_true]
  | some a =>
    refine Emits.imp (h a) ?_
    simp only [Option.some.injEq, forall_eq']

theorem encodeDelta_emits (delta : RecoveryDelta) :
    Emits (encodeDelta delta) (∀ point, delta.register = some point → AnchorComplete point.anchor)
      (deltaWire delta) := by
  refine Emits.imp ((array_emits 3).seq ((encodeOptional_emits encodePoint_emits _).seq
    ((encodeOptional_emits i64_emits _).seq (encodeOptional_emits u64_emits _)))) ?_
  simp only [implies_true, true_and, and_true]

theorem encodeClaims_emits : Emits (encodeClaims claims) True (claimsWire claims) := by
  refine Emits.imp ((array_emits 5).seq ((u64_emits _).seq ((u64_emits _).seq ((u64_emits _).seq ((i64_emits _).seq
    (i64_emits _)))))) ?_
  simp only [and_true]

theorem encodeLocation_emits : Emits (encodeLocation location) (LocationComplete location) (locationWire location) := by
  cases location with
  | thisSection pageIndex =>
    refine Emits.imp ((array_emits 2).seq ((u64_emits 0).seq (u64_emits pageIndex))) ?_
    simp only [and_true, LocationComplete]
  | exact anchor sectionOrdinal pageIndex =>
    refine Emits.imp ((array_emits 4).seq ((u64_emits 1).seq ((encodeAnchor_emits).seq
      ((u64_emits sectionOrdinal).seq (u64_emits pageIndex))))) ?_
    simp only [true_and, and_true, LocationComplete]

theorem encodePageRef_emits (reference : RecoveryPageRef) :
    Emits (encodePageRef reference) (LocationComplete reference.location) (pageRefWire reference) := by
  refine Emits.imp ((array_emits 2).seq ((encodeLocation_emits).seq (encodeClaims_emits))) ?_
  simp only [true_and, and_true]

theorem encodeSnapshot_emits (snapshot : RecoverySnapshot) :
    Emits (encodeSnapshot snapshot) (SnapshotComplete snapshot) (snapshotWire snapshot) := by
  refine Emits.imp ((array_emits 3).seq ((array_emits _).seq ((Writes.forM encodePageRef_emits).seq
    ((encodePoints_emits).seq (i64_emits _))))) ?_
  simp only [true_and, and_true, SnapshotComplete]

theorem encodePolicy_emits : Emits (encodePolicy policy) True (policyWire policy) := by
  refine Emits.imp ((array_emits 3).seq ((u64_emits _).seq ((u64_emits _).seq (u64_emits _)))) ?_
  simp only [and_true]

theorem encodeItems_emits (self : RecoverySection) : Emits (encodeItems self) self.Complete self.wire := by
  refine Emits.imp ((array_emits 5).seq ((u64_emits _).seq ((encodePolicy_emits).seq ((encodeDelta_emits _).seq
    ((encodeOptional_emits encodeSnapshot_emits _).seq ((array_emits _).seq
      (Writes.forM fun page : RecoveryPage => encodePoints_emits))))))) ?_
  simp only [true_and, RecoverySection.Complete]

theorem RecoverySection.encode_eq_ok {self : RecoverySection} {bytes : Bytes} :
    self.encode = .ok bytes ↔ self.validate = .ok () ∧ self.Complete ∧ bytes = self.wire ∧
      bytes.length ≤ maxRecoverySectionBytes := by
  have hitems := fun out => encodeItems_emits self [] out (Nat.zero_le _)
  simp only [nil_append] at hitems
  simp only [encode, ok_iff, Prod.exists]
  constructor
  · intro h
    obtain ⟨_, hvalid, _, out, hrun, rfl⟩ := h
    exact ⟨hvalid, (hitems out).mp hrun⟩
  · intro h
    exact ⟨(), h.1, (), bytes, (hitems bytes).mpr h.2, rfl⟩

end Encoder

/-! ## What the decoder accepts -/

/-- The values that the fixed-width fields of the source can hold. -/
def RecoveryPoint.Typed (point : RecoveryPoint) : Prop := fitsI64 point.publishTimeMs ∧ fitsI64 point.protectedUntilMs

def RecoveryPageClaims.Typed (claims : RecoveryPageClaims) : Prop :=
  fitsI64 claims.minimumDeadlineMs ∧ fitsI64 claims.maximumDeadlineMs

def RecoverySnapshot.Typed (snapshot : RecoverySnapshot) : Prop :=
  (∀ page ∈ snapshot.pages, page.claims.Typed) ∧ (∀ point ∈ snapshot.tail, point.Typed) ∧
    fitsI64 snapshot.expireBeforeMs

def RecoverySection.Typed (self : RecoverySection) : Prop :=
  (∀ point, self.delta.register = some point → point.Typed) ∧
    (∀ cutoff, self.delta.expireBeforeMs = some cutoff → fitsI64 cutoff) ∧
    (∀ snapshot, self.snapshot = some snapshot → snapshot.Typed) ∧
    ∀ page ∈ self.localPages, ∀ point ∈ page.points, point.Typed

section Decoder

theorem read_eq_ok {α : Type} {p : Reader CborError α} {a : α} :
    (read p).run input = .ok (a, rest) ↔ p.run input = .ok (a, rest) := Reader.mapError_eq_ok

variable {maximum : ℕ} {anchor : V3AnchorState}

theorem fixedArray_eq_ok (hn : n < 2 ^ 64) {u : Unit} :
    (fixedArray n).run input = .ok (u, rest) ↔ input = writeArrayLen n ++ rest := by
  simp only [fixedArray, Reader.ok_iff, read_eq_ok, readArrayLen_eq_ok, ensure_eq_ok]
  constructor
  · intro h
    obtain ⟨_, _, ⟨_, rfl⟩, rfl, rfl⟩ := h
    rfl
  · intro h
    exact ⟨n, rest, ⟨hn, h⟩, rfl, rfl⟩

theorem boundedArray_eq_ok (hmaximum : maximum < 2 ^ 64) :
    (boundedArray maximum).run input = .ok (n, rest) ↔ n ≤ maximum ∧ input = writeArrayLen n ++ rest := by
  simp only [boundedArray, capacity, Reader.ok_iff, read_eq_ok, readArrayLen_eq_ok, ensure_eq_ok]
  constructor
  · intro h
    obtain ⟨_, _, ⟨_, rfl⟩, _, _, ⟨hle, rfl⟩, rfl, rfl⟩ := h
    exact ⟨hle, rfl⟩
  · intro h
    exact ⟨n, rest, ⟨by omega, h.2⟩, (), rest, ⟨h.1, rfl⟩, rfl, rfl⟩

theorem readU32_eq_ok : readU32.run input = .ok (n, rest) ↔ n < 2 ^ 32 ∧ input = writeU64 n ++ rest := by
  simp only [readU32, Reader.ok_iff, read_eq_ok, readU64_eq_ok, okOr_eq_ok, tryFrom_eq_some]
  constructor
  · intro h
    obtain ⟨_, _, ⟨_, rfl⟩, ⟨hlt, rfl⟩, rfl⟩ := h
    exact ⟨hlt, rfl⟩
  · intro h
    exact ⟨n, rest, ⟨by omega, h.2⟩, ⟨h.1, rfl⟩, rfl⟩

theorem readCount_eq_ok : readCount.run input = .ok (value, rest) ↔ input = writeU64 value.get ++ rest := by
  simp only [readCount, Reader.ok_iff, read_eq_ok, readU64_eq_ok, okOr_eq_ok, U64.ofNat?_eq_some, existsAndEq, and_true,
    and_iff_right value.isLt]

theorem readDigest_eq_ok : readDigest.run input = .ok (value, rest) ↔ input = writeBytes value.toList ++ rest := by
  have hlen : value.toList.length = 32 := value.length_toList
  simp only [readDigest, Reader.ok_iff, read_eq_ok, readBytesBounded_eq_ok, okOr_eq_ok, exactly_eq_some, existsAndEq,
    and_true, hlen, le_refl, true_and]
  exact and_iff_right (by decide)

/-- A text that a reader with this bound accepts. -/
theorem bounded_lt {text : String} (hmaximum : maximum < 2 ^ 64) :
    (utf8 text).length ≤ maximum ∧ (utf8 text).length < 2 ^ 64 ↔ text.utf8ByteSize ≤ maximum := by
  rw [length_utf8]
  omega

theorem readObjectId_eq_ok {value : BackendObjectId} :
    readObjectId.run input = .ok (value, rest) ↔
      value.asStr.utf8ByteSize ≤ maxObjectIdBytes ∧ input = writeText value.asStr ++ rest := by
  simp only [readObjectId, Reader.ok_iff, read_eq_ok, readTextBounded_eq_ok, okOr_eq_ok, BackendObjectId.new?_eq_some,
    existsAndEq, and_true, bounded_lt (show maxObjectIdBytes < 2 ^ 64 by decide)]

theorem readVersionId_eq_ok {value : BackendVersionId} :
    readVersionId.run input = .ok (value, rest) ↔
      value.asStr.utf8ByteSize ≤ maxVersionIdBytes ∧ input = writeText value.asStr ++ rest := by
  simp only [readVersionId, Reader.ok_iff, read_eq_ok, readTextBounded_eq_ok, okOr_eq_ok, BackendVersionId.new?_eq_some,
    existsAndEq, and_true, bounded_lt (show maxVersionIdBytes < 2 ^ 64 by decide)]

theorem readKeyId_eq_ok {value : KeyId} :
    readKeyId.run input = .ok (value, rest) ↔
      value.asStr.utf8ByteSize ≤ maxKeyIdBytes ∧ input = writeText value.asStr ++ rest := by
  simp only [readKeyId, Reader.ok_iff, read_eq_ok, readTextBounded_eq_ok, okOr_eq_ok, KeyId.new?_eq_some, existsAndEq,
    and_true, bounded_lt (show maxKeyIdBytes < 2 ^ 64 by decide)]

/-- The shape and sizes of a validated anchor. -/
structure AnchorForm (anchor : V3AnchorState) (version formatVersion : BackendVersionId) (digest : Digest) : Prop where
  versionId : anchor.versionId = some version
  formatVersionId : anchor.formatRef.versionId = some formatVersion
  formatDigest : anchor.formatRef.digest = Text.hexEncode digest.toList
  commitKey : anchor.commitKey.asStr.utf8ByteSize ≤ maxObjectIdBytes
  signingKeyId : anchor.signingKeyId.asStr.utf8ByteSize ≤ maxKeyIdBytes
  versionLen : version.asStr.utf8ByteSize ≤ maxVersionIdBytes
  objectId : anchor.formatRef.objectId.asStr.utf8ByteSize ≤ maxObjectIdBytes
  formatVersionLen : formatVersion.asStr.utf8ByteSize ≤ maxVersionIdBytes

theorem boundedText_ok {text : String} (h : boundedText text maximum = .ok u) : text.utf8ByteSize ≤ maximum := by
  simp only [boundedText, capacity, ok_iff] at h
  exact h.2

theorem validateAnchor_form (h : validateAnchor anchor = .ok ()) :
    ∃ version formatVersion digest, AnchorForm anchor version formatVersion digest := by
  simp only [validateAnchor, ok_iff] at h
  obtain ⟨_, _, _, _, hcommit, _, hsigning, version, hversion, _, hversionLen, _, _, hobject, formatVersion,
    hformatVersion, _, hformatLen, _, digest, _, hlen, hhex⟩ := h
  obtain ⟨array, harray⟩ : ∃ array : Digest, exactly 32 digest = some array := by
    unfold exactly
    rw [dif_pos hlen]
    exact ⟨_, rfl⟩
  refine ⟨version, formatVersion, array, hversion, hformatVersion, ?_, boundedText_ok hcommit,
    boundedText_ok hsigning, boundedText_ok hversionLen, boundedText_ok hobject, boundedText_ok hformatLen⟩
  rw [← exactly_eq_some.mp harray]
  exact hhex.symm

theorem AnchorForm.complete (h : AnchorForm anchor version formatVersion digest) : AnchorComplete anchor := by
  unfold AnchorComplete
  rw [h.versionId, h.formatVersionId, h.formatDigest, Text.hexDecode_hexEncode]
  exact ⟨rfl, rfl, rfl⟩

theorem validateAnchor_complete (h : validateAnchor anchor = .ok ()) : AnchorComplete anchor := by
  obtain ⟨_, _, _, hform⟩ := validateAnchor_form h
  exact hform.complete

theorem decodeAnchor_reads : Reader.Reads decodeAnchor (fun anchor => validateAnchor anchor = .ok ()) anchorWire := by
  intro input anchor rest
  simp only [decodeAnchor, Reader.ok_iff, fixedArray_eq_ok (show 6 < 2 ^ 64 by decide), readCount_eq_ok,
    readObjectId_eq_ok, readDigest_eq_ok, readVersionId_eq_ok, readKeyId_eq_ok,
    fixedArray_eq_ok (show 4 < 2 ^ 64 by decide), existsAndEq, exists_const, true_and, and_true]
  constructor
  · rintro ⟨_, _, _, _, _, _, _, _, _, _, rfl, -, -, -, -, -, hvalid, rfl⟩
    refine ⟨hvalid, ?_⟩
    simp only [anchorWire, versionText, Option.map_some, Option.getD_some, Text.hexDecode_hexEncode, append_assoc]
  · rintro ⟨hvalid, rfl⟩
    obtain ⟨version, formatVersion, digest, hform⟩ := validateAnchor_form hvalid
    obtain ⟨sequence, commitKey, bodyDigest, versionId, signing, ⟨generation, hex, objectId, formatVersionId⟩⟩ := anchor
    obtain ⟨rfl, rfl, rfl, hcommit, hsigning, hversion, hobject, hformat⟩ := hform
    simp only [anchorWire, versionText, Option.map_some, Option.getD_some, Text.hexDecode_hexEncode, append_assoc]
    exact ⟨sequence, commitKey, bodyDigest, version, signing, generation, digest, objectId, formatVersion, (), rfl, hcommit,
      hversion, hsigning, hobject, hformat, hvalid, rfl⟩

theorem decodePoint_reads :
    Reader.Reads decodePoint (fun point => validatePoint point = .ok () ∧ point.Typed) pointWire := by
  intro input point rest
  obtain ⟨anchor, publishTimeMs, protectedUntilMs, policyId⟩ := point
  simp only [decodePoint, Reader.ok_iff, fixedArray_eq_ok (show 4 < 2 ^ 64 by decide), decodeAnchor_reads _ _ _,
    read_eq_ok, readI64_eq_ok, readDigest_eq_ok, RecoveryPoint.mk.injEq, existsAndEq, exists_const, true_and, and_true,
    pointWire, append_assoc]
  constructor
  · rintro ⟨_, rfl, -, hpublish, hprotected, hvalid⟩
    exact ⟨⟨hvalid, hpublish, hprotected⟩, rfl⟩
  · rintro ⟨⟨hvalid, hpublish, hprotected⟩, rfl⟩
    have hanchor : validateAnchor anchor = .ok () := by
      simp only [validatePoint, bind_eq_ok] at hvalid
      exact hvalid.choose_spec.1
    exact ⟨(), rfl, hanchor, hpublish, hprotected, hvalid⟩

theorem decodePoints_reads (hmaximum : maximum < 2 ^ 64) :
    Reader.Reads (decodePoints maximum)
      (fun points => validatePoints points maximum = .ok () ∧ ∀ point ∈ points, point.Typed) pointsWire := by
  intro input points rest
  simp only [decodePoints, Reader.ok_iff, boundedArray_eq_ok hmaximum, Reader.many_eq_ok decodePoint_reads]
  constructor
  · intro h
    obtain ⟨_, _, ⟨_, rfl⟩, _, _, ⟨rfl, hpoints, rfl⟩, _, _, ⟨hvalid, rfl⟩, rfl, rfl⟩ := h
    refine ⟨⟨hvalid, fun point hmem => (hpoints point hmem).2⟩, ?_⟩
    rw [pointsWire, append_assoc]
  · intro h
    obtain ⟨⟨hvalid, htyped⟩, rfl⟩ := h
    obtain ⟨hlen, hpoints⟩ := validatePoints_ok.mp hvalid
    rw [pointsWire, append_assoc]
    exact ⟨points.length, _, ⟨hlen, rfl⟩, points, _,
      ⟨rfl, fun point hmem => ⟨hpoints.each point hmem, htyped point hmem⟩, rfl⟩, (), _, ⟨hvalid, rfl⟩, rfl, rfl⟩

theorem decodePage_reads :
    Reader.Reads decodePage (fun page => validatePoints page.points maxRecoveryPageRecords = .ok () ∧
      ∀ point ∈ page.points, point.Typed) pageWire := by
  intro input page rest
  simp only [decodePage, Reader.ok_iff, decodePoints_reads (show maxRecoveryPageRecords < 2 ^ 64 by decide) _ _ _]
  constructor
  · intro h
    obtain ⟨_, _, hpoints, rfl, rfl⟩ := h
    exact hpoints
  · intro h
    exact ⟨page.points, rest, h, rfl, rfl⟩

theorem decodeClaims_reads :
    Reader.Reads decodeClaims (fun claims => validateClaims claims = .ok () ∧ claims.Typed) claimsWire := by
  intro input claims rest
  obtain ⟨recordCount, firstSequence, lastSequence, minimumDeadlineMs, maximumDeadlineMs⟩ := claims
  simp only [decodeClaims, Reader.ok_iff, fixedArray_eq_ok (show 5 < 2 ^ 64 by decide), readU32_eq_ok, readCount_eq_ok,
    read_eq_ok, readI64_eq_ok, RecoveryPageClaims.mk.injEq, existsAndEq, exists_const, true_and, and_true, claimsWire,
    append_assoc]
  constructor
  · rintro ⟨_, rfl, -, hminimum, hmaximum, hvalid⟩
    exact ⟨⟨hvalid, hminimum, hmaximum⟩, rfl⟩
  · rintro ⟨⟨hvalid, hminimum, hmaximum⟩, rfl⟩
    have hcount : recordCount ≤ maxRecoveryPageRecords := by
      simp only [validateClaims, capacity, bind_eq_ok, ensure_eq_ok] at hvalid
      exact hvalid.choose_spec.1
    have hsmall : maxRecoveryPageRecords < 2 ^ 32 := by decide
    exact ⟨(), rfl, by omega, hminimum, hmaximum, hvalid⟩

/-- What is checked of a location while it is read. -/
def LocationForm : RecoveryPageLocation → Prop
  | .thisSection pageIndex => pageIndex < 2 ^ 32
  | .exact anchor sectionOrdinal pageIndex =>
    validateAnchor anchor = .ok () ∧ sectionOrdinal < 2 ^ 32 ∧ pageIndex < 2 ^ 32

theorem decodeLocation_reads : Reader.Reads decodeLocation LocationForm locationWire := by
  intro input location rest
  simp only [decodeLocation, Reader.bind_eq_ok, read_eq_ok, readArrayLen_eq_ok, readU64_eq_ok]
  constructor
  · intro h
    obtain ⟨width, _, ⟨_, rfl⟩, tag, _, ⟨_, rfl⟩, h⟩ := h
    -- width and tag select the form together, any other pair is refused
    split_ifs at h with hhere hexact
    · obtain ⟨rfl, rfl⟩ := hhere
      simp only [Reader.ok_iff, readU32_eq_ok] at h
      obtain ⟨pageIndex, _, ⟨hindex, rfl⟩, rfl, rfl⟩ := h
      exact ⟨hindex, by simp only [locationWire, append_assoc]⟩
    · obtain ⟨rfl, rfl⟩ := hexact
      simp only [Reader.ok_iff, decodeAnchor_reads _ _ _, readU32_eq_ok] at h
      obtain ⟨anchor, _, ⟨hanchor, rfl⟩, ordinal, _, ⟨hordinal, rfl⟩, pageIndex, _, ⟨hindex, rfl⟩, rfl, rfl⟩ := h
      exact ⟨⟨hanchor, hordinal, hindex⟩, by simp only [locationWire, append_assoc]⟩
    · exact absurd (Reader.lift_eq_ok.mp h).1 (by simp only [reduceCtorEq, not_false_eq_true])
  · intro h
    obtain ⟨hform, rfl⟩ := h
    cases location with
    | thisSection pageIndex =>
      simp only [locationWire, append_assoc]
      refine ⟨2, _, ⟨by decide, rfl⟩, 0, _, ⟨by decide, rfl⟩, ?_⟩
      simp only [and_self, if_true, Reader.ok_iff, readU32_eq_ok]
      exact ⟨pageIndex, _, ⟨hform, rfl⟩, rfl, rfl⟩
    | exact anchor ordinal pageIndex =>
      obtain ⟨hanchor, hordinal, hindex⟩ := hform
      simp only [locationWire, append_assoc]
      refine ⟨4, _, ⟨by decide, rfl⟩, 1, _, ⟨by decide, rfl⟩, ?_⟩
      rw [if_neg (by decide), if_pos (by decide)]
      simp only [Reader.ok_iff, decodeAnchor_reads _ _ _, readU32_eq_ok]
      exact ⟨anchor, _, ⟨hanchor, rfl⟩, ordinal, _, ⟨hordinal, rfl⟩, pageIndex, _, ⟨hindex, rfl⟩, rfl, rfl⟩

/-- What is checked of a page reference while it is read. -/
def PageRefForm (reference : RecoveryPageRef) : Prop :=
  LocationForm reference.location ∧ validateClaims reference.claims = .ok () ∧ reference.claims.Typed

theorem decodePageRef_reads : Reader.Reads decodePageRef PageRefForm pageRefWire := by
  intro input reference rest
  obtain ⟨location, claims⟩ := reference
  simp only [decodePageRef, Reader.ok_iff, fixedArray_eq_ok (show 2 < 2 ^ 64 by decide), decodeLocation_reads _ _ _,
    decodeClaims_reads _ _ _]
  constructor
  · intro h
    obtain ⟨_, _, rfl, _, _, ⟨hlocation, rfl⟩, _, _, ⟨hclaims, rfl⟩, hreference, rfl⟩ := h
    cases hreference
    refine ⟨⟨hlocation, hclaims⟩, ?_⟩
    simp only [pageRefWire, append_assoc]
  · intro h
    obtain ⟨⟨hlocation, hclaims⟩, rfl⟩ := h
    simp only [pageRefWire, append_assoc]
    exact ⟨(), _, rfl, location, _, ⟨hlocation, rfl⟩, claims, _, ⟨hclaims, rfl⟩, rfl, rfl⟩

theorem PageRefValid.form {page : RecoveryPageRef} (h : PageRefValid page) (htyped : page.claims.Typed) :
    PageRefForm page := by
  refine ⟨?_, h.claims, htyped⟩
  have hlocation := h.location
  have hpages : maxRecoveryPages < 2 ^ 32 := by decide
  have hsections : maxCommitSections < 2 ^ 32 := by decide
  obtain ⟨location, claims⟩ := page
  cases location with
  | thisSection pageIndex =>
    simp only [validateLocation, capacity, ensure_eq_ok] at hlocation
    show pageIndex < 2 ^ 32
    omega
  | exact anchor sectionOrdinal pageIndex =>
    simp only [validateLocation, capacity, validateOrdinal, ok_iff] at hlocation
    obtain ⟨_, hanchor, hordinal, hindex, _⟩ := hlocation
    refine ⟨hanchor, ?_, ?_⟩ <;> omega

theorem decodeSnapshot_reads :
    Reader.Reads decodeSnapshot (fun snapshot => SnapshotValid snapshot ∧ snapshot.Typed) snapshotWire := by
  intro input snapshot rest
  obtain ⟨pages, tail, expireBeforeMs⟩ := snapshot
  simp only [decodeSnapshot, Reader.ok_iff, fixedArray_eq_ok (show 3 < 2 ^ 64 by decide),
    boundedArray_eq_ok (show maxRecoveryPages < 2 ^ 64 by decide), Reader.many_eq_ok decodePageRef_reads,
    decodePoints_reads (show maxRecoveryTailRecords < 2 ^ 64 by decide) _ _ _, read_eq_ok, readI64_eq_ok,
    validateSnapshot_ok, RecoverySnapshot.mk.injEq, existsAndEq, exists_const, true_and, and_true, snapshotWire,
    append_assoc]
  constructor
  · rintro ⟨rfl, -, hpages, ⟨-, htail⟩, hexpire, hvalid⟩
    exact ⟨⟨hvalid, fun page hmem => (hpages page hmem).2.2, htail, hexpire⟩, rfl⟩
  · rintro ⟨⟨hvalid, hpages, htail, hexpire⟩, rfl⟩
    exact ⟨rfl, hvalid.pagesLength, fun page hmem => (hvalid.pages page hmem).1.form (hpages page hmem),
      ⟨validatePoints_ok.mpr ⟨hvalid.tailLength, hvalid.tail⟩, htail⟩, hexpire, hvalid⟩

theorem nextIsNull_head (hmajor : major < 7) (len : ℕ) (more rest : Bytes) :
    nextIsNull ((writeTypeLen major len ++ more) ++ rest) = false := by
  rw [append_assoc]
  exact nextIsNull_writeTypeLen hmajor len

theorem nextIsNull_writeI64 (value : Int) (rest : Bytes) : nextIsNull (writeI64 value ++ rest) = false := by
  unfold writeI64
  split
  · exact nextIsNull_writeTypeLen (by decide) _
  · exact nextIsNull_writeTypeLen (by decide) _

theorem readCutoff_reads : Reader.Reads (read readI64) fitsI64 writeI64 := by
  intro input value rest
  rw [read_eq_ok]
  exact readI64_eq_ok

/-- What is checked of a transition while it is read. -/
structure DeltaForm (delta : RecoveryDelta) : Prop where
  register : ∀ point, delta.register = some point → validatePoint point = .ok () ∧ point.Typed
  expireBeforeMs : ∀ cutoff, delta.expireBeforeMs = some cutoff → fitsI64 cutoff
  rollTail : ∀ index, delta.rollTail = some index → index < 2 ^ 32

theorem decodeDelta_reads : Reader.Reads decodeDelta DeltaForm deltaWire := by
  intro input delta rest
  obtain ⟨register, expireBeforeMs, rollTail⟩ := delta
  have hpoint : ∀ (point : RecoveryPoint) rest, nextIsNull (pointWire point ++ rest) = false := fun _ rest =>
    nextIsNull_head (show (4 : UInt8) < 7 by decide) 4 _ rest
  have hindex : ∀ (index : ℕ) rest, nextIsNull (writeU64 index ++ rest) = false := fun index rest =>
    nextIsNull_writeTypeLen (by decide) index
  have hroll : Reader.Reads readU32 (fun index => index < 2 ^ 32) writeU64 := fun _ _ _ => readU32_eq_ok
  simp only [decodeDelta, Reader.ok_iff, fixedArray_eq_ok (show 3 < 2 ^ 64 by decide),
    readNullable_eq_ok decodePoint_reads hpoint, readNullable_eq_ok readCutoff_reads nextIsNull_writeI64,
    readNullable_eq_ok hroll hindex, RecoveryDelta.mk.injEq, existsAndEq, exists_const, and_true, deltaWire,
    append_assoc]
  constructor
  · rintro ⟨rfl, hregister, hexpire, hroll⟩
    exact ⟨⟨hregister, hexpire, hroll⟩, rfl⟩
  · rintro ⟨⟨hregister, hexpire, hroll⟩, rfl⟩
    exact ⟨rfl, hregister, hexpire, hroll⟩

theorem decodePolicy_reads : Reader.Reads decodePolicy (fun _ => True) policyWire := by
  intro input policy rest
  simp only [decodePolicy, Reader.ok_iff, fixedArray_eq_ok (show 3 < 2 ^ 64 by decide), readU32_eq_ok,
    RecoveryPolicy.new]
  constructor
  · intro h
    obtain ⟨_, _, rfl, _, _, ⟨_, rfl⟩, _, _, ⟨_, rfl⟩, _, _, ⟨_, rfl⟩, hnew, rfl⟩ := h
    split at hnew
    · cases hnew
      exact ⟨trivial, by simp only [policyWire, append_assoc]⟩
    · cases hnew
  · intro h
    obtain ⟨_, rfl⟩ := h
    have hvalid := policy.valid
    have hlimits : maxWindowDays < 2 ^ 32 ∧ maxMarginSeconds < 2 ^ 32 ∧ maxClockUncertaintyMs < 2 ^ 32 := by decide
    unfold policyValid at hvalid
    simp only [policyWire, append_assoc]
    refine ⟨(), _, rfl, policy.windowDays, _, ⟨by omega, rfl⟩, policy.renewalMarginSeconds, _, ⟨by omega, rfl⟩,
      policy.clockUncertaintyMs, _, ⟨by omega, rfl⟩, ?_, rfl⟩
    rw [dif_pos policy.valid]

/-- What is checked of a section while it is read. -/
structure SectionForm (content : RecoverySection) : Prop where
  delta : DeltaForm content.delta
  snapshot : ∀ snapshot, content.snapshot = some snapshot → SnapshotValid snapshot ∧ snapshot.Typed
  pagesLength : content.localPages.length ≤ maxRecoveryPages
  localPages : ∀ page ∈ content.localPages, validatePoints page.points maxRecoveryPageRecords = .ok () ∧
    ∀ point ∈ page.points, point.Typed

theorem decodeItems_reads : Reader.Reads decodeItems SectionForm wire := by
  intro input self rest
  obtain ⟨currentPolicy, delta, snapshot, localPages⟩ := self
  have hsnapshot : ∀ (snapshot : RecoverySnapshot) rest, nextIsNull (snapshotWire snapshot ++ rest) = false :=
    fun _ rest => nextIsNull_head (show (4 : UInt8) < 7 by decide) 3 _ rest
  simp only [decodeItems, Reader.ok_iff, fixedArray_eq_ok (show 5 < 2 ^ 64 by decide), read_eq_ok, readU64_eq_ok,
    ok_iff, decodePolicy_reads _ _ _, decodeDelta_reads _ _ _, readNullable_eq_ok decodeSnapshot_reads hsnapshot,
    boundedArray_eq_ok (show maxRecoveryPages < 2 ^ 64 by decide), Reader.many_eq_ok decodePage_reads, mk.injEq,
    existsAndEq, true_and, and_true, wire, append_assoc]
  constructor
  · rintro ⟨rfl, -, hdelta, hsnap, hlen, hpages⟩
    exact ⟨⟨hdelta, hsnap, hlen, hpages⟩, rfl⟩
  · rintro ⟨⟨hdelta, hsnap, hlen, hpages⟩, rfl⟩
    exact ⟨rfl, by decide, hdelta, hsnap, hlen, hpages⟩

theorem RecoverySection.decode_eq_ok :
    decode bytes = .ok self ↔ bytes.length ≤ maxRecoverySectionBytes ∧ SectionForm self ∧
      bytes = self.wire ∧ self.validate = .ok () := by
  have hitems : ∀ s : RecoverySection, decodeItems.run bytes = .ok (s, []) ↔ SectionForm s ∧ bytes = s.wire := by
    intro s
    rw [decodeItems_reads, append_nil]
  simp only [decode, capacity, ok_iff, Reader.whole_eq_ok, hitems]
  constructor
  · intro h
    obtain ⟨hlen, _, ⟨hform, hbytes⟩, _, hvalid, rfl⟩ := h
    exact ⟨hlen, hform, hbytes, hvalid⟩
  · intro h
    exact ⟨h.1, self, ⟨h.2.1, h.2.2.1⟩, (), h.2.2.2, rfl⟩

end Decoder

/-! ## Valid sections -/

theorem validatePoint_complete (h : validatePoint point = .ok ()) : AnchorComplete point.anchor := by
  simp only [validatePoint, bind_eq_ok] at h
  exact validateAnchor_complete h.choose_spec.1

theorem validateLocalPages_points (h : validateLocalPages previous pages = .ok u) :
    ∀ page ∈ pages, validatePoints page.points maxRecoveryPageRecords = .ok () := by
  induction pages generalizing previous with
  | nil => exact fun page hmem => absurd hmem not_mem_nil
  | cons page rest ih =>
    simp only [validateLocalPages, ok_iff] at h
    obtain ⟨claims, hclaims, _, hrest⟩ := h
    obtain ⟨hlen, hpoints, _⟩ := RecoveryPage.claims_ok.mp hclaims
    rw [forall_mem_cons]
    exact ⟨validatePoints_ok.mpr ⟨hlen, hpoints⟩, ih hrest⟩

/-- What the whole validation says of the parts. -/
structure PartsValid (content : RecoverySection) : Prop where
  pagesLength : content.localPages.length ≤ maxRecoveryPages
  register : ∀ point, content.delta.register = some point → validatePoint point = .ok ()
  rollTail : ∀ index, content.delta.rollTail = some index → index < content.localPages.length
  snapshot : ∀ snapshot, content.snapshot = some snapshot → SnapshotValid snapshot
  localPages : ∀ page ∈ content.localPages, validatePoints page.points maxRecoveryPageRecords = .ok ()

theorem RecoverySection.partsValid (self : RecoverySection) (h : self.validate = .ok ()) : PartsValid self := by
  simp only [validate, capacity, ok_iff] at h
  obtain ⟨hlen, _, _, hregister, _, hpages, used, hroll, _, hsnapshot, _⟩ := h
  refine ⟨hlen, ?_, ?_, ?_, validateLocalPages_points hpages⟩
  · intro point heq
    rw [heq] at hregister
    exact hregister
  · intro index heq
    simp only [useRoll, heq, page, ok_iff] at hroll
    obtain ⟨page, hpage, _⟩ := hroll
    exact (List.getElem?_eq_some_iff.mp hpage).1
  · intro snapshot heq
    simp only [useSnapshot, heq, bind_eq_ok, validateSnapshot_ok] at hsnapshot
    exact hsnapshot.choose_spec.1

variable {self : RecoverySection}

/-- A valid section of machine values passes every check of the decoder. -/
theorem PartsValid.form (h : PartsValid self) (htyped : self.Typed) : SectionForm self := by
  obtain ⟨hpoint, hcutoff, hsnap, hpoints⟩ := htyped
  refine ⟨⟨fun point heq => ⟨h.register point heq, hpoint point heq⟩, hcutoff, ?_⟩,
    fun snapshot heq => ⟨h.snapshot snapshot heq, hsnap snapshot heq⟩, h.pagesLength,
    fun page hmem => ⟨h.localPages page hmem, hpoints page hmem⟩⟩
  intro index heq
  have hsmall : maxRecoveryPages < 2 ^ 32 := by decide
  have hindex := h.rollTail index heq
  have hlen := h.pagesLength
  omega

theorem PageRefValid.complete (h : PageRefValid reference) : LocationComplete reference.location := by
  obtain ⟨location, claims⟩ := reference
  cases location with
  | thisSection pageIndex => exact trivial
  | exact anchor sectionOrdinal pageIndex =>
    have hlocation := h.location
    simp only [validateLocation, bind_eq_ok] at hlocation
    exact validateAnchor_complete hlocation.choose_spec.1

theorem PointsValid.complete (h : PointsValid points) : PointsComplete points :=
  fun point hmem => validatePoint_complete (h.each point hmem)

theorem PartsValid.complete (h : PartsValid self) : self.Complete := by
  refine ⟨fun point heq => validatePoint_complete (h.register point heq), ?_, ?_⟩
  · intro snapshot heq
    have hvalid := h.snapshot snapshot heq
    exact ⟨fun page hmem => (hvalid.pages page hmem).1.complete, hvalid.tail.complete⟩
  · intro page hmem
    exact (validatePoints_ok.mp (h.localPages page hmem)).2.complete

theorem SectionForm.typed (h : SectionForm self) : self.Typed :=
  ⟨fun point heq => (h.delta.register point heq).2, h.delta.expireBeforeMs,
    fun snapshot heq => (h.snapshot snapshot heq).2, fun page hmem => (h.localPages page hmem).2⟩

/-- **Recovery sections round-trip canonically.**  What is encoded decodes to the same section, and whatever bytes are
decoded are the encoding of the result.  `Typed` says that the times are 64-bit integers. -/
theorem recovery_sections_round_trip :
    (∀ (self : RecoverySection) (bytes : Bytes), self.Typed → self.encode = .ok bytes → decode bytes = .ok self) ∧
    ∀ (bytes : Bytes) (self : RecoverySection), decode bytes = .ok self → self.Typed ∧ self.encode = .ok bytes := by
  refine ⟨?_, ?_⟩
  · intro self bytes htyped hencode
    obtain ⟨hvalid, _, hwire, hlen⟩ := encode_eq_ok.mp hencode
    exact decode_eq_ok.mpr ⟨hlen, (self.partsValid hvalid).form htyped, hwire, hvalid⟩
  · intro bytes self hdecode
    obtain ⟨hlen, hform, hwire, hvalid⟩ := decode_eq_ok.mp hdecode
    exact ⟨hform.typed, encode_eq_ok.mpr ⟨hvalid, (self.partsValid hvalid).complete, hwire, hlen⟩⟩

end Rs3.Recovery
