/-
# Rs3.Repository.CommitObject — the bytes of a commit object.

`v3/commit.rs`: a fixed prefix, the canonical CBOR header with its signature, and the section region.  The header
here has every field of the source's; `Repository.V3CommitHeader` is the part of it that the other modules use.
-/
import Rs3.Repository.Commit
import Rs3.Repository.CommitKey
import Rs3.Lib.Cbor
import Rs3.Lib.Checked
import Mathlib.Tactic.Simproc.ExistsAndEq

namespace Rs3.CommitObject

open List hiding Vector
open V3FormatError

open Cbor
open Repository (V3CommitKind V3CommitSelfRef V3CommitParentRef V3KeyringEnvelopeRef V3CommitKey)

/-! ## Headers -/

inductive V3SectionType where
  | indexRun
  | indexRoot
  | payloadPack
  | recovery
  | unknown (value : UInt16)
  deriving DecidableEq, Repr

namespace V3SectionType

def toWire : V3SectionType → UInt16
  | indexRun => 0x0005
  | indexRoot => 0x0006
  | payloadPack => 0x0007
  | recovery => 0x0008
  | unknown value => value

def fromWire (value : UInt16) : V3SectionType :=
  if value = 0x0005 then indexRun
  else if value = 0x0006 then indexRoot
  else if value = 0x0007 then payloadPack
  else if value = 0x0008 then recovery
  else unknown value

def isSupported : V3SectionType → Bool
  | unknown _ => false
  | _ => true

end V3SectionType

def commitKindToWire : V3CommitKind → ℕ
  | .delta => 1
  | .root => 2

def commitKindFromWire (value : ℕ) : Except V3FormatError V3CommitKind :=
  if value = 1 then .ok .delta
  else if value = 2 then .ok .root
  else .error .invalidHeaderField

structure V3Algorithms where
  signature : String
  payloadAead : String
  indexAead : String
  digest : String
  kdf : String
  deriving DecidableEq

/-- The exact v03 primitive identifiers. -/
def V3Algorithms.v03 : V3Algorithms :=
  ⟨"Ed25519", "XChaCha20-Poly1305", "AES-256-GCM-SIV-Random-Nonce-v1", "SHA-256", "HMAC-SHA256"⟩

structure V3SectionDescriptor where
  sectionType : V3SectionType
  offset : U64
  length : U64
  flags : UInt8
  digest : Digest
  deriving DecidableEq

abbrev Signature := Vector UInt8 64

structure V3CommitHeader extends Repository.V3CommitHeader where
  algorithms : V3Algorithms
  sectionIndex : List V3SectionDescriptor
  signature : Signature
  publishTime_i64 : -2 ^ 63 ≤ publishTimeMs ∧ publishTimeMs < 2 ^ 63

/-! ## Encoding -/

inductive SignatureMode where
  | actual
  | zero
  deriving DecidableEq

def encodeSelfRef (selfRef : V3CommitSelfRef) : Bytes :=
  writeMapLen 2 ++ writeU64 1 ++ writeU64 selfRef.sequence.get ++ writeU64 2 ++ writeText selfRef.commitKey.asStr

def encodeParentRef (parent : V3CommitParentRef) : Bytes :=
  writeMapLen 4 ++ writeU64 1 ++ writeU64 parent.sequence.get ++ writeU64 2 ++ writeText parent.commitKey.asStr ++
    writeU64 3 ++ writeBytes parent.bodyDigest.toList ++ writeU64 4 ++
    writeNullable (fun versionId => writeBytes (utf8 versionId.asStr)) parent.versionId

def encodeAlgorithms (algorithms : V3Algorithms) : Bytes :=
  writeMapLen 5 ++ writeU64 1 ++ writeText algorithms.signature ++ writeU64 2 ++ writeText algorithms.payloadAead ++
    writeU64 3 ++ writeText algorithms.indexAead ++ writeU64 4 ++ writeText algorithms.digest ++
    writeU64 5 ++ writeText algorithms.kdf

def encodeKeyringRef (reference : V3KeyringEnvelopeRef) : Bytes :=
  writeMapLen 2 ++ writeU64 1 ++ writeText reference.objectId.asStr ++ writeU64 2 ++ writeBytes reference.digest.toList

def encodeSection (descriptor : V3SectionDescriptor) : Bytes :=
  writeMapLen 5 ++ writeU64 1 ++ writeU64 descriptor.sectionType.toWire.toNat ++ writeU64 2 ++
    writeU64 descriptor.offset.get ++ writeU64 3 ++ writeU64 descriptor.length.get ++ writeU64 4 ++
    writeU64 descriptor.flags.toNat ++ writeU64 5 ++ writeBytes descriptor.digest.toList

def encodeHeaderCbor (header : V3CommitHeader) (signatureMode : SignatureMode) : Bytes :=
  writeMapLen 10 ++ writeU64 1 ++ encodeSelfRef header.selfRef ++
    writeU64 2 ++ writeNullable encodeParentRef header.parent ++
    writeU64 3 ++ writeI64 header.publishTimeMs ++
    writeU64 4 ++ writeU64 (commitKindToWire header.kind) ++
    writeU64 5 ++ encodeAlgorithms header.algorithms ++
    writeU64 6 ++ encodeKeyringRef header.keyringEnvelopeRef ++
    writeU64 7 ++ writeArrayLen header.sectionIndex.length ++ header.sectionIndex.flatMap encodeSection ++
    writeU64 8 ++ writeBytes header.bodyDigest.toList ++
    writeU64 9 ++ (match signatureMode with
      | .actual => writeBytes header.signature.toList
      | .zero => writeBytes (List.replicate 64 0)) ++
    writeU64 10 ++ writeBytes (utf8 header.signingKeyId.asStr)

/-! ## Decoding -/

/-- `map_err(|_| MalformedCbor)`. -/
def malformed {α : Type} (p : Reader CborError α) : Reader V3FormatError α := p.mapError fun _ => .malformedCbor

def readCount : Reader V3FormatError U64 := do
  let value ← malformed readU64
  okOr (U64.ofNat? value) malformedCbor

def readObjectId : Reader V3FormatError BackendObjectId := do
  let value ← malformed readText
  okOr (BackendObjectId.new? value) typeValidation

def bytesToString (bytes : Bytes) : Except V3FormatError String := okOr (fromUtf8 bytes) .invalidHeaderField

def readVersionId : Reader V3FormatError BackendVersionId := do
  let bytes ← malformed readBytes
  let value ← bytesToString bytes
  okOr (BackendVersionId.new? value) typeValidation

def decodeKeyId : Reader V3FormatError KeyId := do
  let bytes ← malformed readBytes
  let value ← bytesToString bytes
  okOr (KeyId.new? value) typeValidation

/-- A byte string of exactly `n` bytes. -/
def decodeArray (n : ℕ) : Reader V3FormatError (Vector UInt8 n) := do
  let bytes ← malformed readBytes
  okOr (exactly n bytes) invalidHeaderField

def decodeDigest : Reader V3FormatError Digest := decodeArray 32

def decodeSignature : Reader V3FormatError Signature := decodeArray 64

/-- A map of exactly `len` fields with ascending keys. -/
def decodeMap {σ : Type} (len : ℕ) (field : ℕ → σ → Reader V3FormatError σ) (start : σ) : Reader V3FormatError σ := do
  let actual ← malformed readMapLen
  ensure (actual = len) missingHeaderField
  orderedFields .malformedCbor field len 0 start

/-- `ok_or(MissingHeaderField)`. -/
def present {α : Type} (value : Option α) : Except V3FormatError α := okOr value .missingHeaderField

structure PartialSelfRef where
  sequence : Option Sequence
  commitKey : Option BackendObjectId

def selfRefField (key : ℕ) (s : PartialSelfRef) : Reader V3FormatError PartialSelfRef :=
  match key with
  | 1 => do
    let sequence ← readCount
    return { s with sequence := some sequence }
  | 2 => do
    let commitKey ← readObjectId
    return { s with commitKey := some commitKey }
  | _ => throw .invalidHeaderField

def decodeSelfRef : Reader V3FormatError V3CommitSelfRef := do
  let s ← decodeMap 2 selfRefField ⟨none, none⟩
  let sequence ← present s.sequence
  let commitKey ← present s.commitKey
  return ⟨sequence, commitKey⟩

structure PartialParentRef where
  sequence : Option Sequence
  commitKey : Option BackendObjectId
  bodyDigest : Option Digest
  versionId : Option (Option BackendVersionId)

def parentRefField (key : ℕ) (s : PartialParentRef) : Reader V3FormatError PartialParentRef :=
  match key with
  | 1 => do
    let sequence ← readCount
    return { s with sequence := some sequence }
  | 2 => do
    let commitKey ← readObjectId
    return { s with commitKey := some commitKey }
  | 3 => do
    let bodyDigest ← decodeDigest
    return { s with bodyDigest := some bodyDigest }
  | 4 => do
    let versionId ← readNullable .malformedCbor readVersionId
    return { s with versionId := some versionId }
  | _ => throw .invalidHeaderField

def decodeParentRef : Reader V3FormatError V3CommitParentRef := do
  let s ← decodeMap 4 parentRefField ⟨none, none, none, none⟩
  let sequence ← present s.sequence
  let commitKey ← present s.commitKey
  let bodyDigest ← present s.bodyDigest
  let versionId ← present s.versionId
  return ⟨sequence, commitKey, bodyDigest, versionId⟩

structure PartialAlgorithms where
  signature : Option String
  payloadAead : Option String
  indexAead : Option String
  digest : Option String
  kdf : Option String

/-- The value of an algorithm field is read before its key is looked at. -/
def algorithmsField (key : ℕ) (s : PartialAlgorithms) : Reader V3FormatError PartialAlgorithms := do
  let value ← malformed readText
  match key with
  | 1 => return { s with signature := some value }
  | 2 => return { s with payloadAead := some value }
  | 3 => return { s with indexAead := some value }
  | 4 => return { s with digest := some value }
  | 5 => return { s with kdf := some value }
  | _ => throw .invalidHeaderField

def decodeAlgorithms : Reader V3FormatError V3Algorithms := do
  let s ← decodeMap 5 algorithmsField ⟨none, none, none, none, none⟩
  let signature ← present s.signature
  let payloadAead ← present s.payloadAead
  let indexAead ← present s.indexAead
  let digest ← present s.digest
  let kdf ← present s.kdf
  return ⟨signature, payloadAead, indexAead, digest, kdf⟩

structure PartialKeyringRef where
  objectId : Option BackendObjectId
  digest : Option Digest

def keyringRefField (key : ℕ) (s : PartialKeyringRef) : Reader V3FormatError PartialKeyringRef :=
  match key with
  | 1 => do
    let objectId ← readObjectId
    return { s with objectId := some objectId }
  | 2 => do
    let digest ← decodeDigest
    return { s with digest := some digest }
  | _ => throw .invalidHeaderField

def decodeKeyringRef : Reader V3FormatError V3KeyringEnvelopeRef := do
  let s ← decodeMap 2 keyringRefField ⟨none, none⟩
  let objectId ← present s.objectId
  let digest ← present s.digest
  return ⟨objectId, digest⟩

def readSectionType : Reader V3FormatError V3SectionType := do
  let value ← malformed readU64
  ensure (value < 2 ^ 16) invalidHeaderField
  return .fromWire (UInt16.ofNat value)

def readFlags : Reader V3FormatError UInt8 := do
  let value ← malformed readU64
  ensure (value < 2 ^ 8) invalidHeaderField
  return UInt8.ofNat value

structure PartialSection where
  sectionType : Option V3SectionType
  offset : Option U64
  length : Option U64
  flags : Option UInt8
  digest : Option Digest

def sectionField (key : ℕ) (s : PartialSection) : Reader V3FormatError PartialSection :=
  match key with
  | 1 => do
    let sectionType ← readSectionType
    return { s with sectionType := some sectionType }
  | 2 => do
    let offset ← readCount
    return { s with offset := some offset }
  | 3 => do
    let length ← readCount
    return { s with length := some length }
  | 4 => do
    let flags ← readFlags
    return { s with flags := some flags }
  | 5 => do
    let digest ← decodeDigest
    return { s with digest := some digest }
  | _ => throw .invalidHeaderField

def decodeSection : Reader V3FormatError V3SectionDescriptor := do
  let s ← decodeMap 5 sectionField ⟨none, none, none, none, none⟩
  let sectionType ← present s.sectionType
  let offset ← present s.offset
  let length ← present s.length
  let flags ← present s.flags
  let digest ← present s.digest
  return ⟨sectionType, offset, length, flags, digest⟩

/-- `V3_MAX_COMMIT_SECTIONS`. -/
def maxCommitSections : ℕ := 3

def decodeSections : Reader V3FormatError (List V3SectionDescriptor) := do
  let len ← malformed readArrayLen
  ensure (len ≤ maxCommitSections) invalidHeaderField
  Reader.many decodeSection len

def readKind : Reader V3FormatError V3CommitKind := do
  let value ← malformed readU64
  commitKindFromWire value

structure PartialHeader where
  selfRef : Option V3CommitSelfRef
  parent : Option (Option V3CommitParentRef)
  publishTimeMs : Option Int
  kind : Option V3CommitKind
  algorithms : Option V3Algorithms
  keyringEnvelopeRef : Option V3KeyringEnvelopeRef
  sectionIndex : Option (List V3SectionDescriptor)
  bodyDigest : Option Digest
  signature : Option Signature
  signingKeyId : Option KeyId

def headerField (key : ℕ) (s : PartialHeader) : Reader V3FormatError PartialHeader :=
  match key with
  | 1 => do
    let selfRef ← decodeSelfRef
    return { s with selfRef := some selfRef }
  | 2 => do
    let parent ← readNullable .malformedCbor decodeParentRef
    return { s with parent := some parent }
  | 3 => do
    let publishTimeMs ← malformed readI64
    return { s with publishTimeMs := some publishTimeMs }
  | 4 => do
    let kind ← readKind
    return { s with kind := some kind }
  | 5 => do
    let algorithms ← decodeAlgorithms
    return { s with algorithms := some algorithms }
  | 6 => do
    let keyringEnvelopeRef ← decodeKeyringRef
    return { s with keyringEnvelopeRef := some keyringEnvelopeRef }
  | 7 => do
    let sectionIndex ← decodeSections
    return { s with sectionIndex := some sectionIndex }
  | 8 => do
    let bodyDigest ← decodeDigest
    return { s with bodyDigest := some bodyDigest }
  | 9 => do
    let signature ← decodeSignature
    return { s with signature := some signature }
  | 10 => do
    let signingKeyId ← decodeKeyId
    return { s with signingKeyId := some signingKeyId }
  | _ => throw .invalidHeaderField

/-- The header of the fields, once all are there; a time read from the wire is in range. -/
def PartialHeader.finish (s : PartialHeader) : Except V3FormatError V3CommitHeader := do
  let selfRef ← present s.selfRef
  let parent ← present s.parent
  let publishTimeMs ← present s.publishTimeMs
  let kind ← present s.kind
  let algorithms ← present s.algorithms
  let keyringEnvelopeRef ← present s.keyringEnvelopeRef
  let sectionIndex ← present s.sectionIndex
  let bodyDigest ← present s.bodyDigest
  let signature ← present s.signature
  let signingKeyId ← present s.signingKeyId
  if h : -2 ^ 63 ≤ publishTimeMs ∧ publishTimeMs < 2 ^ 63 then
    return ⟨⟨selfRef, parent, publishTimeMs, kind, keyringEnvelopeRef, bodyDigest, signingKeyId⟩, algorithms,
      sectionIndex, signature, h⟩
  else .error .malformedCbor

def decodeHeaderCbor (input : Bytes) : Except V3FormatError V3CommitHeader := do
  let s ← Reader.whole (decodeMap 10 headerField ⟨none, none, none, none, none, none, none, none, none, none⟩)
    .malformedCbor input
  s.finish

/-! ## What the decoders accept -/

/-- A text whose length has a CBOR form. -/
def Fits (text : String) : Prop := (utf8 text).length < 2 ^ 64

section

variable {input rest : Bytes}

variable {α σ : Type} {n : ℕ} {s s' : PartialHeader} {header : V3CommitHeader}

theorem malformed_eq_ok : (malformed p).run input = .ok (a, rest) ↔ p.run input = .ok (a, rest) := Reader.mapError_eq_ok

theorem readCount_eq_ok : readCount.run input = .ok (value, rest) ↔ input = writeU64 value.get ++ rest := by
  simp only [readCount, Reader.ok_iff, malformed_eq_ok, readU64_eq_ok, okOr_eq_ok, U64.ofNat?_eq_some, existsAndEq,
    and_true, and_iff_right value.isLt]

theorem readObjectId_eq_ok :
    readObjectId.run input = .ok (value, rest) ↔ Fits value.asStr ∧ input = writeText value.asStr ++ rest := by
  simp only [readObjectId, Reader.ok_iff, malformed_eq_ok, readText_eq_ok, okOr_eq_ok, BackendObjectId.new?_eq_some,
    existsAndEq, and_true, Fits]

theorem readVersionId_reads : Reader.Reads readVersionId (fun value => Fits value.asStr)
    (fun value => writeBytes (utf8 value.asStr)) := by
  intro input value rest
  simp only [readVersionId, bytesToString, Reader.ok_iff, malformed_eq_ok, readBytes_eq_ok, okOr_eq_ok,
    fromUtf8_eq_some, BackendVersionId.new?_eq_some, existsAndEq, true_and, and_true, Fits]

theorem decodeKeyId_eq_ok :
    decodeKeyId.run input = .ok (value, rest) ↔ Fits value.asStr ∧ input = writeBytes (utf8 value.asStr) ++ rest := by
  simp only [decodeKeyId, bytesToString, Reader.ok_iff, malformed_eq_ok, readBytes_eq_ok, okOr_eq_ok, fromUtf8_eq_some,
    KeyId.new?_eq_some, existsAndEq, true_and, and_true, Fits]

theorem decodeArray_eq_ok (hn : n < 2 ^ 64) :
    (decodeArray n).run input = .ok (value, rest) ↔ input = writeBytes value.toList ++ rest := by
  have hlen : value.toList.length = n := value.length_toList
  simp only [decodeArray, Reader.ok_iff, malformed_eq_ok, readBytes_eq_ok, okOr_eq_ok, exactly_eq_some, existsAndEq,
    and_true, hlen, hn, true_and]

theorem decodeDigest_eq_ok : decodeDigest.run input = .ok (value, rest) ↔ input = writeBytes value.toList ++ rest :=
  decodeArray_eq_ok (by decide)

theorem decodeSignature_eq_ok :
    decodeSignature.run input = .ok (value, rest) ↔ input = writeBytes value.toList ++ rest :=
  decodeArray_eq_ok (by decide)

theorem decodeMap_eq_ok {len : ℕ} {field : ℕ → σ → Reader V3FormatError σ} {start s : σ}
    (hfield : FieldsUpTo len field) (hlen : len < 2 ^ 64) : (decodeMap len field start).run input = .ok (s, rest) ↔
      ∃ mid, input = writeMapLen len ++ mid ∧ InOrder field (List.range' 1 len) start mid s rest := by
  simp only [decodeMap, Reader.ok_iff, malformed_eq_ok, readMapLen_eq_ok, ok_iff, existsAndEq, true_and, hlen,
    orderedFields_eq_ok hfield hlen (Nat.zero_add len), Nat.zero_add]

theorem present_eq_ok : present value = .ok a ↔ value = some a := okOr_eq_ok

/-- A schema that fails on every key above `n`. -/
theorem fieldsUpTo_of_fails {field : ℕ → σ → Reader V3FormatError σ}
    (h : ∀ k s input r, (field (k + (n + 1)) s).run input ≠ .ok r) : FieldsUpTo n field := by
  intro key s input r hok
  by_contra hkey
  obtain ⟨k, rfl⟩ := Nat.exists_eq_add_of_le' (Nat.succ_le_of_lt (Nat.lt_of_not_le hkey))
  exact h k s input r hok

theorem selfRefField_upTo : FieldsUpTo 2 selfRefField := fieldsUpTo_of_fails fun _ _ _ _ h => nomatch h

theorem decodeSelfRef_eq_ok {value : V3CommitSelfRef} :
    decodeSelfRef.run input = .ok (value, rest) ↔ Fits value.commitKey.asStr ∧ input = encodeSelfRef value ++ rest := by
  obtain ⟨sequence, commitKey⟩ := value
  simp only [decodeSelfRef, Reader.ok_iff, decodeMap_eq_ok selfRefField_upTo (by decide),
    show List.range' 1 2 = [1, 2] from rfl, InOrder, selfRefField, readCount_eq_ok, readObjectId_eq_ok,
    present_eq_ok, existsAndEq, true_and, and_true, Option.some.injEq,
    V3CommitSelfRef.mk.injEq, encodeSelfRef, append_assoc]
  exact and_comm

theorem parentRefField_upTo : FieldsUpTo 4 parentRefField := fieldsUpTo_of_fails fun _ _ _ _ h => nomatch h

def ParentRefFits (parent : V3CommitParentRef) : Prop :=
  Fits parent.commitKey.asStr ∧ ∀ versionId, parent.versionId = some versionId → Fits versionId.asStr

theorem readOptionalVersionId_eq_ok :
    (readNullable .malformedCbor readVersionId).run input = .ok (value, rest) ↔
      (∀ versionId, value = some versionId → Fits versionId.asStr) ∧
      input = writeNullable (fun versionId => writeBytes (utf8 versionId.asStr)) value ++ rest := by
  refine readNullable_eq_ok readVersionId_reads fun versionId rest => ?_
  rw [writeBytes, append_assoc]
  exact nextIsNull_writeTypeLen (by decide) _

theorem decodeParentRef_reads : Reader.Reads decodeParentRef ParentRefFits encodeParentRef := by
  rintro input ⟨sequence, commitKey, bodyDigest, versionId⟩ rest
  simp only [decodeParentRef, Reader.ok_iff, decodeMap_eq_ok parentRefField_upTo (by decide),
    show List.range' 1 4 = [1, 2, 3, 4] from rfl, InOrder, parentRefField, readCount_eq_ok, readObjectId_eq_ok,
    decodeDigest_eq_ok, readOptionalVersionId_eq_ok, present_eq_ok, existsAndEq,
    true_and, and_true, Option.some.injEq, V3CommitParentRef.mk.injEq, encodeParentRef, append_assoc, ParentRefFits]
  exact and_comm

theorem algorithmsField_upTo : FieldsUpTo 5 algorithmsField := by
  refine fieldsUpTo_of_fails fun k s input r h => ?_
  obtain ⟨_, _, -, hthrow⟩ := Reader.bind_eq_ok.mp (h : _ = Except.ok (r.1, r.2))
  exact nomatch hthrow

def AlgorithmsFit (algorithms : V3Algorithms) : Prop :=
  Fits algorithms.signature ∧ Fits algorithms.payloadAead ∧ Fits algorithms.indexAead ∧ Fits algorithms.digest ∧
    Fits algorithms.kdf

theorem decodeAlgorithms_eq_ok :
    decodeAlgorithms.run input = .ok (value, rest) ↔ AlgorithmsFit value ∧ input = encodeAlgorithms value ++ rest := by
  obtain ⟨signature, payloadAead, indexAead, digest, kdf⟩ := value
  simp only [decodeAlgorithms, Reader.ok_iff, decodeMap_eq_ok algorithmsField_upTo (by decide),
    show List.range' 1 5 = [1, 2, 3, 4, 5] from rfl, InOrder, algorithmsField, malformed_eq_ok, readText_eq_ok,
    present_eq_ok, existsAndEq, true_and, and_true, Option.some.injEq,
    V3Algorithms.mk.injEq, encodeAlgorithms, append_assoc, AlgorithmsFit, Fits]
  exact and_comm

theorem keyringRefField_upTo : FieldsUpTo 2 keyringRefField := fieldsUpTo_of_fails fun _ _ _ _ h => nomatch h

theorem decodeKeyringRef_eq_ok :
    decodeKeyringRef.run input = .ok (value, rest) ↔
      Fits value.objectId.asStr ∧ input = encodeKeyringRef value ++ rest := by
  obtain ⟨objectId, digest⟩ := value
  simp only [decodeKeyringRef, Reader.ok_iff, decodeMap_eq_ok keyringRefField_upTo (by decide),
    show List.range' 1 2 = [1, 2] from rfl, InOrder, keyringRefField, readObjectId_eq_ok, decodeDigest_eq_ok,
    present_eq_ok, existsAndEq, true_and, and_true, Option.some.injEq,
    V3KeyringEnvelopeRef.mk.injEq, encodeKeyringRef, append_assoc]
  exact and_comm

/-- A section type that is not a known code in disguise. -/
def V3SectionType.Canonical (sectionType : V3SectionType) : Prop := fromWire sectionType.toWire = sectionType

theorem toWire_fromWire (value : UInt16) : (V3SectionType.fromWire value).toWire = value := by
  unfold V3SectionType.fromWire
  split_ifs with h5 h6 h7 h8 <;> simp [V3SectionType.toWire, *]

theorem readSectionType_eq_ok {value : V3SectionType} :
    readSectionType.run input = .ok (value, rest) ↔ value.Canonical ∧ input = writeU64 value.toWire.toNat ++ rest := by
  simp only [readSectionType, Reader.ok_iff, malformed_eq_ok, readU64_eq_ok, ok_iff, existsAndEq, and_true]
  constructor
  · rintro ⟨n, ⟨-, rfl⟩, hn, rfl⟩
    refine ⟨by rw [V3SectionType.Canonical, toWire_fromWire], ?_⟩
    rw [toWire_fromWire, UInt16.toNat_ofNat_of_lt' hn]
  · rintro ⟨hcanonical, rfl⟩
    have hlt : value.toWire.toNat < 2 ^ 16 := value.toWire.toNat_lt
    exact ⟨value.toWire.toNat, ⟨by omega, rfl⟩, hlt, by rwa [UInt16.ofNat_toNat]⟩

theorem readFlags_eq_ok : readFlags.run input = .ok (value, rest) ↔ input = writeU64 value.toNat ++ rest := by
  simp only [readFlags, Reader.ok_iff, malformed_eq_ok, readU64_eq_ok, ok_iff, existsAndEq, and_true]
  constructor
  · rintro ⟨n, ⟨-, rfl⟩, hn, rfl⟩
    rw [UInt8.toNat_ofNat_of_lt' hn]
  · rintro rfl
    have hlt : value.toNat < 2 ^ 8 := value.toNat_lt
    exact ⟨value.toNat, ⟨by omega, rfl⟩, hlt, UInt8.ofNat_toNat⟩

theorem sectionField_upTo : FieldsUpTo 5 sectionField := fieldsUpTo_of_fails fun _ _ _ _ h => nomatch h

theorem decodeSection_reads :
    Reader.Reads decodeSection (fun descriptor => descriptor.sectionType.Canonical) encodeSection := by
  rintro input ⟨sectionType, offset, length, flags, digest⟩ rest
  simp only [decodeSection, Reader.ok_iff, decodeMap_eq_ok sectionField_upTo (by decide),
    show List.range' 1 5 = [1, 2, 3, 4, 5] from rfl, InOrder, sectionField, readSectionType_eq_ok, readCount_eq_ok,
    readFlags_eq_ok, decodeDigest_eq_ok, present_eq_ok, existsAndEq, true_and,
    and_true, Option.some.injEq, V3SectionDescriptor.mk.injEq, encodeSection, append_assoc]
  exact and_comm

def SectionsFit (sectionIndex : List V3SectionDescriptor) : Prop :=
  sectionIndex.length ≤ maxCommitSections ∧ ∀ descriptor ∈ sectionIndex, descriptor.sectionType.Canonical

theorem decodeSections_eq_ok :
    decodeSections.run input = .ok (value, rest) ↔
      SectionsFit value ∧ input = writeArrayLen value.length ++ (value.flatMap encodeSection ++ rest) := by
  simp only [decodeSections, Reader.ok_iff, malformed_eq_ok, readArrayLen_eq_ok, ok_iff,
    Reader.many_eq_ok decodeSection_reads, existsAndEq, true_and, and_true, SectionsFit]
  constructor
  · rintro ⟨⟨-, rfl⟩, hlen, hvalid⟩
    exact ⟨⟨hlen, hvalid⟩, rfl⟩
  · rintro ⟨⟨hlen, hvalid⟩, rfl⟩
    exact ⟨⟨hlen.trans_lt (by decide), rfl⟩, hlen, hvalid⟩

theorem readKind_eq_ok :
    readKind.run input = .ok (value, rest) ↔ input = writeU64 (commitKindToWire value) ++ rest := by
  simp only [readKind, Reader.ok_iff, malformed_eq_ok, readU64_eq_ok, existsAndEq, and_true]
  constructor
  · rintro ⟨n, ⟨-, rfl⟩, hkind⟩
    unfold commitKindFromWire at hkind
    split_ifs at hkind with h1 h2
    · cases hkind
      rw [h1]
      rfl
    · cases hkind
      rw [h2]
      rfl
  · rintro rfl
    cases value <;> exact ⟨_, ⟨by decide, rfl⟩, rfl⟩

theorem headerField_upTo : FieldsUpTo 10 headerField := fieldsUpTo_of_fails fun _ _ _ _ h => nomatch h

theorem readOptionalParent_eq_ok :
    (readNullable .malformedCbor decodeParentRef).run input = .ok (value, rest) ↔
      (∀ parent, value = some parent → ParentRefFits parent) ∧ input = writeNullable encodeParentRef value ++ rest := by
  refine readNullable_eq_ok decodeParentRef_reads fun parent rest => ?_
  simp only [encodeParentRef, append_assoc]
  exact nextIsNull_writeTypeLen (by decide) _

/-- The texts of a header have CBOR forms, and its sections are few and canonical. -/
structure HeaderFits (header : V3CommitHeader) : Prop where
  selfRef : Fits header.selfRef.commitKey.asStr
  parent : ∀ parent, header.parent = some parent → ParentRefFits parent
  algorithms : AlgorithmsFit header.algorithms
  keyringEnvelopeRef : Fits header.keyringEnvelopeRef.objectId.asStr
  sectionIndex : SectionsFit header.sectionIndex
  signingKeyId : Fits header.signingKeyId.asStr

theorem PartialHeader.finish_eq_ok :
    s.finish = .ok header ↔ s = ⟨some header.selfRef, some header.parent, some header.publishTimeMs, some header.kind,
      some header.algorithms, some header.keyringEnvelopeRef, some header.sectionIndex, some header.bodyDigest,
      some header.signature, some header.signingKeyId⟩ := by
  obtain ⟨selfRef, parent, publishTimeMs, kind, algorithms, keyringEnvelopeRef, sectionIndex, bodyDigest, signature,
    signingKeyId⟩ := s
  simp only [finish, bind_eq_ok, present_eq_ok, PartialHeader.mk.injEq]
  constructor
  · rintro ⟨_, rfl, _, rfl, _, rfl, _, rfl, _, rfl, _, rfl, _, rfl, _, rfl, _, rfl, _, rfl, h⟩
    split at h
    · cases h
      simp
    · cases h
  · rintro ⟨rfl, rfl, rfl, rfl, rfl, rfl, rfl, rfl, rfl, rfl⟩
    refine ⟨_, rfl, _, rfl, _, rfl, _, rfl, _, rfl, _, rfl, _, rfl, _, rfl, _, rfl, _, rfl, ?_⟩
    rw [dif_pos header.publishTime_i64]
    rfl

theorem headerFields_first : InOrder headerField [1, 2, 3, 4, 5] s input s' rest ↔
      ∃ selfRef parent publishTimeMs kind algorithms, Fits selfRef.commitKey.asStr ∧
        (∀ p, parent = some p → ParentRefFits p) ∧ (-2 ^ 63 ≤ publishTimeMs ∧ publishTimeMs < 2 ^ 63) ∧
        AlgorithmsFit algorithms ∧
        s' = { s with
          selfRef := some selfRef, parent := some parent, publishTimeMs := some publishTimeMs, kind := some kind,
          algorithms := some algorithms } ∧
        input = writeU64 1 ++ (encodeSelfRef selfRef ++ (writeU64 2 ++ (writeNullable encodeParentRef parent ++
          (writeU64 3 ++ (writeI64 publishTimeMs ++ (writeU64 4 ++ (writeU64 (commitKindToWire kind) ++
          (writeU64 5 ++ (encodeAlgorithms algorithms ++ rest))))))))) := by
  simp only [InOrder, headerField, Reader.ok_iff, decodeSelfRef_eq_ok, readOptionalParent_eq_ok, malformed_eq_ok,
    readI64_eq_ok, readKind_eq_ok, decodeAlgorithms_eq_ok, existsAndEq, true_and, and_true]
  constructor
  · rintro ⟨algorithms, kind, publishTimeMs, parent, selfRef, rfl, h1, h2, h3, h5, rfl⟩
    exact ⟨selfRef, parent, publishTimeMs, kind, algorithms, h1, h2, h3, h5, rfl, rfl⟩
  · rintro ⟨selfRef, parent, publishTimeMs, kind, algorithms, h1, h2, h3, h5, rfl, rfl⟩
    exact ⟨algorithms, kind, publishTimeMs, parent, selfRef, rfl, h1, h2, h3, h5, rfl⟩

theorem headerFields_last : InOrder headerField [6, 7, 8, 9, 10] s input s' rest ↔
      ∃ keyringEnvelopeRef sectionIndex bodyDigest signature signingKeyId, Fits keyringEnvelopeRef.objectId.asStr ∧
        SectionsFit sectionIndex ∧ Fits signingKeyId.asStr ∧
        s' = { s with
          keyringEnvelopeRef := some keyringEnvelopeRef, sectionIndex := some sectionIndex,
          bodyDigest := some bodyDigest, signature := some signature, signingKeyId := some signingKeyId } ∧
        input = writeU64 6 ++ (encodeKeyringRef keyringEnvelopeRef ++ (writeU64 7 ++
          (writeArrayLen sectionIndex.length ++ (sectionIndex.flatMap encodeSection ++ (writeU64 8 ++
          (writeBytes bodyDigest.toList ++ (writeU64 9 ++ (writeBytes signature.toList ++ (writeU64 10 ++
          (writeBytes (utf8 signingKeyId.asStr) ++ rest)))))))))) := by
  simp only [InOrder, headerField, Reader.ok_iff, decodeKeyringRef_eq_ok, decodeSections_eq_ok, decodeDigest_eq_ok,
    decodeSignature_eq_ok, decodeKeyId_eq_ok, existsAndEq, true_and, and_true]
  constructor
  · rintro ⟨signingKeyId, signature, bodyDigest, sectionIndex, keyringEnvelopeRef, rfl, h6, h7, h10, rfl⟩
    exact ⟨keyringEnvelopeRef, sectionIndex, bodyDigest, signature, signingKeyId, h6, h7, h10, rfl, rfl⟩
  · rintro ⟨keyringEnvelopeRef, sectionIndex, bodyDigest, signature, signingKeyId, h6, h7, h10, rfl, rfl⟩
    exact ⟨signingKeyId, signature, bodyDigest, sectionIndex, keyringEnvelopeRef, rfl, h6, h7, h10, rfl⟩

theorem encodeHeaderCbor_actual (header : V3CommitHeader) :
    encodeHeaderCbor header .actual = writeMapLen 10 ++ (writeU64 1 ++ (encodeSelfRef header.selfRef ++ (writeU64 2 ++
      (writeNullable encodeParentRef header.parent ++ (writeU64 3 ++ (writeI64 header.publishTimeMs ++ (writeU64 4 ++
      (writeU64 (commitKindToWire header.kind) ++ (writeU64 5 ++ (encodeAlgorithms header.algorithms ++ (writeU64 6 ++
      (encodeKeyringRef header.keyringEnvelopeRef ++ (writeU64 7 ++ (writeArrayLen header.sectionIndex.length ++
      (header.sectionIndex.flatMap encodeSection ++ (writeU64 8 ++ (writeBytes header.bodyDigest.toList ++
      (writeU64 9 ++ (writeBytes header.signature.toList ++ (writeU64 10 ++
      (writeBytes (utf8 header.signingKeyId.asStr) ++ []))))))))))))))))))))) := by
  unfold encodeHeaderCbor
  simp only [append_assoc]
  simp only [append_nil]

/-- **The header decoder is exact**: it accepts the encoding of every header that fits, and nothing else. -/
theorem decodeHeaderCbor_eq_ok :
    decodeHeaderCbor input = .ok header ↔ HeaderFits header ∧ input = encodeHeaderCbor header .actual := by
  have hkeys : List.range' 1 10 = [1, 2, 3, 4, 5] ++ [6, 7, 8, 9, 10] := rfl
  unfold decodeHeaderCbor
  rw [bind_eq_ok, encodeHeaderCbor_actual]
  simp only [PartialHeader.finish_eq_ok, Reader.whole_eq_ok,
    decodeMap_eq_ok headerField_upTo (show 10 < 2 ^ 64 by decide), hkeys, inOrder_append]
  constructor
  · rintro ⟨_, ⟨_, hin, _, _, hfirst, hlast⟩, hfinish⟩
    obtain ⟨selfRef, parent, publishTimeMs, kind, algorithms, h1, h2, -, h5, rfl, hmid⟩ := headerFields_first.mp hfirst
    obtain ⟨keyringEnvelopeRef, sectionIndex, bodyDigest, signature, signingKeyId, h6, h7, h10, rfl, hmid'⟩ :=
      headerFields_last.mp hlast
    simp only [PartialHeader.mk.injEq, Option.some.injEq] at hfinish
    obtain ⟨rfl, rfl, rfl, rfl, rfl, rfl, rfl, rfl, rfl, rfl⟩ := hfinish
    exact ⟨⟨h1, h2, h5, h6, h7, h10⟩, by rw [hin, hmid, hmid']⟩
  · rintro ⟨⟨h1, h2, h5, h6, h7, h10⟩, hin⟩
    refine ⟨_, ⟨_, hin, ?_⟩, rfl⟩
    refine ⟨_, _, headerFields_first.mpr ⟨header.selfRef, header.parent, header.publishTimeMs, header.kind,
      header.algorithms, h1, h2, header.publishTime_i64, h5, rfl, rfl⟩, ?_⟩
    exact headerFields_last.mpr ⟨header.keyringEnvelopeRef, header.sectionIndex, header.bodyDigest, header.signature,
      header.signingKeyId, h6, h7, h10, rfl, rfl⟩

end

end Rs3.CommitObject
