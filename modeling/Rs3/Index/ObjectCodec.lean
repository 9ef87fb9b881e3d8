/-
# Rs3.Index.ObjectCodec — wire forms of ETags, checksums and completion receipts.

`etag.rs` and `checksum.rs` of `rs3-types` and the codec of `completion.rs` in `rs3-index`.  The source builds
these values only through checked constructors; `WellFormed` is what those check together with the range of each
machine field, and it is exactly what the decoders return.  A table of receipts is `Built` when it comes from the
operations of `CompletionReceipts`; every such table is a bounded snapshot that `fromSnapshot` takes back.
-/
import Rs3.Index.State
import Rs3.Lib.Cbor
import Rs3.Lib.Checked
import Rs3.Lib.Ascending
import Mathlib.Data.List.Nodup
import Mathlib.Tactic.Simproc.ExistsAndEq

namespace Rs3.Index

open List CompletionReceipt

open Cbor

/-! ## Paths -/

def LogicalPath.new? (value : String) : Option LogicalPath :=
  if h : validateNonEmpty value = true then some ⟨value, h⟩ else none

@[simp] theorem LogicalPath.new?_eq_some : LogicalPath.new? value = some x ↔ value = x.asStr := by
  cases x
  grind [LogicalPath.new?]

/-- An accepted text has at least one byte. -/
theorem utf8_ne_nil (h : validateNonEmpty text = true) : utf8 text ≠ [] := by
  intro hnil
  obtain rfl : text = "" := utf8_inj (hnil.trans (by decide))
  revert h
  decide

/-! ## Blind keys -/

variable {bytes : Bytes} {etag : ObjectEtag} {n : ℕ} {algorithm : ChecksumAlgorithm} {kind : ChecksumType}
  {s' : Snapshot}

theorem validateNonEmpty_hexEncode (h : bytes ≠ []) : validateNonEmpty (Text.hexEncode bytes) = true := by
  obtain ⟨byte, rest, rfl⟩ := exists_cons_of_ne_nil h
  have hdigit : ∀ n : Fin 16, isWhitespace (Text.hexDigit n) = false := by decide
  have hfirst := hdigit ⟨byte.toNat / 16, by have := byte.toNat_lt; omega⟩
  rw [validateNonEmpty, Text.hexEncode, String.toList_ofList, Text.hexChars, any_cons, hfirst]
  rfl

def BlindIndexKey.ofRaw (raw : Digest) : BlindIndexKey where
  asStr := Text.hexEncode raw.toList
  valid := validateNonEmpty_hexEncode fun h => absurd (congrArg List.length h) (by simp)

/-- `as_bytes`: the raw bytes behind the text. -/
def BlindIndexKey.raw (key : BlindIndexKey) : Bytes := (Text.hexDecode key.asStr).getD []

/-- A blind key of 32 raw bytes. -/
def BlindIndexKey.IsRaw (key : BlindIndexKey) : Prop := ∃ raw : Digest, key = .ofRaw raw

@[simp]
theorem BlindIndexKey.raw_ofRaw (raw : Digest) : (BlindIndexKey.ofRaw raw).raw = raw.toList := by
  rw [BlindIndexKey.raw, BlindIndexKey.ofRaw, Text.hexDecode_hexEncode, Option.getD_some]

theorem BlindIndexKey.IsRaw.length_raw {key : BlindIndexKey} (h : key.IsRaw) : key.raw.length = 32 := by
  obtain ⟨raw, rfl⟩ := h
  simp

/-! ## ETags -/

inductive ObjectEtagError where
  | invalidEncoding
  | invalidPartCount
  deriving DecidableEq, Repr

namespace ObjectEtag

def single (digest : Md5Digest) : ObjectEtag := ⟨digest, 0⟩

def multipart (digest : Md5Digest) (parts : ℕ) : Except ObjectEtagError ObjectEtag := do
  ensure (1 ≤ parts ∧ parts ≤ 10000) ObjectEtagError.invalidPartCount
  return ⟨digest, parts⟩

/-- What `single` and `multipart` build. -/
def WellFormed (etag : ObjectEtag) : Prop := etag.parts ≤ 10000

/-- Big-endian count, then the digest. -/
def encode (etag : ObjectEtag) : Bytes := toBe 4 etag.parts ++ etag.digest.toList

def decode (bytes : Bytes) : Except ObjectEtagError ObjectEtag := do
  ensure (bytes.length = 20) ObjectEtagError.invalidEncoding
  let parts := ofBe (bytes.take 4)
  let digest ← okOr (exactly 16 (bytes.drop 4)) .invalidEncoding
  if parts = 0 then return single digest else multipart digest parts

@[simp]
theorem length_encode (etag : ObjectEtag) : etag.encode.length = 20 := by simp [encode]

theorem decode_eq_ok : decode bytes = .ok etag ↔ etag.WellFormed ∧ bytes = etag.encode := by
  simp only [decode, ok_iff, exactly_eq_some]
  constructor
  · rintro ⟨hlen, digest, hdigest, h⟩
    have hcount : (bytes.take 4).length = 4 := length_take_of_le (by omega)
    have hbytes : bytes = toBe 4 (ofBe (bytes.take 4)) ++ digest.toList := by
      have hback := toBe_ofBe (bytes.take 4)
      rw [hcount] at hback
      rw [hback, ← hdigest, take_append_drop]
    split_ifs at h with hparts
    · obtain rfl := pure_eq_ok.mp h
      rw [hparts] at hbytes
      exact ⟨Nat.zero_le _, hbytes⟩
    · simp only [multipart, ok_iff] at h
      obtain ⟨hrange, rfl⟩ := h
      exact ⟨hrange.2, hbytes⟩
  · rintro ⟨hwf, rfl⟩
    have hwf' : etag.parts ≤ 10000 := hwf
    refine ⟨length_encode etag, etag.digest, by simp [encode], ?_⟩
    have hparts : ofBe (etag.encode.take 4) = etag.parts := by
      rw [encode, take_left' (length_toBe _ _), ofBe_toBe (by omega)]
    rw [hparts]
    split_ifs with hzero
    · rcases etag with ⟨digest, parts⟩
      obtain rfl : parts = 0 := hzero
      rfl
    · simp only [multipart, ok_iff]
      exact ⟨⟨by omega, hwf'⟩, trivial⟩

end ObjectEtag

/-! ## Checksums -/

inductive ChecksumError where
  | invalidEncoding
  | invalidDigestLength
  | invalidPartCount
  | unsupportedType
  deriving DecidableEq, Repr

namespace ChecksumAlgorithm

def digestLen : ChecksumAlgorithm → ℕ
  | crc32 | crc32c => 4
  | crc64Nvme => 8
  | sha1 => 20
  | sha256 => 32

def tag : ChecksumAlgorithm → ℕ
  | crc32 => 0
  | crc32c => 1
  | crc64Nvme => 2
  | sha1 => 3
  | sha256 => 4

def ofTag : ℕ → Except ChecksumError ChecksumAlgorithm
  | 0 => .ok crc32
  | 1 => .ok crc32c
  | 2 => .ok crc64Nvme
  | 3 => .ok sha1
  | 4 => .ok sha256
  | _ => .error .invalidEncoding

theorem ofTag_eq_ok : ofTag n = .ok algorithm ↔ n = algorithm.tag := by
  constructor
  · intro h
    unfold ofTag at h
    split at h <;> cases h <;> rfl
  · rintro rfl
    cases algorithm <;> rfl

theorem digestLen_le (algorithm : ChecksumAlgorithm) : algorithm.digestLen ≤ 32 := by
  cases algorithm <;> decide

theorem tag_le (algorithm : ChecksumAlgorithm) : algorithm.tag ≤ 4 := by
  cases algorithm <;> decide

end ChecksumAlgorithm

namespace ChecksumType

/-- Zero stands for a whole object. -/
def parts : ChecksumType → ℕ
  | fullObject => 0
  | composite parts => parts

def ofParts (n : ℕ) : Except ChecksumError ChecksumType :=
  if n = 0 then return fullObject
  else do
    let parts ← okOr (tryFrom 32 n) .invalidPartCount
    return composite parts

end ChecksumType

namespace ObjectChecksum

/-- `ObjectChecksum::new`. -/
def new (algorithm : ChecksumAlgorithm) (kind : ChecksumType) (digest : Bytes) :
    Except ChecksumError ObjectChecksum := do
  ensure (digest.length = algorithm.digestLen) ChecksumError.invalidDigestLength
  match kind with
  | .fullObject => return ⟨algorithm, kind, digest⟩
  | .composite parts => do
    ensure (1 ≤ parts ∧ parts ≤ 10000) ChecksumError.invalidPartCount
    ensure (algorithm ≠ .crc64Nvme) ChecksumError.unsupportedType
    return ⟨algorithm, kind, digest⟩

/-- What `new` builds. -/
def WellFormed (checksum : ObjectChecksum) : Prop :=
  checksum.digest.length = checksum.algorithm.digestLen ∧
    ∀ parts, checksum.kind = .composite parts → (1 ≤ parts ∧ parts ≤ 10000) ∧ checksum.algorithm ≠ .crc64Nvme

variable {checksum : ObjectChecksum}

theorem new_eq_ok {digest : Bytes} :
    new algorithm kind digest = .ok checksum ↔ checksum.WellFormed ∧ checksum = ⟨algorithm, kind, digest⟩ := by
  simp only [new, ok_iff, WellFormed]
  cases kind with
  | fullObject =>
    simp only [pure_eq_ok]
    constructor
    · rintro ⟨hlen, rfl⟩
      exact ⟨⟨hlen, fun _ h => by cases h⟩, rfl⟩
    · rintro ⟨⟨hlen, -⟩, rfl⟩
      exact ⟨hlen, rfl⟩
  | composite parts =>
    simp only [ok_iff]
    constructor
    · rintro ⟨hlen, hparts, halgorithm, rfl⟩
      exact ⟨⟨hlen, fun _ h => by cases h; exact ⟨hparts, halgorithm⟩⟩, rfl⟩
    · rintro ⟨⟨hlen, hkind⟩, rfl⟩
      obtain ⟨hparts, halgorithm⟩ := hkind parts rfl
      exact ⟨hlen, hparts, halgorithm, rfl⟩

/-- `MAX_ENCODED_BYTES`. -/
def maxEncodedBytes : ℕ := 48

def encode (checksum : ObjectChecksum) : Bytes :=
  writeArrayLen 3 ++ (writeU64 checksum.algorithm.tag ++ (writeU64 checksum.kind.parts ++ writeBytes checksum.digest))

/-- The fields of a checksum, before `new` checks them together. -/
def decodeFields : Reader ChecksumError (ChecksumAlgorithm × ChecksumType × Bytes) := do
  let len ← readArrayLen.mapError fun _ => ChecksumError.invalidEncoding
  ensure (len = 3) ChecksumError.invalidEncoding
  let tag ← readU64.mapError fun _ => ChecksumError.invalidEncoding
  let algorithm ← ChecksumAlgorithm.ofTag tag
  let parts ← readU64.mapError fun _ => ChecksumError.invalidEncoding
  let kind ← ChecksumType.ofParts parts
  let digest ← (readBytesBounded algorithm.digestLen).mapError fun _ => ChecksumError.invalidEncoding
  return (algorithm, kind, digest)

def decode (bytes : Bytes) : Except ChecksumError ObjectChecksum := do
  ensure (bytes.length ≤ maxEncodedBytes) ChecksumError.invalidEncoding
  let fields ← Reader.whole decodeFields ChecksumError.invalidEncoding bytes
  new fields.1 fields.2.1 fields.2.2

theorem parts_lt (h : checksum.WellFormed) : checksum.kind.parts ≤ 10000 := by
  rcases hkind : checksum.kind with _ | parts
  · exact Nat.zero_le _
  · exact (h.2 parts hkind).1.2

theorem ofParts_parts (h : checksum.WellFormed) : ChecksumType.ofParts checksum.kind.parts = .ok checksum.kind := by
  rcases hkind : checksum.kind with _ | parts
  · rfl
  · obtain ⟨⟨hpos, hle⟩, -⟩ := h.2 parts hkind
    have hzero : parts ≠ 0 := by omega
    have hfits : tryFrom 32 parts = some parts := tryFrom_eq_some.mpr ⟨by omega, rfl⟩
    rw [ChecksumType.parts, ChecksumType.ofParts, if_neg hzero, hfits]
    rfl

theorem parts_ofParts (h : ChecksumType.ofParts n = .ok kind) : n = kind.parts := by
  unfold ChecksumType.ofParts at h
  split_ifs at h with hzero
  · obtain rfl := pure_eq_ok.mp h
    exact hzero
  · simp only [ok_iff, tryFrom_eq_some] at h
    obtain ⟨_, ⟨-, rfl⟩, rfl⟩ := h
    rfl

theorem length_encode_le (h : checksum.WellFormed) : checksum.encode.length ≤ maxEncodedBytes := by
  have hparts := parts_lt h
  have htag := checksum.algorithm.tag_le
  have hdigest := checksum.algorithm.digestLen_le
  rw [← h.1] at hdigest
  have h1 := length_writeTypeLen_le_three 4 3 (by decide)
  have h2 := length_writeTypeLen_le_three 0 checksum.algorithm.tag (by omega)
  have h3 := length_writeTypeLen_le_three 0 checksum.kind.parts (by omega)
  have h4 := length_writeTypeLen_le_three 2 checksum.digest.length (by omega)
  simp only [encode, writeArrayLen, writeU64, writeBytes, length_append, maxEncodedBytes]
  omega

theorem decode_eq_ok : decode bytes = .ok checksum ↔ checksum.WellFormed ∧ bytes = checksum.encode := by
  simp only [decode, ok_iff, Reader.whole_eq_ok, new_eq_ok, Prod.exists, decodeFields, Reader.ok_iff,
    Reader.mapError_eq_ok, readArrayLen_eq_ok, readU64_eq_ok, ChecksumAlgorithm.ofTag_eq_ok, readBytesBounded_eq_ok,
    Prod.mk.injEq]
  constructor
  · rintro ⟨-, algorithm, kind, digest, ⟨len, mid, ⟨-, rfl⟩, _, ⟨rfl, rfl⟩, tag, mid', ⟨-, rfl⟩, _, _, ⟨rfl, rfl⟩,
      parts, mid'', ⟨-, rfl⟩, _, _, ⟨hkind, rfl⟩, _, _, ⟨-, rfl⟩, ⟨rfl, rfl, rfl⟩, rfl⟩, hwf, rfl⟩
    refine ⟨hwf, ?_⟩
    rw [parts_ofParts hkind, encode, append_nil]
  · rintro ⟨hwf, rfl⟩
    have hparts := parts_lt hwf
    have htag := checksum.algorithm.tag_le
    have hdigest := checksum.algorithm.digestLen_le
    rw [← hwf.1] at hdigest
    refine ⟨length_encode_le hwf, checksum.algorithm, checksum.kind, checksum.digest, ?_, hwf, rfl⟩
    exact ⟨3, _, ⟨by decide, rfl⟩, _, ⟨rfl, rfl⟩, checksum.algorithm.tag, _, ⟨by omega, rfl⟩, checksum.algorithm, _,
      ⟨rfl, rfl⟩, checksum.kind.parts, _, ⟨by omega, rfl⟩, checksum.kind, _, ⟨ofParts_parts hwf, rfl⟩, checksum.digest, [],
      ⟨⟨hwf.1.le, by omega⟩, (append_nil _).symm⟩, ⟨rfl, rfl, rfl⟩, rfl⟩

end ObjectChecksum

/-! ## Completion receipts -/

/-- The one error of `completion.rs`. -/
inductive CompletionReceiptError where
  | invalid
  deriving DecidableEq, Repr

/-- `MAX_COMPLETION_RECEIPT_BYTES`. -/
def maxCompletionReceiptBytes : ℕ := 2048

namespace CompletionReceipt

/-- What the machine types and the constructors of the fields guarantee. -/
structure WellFormed (receipt : CompletionReceipt) : Prop where
  contentLen_lt : receipt.contentLen < 2 ^ 64
  etag : receipt.etag.WellFormed
  checksum : ∀ checksum, receipt.checksum = some checksum → checksum.WellFormed

/-- The canonical array of eight fields. -/
def encodeFields (receipt : CompletionReceipt) : Bytes :=
  writeArrayLen 8 ++ (writeBytes receipt.uploadId.toList ++ (writeU64 receipt.commitSequence.get ++
    (writeBytes receipt.selectionDigest.toList ++ (writeBytes receipt.attemptsDigest.toList ++
      (writeText receipt.key.asStr ++ (writeU64 receipt.contentLen ++ (writeBytes receipt.etag.encode ++
        writeNullable (fun checksum => writeBytes checksum.encode) receipt.checksum)))))))

def encode (receipt : CompletionReceipt) : Except CompletionReceiptError Bytes := do
  ensure (receipt.validate = true) .invalid
  let out := receipt.encodeFields
  ensure (out.length ≤ maxCompletionReceiptBytes) .invalid
  return out

def readArray32 : Reader CborError Digest := do
  let bytes ← readBytesBounded 32
  okOr (exactly 32 bytes) CborError.invalid

def readSequence : Reader CborError Sequence := do
  let value ← readU64
  okOr (U64.ofNat? value) CborError.invalid

def readKey : Reader CborError LogicalPath := do
  let value ← readTextBounded 1024
  okOr (LogicalPath.new? value) CborError.invalid

def readEtag : Reader CborError ObjectEtag := do
  let bytes ← readBytesBounded 20
  (ObjectEtag.decode bytes).mapError fun _ => CborError.invalid

def readChecksum : Reader CborError ObjectChecksum := do
  let bytes ← readBytesBounded ObjectChecksum.maxEncodedBytes
  (ObjectChecksum.decode bytes).mapError fun _ => CborError.invalid

def decodeFields : Reader CborError CompletionReceipt := do
  let len ← readArrayLen
  ensure (len = 8) CborError.invalid
  let uploadId ← readArray32
  let commitSequence ← readSequence
  let selectionDigest ← readArray32
  let attemptsDigest ← readArray32
  let key ← readKey
  let contentLen ← readU64
  let etag ← readEtag
  let checksum ← readNullable .invalid readChecksum
  return ⟨uploadId, commitSequence, selectionDigest, attemptsDigest, key, contentLen, etag, checksum⟩

def decode (input : Bytes) : Except CompletionReceiptError CompletionReceipt := do
  ensure (input.length ≤ maxCompletionReceiptBytes) .invalid
  let receipt ← (Reader.whole decodeFields .invalid input).mapError fun _ => .invalid
  ensure (receipt.validate = true) .invalid
  return receipt

section

variable {input rest : Bytes}

theorem readArray32_eq_ok : readArray32.run input = .ok (digest, rest) ↔ input = writeBytes digest.toList ++ rest := by
  simp only [readArray32, Reader.ok_iff, readBytesBounded_eq_ok, okOr_eq_ok, exactly_eq_some, Reader.exists_converted]
  exact and_iff_right (by simp)

theorem readSequence_eq_ok {sequence : Sequence} :
    readSequence.run input = .ok (sequence, rest) ↔ input = writeU64 sequence.get ++ rest := by
  simp only [readSequence, Reader.ok_iff, readU64_eq_ok, okOr_eq_ok, U64.ofNat?_eq_some, Reader.exists_converted]
  exact and_iff_right sequence.isLt

theorem readKey_eq_ok {key : LogicalPath} : readKey.run input = .ok (key, rest) ↔
    (utf8 key.asStr).length ≤ 1024 ∧ input = writeText key.asStr ++ rest := by
  simp only [readKey, Reader.ok_iff, readTextBounded_eq_ok, okOr_eq_ok, LogicalPath.new?_eq_some,
    Reader.exists_converted]
  exact and_congr_left' (and_iff_left_of_imp fun hlen => by omega)

theorem readEtag_eq_ok : readEtag.run input = .ok (etag, rest) ↔
    etag.WellFormed ∧ input = writeBytes etag.encode ++ rest := by
  simp only [readEtag, Reader.ok_iff, readBytesBounded_eq_ok, mapError_eq_ok, ObjectEtag.decode_eq_ok]
  constructor
  · rintro ⟨_, _, ⟨-, rfl⟩, ⟨hwf, rfl⟩, rfl⟩
    exact ⟨hwf, rfl⟩
  · rintro ⟨hwf, rfl⟩
    exact ⟨_, rest, ⟨by simp, rfl⟩, ⟨hwf, rfl⟩, rfl⟩

theorem readChecksum_reads : Reader.Reads readChecksum ObjectChecksum.WellFormed fun checksum =>
    writeBytes checksum.encode := by
  intro input checksum rest
  simp only [readChecksum, Reader.ok_iff, readBytesBounded_eq_ok, mapError_eq_ok, ObjectChecksum.decode_eq_ok]
  constructor
  · rintro ⟨_, _, ⟨-, rfl⟩, ⟨hwf, rfl⟩, rfl⟩
    exact ⟨hwf, rfl⟩
  · rintro ⟨hwf, rfl⟩
    have hlen := ObjectChecksum.length_encode_le hwf
    exact ⟨_, rest, ⟨⟨hlen, hlen.trans_lt (by decide)⟩, rfl⟩, ⟨hwf, rfl⟩, rfl⟩

theorem readOptionalChecksum_eq_ok {checksum : Option ObjectChecksum} :
    (readNullable .invalid readChecksum).run input = .ok (checksum, rest) ↔
      (∀ value, checksum = some value → value.WellFormed) ∧
        input = writeNullable (fun value => writeBytes value.encode) checksum ++ rest := by
  refine readNullable_eq_ok readChecksum_reads fun value rest => ?_
  rw [writeBytes, append_assoc]
  exact nextIsNull_writeTypeLen (by decide) _

theorem decodeFields_eq_ok : decodeFields.run input = .ok (receipt, rest) ↔
    (receipt.WellFormed ∧ (utf8 receipt.key.asStr).length ≤ 1024) ∧ input = receipt.encodeFields ++ rest := by
  cases receipt
  simp only [decodeFields, Reader.ok_iff, readArrayLen_eq_ok, ok_iff, readArray32_eq_ok, readSequence_eq_ok,
    readKey_eq_ok, readU64_eq_ok, readEtag_eq_ok, readOptionalChecksum_eq_ok, encodeFields, append_assoc, mk.injEq,
    existsAndEq, true_and, and_true]
  constructor
  · rintro ⟨⟨-, rfl⟩, hkey, hcontent, hetag, hchecksum⟩
    exact ⟨⟨⟨hcontent, hetag, hchecksum⟩, hkey⟩, rfl⟩
  · rintro ⟨⟨⟨hcontent, hetag, hchecksum⟩, hkey⟩, rfl⟩
    exact ⟨⟨by decide, rfl⟩, hkey, hcontent, hetag, hchecksum⟩

end

variable {receipt : CompletionReceipt}

theorem key_le_of_validate (h : receipt.validate = true) : (utf8 receipt.key.asStr).length ≤ 1024 := by
  unfold validate at h
  split at h
  · cases h
  · simp only [Bool.and_eq_true, decide_eq_true_eq] at h
    rw [length_utf8]
    exact h.1.2

/-- A receipt that passes its check stays far below the encoded ceiling. -/
theorem length_encodeFields_le (hwf : receipt.WellFormed)
    (hvalid : receipt.validate = true) : receipt.encodeFields.length ≤ 1280 := by
  have hkey := key_le_of_validate hvalid
  have hchecksum : (writeNullable (fun checksum => writeBytes checksum.encode) receipt.checksum).length ≤ 57 := by
    rcases hvalue : receipt.checksum with _ | checksum
    · decide
    · have hlen := ObjectChecksum.length_encode_le (hwf.checksum checksum hvalue)
      have hhead := length_writeTypeLen_le 2 checksum.encode.length
      simp only [writeNullable, writeBytes, length_append, ObjectChecksum.maxEncodedBytes] at hlen ⊢
      omega
  have h0 := length_writeTypeLen_le 4 8
  have h1 := length_writeTypeLen_le 2 32
  have h2 := length_writeTypeLen_le 0 receipt.commitSequence.get
  have h3 := length_writeTypeLen_le 3 (utf8 receipt.key.asStr).length
  have h4 := length_writeTypeLen_le 0 receipt.contentLen
  have h5 := length_writeTypeLen_le 2 20
  simp only [encodeFields, writeArrayLen, writeBytes, writeU64, writeText, length_append, Vector.length_toList,
    ObjectEtag.length_encode] at hchecksum ⊢
  omega

theorem encode_eq_ok (hwf : receipt.WellFormed) :
    receipt.encode = .ok bytes ↔ receipt.validate = true ∧ bytes = receipt.encodeFields := by
  simp only [encode, ok_iff]
  constructor
  · rintro ⟨hvalid, -, rfl⟩
    exact ⟨hvalid, rfl⟩
  · rintro ⟨hvalid, rfl⟩
    exact ⟨hvalid, (length_encodeFields_le hwf hvalid).trans (by decide), rfl⟩

theorem decode_eq_ok : decode input = .ok receipt ↔
    (receipt.WellFormed ∧ receipt.validate = true) ∧ input = receipt.encodeFields := by
  simp only [decode, ok_iff, Reader.whole_eq_ok, decodeFields_eq_ok, append_nil]
  constructor
  · rintro ⟨-, _, ⟨⟨hwf, -⟩, rfl⟩, hvalid, rfl⟩
    exact ⟨⟨hwf, hvalid⟩, rfl⟩
  · rintro ⟨⟨hwf, hvalid⟩, rfl⟩
    exact ⟨(length_encodeFields_le hwf hvalid).trans (by decide), receipt,
      ⟨⟨hwf, key_le_of_validate hvalid⟩, rfl⟩, hvalid, rfl⟩

end CompletionReceipt

/-- The three codecs are canonical, and every receipt that passes its check fits its byte limit. -/
theorem object_codecs_canonical :
    (∀ etag : ObjectEtag, (etag.WellFormed → ObjectEtag.decode etag.encode = .ok etag) ∧
      ∀ bytes, ObjectEtag.decode bytes = .ok etag → etag.encode = bytes) ∧
    (∀ checksum : ObjectChecksum, (checksum.WellFormed → ObjectChecksum.decode checksum.encode = .ok checksum) ∧
      ∀ bytes, ObjectChecksum.decode bytes = .ok checksum → checksum.encode = bytes) ∧
    ∀ receipt : CompletionReceipt,
      (receipt.WellFormed → receipt.validate = true → ∃ bytes, receipt.encode = .ok bytes ∧
        (bytes.length ≠ 0 ∧ bytes.length ≤ maxCompletionReceiptBytes) ∧ CompletionReceipt.decode bytes = .ok receipt) ∧
      ∀ input, CompletionReceipt.decode input = .ok receipt → receipt.encode = .ok input := by
  refine ⟨fun etag => ⟨fun hwf => ?_, fun bytes h => ?_⟩, fun checksum => ⟨fun hwf => ?_, fun bytes h => ?_⟩,
    fun receipt => ⟨fun hwf hvalid => ?_, fun input h => ?_⟩⟩
  · exact ObjectEtag.decode_eq_ok.mpr ⟨hwf, rfl⟩
  · exact (ObjectEtag.decode_eq_ok.mp h).2.symm
  · exact ObjectChecksum.decode_eq_ok.mpr ⟨hwf, rfl⟩
  · exact (ObjectChecksum.decode_eq_ok.mp h).2.symm
  -- valid fields never reach the size limit of a receipt
  · have hlen := length_encodeFields_le hwf hvalid
    refine ⟨receipt.encodeFields, (encode_eq_ok hwf).mpr ⟨hvalid, rfl⟩, ⟨?_, hlen.trans (by decide)⟩,
      decode_eq_ok.mpr ⟨⟨hwf, hvalid⟩, rfl⟩⟩
    simp [encodeFields, writeArrayLen, writeTypeLen]
  · obtain ⟨⟨hwf, hvalid⟩, rfl⟩ := decode_eq_ok.mp h
    exact (encode_eq_ok hwf).mpr ⟨hvalid, rfl⟩

/-! ## Tables of receipts -/

namespace CompletionReceipts

/-- The variables of the loop of `from_snapshot`. -/
structure Snapshot where
  previous : Option Digest
  sequences : List Sequence
  entries : Std.ExtTreeMap Digest CompletionReceipt

def snapshotStep (s : Snapshot) (receipt : CompletionReceipt) : Except CompletionReceiptError Snapshot := do
  ensure (receipt.validate = true) .invalid
  ensure ((∀ id, s.previous = some id → compare id receipt.uploadId = .lt) ∧ receipt.commitSequence ∉ s.sequences)
    .invalid
  return ⟨some receipt.uploadId, receipt.commitSequence :: s.sequences, s.entries.insert receipt.uploadId receipt⟩

def fromSnapshot (receipts : List CompletionReceipt) : Except CompletionReceiptError CompletionReceipts := do
  ensure (receipts.length ≤ maxCompletionReceipts) .invalid
  let final ← receipts.foldlM snapshotStep ⟨none, [], ∅⟩
  return ⟨final.entries⟩

/-- What a snapshot must satisfy. -/
structure Canonical (receipts : List CompletionReceipt) : Prop where
  valid : ∀ receipt ∈ receipts, receipt.validate = true
  ascending : Ascending CompletionReceipt.uploadId receipts
  sequences : (receipts.map CompletionReceipt.commitSequence).Nodup

variable {receipt : CompletionReceipt} {s : Snapshot} {seen list : List CompletionReceipt}

theorem canonical_concat :
    Canonical (receipts ++ [receipt]) ↔ Canonical receipts ∧ receipt.validate = true ∧
      (∀ old ∈ receipts, compare old.uploadId receipt.uploadId = .lt) ∧
        receipt.commitSequence ∉ receipts.map CompletionReceipt.commitSequence := by
  constructor
  · rintro ⟨hvalid, hascending, hsequences⟩
    rw [ascending_concat] at hascending
    rw [map_append, nodup_append] at hsequences
    refine ⟨⟨fun old hold => hvalid old (mem_append_left _ hold), hascending.1, hsequences.1⟩,
      hvalid receipt (by simp), hascending.2, fun hmem => ?_⟩
    exact hsequences.2.2 _ hmem _ mem_cons_self rfl
  · rintro ⟨⟨hvalid, hascending, hsequences⟩, hreceipt, hlast, hfresh⟩
    refine ⟨fun old hold => ?_, ascending_concat.mpr ⟨hascending, hlast⟩, ?_⟩
    · rcases mem_append.mp hold with hold | hold
      · exact hvalid old hold
      · rwa [mem_singleton.mp hold]
    · rw [map_append, nodup_append]
      refine ⟨hsequences, by simp, fun a ha b hb hab => ?_⟩
      rw [hab, mem_singleton.mp hb] at ha
      exact hfresh ha

/-- The state of the loop after the receipts `seen`. -/
structure Snapshot.Holds (s : Snapshot) (seen : List CompletionReceipt) : Prop where
  canonical : Canonical seen
  previous : s.previous = seen.getLast?.map CompletionReceipt.uploadId
  sequences : s.sequences = (seen.map CompletionReceipt.commitSequence).reverse
  entries : s.entries.toList = seen.map fun receipt => (receipt.uploadId, receipt)

/-- One round goes through exactly when the receipt may follow those seen. -/
theorem snapshotStep_eq_ok (h : s.Holds seen) : snapshotStep s receipt = .ok s' ↔ Canonical (seen ++ [receipt]) ∧
      s' = ⟨some receipt.uploadId, receipt.commitSequence :: s.sequences, s.entries.insert receipt.uploadId receipt⟩ := by
  simp only [snapshotStep, ok_iff, canonical_concat, h.canonical, true_and, h.previous, h.sequences, mem_reverse,
    and_assoc]
  constructor
  · rintro ⟨hvalid, hlast, hfresh, rfl⟩
    refine ⟨hvalid, h.canonical.ascending.lt_of_getLast? fun last hmem => hlast _ ?_, hfresh, rfl⟩
    rw [hmem, Option.map_some]
  · rintro ⟨hvalid, hall, hfresh, rfl⟩
    refine ⟨hvalid, fun id hid => ?_, hfresh, rfl⟩
    obtain ⟨last, hlast, rfl⟩ := Option.map_eq_some_iff.mp hid
    exact hall last (mem_of_getLast? hlast)

theorem Snapshot.Holds.concat (h : s.Holds seen) (hcanonical : Canonical (seen ++ [receipt])) :
    Snapshot.Holds ⟨some receipt.uploadId, receipt.commitSequence :: s.sequences,
      s.entries.insert receipt.uploadId receipt⟩ (seen ++ [receipt]) := by
  refine ⟨hcanonical, by simp, by simp [h.sequences], ?_⟩
  have habove : ∀ entry ∈ s.entries.toList, compare entry.1 receipt.uploadId = .lt := by
    rw [h.entries]
    intro entry hentry
    obtain ⟨old, hold, rfl⟩ := mem_map.mp hentry
    exact (canonical_concat.mp hcanonical).2.2.1 old hold
  rw [toList_insert_last habove, h.entries, map_append]
  rfl

/-- The whole loop, from the receipts already seen. -/
theorem foldlM_snapshotStep (h : s.Holds seen)
    (hrun : receipts.foldlM snapshotStep s = .ok s') : s'.Holds (seen ++ receipts) := by
  induction receipts generalizing s seen with
  | nil =>
    rw [foldlM_nil, pure_eq_ok] at hrun
    subst hrun
    rwa [append_nil]
  | cons receipt receipts ih =>
    rw [foldlM_cons, bind_eq_ok] at hrun
    obtain ⟨middle, hstep, hrest⟩ := hrun
    obtain ⟨hcanonical, rfl⟩ := (snapshotStep_eq_ok h).mp hstep
    have := ih (h.concat hcanonical) hrest
    rwa [append_assoc] at this

theorem exists_foldlM_snapshotStep (h : s.Holds seen)
    (hcanonical : Canonical (seen ++ receipts)) : ∃ s', receipts.foldlM snapshotStep s = .ok s' := by
  induction receipts generalizing s seen with
  | nil => exact ⟨s, rfl⟩
  | cons receipt receipts ih =>
    rw [show seen ++ receipt :: receipts = (seen ++ [receipt]) ++ receipts by simp] at hcanonical
    have hone : Canonical (seen ++ [receipt]) := by
      have hsub : (seen ++ [receipt]).Sublist (seen ++ [receipt] ++ receipts) := sublist_append_left _ _
      exact ⟨fun old hold => hcanonical.valid old (hsub.subset hold), hcanonical.ascending.sublist hsub,
        hcanonical.sequences.sublist (hsub.map _)⟩
    obtain ⟨s', hrest⟩ := ih (h.concat hone) hcanonical
    refine ⟨s', ?_⟩
    rw [foldlM_cons, bind_eq_ok]
    exact ⟨_, (snapshotStep_eq_ok h).mpr ⟨hone, rfl⟩, hrest⟩

theorem holds_nil : Snapshot.Holds ⟨none, [], ∅⟩ [] :=
  ⟨⟨fun _ h => absurd h not_mem_nil, List.Pairwise.nil, nodup_nil⟩, rfl, rfl, by simp⟩

theorem fromSnapshot_eq_ok :
    fromSnapshot list = .ok receipts ↔ (list.length ≤ maxCompletionReceipts ∧ Canonical list) ∧
      receipts.entries.toList = list.map fun receipt => (receipt.uploadId, receipt) := by
  simp only [fromSnapshot, ok_iff]
  constructor
  · rintro ⟨hlen, final, hrun, rfl⟩
    have hfinal := foldlM_snapshotStep holds_nil hrun
    rw [nil_append] at hfinal
    exact ⟨⟨hlen, hfinal.canonical⟩, hfinal.entries⟩
  · rintro ⟨⟨hlen, hcanonical⟩, hentries⟩
    obtain ⟨final, hrun⟩ := exists_foldlM_snapshotStep holds_nil (by rwa [nil_append])
    have hfinal := foldlM_snapshotStep holds_nil hrun
    rw [nil_append] at hfinal
    refine ⟨hlen, final, hrun, ?_⟩
    have : final.entries = receipts.entries := Std.ExtTreeMap.toList_inj.mp (hfinal.entries.trans hentries.symm)
    rw [this]

/-- The invariant of the entries of a table. -/
structure Valid (entries : Std.ExtTreeMap Digest CompletionReceipt) : Prop where
  selfKeyed : ∀ (id : Digest) (receipt : CompletionReceipt), entries[id]? = some receipt → receipt.uploadId = id
  wellFormed : ∀ (id : Digest) (receipt : CompletionReceipt), entries[id]? = some receipt →
    receipt.WellFormed ∧ receipt.validate = true
  sequences : ∀ (id id' : Digest) (receipt receipt' : CompletionReceipt), entries[id]? = some receipt →
    entries[id']? = some receipt' → receipt.commitSequence = receipt'.commitSequence → id = id'

/-- The tables that the operations of the source can make, from receipts whose fields are well formed. -/
inductive Built : CompletionReceipts → Prop
  | default : Built .default
  | insert {receipts receipts' receipt} : Built receipts → CompletionReceipt.WellFormed receipt →
      receipts.insert receipt = some receipts' → Built receipts'
  | fromSnapshot {list receipts} : (∀ receipt ∈ list, CompletionReceipt.WellFormed receipt) →
      fromSnapshot list = .ok receipts → Built receipts

theorem mem_iter {receipts : CompletionReceipts} :
    receipt ∈ receipts.iter ↔ ∃ id : Digest, receipts.entries[id]? = some receipt := by
  unfold iter
  rw [mem_map]
  constructor
  · rintro ⟨⟨id, _⟩, hmem, rfl⟩
    exact ⟨id, Std.ExtTreeMap.mem_toList_iff_getElem?_eq_some.mp hmem⟩
  · rintro ⟨id, h⟩
    exact ⟨(id, receipt), Std.ExtTreeMap.mem_toList_iff_getElem?_eq_some.mpr h, rfl⟩

theorem oldest_mem (h : oldest list = some receipt) : receipt ∈ list := by
  induction list generalizing receipt with
  | nil => cases h
  | cons first rest ih =>
    rw [oldest] at h
    split at h
    · cases h
      exact mem_cons_self
    · rename_i other hother
      split at h
      · cases h
        exact mem_cons_of_mem _ (ih hother)
      · cases h
        exact mem_cons_self

def inserted (receipts : CompletionReceipts) (receipt : CompletionReceipt) : CompletionReceipts :=
  ⟨receipts.entries.insert receipt.uploadId receipt⟩

def erased (receipts : CompletionReceipts) (removed : Digest) : CompletionReceipts := ⟨receipts.entries.erase removed⟩

section Updates

variable {receipts receipts' : CompletionReceipts} {receipt entry : CompletionReceipt} {id removed : Digest}

theorem get_inserted_eq_some : (receipts.inserted receipt).get id = some entry ↔
    receipt.uploadId = id ∧ receipt = entry ∨ receipt.uploadId ≠ id ∧ receipts.get id = some entry := by
  rw [inserted, get, Std.ExtTreeMap.getElem?_insert, ite_eq_iff, Option.some.injEq, Std.compare_eq_iff_eq]
  rfl

theorem get_erased_eq_some : (receipts.erased removed).get id = some entry ↔
    removed ≠ id ∧ receipts.get id = some entry := by
  rw [erased, get, Std.ExtTreeMap.getElem?_erase, ite_eq_iff, Std.compare_eq_iff_eq]
  constructor
  · rintro (⟨-, hnone⟩ | hsome)
    · cases hnone
    · exact hsome
  · exact Or.inr

theorem insert_cases (h : receipts.insert receipt = some receipts') : receipts.validateInsert receipt = true ∧
    ((receipts.inserted receipt).entries.size ≤ maxCompletionReceipts ∧ receipts' = receipts.inserted receipt ∨
      maxCompletionReceipts < (receipts.inserted receipt).entries.size ∧ ∃ evicted,
        oldest (receipts.inserted receipt).iter = some evicted ∧
          receipts' = (receipts.inserted receipt).erased evicted.uploadId) := by
  unfold CompletionReceipts.insert at h
  simp only at h
  split_ifs at h with hcheck hfull
  · obtain ⟨evicted, holdest, rfl⟩ := Option.map_eq_some_iff.mp h
    exact ⟨hcheck, .inr ⟨hfull, evicted, holdest, rfl⟩⟩
  · cases h
    exact ⟨hcheck, .inl ⟨Nat.le_of_not_lt hfull, rfl⟩⟩

theorem Valid.empty : Valid ∅ := ⟨fun _ _ h => by simp at h, fun _ _ h => by simp at h, fun _ _ _ _ h => by simp at h⟩

/-- A receipt that passes `validate_insert` keeps the invariant. -/
theorem Valid.insert (h : Valid receipts.entries) (hwf : receipt.WellFormed)
    (hvalid : receipts.validateInsert receipt = true) : Valid (receipts.inserted receipt).entries := by
  simp only [validateInsert, Bool.and_eq_true, all_eq_true, Bool.or_eq_true, decide_eq_true_eq] at hvalid
  obtain ⟨⟨hreceipt, -⟩, hsequence⟩ := hvalid
  have hother : ∀ (id : Digest) (entry : CompletionReceipt), receipt.uploadId ≠ id →
      receipts.get id = some entry → entry.commitSequence ≠ receipt.commitSequence := by
    intro id entry hid hentry hseq
    rcases hsequence entry (mem_iter.mpr ⟨id, hentry⟩) with hne | rfl
    · exact hne hseq
    · exact hid (h.selfKeyed id entry hentry)
  refine ⟨fun id entry hentry => ?_, fun id entry hentry => ?_, fun id id' entry entry' hentry hentry' hseq => ?_⟩
  · rcases get_inserted_eq_some.mp hentry with ⟨hid, rfl⟩ | ⟨-, hold⟩
    · exact hid
    · exact h.selfKeyed id entry hold
  · rcases get_inserted_eq_some.mp hentry with ⟨-, rfl⟩ | ⟨-, hold⟩
    · exact ⟨hwf, hreceipt⟩
    · exact h.wellFormed id entry hold
  · rcases get_inserted_eq_some.mp hentry with ⟨hid, rfl⟩ | ⟨hid, hold⟩ <;>
      rcases get_inserted_eq_some.mp hentry' with ⟨hid', rfl⟩ | ⟨hid', hold'⟩
    · exact hid.symm.trans hid'
    · exact absurd hseq.symm (hother id' entry' hid' hold')
    · exact absurd hseq (hother id entry hid hold)
    · exact h.sequences id id' entry entry' hold hold' hseq

theorem Valid.erase (h : Valid receipts.entries) (removed : Digest) : Valid (receipts.erased removed).entries := by
  have hold : ∀ {id : Digest} {entry : CompletionReceipt}, (receipts.erased removed).get id = some entry →
      receipts.get id = some entry := fun hentry => (get_erased_eq_some.mp hentry).2
  exact ⟨fun id entry hentry => h.selfKeyed id entry (hold hentry),
    fun id entry hentry => h.wellFormed id entry (hold hentry),
    fun id id' entry entry' hentry hentry' => h.sequences id id' entry entry' (hold hentry) (hold hentry')⟩

theorem valid_insert (hvalid : Valid receipts.entries) (hsize : receipts.entries.size ≤ maxCompletionReceipts)
    (hwf : receipt.WellFormed) (h : receipts.insert receipt = some receipts') :
    Valid receipts'.entries ∧ receipts'.entries.size ≤ maxCompletionReceipts := by
  obtain ⟨hcheck, ⟨hroom, rfl⟩ | ⟨hfull, evicted, holdest, rfl⟩⟩ := insert_cases h
  · exact ⟨hvalid.insert hwf hcheck, hroom⟩
  · have hinserted := hvalid.insert hwf hcheck
    refine ⟨hinserted.erase _, ?_⟩
    obtain ⟨id, hid⟩ := mem_iter.mp (oldest_mem holdest)
    have hcontains : (receipts.inserted receipt).entries.contains evicted.uploadId = true := by
      rw [hinserted.selfKeyed id evicted hid, Std.ExtTreeMap.contains_eq_isSome_getElem?, hid]
      rfl
    have hgrow : (receipts.inserted receipt).entries.size ≤ receipts.entries.size + 1 := Std.ExtTreeMap.size_insert_le
    show ((receipts.inserted receipt).entries.erase evicted.uploadId).size ≤ _
    rw [Std.ExtTreeMap.size_erase, if_pos hcontains]
    omega

end Updates

theorem getElem?_of_toList {entries : Std.ExtTreeMap Digest CompletionReceipt}
    (h : entries.toList = list.map fun receipt => (receipt.uploadId, receipt)) {id : Digest} : entries[id]? =
    some receipt ↔ receipt ∈ list ∧ receipt.uploadId = id := by
  rw [← Std.ExtTreeMap.mem_toList_iff_getElem?_eq_some, h, mem_map]
  constructor
  · rintro ⟨entry, hentry, heq⟩
    cases heq
    exact ⟨hentry, rfl⟩
  · rintro ⟨hentry, rfl⟩
    exact ⟨receipt, hentry, rfl⟩

variable {receipts : CompletionReceipts}

/-- Every table that can be built is bounded and keeps the invariant. -/
theorem Built.valid (h : Built receipts) : Valid receipts.entries ∧ receipts.entries.size ≤ maxCompletionReceipts := by
  induction h with
  | default => exact ⟨Valid.empty, by decide⟩
  | insert _ hwf hinsert ih => exact valid_insert ih.1 ih.2 hwf hinsert
  | @fromSnapshot list receipts hwf hopen =>
    obtain ⟨⟨hlen, hcanonical⟩, hentries⟩ := fromSnapshot_eq_ok.mp hopen
    refine ⟨⟨?_, ?_, ?_⟩, ?_⟩
    · exact fun id receipt hentry => ((getElem?_of_toList hentries).mp hentry).2
    · intro id receipt hentry
      have hmem := ((getElem?_of_toList hentries).mp hentry).1
      exact ⟨hwf receipt hmem, hcanonical.valid receipt hmem⟩
    · intro id id' receipt receipt' hentry hentry' hseq
      obtain ⟨hmem, rfl⟩ := (getElem?_of_toList hentries).mp hentry
      obtain ⟨hmem', rfl⟩ := (getElem?_of_toList hentries).mp hentry'
      rw [inj_on_of_nodup_map hcanonical.sequences hmem hmem' hseq]
    · rw [← Std.ExtTreeMap.length_toList, hentries, length_map]
      exact hlen

theorem toList_eq_iter (h : Valid receipts.entries) :
    receipts.entries.toList = receipts.iter.map fun receipt => (receipt.uploadId, receipt) := by
  unfold iter
  rw [map_map]
  refine (map_id _).symm.trans (map_congr_left fun entry hentry => ?_)
  obtain ⟨id, receipt⟩ := entry
  have hid := h.selfKeyed id receipt (Std.ExtTreeMap.mem_toList_iff_getElem?_eq_some.mp hentry)
  show (id, receipt) = (receipt.uploadId, receipt)
  rw [hid]

theorem nodup_iter (h : Valid receipts.entries) : receipts.iter.Nodup := by
  have hkeys := ascending_toList receipts.entries
  rw [toList_eq_iter h] at hkeys
  refine (pairwise_map.mp hkeys).imp fun {a b} hlt hab => ?_
  rw [hab, compare_self_eq] at hlt
  cases hlt

/-- Reading a table back from its own enumeration. -/
theorem Valid.fromSnapshot_iter (hvalid : Valid receipts.entries)
    (hsize : receipts.entries.size ≤ maxCompletionReceipts) :
    CompletionReceipts.fromSnapshot receipts.iter = .ok receipts := by
  have hlist := toList_eq_iter hvalid
  refine fromSnapshot_eq_ok.mpr ⟨⟨?_, ?_, ?_, ?_⟩, hlist⟩
  · rw [iter, length_map, Std.ExtTreeMap.length_toList]
    exact hsize
  · intro receipt hmem
    obtain ⟨id, hid⟩ := mem_iter.mp hmem
    exact (hvalid.wellFormed id receipt hid).2
  · have hascending := ascending_toList receipts.entries
    rw [hlist] at hascending
    exact pairwise_map.mp hascending
  · refine (nodup_map_iff_inj_on (nodup_iter hvalid)).mpr fun a ha b hb hseq => ?_
    obtain ⟨id, hid⟩ := mem_iter.mp ha
    obtain ⟨id', hid'⟩ := mem_iter.mp hb
    obtain rfl := hvalid.sequences id id' a b hid hid' hseq
    exact Option.some.inj (hid.symm.trans hid')

theorem Built.fromSnapshot_iter (h : Built receipts) : CompletionReceipts.fromSnapshot receipts.iter = .ok receipts :=
  h.valid.1.fromSnapshot_iter h.valid.2

end CompletionReceipts

end Rs3.Index
