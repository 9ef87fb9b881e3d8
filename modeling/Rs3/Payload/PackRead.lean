/-
# Rs3.Payload.PackRead — packed payload reads are exact.

The records of a sealed pack tile its bytes; a planned ciphertext range opens to exactly the requested plaintext;
and reads through the cache of decrypted segments return the same bytes, over any history of reads and evictions.
-/
import Rs3.Payload.Pack

namespace Rs3.Payload

open Crypto V3PayloadPackRecord V3PayloadPackLayout

/-! ## Boundaries of segments

Segment `j` of a record of `len` bytes holds the plaintext from `plainAt len j` to `plainAt len (j + 1)`, and its
ciphertext lies between the corresponding `cipherAt`, relative to the start of the record.
-/

def plainAt (len j : ℕ) : ℕ := min (j * segmentBytes) len

def cipherAt (len j : ℕ) : ℕ := plainAt len j + j * tagLen

def segments (len : ℕ) : ℕ := (len + (segmentBytes - 1)) / segmentBytes

/-- A plaintext length that fits in a pack. -/
structure Fits (len : ℕ) : Prop where
  pos : 0 < len
  stored : cipherAt len (segments len) ≤ maxPackBytes

variable {len start stop : ℕ} {u : Unit} {span : ℕ × ℕ} {records : List V3PayloadPackRecord}
  {layout : V3PayloadPackLayout} {plaintext : Bytes}

theorem Fits.le (h : Fits len) : len ≤ maxPackBytes := by
  have hstored := h.stored
  simp only [cipherAt, plainAt, segments, segmentBytes, tagLen, maxPackBytes] at hstored ⊢
  omega

theorem recordStoredLen_eq_ok : recordStoredLen len = .ok n ↔ Fits len ∧ cipherAt len (segments len) = n := by
  simp only [recordStoredLen, segmentCount, ok_iff, checkedAdd_eq_some, checkedMul_eq_some, tryFrom_eq_some]
  constructor
  · rintro ⟨count, ⟨hpos, _, ⟨-, rfl⟩, rfl⟩, _, ⟨-, rfl⟩, _, ⟨-, rfl⟩, _, ⟨-, rfl⟩, hmax, rfl⟩
    have heq : cipherAt len (segments len) = len + (len + (segmentBytes - 1)) / segmentBytes * tagLen := by
      simp only [cipherAt, plainAt, segments, segmentBytes]
      omega
    exact ⟨⟨Nat.pos_of_ne_zero hpos, heq ▸ hmax⟩, heq⟩
  · rintro ⟨hfits, rfl⟩
    have hle := hfits.le
    have hstored := hfits.stored
    have hpos := hfits.pos
    simp only [cipherAt, plainAt, segments, segmentBytes, tagLen, maxPackBytes] at *
    exact ⟨_, ⟨by omega, _, ⟨by omega, rfl⟩, rfl⟩, _, ⟨by omega, rfl⟩, _, ⟨by omega, rfl⟩, _, ⟨by omega, rfl⟩,
      by omega, by omega⟩

variable {i j first k : ℕ} {packId attemptId : Digest} {inputs : List Bytes} {sealed : V3SealedPayloadPack}

section Arithmetic

variable {len j : ℕ}

theorem segmentCount_eq (h : Fits len) : segmentCount len = .ok (segments len) := by
  have hle := h.le
  have hpos := h.pos
  simp only [maxPackBytes] at hle
  simp only [segmentCount, ok_iff, checkedAdd_eq_some]
  exact ⟨by omega, _, ⟨by simp only [segmentBytes]; omega, rfl⟩, rfl⟩

theorem segments_le (h : Fits len) : segments len ≤ 512 := by
  have hle := h.le
  simp only [segments, segmentBytes, maxPackBytes] at *
  omega

theorem plainAt_of_lt (hj : j < segments len) : plainAt len j = j * segmentBytes := by
  simp only [plainAt, segments, segmentBytes] at *
  omega

theorem plainAt_lt (hj : j < segments len) : plainAt len j < plainAt len (j + 1) := by
  simp only [plainAt, segments, segmentBytes] at *
  omega

theorem plainAt_mono (h : i ≤ j) : plainAt len i ≤ plainAt len j := by
  simp only [plainAt, segmentBytes]
  omega

theorem plainAt_le (len j : ℕ) : plainAt len j ≤ len := Nat.min_le_right _ _

theorem cipherAt_mono (len : ℕ) (h : i ≤ j) : cipherAt len i ≤ cipherAt len j := by
  simp only [cipherAt, plainAt, segmentBytes, tagLen]
  omega

theorem segmentPlaintextLen_eq (h : Fits len) (hj : j < segments len) :
    segmentPlaintextLen len j = .ok (plainAt len (j + 1) - plainAt len j) := by
  have hle := h.le
  simp only [segmentPlaintextLen, segmentCount_eq h, ok_iff, checkedMul_eq_some]
  refine ⟨segments len, rfl, hj, _, ⟨?_, rfl⟩, ?_⟩ <;>
    simp only [plainAt, segments, segmentBytes, maxPackBytes] at * <;> omega

theorem segmentCiphertextOffset_eq (h : Fits len) (hj : j < segments len) :
    segmentCiphertextOffset j = .ok (cipherAt len j) := by
  have hle := h.le
  simp only [segmentCiphertextOffset, okOr_eq_ok, checkedMul_eq_some]
  constructor <;> simp only [cipherAt, plainAt, segments, segmentBytes, tagLen, maxPackBytes] at * <;> omega

/-- The stored length of a segment is its plaintext and one tag. -/
theorem cipherAt_succ (len j : ℕ) :
    cipherAt len (j + 1) = cipherAt len j + (plainAt len (j + 1) - plainAt len j) + tagLen := by
  simp only [cipherAt, plainAt, segmentBytes, tagLen]
  omega

end Arithmetic

/-! ## Layouts -/

def V3PayloadPackRecord.stored (record : V3PayloadPackRecord) : ℕ × ℕ :=
  (record.reference.physicalOffset,
    record.reference.physicalOffset + cipherAt record.plaintextLen (segments record.plaintextLen))

/-- A record reference that may be planned and opened. -/
structure RefValid (facts : V3PayloadPackFacts) (record : V3PayloadPackRecordRef) (plaintextLen : ℕ) : Prop where
  ordinal : record.recordOrdinal < facts.recordCount
  fits : Fits plaintextLen
  stop : record.physicalOffset + cipherAt plaintextLen (segments plaintextLen) ≤ facts.storedLen

variable {facts : V3PayloadPackFacts}

theorem validateV3PayloadPackRecordRef_eq_ok {record : V3PayloadPackRecordRef} {plaintextLen : ℕ} :
    validateV3PayloadPackRecordRef facts record plaintextLen = .ok u ↔ RefValid facts record plaintextLen := by
  simp only [validateV3PayloadPackRecordRef, ok_iff, checkedAdd_eq_some, recordStoredLen_eq_ok]
  constructor
  · rintro ⟨hordinal, _, ⟨hfits, rfl⟩, _, ⟨-, rfl⟩, hstop⟩
    exact ⟨hordinal, hfits, hstop⟩
  · rintro ⟨hordinal, hfits, hstop⟩
    refine ⟨hordinal, _, ⟨hfits, rfl⟩, _, ⟨?_, rfl⟩, hstop⟩
    have hmax := facts.valid.2.2.1
    simp only [maxPackBytes] at hmax
    omega

theorem coverSpan_eq_ok : coverSpan facts start span = .ok stop ↔
      (span.1 = start ∧ span.1 < span.2 ∧ span.2 ≤ facts.storedLen) ∧ span.2 = stop := by
  simp only [coverSpan, ok_iff]

theorem tiles_of_cover (h : spans.foldlM (coverSpan facts) start = .ok stop) : Tiles start spans stop := by
  induction spans generalizing start with
  | nil => simpa [Tiles] using h
  | cons span rest ih =>
    rw [List.foldlM_cons, bind_eq_ok] at h
    obtain ⟨middle, hspan, hrest⟩ := h
    obtain ⟨⟨hstart, hlt, -⟩, rfl⟩ := coverSpan_eq_ok.mp hspan
    exact ⟨hstart, hlt, ih hrest⟩

theorem V3PayloadPackRecord.span_eq_ok {record : V3PayloadPackRecord} (h : record.span = .ok span) :
    record.stored = span := by
  simp only [V3PayloadPackRecord.span, ok_iff, checkedAdd_eq_some, recordStoredLen_eq_ok] at h
  obtain ⟨_, ⟨-, rfl⟩, _, ⟨-, rfl⟩, rfl⟩ := h
  rfl

/-- The records tile the stored bytes, in some physical order. -/
theorem validateRecordCoverage_tiles (h : validateRecordCoverage facts records = .ok u) :
    ∃ spans : List (ℕ × ℕ), spans.Perm (records.map stored) ∧ Tiles 0 spans facts.storedLen := by
  simp only [validateRecordCoverage, ok_iff] at h
  obtain ⟨spans, hspans, stop, hcover, rfl⟩ := h
  refine ⟨spans.insertionSort SpanLe, (List.perm_insertionSort SpanLe spans).trans ?_, tiles_of_cover hcover⟩
  have hstored : records.map stored = spans := by
    have hforall := mapM_eq_ok.mp hspans
    clear hspans hcover
    induction hforall with
    | nil => rfl
    | cons hspan _ ih => rw [List.map_cons, span_eq_ok hspan, ih]
  rw [hstored]

structure LayoutValid (layout : V3PayloadPackLayout) : Prop where
  records : ∀ {i : ℕ} {record : V3PayloadPackRecord}, layout.records[i]? = some record →
    RefValid layout.facts record.reference record.plaintextLen
  tiles : ∃ spans : List (ℕ × ℕ), spans.Perm (layout.records.map stored) ∧ Tiles 0 spans layout.facts.storedLen

theorem V3PayloadPackLayout.new_valid (h : V3PayloadPackLayout.new facts records = .ok layout) :
    LayoutValid layout ∧ layout.facts = facts ∧ layout.records = records := by
  simp only [V3PayloadPackLayout.new, ok_iff] at h
  obtain ⟨-, _, hrecords, _, hcover, rfl⟩ := h
  refine ⟨⟨fun {i record} hi => ?_, validateRecordCoverage_tiles hcover⟩, rfl, rfl⟩
  have hmem : (record, i) ∈ records.zipIdx := List.mk_mem_zipIdx_iff_getElem?.mpr hi
  have hcheck := forM_eq_ok.mp hrecords (record, i) hmem
  simp only [ok_iff, validateV3PayloadPackRecordRef_eq_ok] at hcheck
  exact hcheck.2

theorem LayoutValid.apart (h : LayoutValid layout) : layout.records.Pairwise fun a b => Apart a.stored b.stored := by
  obtain ⟨spans, hperm, htiles⟩ := h.tiles
  have hspans := (hperm.pairwise_iff fun hab => Apart.symm hab).mp htiles.apart
  exact List.pairwise_map.mp hspans

/-! ## Sealed packs -/

section Sealed

variable {K : Type} (aead : Aead K) (keyring : KeyRing K) (object : PayloadPackContext) (facts : V3PayloadPackFacts)
  (record : V3PayloadPackRecord)

def recordSegment (plaintext : Bytes) (j : ℕ) : Bytes :=
  slice plaintext (plainAt plaintext.length j) (plainAt plaintext.length (j + 1))

/-- Some stored bytes are segment `j` of a record, sealed. -/
def SegmentSealed (plaintext : Bytes) (j : ℕ) (bytes : Bytes) : Prop :=
  ∃ context sealed, segmentContext object facts record.reference plaintext.length j
      (plainAt plaintext.length (j + 1) - plainAt plaintext.length j) = .ok context ∧
    sealPayloadSegment aead keyring context (recordSegment plaintext j) = .ok sealed ∧
    sealed.keyId = facts.contentKeyId ∧ sealed.ciphertext = bytes ∧
    bytes.length = plainAt plaintext.length (j + 1) - plainAt plaintext.length j + tagLen

/-- Some stored bytes are the sealed segments of a record. -/
def RecordSealed (plaintext : Bytes) (bytes : Bytes) : Prop :=
  plaintext.length = record.plaintextLen ∧ ∀ j < segments record.plaintextLen,
    SegmentSealed aead keyring object facts record plaintext j
      (slice bytes (cipherAt record.plaintextLen j) (cipherAt record.plaintextLen (j + 1)))

variable {aead keyring object facts record}

theorem sealSegmentInto_writes (hfits : Fits record.plaintextLen)
    (hlen : plaintext.length = record.plaintextLen) (hj : j < segments record.plaintextLen) :
    WritesSpan (sealSegmentInto aead keyring object facts record plaintext · j)
      (record.reference.physicalOffset + cipherAt record.plaintextLen j,
        record.reference.physicalOffset + cipherAt record.plaintextLen (j + 1))
      (SegmentSealed aead keyring object facts record plaintext j) := by
  refine writesSpan_overwrite fun buffer buffer' hok => ?_
  simp only [sealSegmentInto, segmentPlaintextLen_eq hfits hj, segmentCiphertextOffset_eq hfits hj, ok_iff,
    checkedMul_eq_some, checkedAdd_eq_some, getRange_eq_some, Except.ok.injEq] at hok
  obtain ⟨_, ⟨-, rfl⟩, _, rfl, _, ⟨-, rfl⟩, segment, ⟨-, rfl⟩, context, hcontext, sealed, hsealed, ⟨hkey, -, hcipher⟩,
    _, rfl, _, ⟨-, rfl⟩, _, ⟨-, rfl⟩, hroom, rfl⟩ := hok
  have hsegment : slice plaintext (j * segmentBytes)
      (j * segmentBytes + (plainAt record.plaintextLen (j + 1) - plainAt record.plaintextLen j)) =
        recordSegment plaintext j := by
    rw [recordSegment, hlen, plainAt_of_lt hj, Nat.add_sub_cancel' ((plainAt_of_lt hj) ▸ (plainAt_lt hj).le)]
  refine ⟨sealed.ciphertext, ⟨context, sealed, hlen ▸ hcontext, hsegment ▸ hsealed, hkey, rfl, ?_⟩, ?_, ?_, rfl⟩
  · rw [hlen, ← hcipher]
  · rw [cipherAt_succ]
    omega
  · rw [cipherAt_succ]
    omega

theorem segment_spans_apart :
    (List.range (segments len)).Pairwise fun i j =>
      Apart (offset + cipherAt len i, offset + cipherAt len (i + 1))
        (offset + cipherAt len j, offset + cipherAt len (j + 1)) :=
  List.pairwise_lt_range.imp fun hij => Or.inl (Nat.add_le_add_left (cipherAt_mono len hij) offset)

theorem sealRecordInto_writes (hfits : Fits record.plaintextLen) (plaintext : Bytes) :
    WritesSpan (sealRecordInto aead keyring object facts record plaintext) record.stored
      (RecordSealed aead keyring object facts record plaintext) := by
  refine ⟨fun {buffer buffer'} hok => ?_⟩
  simp only [sealRecordInto, segmentCount_eq hfits, ok_iff, Except.ok.injEq] at hok
  obtain ⟨hlen, _, rfl, hloop⟩ := hok
  obtain ⟨hlength, hsegments, hframe⟩ := foldlM_writesSpan
    (fun j hj => sealSegmentInto_writes hfits hlen (List.mem_range.mp hj))
    (segment_spans_apart) hloop
  refine ⟨hlength, ⟨hlen, fun j hj => ?_⟩, fun other hapart => hframe other fun j hj => ?_⟩
  · have hstop := cipherAt_mono record.plaintextLen (Nat.succ_le_of_lt hj)
    rw [stored, slice_slice (Nat.add_le_add_left hstop _)]
    exact hsegments j (List.mem_range.mpr hj)
  · have hstop : cipherAt record.plaintextLen (j + 1) ≤ _ :=
      cipherAt_mono record.plaintextLen (Nat.succ_le_of_lt (List.mem_range.mp hj))
    simp only [Apart, stored] at hapart ⊢
    omega

/-- What a sealed pack is: a valid layout, and under every record the sealed segments of its plaintext. -/
structure PackSealed (aead : Aead K) (keyring : KeyRing K) (object : PayloadPackContext) (inputs : List Bytes)
    (sealed : V3SealedPayloadPack) : Prop where
  context : validatePublicContext object.repositoryContext object.containingObject = .ok ()
  layout : LayoutValid sealed.layout
  length : sealed.bytes.length = sealed.layout.facts.storedLen
  records : ∀ {i : ℕ} {plaintext : Bytes}, inputs[i]? = some plaintext →
    ∃ record, sealed.layout.records[i]? = some record ∧
      RecordSealed aead keyring object sealed.layout.facts record plaintext
        (slice sealed.bytes record.stored.1 record.stored.2)

theorem V3PayloadPackFacts.new_eq_ok {contentKeyId : KeyId} {storedLen recordCount : ℕ}
    {facts : V3PayloadPackFacts} (h : V3PayloadPackFacts.new packId attemptId contentKeyId storedLen recordCount =
    .ok facts) :
    facts.storedLen = storedLen := by
  unfold V3PayloadPackFacts.new at h
  split at h
  · cases h
    rfl
  · cases h

/-- Where the record of an input lies. -/
def V3PayloadPackLayout.storedAt (layout : V3PayloadPackLayout) (ordinal : ℕ) : ℕ × ℕ :=
  (layout.records[ordinal]?.map stored).getD (0, 0)

theorem LayoutValid.storedAt_apart (h : LayoutValid layout) (inputs : List Bytes) :
    inputs.zipIdx.Pairwise fun x y => Apart (layout.storedAt x.2) (layout.storedAt y.2) := by
  refine List.pairwise_iff_getElem.mpr fun i j hi hj hij => ?_
  simp only [List.getElem_zipIdx, Nat.zero_add, storedAt]
  cases hfirst : layout.records[i]? with
  | none => exact Or.inl (Nat.zero_le _)
  | some a =>
    cases hsecond : layout.records[j]? with
    | none => exact Or.inr (Nat.zero_le _)
    | some b =>
      obtain ⟨hi', rfl⟩ := List.getElem?_eq_some_iff.mp hfirst
      obtain ⟨hj', rfl⟩ := List.getElem?_eq_some_iff.mp hsecond
      exact List.pairwise_iff_getElem.mp h.apart i j hi' hj' hij

theorem sealV3PayloadPackWithLayout_sealed {order : List ℕ}
    (h : sealV3PayloadPackWithLayout aead keyring object inputs packId attemptId order = .ok sealed) :
    PackSealed aead keyring object inputs sealed := by
  simp only [sealV3PayloadPackWithLayout, ok_iff] at h
  obtain ⟨_, hcontext, -, _, -, _, -, -, _, -, placed, -, -, _, -, facts, hfacts, layout, hlayout, bytes, hbytes, rfl⟩ := h
  obtain ⟨hvalid, rfl, -⟩ := new_valid hlayout
  have hround : ∀ x ∈ inputs.zipIdx, WritesSpan
      (fun pack => do
        let record ← okOr layout.records[x.2]? .invalidPayloadPack
        sealRecordInto aead keyring object layout.facts record x.1 pack)
      (layout.storedAt x.2)
      fun bytes => ∃ record, layout.records[x.2]? = some record ∧
        RecordSealed aead keyring object layout.facts record x.1 bytes := by
    refine fun x _ => ⟨fun {buffer buffer'} hok => ?_⟩
    rw [bind_eq_ok] at hok
    obtain ⟨record, hrecord, hseal⟩ := hok
    rw [okOr_eq_ok] at hrecord
    rw [storedAt, hrecord]
    obtain ⟨hlen, hsealed, hframe⟩ := (sealRecordInto_writes (hvalid.records hrecord).fits x.1).of_ok hseal
    exact ⟨hlen, ⟨record, rfl, hsealed⟩, hframe⟩
  obtain ⟨hlength, hrecords, -⟩ := foldlM_writesSpan hround (hvalid.storedAt_apart inputs) hbytes
  refine ⟨hcontext, hvalid, ?_, fun {i plaintext} hi => ?_⟩
  · rw [hlength, List.length_replicate, V3PayloadPackFacts.new_eq_ok hfacts]
  · obtain ⟨record, hrecord, hsealed⟩ := hrecords (plaintext, i) (List.mk_mem_zipIdx_iff_getElem?.mpr hi)
    refine ⟨record, hrecord, ?_⟩
    rwa [storedAt, hrecord] at hsealed

end Sealed

/-! ## Planned ranges -/

section Plan

variable {facts : V3PayloadPackFacts} {record : V3PayloadPackRecordRef} {len : ℕ} {requested : ℕ × ℕ}

/-- A non-empty range of a plaintext. -/
structure InRange (len : ℕ) (requested : ℕ × ℕ) : Prop where
  lt : requested.1 < requested.2
  le : requested.2 ≤ len

def firstSegment (requested : ℕ × ℕ) : ℕ := requested.1 / segmentBytes

def lastSegment (requested : ℕ × ℕ) : ℕ := (requested.2 - 1) / segmentBytes

theorem InRange.segments_le (h : InRange len requested) :
    firstSegment requested ≤ lastSegment requested ∧ lastSegment requested < segments len := by
  have hlt := h.lt
  have hle := h.le
  simp only [firstSegment, lastSegment, segments, segmentBytes]
  omega

theorem InRange.cipherAt_le (h : InRange len requested) :
    cipherAt len (firstSegment requested) ≤ cipherAt len (lastSegment requested + 1) ∧
      cipherAt len (lastSegment requested + 1) ≤ cipherAt len (segments len) :=
  ⟨cipherAt_mono len (h.segments_le.1.trans (Nat.le_succ _)), cipherAt_mono len h.segments_le.2⟩

/-- The requested bytes lie in the selected segments. -/
theorem InRange.selected (h : InRange len requested) :
    plainAt len (firstSegment requested) ≤ requested.1 ∧ requested.2 ≤ plainAt len (lastSegment requested + 1) := by
  have hlt := h.lt
  have hle := h.le
  simp only [firstSegment, lastSegment, plainAt, segmentBytes]
  omega

def plannedSpan (record : V3PayloadPackRecordRef) (len : ℕ) (requested : ℕ × ℕ) : V3PayloadPackRecordSpan where
  offset := record.physicalOffset + cipherAt len (firstSegment requested)
  storedLen := cipherAt len (lastSegment requested + 1) - cipherAt len (firstSegment requested)
  startSegment := firstSegment requested
  segmentCount := lastSegment requested - firstSegment requested + 1
  recordOrdinal := record.recordOrdinal
  requested := requested

theorem planV3PayloadPackRecordRange_eq (hvalid : RefValid facts record len) (hrange : InRange len requested) :
    planV3PayloadPackRecordRange facts record len requested = .ok (plannedSpan record len requested) := by
  obtain ⟨hfirst, hlast⟩ := hrange.segments_le
  have hfits := hvalid.fits
  have hne : ¬ len = 0 := hfits.pos.ne'
  have hstored := hvalid.stop
  have hmax := facts.valid.2.2.1
  have hsegments := Payload.segments_le hfits
  have hsucc := cipherAt_succ len (lastSegment requested)
  obtain ⟨hstart, hend⟩ := hrange.cipherAt_le
  have hlt := hrange.lt
  have hle := hrange.le
  have hfold : requested.1 / segmentBytes = firstSegment requested := rfl
  simp only [maxPackBytes] at *
  simp only [planV3PayloadPackRecordRange, (validateV3PayloadPackRecordRef_eq_ok (u := ())).mpr hvalid, hne, hfold,
    if_false, not_false_eq_true, true_and, false_and, ok_iff, Option.bind_eq_some_iff, checkedAdd_eq_some,
    checkedSub_eq_some, tryFrom_eq_some]
  refine ⟨by omega, lastSegment requested, ?_, lastSegment requested - firstSegment requested + 1,
    ⟨_, ⟨hfirst, rfl⟩, ?_, rfl⟩, _, segmentCiphertextOffset_eq hfits (hfirst.trans_lt hlast), _,
    segmentCiphertextOffset_eq hfits hlast, _, segmentPlaintextLen_eq hfits hlast,
    cipherAt len (lastSegment requested + 1), ⟨_, ⟨?_, rfl⟩, ?_, hsucc.symm⟩, _, ⟨?_, rfl⟩, _, ⟨hstart, rfl⟩, ?_, _,
    ⟨?_, rfl⟩, _, ⟨?_, rfl⟩, rfl⟩
  · have hone : 1 ≤ requested.2 := by omega
    simp [checkedSub, hone, okOr, Except.map, lastSegment]
  · omega
  · omega
  · omega
  · omega
  · rw [Option.all_eq_true]
    intro stop hstop
    rw [checkedAdd_eq_some] at hstop
    rw [decide_eq_true_eq]
    omega
  · omega
  · omega

end Plan

/-! ## Opening a planned range -/

section Open

variable {K : Type} {aead : Aead K} {keyring : KeyRing K} {object : PayloadPackContext} {facts : V3PayloadPackFacts}
  {record : V3PayloadPackRecord} {plaintext pack : Bytes} {requested : ℕ × ℕ}

/-- A valid record whose sealed segments lie in a pack. -/
structure RecordIn (aead : Aead K) (keyring : KeyRing K) (object : PayloadPackContext) (facts : V3PayloadPackFacts)
    (record : V3PayloadPackRecord) (plaintext pack : Bytes) : Prop where
  valid : RefValid facts record.reference record.plaintextLen
  length : pack.length = facts.storedLen
  sealed : RecordSealed aead keyring object facts record plaintext (slice pack record.stored.1 record.stored.2)

theorem RecordIn.segment (h : RecordIn aead keyring object facts record plaintext pack)
    (hj : j < segments record.plaintextLen) :
    SegmentSealed aead keyring object facts record plaintext j
      (slice pack (record.reference.physicalOffset + cipherAt record.plaintextLen j)
        (record.reference.physicalOffset + cipherAt record.plaintextLen (j + 1))) := by
  have hsegment := h.sealed.2 j hj
  rwa [stored,
    slice_slice (Nat.add_le_add_left (cipherAt_mono record.plaintextLen (Nat.succ_le_of_lt hj)) _)] at hsegment

/-- The plaintext of `k` segments from `first` on. -/
def selected (plaintext : Bytes) (first k : ℕ) : Bytes :=
  slice plaintext (plainAt plaintext.length first) (plainAt plaintext.length (first + k))

theorem selected_zero : selected plaintext first 0 = [] := slice_self

theorem selected_succ :
    selected plaintext first k ++ recordSegment plaintext (first + k) = selected plaintext first (k + 1) :=
  slice_append_slice plaintext (plainAt_mono (Nat.le_add_right first k)) (plainAt_mono (Nat.le_succ _))

/-- The ciphertext of `k` segments from `first` on. -/
def cipherSpan (record : V3PayloadPackRecord) (first stop : ℕ) : ℕ × ℕ :=
  (record.reference.physicalOffset + cipherAt record.plaintextLen first,
    record.reference.physicalOffset + cipherAt record.plaintextLen stop)

/-- The state of the opening loop after `k` rounds. -/
def openedState (len : ℕ) (plaintext : Bytes) (first k : ℕ) : OpenState where
  cursor := cipherAt len (first + k) - cipherAt len first
  plaintext := selected plaintext first k
  segments := (List.range k).map fun relative => (first + relative, recordSegment plaintext (first + relative))

theorem length_recordSegment :
    (recordSegment plaintext j).length = plainAt plaintext.length (j + 1) - plainAt plaintext.length j := by
  rw [recordSegment, length_slice_of_le (plainAt_le _ _)]

theorem openSegment_eq (h : RecordIn aead keyring object facts record plaintext pack)
    (hk : first + k < stop) (hstop : stop ≤ segments record.plaintextLen) :
    openSegment aead keyring ⟨object, facts, record.reference, record.plaintextLen⟩ first
        (slice pack (cipherSpan record first stop).1 (cipherSpan record first stop).2)
        (openedState record.plaintextLen plaintext first k) k =
      .ok (openedState record.plaintextLen plaintext first (k + 1)) := by
  have hfits := h.valid.fits
  have hj : first + k < segments record.plaintextLen := hk.trans_le hstop
  have hlen : plaintext.length = record.plaintextLen := h.sealed.1
  obtain ⟨context, sealed, hcontext, hsealed, hkey, hcipher, hcipherLen⟩ := h.segment hj
  have hsucc := cipherAt_succ record.plaintextLen (first + k)
  have hfirst := cipherAt_mono record.plaintextLen (Nat.le_add_right first k)
  have hend : cipherAt record.plaintextLen (first + k + 1) ≤ cipherAt record.plaintextLen stop :=
    cipherAt_mono record.plaintextLen (Nat.succ_le_of_lt hk)
  have hstored := h.valid.stop
  have hall := cipherAt_mono record.plaintextLen hstop
  have hpack := h.length
  have hmax := facts.valid.2.2.1
  have hsegments := Payload.segments_le hfits
  have hplain := plainAt_le record.plaintextLen (first + k + 1)
  have hcontext' : context.plaintextLen = (recordSegment plaintext (first + k)).length := by
    simp only [sealPayloadSegment, ok_iff] at hsealed
    exact hsealed.1.symm
  have hopen : openPayloadSegment aead keyring context facts.contentKeyId sealed.ciphertext =
      .ok (recordSegment plaintext (first + k)) := by
    rw [← hkey]
    refine openPayloadSegment_sealed hsealed ?_
    rw [hcontext', length_recordSegment, hcipher, hcipherLen]
    rfl
  rw [hlen] at hcontext hcipherLen
  have hslice : slice (slice pack (cipherSpan record first stop).1 (cipherSpan record first stop).2)
      (cipherAt record.plaintextLen (first + k) - cipherAt record.plaintextLen first)
      (cipherAt record.plaintextLen (first + k + 1) - cipherAt record.plaintextLen first) = sealed.ciphertext := by
    rw [hcipher, slice_slice (by simp only [cipherSpan]; omega)]
    congr 1 <;> simp only [cipherSpan] <;> omega
  simp only [openSegment, ok_iff, checkedAdd_eq_some, tryFrom_eq_some, getRange_eq_some, openedState,
    maxPackBytes] at hmax ⊢
  refine ⟨first + k, ⟨by omega, rfl⟩, _, segmentPlaintextLen_eq hfits hj, _, ⟨?_, rfl⟩,
    cipherAt record.plaintextLen (first + k + 1) - cipherAt record.plaintextLen first, ⟨?_, ?_⟩, sealed.ciphertext,
    ⟨⟨?_, ?_⟩, hslice⟩, context, hcontext, recordSegment plaintext (first + k), hopen, ?_, first + k, ⟨by omega, rfl⟩, ?_⟩
  · omega
  · omega
  · omega
  · omega
  · simp only [cipherSpan]
    rw [length_slice_of_le (by omega)]
    omega
  · rw [length_recordSegment, hlen]
  · rw [selected_succ, List.range_succ, List.map_append, ← Nat.add_assoc]
    rfl

theorem openSegments_eq (h : RecordIn aead keyring object facts record plaintext pack)
    (hk : first + k ≤ stop) (hstop : stop ≤ segments record.plaintextLen) :
    (List.range k).foldlM (openSegment aead keyring ⟨object, facts, record.reference, record.plaintextLen⟩ first
        (slice pack (cipherSpan record first stop).1 (cipherSpan record first stop).2)) ⟨0, [], []⟩ =
      .ok (openedState record.plaintextLen plaintext first k) := by
  induction k with
  | zero => simp [openedState, selected_zero, pure, Except.pure]
  | succ k ih =>
    rw [List.range_succ, List.foldlM_append, ih (by omega), ok_bind, List.foldlM_cons,
      openSegment_eq h (by omega) hstop]
    rfl

theorem cachedSegments_eq (hfits : Fits plaintext.length) (hk : first + k ≤ segments plaintext.length) :
    ((List.range k).map fun relative => (recordSegment plaintext (first + relative), relative)).foldlM
        (cachedSegment plaintext.length first) [] = .ok (selected plaintext first k) := by
  induction k with
  | zero => rw [selected_zero]; rfl
  | succ k ih =>
    have hsegments := Payload.segments_le hfits
    have hround : cachedSegment plaintext.length first (selected plaintext first k)
        (recordSegment plaintext (first + k), k) = .ok (selected plaintext first (k + 1)) := by
      simp only [cachedSegment, ok_iff, checkedAdd_eq_some]
      exact ⟨first + k, ⟨by omega, rfl⟩, _, segmentPlaintextLen_eq hfits (by omega), length_recordSegment,
        selected_succ⟩
    rw [List.range_succ, List.map_append, List.foldlM_append, ih (by omega), ok_bind, List.map_singleton,
      List.foldlM_cons, hround]
    rfl

/-- Cutting the request out of the selected segments. -/
theorem finishOpenedSpan_eq (hfits : Fits plaintext.length) (hrange : InRange plaintext.length requested)
    (reference : V3PayloadPackRecordRef) (opened : List (ℕ × Bytes)) :
    finishOpenedSpan (plannedSpan reference plaintext.length requested)
        (selected plaintext (firstSegment requested) (lastSegment requested - firstSegment requested + 1)) opened =
      .ok ⟨slice plaintext requested.1 requested.2, opened⟩ := by
  obtain ⟨hfirst, hlast⟩ := hrange.segments_le
  obtain ⟨hstart, hstop⟩ := hrange.selected
  have hle := hfits.le
  have hplain := plainAt_of_lt (hfirst.trans_lt hlast)
  have hlt := hrange.lt
  have hlen := hrange.le
  have hend := plainAt_le plaintext.length (lastSegment requested + 1)
  have hcount : firstSegment requested + (lastSegment requested - firstSegment requested + 1) =
      lastSegment requested + 1 := by omega
  simp only [finishOpenedSpan, plannedSpan, selected, hcount, ok_iff, checkedMul_eq_some, checkedSub_eq_some,
    checkedAdd_eq_some, getRange_eq_some, maxPackBytes] at hle ⊢
  refine ⟨_, ⟨by omega, hplain.symm⟩, _, ⟨hstart, rfl⟩, _, ⟨hlt.le, rfl⟩, _, ⟨by omega, rfl⟩,
    slice plaintext requested.1 requested.2, ⟨⟨by omega, ?_⟩, ?_⟩, rfl⟩
  · rw [length_slice_of_le hend]
    omega
  · rw [slice_slice (by omega)]
    congr 1 <;> omega

def rangeSegments (plaintext : Bytes) (requested : ℕ × ℕ) : List (ℕ × Bytes) :=
  (List.range (lastSegment requested - firstSegment requested + 1)).map fun relative =>
    (firstSegment requested + relative, recordSegment plaintext (firstSegment requested + relative))

/-- **A planned range opens to the requested bytes.**  Its segments are those of the record. -/
theorem openV3PayloadPackRecordSpan_eq (h : RecordIn aead keyring object facts record plaintext pack)
    (hrange : InRange plaintext.length requested) :
    openV3PayloadPackRecordSpan aead keyring ⟨object, facts, record.reference, record.plaintextLen⟩
        (plannedSpan record.reference record.plaintextLen requested)
        (slice pack (plannedSpan record.reference record.plaintextLen requested).offset
          ((plannedSpan record.reference record.plaintextLen requested).offset +
            (plannedSpan record.reference record.plaintextLen requested).storedLen)) =
      .ok ⟨slice plaintext requested.1 requested.2, rangeSegments plaintext requested⟩ := by
  have hlen : plaintext.length = record.plaintextLen := h.sealed.1
  have hfits := h.valid.fits
  have hrange' := hlen ▸ hrange
  obtain ⟨hfirst, hlast⟩ := hrange'.segments_le
  obtain ⟨hmono, hend⟩ := hrange'.cipherAt_le
  set first := firstSegment requested
  set last := lastSegment requested
  set planned := plannedSpan record.reference record.plaintextLen requested
  have hcount : first + (last - first + 1) = last + 1 := by omega
  have hspan : planned.offset + planned.storedLen = (cipherSpan record first (last + 1)).2 := by
    show _ + cipherAt _ first + (cipherAt _ (last + 1) - cipherAt _ first) = _ + cipherAt _ (last + 1)
    omega
  have hlength : (slice pack (cipherSpan record first (last + 1)).1 (cipherSpan record first (last + 1)).2).length =
      cipherAt record.plaintextLen (last + 1) - cipherAt record.plaintextLen first := by
    have hstored := h.valid.stop
    have hpack := h.length
    simp only [cipherSpan]
    rw [length_slice_of_le (by omega)]
    omega
  have hloop := openSegments_eq h hcount.le (Nat.succ_le_of_lt hlast)
  have hfinish := finishOpenedSpan_eq (hlen ▸ hfits) hrange record.reference
    (openedState record.plaintextLen plaintext first (last - first + 1)).segments
  rw [hlen] at hfinish
  rw [hspan]
  simp only [openV3PayloadPackRecordSpan, ok_iff]
  refine ⟨_, planV3PayloadPackRecordRange_eq h.valid hrange', ⟨rfl, rfl, hlength.symm⟩, _, hloop, ?_, hfinish⟩
  rw [show planned.offset = (cipherSpan record first (last + 1)).1 from rfl, hlength]
  simp only [openedState, hcount]

/-- The cached path returns the same bytes. -/
theorem openV3PayloadPackCachedRecordSpan_eq {reference : V3PayloadPackRecordRef}
    (hvalid : RefValid facts reference plaintext.length) (hrange : InRange plaintext.length requested) :
    openV3PayloadPackCachedRecordSpan facts reference plaintext.length
        (plannedSpan reference plaintext.length requested)
        ((rangeSegments plaintext requested).map Prod.snd) =
      .ok (slice plaintext requested.1 requested.2) := by
  obtain ⟨hfirst, hlast⟩ := hrange.segments_le
  have hzip : ((rangeSegments plaintext requested).map Prod.snd).zipIdx =
        (List.range (lastSegment requested - firstSegment requested + 1)).map fun relative =>
          (recordSegment plaintext (firstSegment requested + relative), relative) := by
    apply List.ext_getElem <;> simp [rangeSegments]
  simp only [openV3PayloadPackCachedRecordSpan, ok_iff, hzip]
  have hcount : firstSegment requested + (lastSegment requested - firstSegment requested + 1) ≤
      segments plaintext.length := by omega
  refine ⟨_, planV3PayloadPackRecordRange_eq hvalid hrange, ⟨rfl, ?_⟩, _, cachedSegments_eq hvalid.fits hcount, _,
    finishOpenedSpan_eq hvalid.fits hrange reference [], rfl⟩
  rw [List.length_map, rangeSegments, List.length_map, List.length_range]
  rfl

end Open

/-! ## Reads through the cache -/

def Caches (segmentOf : ℕ → Bytes) (cache : SegmentCache) : Prop :=
  ∀ j segment, cache j = some segment → segment = segmentOf j

namespace Caches

variable {segmentOf : ℕ → Bytes} {cache : SegmentCache} (h : Caches segmentOf cache)
include h

theorem evict (ordinal : ℕ) : Caches segmentOf (cache.evict ordinal) := by
  intro j segment hj
  unfold SegmentCache.evict at hj
  split at hj
  · cases hj
  · exact h j segment hj

theorem insert {segments : List (ℕ × Bytes)} (hsegments : ∀ segment ∈ segments, segment.2 = segmentOf segment.1) :
    Caches segmentOf (cacheDecryptedSegmentSpan cache segments) := by
  induction segments generalizing cache with
  | nil => exact h
  | cons segment rest ih =>
    rw [List.forall_mem_cons] at hsegments
    refine ih (fun j bytes hj => ?_) hsegments.2
    dsimp only at hj
    split at hj
    · rename_i hordinal
      cases hj
      rw [hsegments.1, hordinal]
    · exact h j bytes hj

theorem lookup (first : ℕ) {ordinals : List ℕ} (hfound : ordinals.mapM (fun j => cache (first + j)) = some found) :
    found = ordinals.map fun j => segmentOf (first + j) := by
  induction ordinals generalizing found with
  | nil =>
    rw [List.mapM_nil] at hfound
    exact (Option.some.inj hfound).symm
  | cons j ordinals ih =>
    rw [List.mapM_cons] at hfound
    simp only [Option.bind_eq_bind, Option.bind_eq_some_iff, Option.pure_def, Option.some.injEq] at hfound
    obtain ⟨segment, hsegment, rest, hrest, rfl⟩ := hfound
    rw [List.map_cons, ih hrest, h _ segment hsegment]

end Caches

/-- Every cached segment is the record's. -/
def CacheSound (plaintext : Bytes) (cache : SegmentCache) : Prop :=
  ∀ j segment, cache j = some segment → segment = recordSegment plaintext j

theorem CacheSound.empty (plaintext : Bytes) : CacheSound plaintext fun _ => none := by
  intro j segment hnone
  cases hnone

theorem CacheSound.caches (h : CacheSound plaintext cache) : Caches (recordSegment plaintext) cache := h

def ByteRange.InBounds (len : ℕ) : ByteRange → Prop
  | .full => True
  | .slice offset count => offset + count ≤ len

def ByteRange.of (range : ByteRange) (plaintext : Bytes) : Bytes :=
  match range with
  | .full => plaintext
  | .slice offset count => Rs3.slice plaintext offset (offset + count)

section Reads

variable {K : Type} {aead : Aead K} {keyring : KeyRing K} {object : PayloadPackContext} {facts : V3PayloadPackFacts}
  {record : V3PayloadPackRecord} {plaintext packBytes : Bytes}

/-- The facts of a read name a record of a pack that is a section of a commit object. -/
structure ReadsFrom (object : PayloadPackContext) (facts : V3PayloadPackFacts) (record : V3PayloadPackRecord)
    (packBytes commit : Bytes) (pack : V3CommitPackRead) : Prop where
  commitKey : pack.commitKey = object.containingObject
  packSectionOrdinal : pack.packSectionOrdinal = object.sectionOrdinal
  packId : pack.packId = facts.packId
  attemptId : pack.attemptId = facts.attemptId
  contentKeyId : pack.contentKeyId = facts.contentKeyId
  length : pack.length = facts.storedLen
  recordCount : pack.packRecordCount = facts.recordCount
  reference : (⟨pack.recordOrdinal, pack.recordOffset⟩ : V3PayloadPackRecordRef) = record.reference
  contentLen : pack.contentLen = record.plaintextLen
  commitLen : commit.length = pack.commitStoredLen ∧ pack.commitStoredLen < 2 ^ 64
  within : pack.packOffset + pack.length ≤ pack.commitStoredLen
  bytes : slice commit pack.packOffset (pack.packOffset + pack.length) = packBytes

variable {commit : Bytes} {pack : V3CommitPackRead} {cache : SegmentCache}

theorem ReadsFrom.facts_eq (hread : ReadsFrom object facts record packBytes commit pack) : pack.facts = .ok facts := by
  have hwithin := hread.within
  have hcommit := hread.commitLen
  have hlength := hread.length
  have hmax := facts.valid.2.2.1
  simp only [maxPackBytes] at hmax
  simp only [V3CommitPackRead.facts, ok_iff, tryFrom_eq_some]
  refine ⟨?_, pack.length, ⟨by omega, rfl⟩, ?_⟩
  · rw [checkedAdd, if_pos (by omega), Option.any_some, decide_eq_true_eq]
    exact hwithin
  · rw [hread.packId, hread.attemptId, hread.contentKeyId, hread.length, hread.recordCount]
    exact dif_pos facts.valid

theorem requestedRange_of_not_inBounds (h : ¬ range.InBounds len) :
    requestedRange len range = .error .invalidRange := by
  cases range with
  | full => exact absurd trivial h
  | slice offset count =>
    have hstop : ¬ offset + count ≤ len := h
    simp only [requestedRange]
    split
    · rw [if_neg (by omega)]
    · unfold checkedAdd
      split <;> simp [Option.filter, hstop, okOr]

/-- What happens to the cache of a record. -/
inductive CacheEvent where
  | read (range : ByteRange)
  | evict (ordinal : ℕ)

/-- The cache after one event; a failed read caches nothing. -/
def SegmentCache.after (aead : Aead K) (keyring : KeyRing K) (repositoryContext : Bytes) (pack : V3CommitPackRead)
    (commit : Bytes) (cache : SegmentCache) : CacheEvent → SegmentCache
  | .read range =>
    match readPackRangeFromCommit aead keyring repositoryContext pack commit cache range with
    | .ok (_, cache') => cache'
    | .error _ => cache
  | .evict ordinal => cache.evict ordinal

variable (h : RecordIn aead keyring object facts record plaintext packBytes)
  (hread : ReadsFrom object facts record packBytes commit pack)
  (hcontext : validatePublicContext object.repositoryContext object.containingObject = .ok ())

include h hread

theorem readPackRangeFromCommit_invalidRange (hrange : ¬ range.InBounds plaintext.length) (repositoryContext : Bytes)
    (cache : SegmentCache) :
    readPackRangeFromCommit aead keyring repositoryContext pack commit cache range = .error .invalidRange := by
  have hcontent : pack.contentLen = plaintext.length := hread.contentLen.trans h.sealed.1.symm
  simp only [readPackRangeFromCommit, hread.facts_eq, Except.mapError, ok_bind, hcontent,
    requestedRange_of_not_inBounds hrange, error_bind]

include hcontext

theorem readPlannedSpan_eq (hcache : CacheSound plaintext cache) {requested : ℕ × ℕ}
    (hrange : InRange plaintext.length requested) :
    ∃ cache', readPlannedSpan aead keyring object.repositoryContext pack facts record.reference
        (plannedSpan record.reference record.plaintextLen requested) commit cache =
          .ok (slice plaintext requested.1 requested.2, cache') ∧ CacheSound plaintext cache' := by
  have hlen : plaintext.length = record.plaintextLen := h.sealed.1
  obtain ⟨hmono, hend⟩ := (hlen ▸ hrange).cipherAt_le
  have hstop := h.valid.stop
  have hwithin := hread.within
  have hcommit := hread.commitLen
  have hlength := hread.length
  have hopened := openV3PayloadPackRecordSpan_eq h hrange
  set span := plannedSpan record.reference record.plaintextLen requested with hspan
  have hplanned : span.offset + span.storedLen ≤ pack.length := by
    simp only [hspan, plannedSpan]
    omega
  have hciphertext : slice commit (pack.packOffset + span.offset)
      (pack.packOffset + span.offset + span.storedLen) = slice packBytes span.offset (span.offset + span.storedLen) := by
    rw [← hread.bytes, slice_slice (Nat.add_le_add_left hplanned _), Nat.add_assoc]
  refine ⟨cacheDecryptedSegmentSpan cache (rangeSegments plaintext requested), ?_,
    hcache.caches.insert fun segment hsegment => ?_⟩
  · simp only [readPlannedSpan, V3PayloadPackRecordContext.new, ok_iff, checkedAdd_eq_some, getRange_eq_some]
    refine ⟨_, ⟨by omega, rfl⟩, _, ⟨⟨Nat.le_add_right _ _, by omega⟩, hciphertext⟩, _, ⟨(), ?_, (), ?_, rfl⟩,
      ⟨slice plaintext requested.1 requested.2, rangeSegments plaintext requested⟩, ?_, rfl⟩
    · rw [hread.commitKey]
      exact hcontext
    · rw [validateV3PayloadPackRecordRef_eq_ok, hread.contentLen]
      exact h.valid
    · rw [hread.commitKey, hread.packSectionOrdinal, hread.contentLen]
      exact hopened
  · obtain ⟨relative, -, rfl⟩ := List.mem_map.mp hsegment
    rfl

/-- A read of a planned range, from the cache or from the commit. -/
theorem readRequested_eq (hcache : CacheSound plaintext cache) (range : ByteRange) (requested : ℕ × ℕ)
    (hrequested : requestedRange pack.contentLen range = .ok (some requested))
    (hrange : InRange plaintext.length requested) :
    ∃ cache', readPackRangeFromCommit aead keyring object.repositoryContext pack commit cache range =
      .ok (slice plaintext requested.1 requested.2, cache') ∧ CacheSound plaintext cache' := by
  have hlen : plaintext.length = record.plaintextLen := h.sealed.1
  have hplan := planV3PayloadPackRecordRange_eq h.valid (hlen ▸ hrange)
  cases hlookup : cachedDecryptedSegmentSpan cache
      (plannedSpan record.reference record.plaintextLen requested).startSegment
      (plannedSpan record.reference record.plaintextLen requested).segmentCount with
  | none =>
    obtain ⟨cache', hplanned, hsound⟩ := readPlannedSpan_eq h hread hcontext hcache hrange
    refine ⟨cache', ?_, hsound⟩
    simp only [readPackRangeFromCommit, hread.facts_eq, hrequested, Except.mapError, ok_bind]
    simp only [hread.reference, hread.contentLen, hplan, hlookup, ok_bind, hplanned]
  | some found =>
    have hfound : found = (rangeSegments plaintext requested).map Prod.snd := by
      rw [rangeSegments, List.map_map]
      exact hcache.caches.lookup _ hlookup
    have hcached := openV3PayloadPackCachedRecordSpan_eq (hlen ▸ h.valid) hrange
    rw [hlen] at hcached
    refine ⟨cache, ?_, hcache⟩
    simp only [readPackRangeFromCommit, hread.facts_eq, hrequested, Except.mapError, ok_bind]
    simp only [hread.reference, hread.contentLen, hplan, hlookup, ok_bind, hfound, hcached]
    rfl

variable {range : ByteRange}

theorem readPackRangeFromCommit_exact (hcache : CacheSound plaintext cache) (hrange : range.InBounds plaintext.length) :
    ∃ cache', readPackRangeFromCommit aead keyring object.repositoryContext pack commit cache range =
      .ok (range.of plaintext, cache') ∧ CacheSound plaintext cache' := by
  have hlen : plaintext.length = record.plaintextLen := h.sealed.1
  have hcontent : pack.contentLen = plaintext.length := hread.contentLen.trans hlen.symm
  have hpos : 0 < plaintext.length := hlen ▸ h.valid.fits.pos
  have hshort : plaintext.length ≤ maxPackBytes := hlen ▸ h.valid.fits.le
  cases range with
  | full =>
    have hfull := readRequested_eq h hread hcontext hcache .full (0, plaintext.length)
      (by rw [requestedRange, hcontent]) ⟨hpos, le_rfl⟩
    rwa [slice, List.take_length, List.drop_zero] at hfull
  | slice offset count =>
    have hstop : offset + count ≤ plaintext.length := hrange
    by_cases hcount : count = 0
    · -- nothing is planned for an empty range
      subst hcount
      have hrequested : requestedRange pack.contentLen (.slice offset 0) = .ok none := by
        rw [requestedRange, if_pos rfl, hcontent, if_pos (show offset ≤ plaintext.length from hstop)]
      refine ⟨cache, ?_, hcache⟩
      simp only [readPackRangeFromCommit, hread.facts_eq, hrequested, Except.mapError, ok_bind]
      rw [ByteRange.of, Nat.add_zero, slice_self]
      rfl
    · refine readRequested_eq h hread hcontext hcache (.slice offset count) (offset, offset + count) ?_
        ⟨Nat.lt_add_of_pos_right (Nat.pos_of_ne_zero hcount), hstop⟩
      simp only [maxPackBytes] at hshort
      rw [requestedRange, if_neg hcount, hcontent, checkedAdd, if_pos (by omega)]
      simp [Option.filter, hstop, okOr, pure, Except.pure]

theorem CacheSound.after (hcache : CacheSound plaintext cache) (event : CacheEvent) :
    CacheSound plaintext (cache.after aead keyring object.repositoryContext pack commit event) := by
  cases event with
  | evict ordinal => exact hcache.caches.evict ordinal
  | read range =>
    simp only [SegmentCache.after]
    by_cases hrange : range.InBounds plaintext.length
    · obtain ⟨cache', hexact, hsound⟩ := readPackRangeFromCommit_exact h hread hcontext hcache hrange
      rw [hexact]
      exact hsound
    · rw [readPackRangeFromCommit_invalidRange h hread hrange]
      exact hcache

/-- The cache of a record over any history of reads and evictions. -/
theorem CacheSound.history (events : List CacheEvent) (hcache : CacheSound plaintext cache) :
    CacheSound plaintext (events.foldl (SegmentCache.after aead keyring object.repositoryContext pack commit) cache) := by
  induction events generalizing cache with
  | nil => exact hcache
  | cons event events ih => exact ih (hcache.after h hread hcontext event)

end Reads

/-! ## Exactness -/

theorem PackSealed.recordIn {K : Type} {aead : Aead K} {keyring : KeyRing K} {object : PayloadPackContext}
    (h : PackSealed aead keyring object inputs sealed) (hi : inputs[i]? = some plaintext) :
    ∃ record, sealed.layout.records[i]? = some record ∧
      RecordIn aead keyring object sealed.layout.facts record plaintext sealed.bytes := by
  obtain ⟨record, hrecord, hsealed⟩ := h.records hi
  exact ⟨record, hrecord, h.layout.records hrecord, h.length, hsealed⟩

/-- **Packed payload reads are exact.**  The records of a sealed pack tile it.  For every record: a non-empty range
inside the plaintext is planned inside the pack, and the planned bytes, opened, or the record's segments, cached, give
exactly that range; after any history of reads and evictions a read of any range inside the record returns that range;
and neither the offsets nor the one unchecked addition, to a segment ordinal, overflow. -/
theorem packed_reads_exact {K : Type} (aead : Aead K) (keyring : KeyRing K) (object : PayloadPackContext)
    (inputs : List Bytes) (packId attemptId : Digest) (order : List ℕ) (sealed : V3SealedPayloadPack)
    (hsealed : sealV3PayloadPackWithLayout aead keyring object inputs packId attemptId order = .ok sealed) :
    (∃ spans : List (ℕ × ℕ), spans.Perm (sealed.layout.records.map stored) ∧ Tiles 0 spans sealed.bytes.length) ∧
    ∀ (i : ℕ) (plaintext : Bytes), inputs[i]? = some plaintext →
      ∃ record context, sealed.layout.records[i]? = some record ∧ record.plaintextLen = plaintext.length ∧
        V3PayloadPackRecordContext.new object sealed.layout.facts record.reference plaintext.length = .ok context ∧
        (∀ start stop, start < stop → stop ≤ plaintext.length → ∃ span segments,
          planV3PayloadPackRecordRange sealed.layout.facts record.reference plaintext.length (start, stop) = .ok span ∧
          span.offset + span.storedLen ≤ sealed.bytes.length ∧
          openV3PayloadPackRecordSpan aead keyring context span
            (slice sealed.bytes span.offset (span.offset + span.storedLen)) =
              .ok ⟨slice plaintext start stop, segments⟩ ∧
          openV3PayloadPackCachedRecordSpan sealed.layout.facts record.reference plaintext.length span
            (segments.map Prod.snd) = .ok (slice plaintext start stop)) ∧
        (∀ commit pack, ReadsFrom object sealed.layout.facts record sealed.bytes commit pack →
          ∀ (events : List CacheEvent) (range : ByteRange), range.InBounds plaintext.length →
            ∃ cache', readPackRangeFromCommit aead keyring object.repositoryContext pack commit
              (events.foldl (SegmentCache.after aead keyring object.repositoryContext pack commit) fun _ => none) range =
                .ok (range.of plaintext, cache')) ∧
        record.stored.2 < 2 ^ 32 ∧
        ∃ count, segmentCount plaintext.length = .ok count ∧ ∀ ordinal < count, ordinal + 1 < 2 ^ 64 := by
  have hpack := sealV3PayloadPackWithLayout_sealed hsealed
  refine ⟨hpack.length ▸ hpack.layout.tiles, fun i plaintext hi => ?_⟩
  obtain ⟨record, hrecord, hin⟩ := hpack.recordIn hi
  have hlen : plaintext.length = record.plaintextLen := hin.sealed.1
  have hstop := hin.valid.stop
  have hmax := sealed.layout.facts.valid.2.2.1
  simp only [maxPackBytes] at hmax
  refine ⟨record, ⟨object, sealed.layout.facts, record.reference, record.plaintextLen⟩, hrecord, hlen.symm, ?_, ?_, ?_,
    ?_, ?_⟩
  · simp only [V3PayloadPackRecordContext.new, ok_iff]
    exact ⟨(), hpack.context, (), validateV3PayloadPackRecordRef_eq_ok.mpr (hlen ▸ hin.valid), by rw [hlen]⟩
  · intro start stop hlt hle
    have hrange : InRange plaintext.length (start, stop) := ⟨hlt, hle⟩
    obtain ⟨hmono, hend⟩ := (hlen ▸ hrange).cipherAt_le
    refine ⟨plannedSpan record.reference record.plaintextLen (start, stop), rangeSegments plaintext (start, stop),
      ?_, ?_, openV3PayloadPackRecordSpan_eq hin hrange, ?_⟩
    · rw [hlen]
      exact planV3PayloadPackRecordRange_eq hin.valid (hlen ▸ hrange)
    · rw [hpack.length]
      simp only [plannedSpan]
      omega
    · rw [← hlen]
      exact openV3PayloadPackCachedRecordSpan_eq (hlen ▸ hin.valid) hrange
  · intro commit pack hread events range hrange
    have hcache := CacheSound.history hin hread hpack.context events (CacheSound.empty plaintext)
    obtain ⟨cache', hexact, -⟩ := readPackRangeFromCommit_exact hin hread hpack.context hcache hrange
    exact ⟨cache', hexact⟩
  · show record.reference.physicalOffset + _ < _
    omega
  · have hfits : Fits plaintext.length := hlen ▸ hin.valid.fits
    have hcount := Payload.segments_le hfits
    exact ⟨_, segmentCount_eq hfits, fun ordinal hordinal => by omega⟩

/-! ## A pack of two records -/

/-- A cipher that appends an empty tag. -/
def plainAead : Aead Unit where
  deriveHmac _ _ _ := Vector.replicate 32 0
  encrypt _ _ _ plaintext := some (plaintext ++ List.replicate 16 0)
  decrypt _ _ _ ciphertext := some (ciphertext.take (ciphertext.length - 16))
  decrypt_encrypt := by
    rintro _ _ _ plaintext _ ⟨⟩
    simp

def sampleContentKey : KeyId := ⟨"content-1", by decide⟩

def sampleKeyring : KeyRing Unit where
  keys := [⟨sampleContentKey, .content, .primary, ()⟩]
  ids_nodup := List.nodup_singleton _

def sampleObject : PayloadPackContext := ⟨[1], ⟨"commits/sample-pack", by decide⟩, 0⟩

def samplePack : Except V3FormatError V3SealedPayloadPack :=
  sealV3PayloadPackWithLayout plainAead sampleKeyring sampleObject [[1, 2, 3, 4], [5, 6]] (Vector.replicate 32 1)
    (Vector.replicate 32 2) [1, 0]

theorem packed_reads_exact_sample :
    ∃ sealed, samplePack = .ok sealed ∧ sealed.bytes.length = 38 ∧ ∃ record context span segments,
      sealed.layout.records[0]? = some record ∧
      planV3PayloadPackRecordRange sealed.layout.facts record.reference 4 (1, 3) = .ok span ∧
      openV3PayloadPackRecordSpan plainAead sampleKeyring context span
        (slice sealed.bytes span.offset (span.offset + span.storedLen)) = .ok ⟨[2, 3], segments⟩ := by
  have hlen : samplePack.toOption.map (fun sealed => sealed.bytes.length) = some 38 := by decide +kernel
  cases hsealed : samplePack with
  | error e =>
    rw [hsealed] at hlen
    cases hlen
  | ok sealed =>
    rw [hsealed] at hlen
    obtain ⟨-, hrecords⟩ := packed_reads_exact _ _ _ _ _ _ _ sealed hsealed
    obtain ⟨record, context, hrecord, -, -, hranges, -⟩ := hrecords 0 [1, 2, 3, 4] rfl
    obtain ⟨span, segments, hplan, -, hopen, -⟩ := hranges 1 3 (by decide) (by decide)
    exact ⟨sealed, rfl, Option.some.inj hlen, record, context, span, segments, hrecord, hplan, hopen⟩

end Rs3.Payload
