/-
# Rs3.Payload.PointerFacts — what a decoded run names, the pack reader accepts.

The index-run decoder of `rs3-index` and the pack reader of `rs3-repository` bound the same facts separately.  A
decoded pointer passed `validate_payload_pointer` against a self pack or container that passed its own checks; a read
passes the facts of that pack through `V3PayloadPackFacts::new` and the record through
`validate_v3_payload_pack_record_ref`.  The bounds agree but for the length of a content key identifier: 256 bytes for
the decoder, 255 for the reader.  Since every pack of a decoded run is named by one of its mutations, the run is
readable exactly when all its key identifiers keep the smaller bound.
-/
import Rs3.Index.RunUses
import Rs3.Payload.Pack

namespace Rs3.Payload

open Index

/-! ## The facts of a read -/

/-- The pack facts of the commit that contains the run. -/
def selfPackFacts (pack : IndexRunSelfPack) : Except V3FormatError V3PayloadPackFacts := do
  let storedLen ← okOr (tryFrom 32 pack.storedLen) .invalidPayloadPack
  V3PayloadPackFacts.new pack.packId pack.attemptId pack.contentKeyId storedLen pack.recordCount

/-- The read of a record of another commit's pack. -/
def containerRead (container : IndexRunContainer) (record : IndexPackRecordPointer) (contentLen : ℕ) :
    V3CommitPackRead where
  commitKey := container.objectId
  commitStoredLen := container.storedLen
  packSectionOrdinal := container.packSectionOrdinal
  packOffset := container.packSectionOffset
  length := container.packSectionLen
  packId := container.packId
  attemptId := container.attemptId
  contentKeyId := container.contentKeyId
  packRecordCount := container.packRecordCount
  recordOrdinal := record.recordOrdinal
  recordOffset := record.physicalOffset
  contentLen := contentLen

def recordRef (record : IndexPackRecordPointer) : V3PayloadPackRecordRef :=
  ⟨record.recordOrdinal, record.physicalOffset⟩

/-! ## Lengths -/

theorem divCeil_segmentBytes : divCeil n (64 * 1024) = (n + (segmentBytes - 1)) / segmentBytes := by
  unfold divCeil segmentBytes
  split_ifs <;> omega

variable {record : IndexPackRecordPointer}

/-- A record inside a pack has the length that the reader computes. -/
theorem recordStoredLen_of_range
    (h : validateRecordRange record contentLen packStoredLen = .ok ()) (hpack : packStoredLen ≤ maxPackBytes) :
    ∃ storedLen, recordStoredLen contentLen = .ok storedLen ∧ record.physicalOffset + storedLen ≤ packStoredLen := by
  simp only [validateRecordRange, derivedRecordStoredLen, ok_iff, checkedMul_eq_some, checkedAdd_eq_some,
    divCeil_segmentBytes] at h
  obtain ⟨_, ⟨_, ⟨htags, rfl⟩, hstored, rfl⟩, _, ⟨_, rfl⟩, hrange⟩ := h
  rw [not_or, not_lt] at hrange
  obtain ⟨hpositive, hinside⟩ := hrange
  have hsmall : contentLen ≤ 32 * 1024 * 1024 := by
    unfold maxPackBytes at hpack
    omega
  refine ⟨contentLen + (contentLen + (segmentBytes - 1)) / segmentBytes * tagLen, ?_, hinside⟩
  simp only [recordStoredLen, segmentCount, ok_iff, checkedAdd_eq_some, checkedMul_eq_some, tryFrom_eq_some]
  have hrounded : contentLen + (segmentBytes - 1) < 2 ^ 64 := by
    unfold segmentBytes
    omega
  have hlen : contentLen + (contentLen + (segmentBytes - 1)) / segmentBytes * tagLen ≤ maxPackBytes := by
    unfold tagLen
    omega
  refine ⟨_, ⟨hpositive, _, ⟨hrounded, rfl⟩, rfl⟩, _, ⟨htags, rfl⟩, _, ⟨hstored, rfl⟩, _, ⟨?_, rfl⟩, hlen, rfl⟩
  exact hlen.trans_lt (by decide)

/-- A record that the decoder found inside a pack passes the reader's check against the pack's facts. -/
theorem recordRef_valid (hordinal : record.recordOrdinal < facts.recordCount)
    (hrange : validateRecordRange record contentLen facts.storedLen = .ok ()) :
    validateV3PayloadPackRecordRef facts (recordRef record) contentLen = .ok () := by
  obtain ⟨storedLen, hlen, hinside⟩ := recordStoredLen_of_range hrange facts.valid.2.2.1
  have hfits : record.physicalOffset + storedLen < 2 ^ 32 := hinside.trans_lt (facts.valid.2.2.1.trans_lt (by decide))
  simp only [validateV3PayloadPackRecordRef, ok_iff, checkedAdd_eq_some]
  exact ⟨hordinal, storedLen, hlen, _, ⟨hfits, rfl⟩, hinside⟩

/-! ## Facts -/

/-- The bounds that decoder and reader share, with the reader's bound on the key identifier. -/
theorem packFacts_new (hkey : textLen contentKeyId.asStr ≤ 255)
    (hbounds : ¬(storedLen = 0 ∨ packMaxStoredBytes < storedLen ∨ recordCount = 0 ∨ packMaxRecords < recordCount)) :
    ∃ facts, (do
        let storedLen ← okOr (tryFrom 32 storedLen) V3FormatError.invalidPayloadPack
        V3PayloadPackFacts.new packId attemptId contentKeyId storedLen recordCount) = .ok facts ∧
      facts.storedLen = storedLen ∧ facts.recordCount = recordCount := by
  unfold packMaxStoredBytes packMaxRecords at hbounds
  rw [textLen, length_utf8] at hkey
  have hvalid : contentKeyId.asStr.utf8ByteSize ≤ 255 ∧ 0 < storedLen ∧ storedLen ≤ maxPackBytes ∧ 0 < recordCount ∧
      recordCount ≤ maxPackRecords := by
    unfold maxPackBytes maxPackRecords
    omega
  have hfits : tryFrom 32 storedLen = some storedLen := by
    rw [tryFrom_eq_some]
    omega
  refine ⟨⟨packId, attemptId, contentKeyId, storedLen, recordCount, hvalid⟩, ?_, rfl, rfl⟩
  rw [hfits]
  exact dif_pos hvalid

theorem selfPackFacts_ok
    (hvalid : validateSelfPack limits (some pack) = .ok ()) (hkey : textLen pack.contentKeyId.asStr ≤ 255) :
    ∃ facts, selfPackFacts pack = .ok facts ∧ facts.storedLen = pack.storedLen ∧
      facts.recordCount = pack.recordCount := by
  simp only [validateSelfPack, ok_iff] at hvalid
  obtain ⟨_, -, hbounds⟩ := hvalid
  exact packFacts_new hkey hbounds

theorem containerRead_facts (hfits : ContainerFits limits container) (hkey : textLen container.contentKeyId.asStr ≤ 255)
    (record : IndexPackRecordPointer) (contentLen : ℕ) :
    ∃ facts, (containerRead container record contentLen).facts = .ok facts ∧
      facts.storedLen = container.packSectionLen ∧ facts.recordCount = container.packRecordCount := by
  have hrange := hfits.range
  simp only [validateContainerRange, ok_iff, checkedAdd_eq_some] at hrange
  obtain ⟨_, ⟨hsum, rfl⟩, hbounds⟩ := hrange
  have hpack : ¬(container.packSectionLen = 0 ∨ packMaxStoredBytes < container.packSectionLen ∨
      container.packRecordCount = 0 ∨ packMaxRecords < container.packRecordCount) := by
    tauto
  have hinside : container.packSectionOffset + container.packSectionLen ≤ container.storedLen := by
    rw [← not_lt]
    tauto
  obtain ⟨facts, hnew, hfacts⟩ := packFacts_new hkey hpack
  have hsection : ((checkedAdd 64 container.packSectionOffset container.packSectionLen).any
      fun stop => stop ≤ container.storedLen) = true := by
    rw [checkedAdd, if_pos hsum]
    exact decide_eq_true hinside
  exact ⟨facts, bind_eq_ok.mpr ⟨(), ensure_of hsection, hnew⟩, hfacts⟩

/-! ## Decoded runs -/

/-- The read of every pack pointer of the run is well formed. -/
structure PointersReadable (run : IndexRun) : Prop where
  selfPack : ∀ u record, .upsert u ∈ run.mutations → u.payload = .selfPack record →
    ∃ pack facts, run.selfPack = some pack ∧ selfPackFacts pack = .ok facts ∧
      validateV3PayloadPackRecordRef facts (recordRef record) u.contentLen = .ok ()
  externalPack : ∀ u ordinal record, .upsert u ∈ run.mutations → u.payload = .externalPack ordinal record →
    ∃ container facts, run.containers[ordinal]? = some container ∧
      (containerRead container record u.contentLen).facts = .ok facts ∧
      validateV3PayloadPackRecordRef facts (recordRef record) u.contentLen = .ok ()

/-- Every content key identifier is one that the reader takes. -/
def keyIdsReadable (run : IndexRun) : Bool :=
  (run.selfPack.all fun pack => textLen pack.contentKeyId.asStr ≤ 255) &&
    run.containers.all fun container => textLen container.contentKeyId.asStr ≤ 255

theorem keyIdsReadable_iff : keyIdsReadable run = true ↔
    (∀ pack, run.selfPack = some pack → textLen pack.contentKeyId.asStr ≤ 255) ∧
      ∀ container ∈ run.containers, textLen container.contentKeyId.asStr ≤ 255 := by
  simp only [keyIdsReadable, Bool.and_eq_true, Option.all_eq_true, List.all_eq_true, decide_eq_true_eq]

theorem pointersReadable_of_keyIds (haccepted : run.PayloadsAccepted limits) (hkeys : keyIdsReadable run = true) :
    PointersReadable run := by
  rw [keyIdsReadable_iff] at hkeys
  -- first the records of the run's own pack, then those of its containers
  constructor
  · intro u record hu hpayload
    obtain ⟨hholds, -, hpointer⟩ := haccepted.mutations _ hu u rfl
    rw [hpayload] at hholds hpointer
    obtain ⟨pack, hpack, hordinal⟩ := hholds
    have hself := haccepted.selfPack
    have hsome : run.selfPack = some pack := hpack
    rw [hsome] at hself
    obtain ⟨facts, hfacts, hlen, hcount⟩ := selfPackFacts_ok hself (hkeys.1 pack hsome)
    refine ⟨pack, facts, hsome, hfacts, recordRef_valid (by rw [hcount]; exact hordinal) ?_⟩
    simp only [validatePayloadPointer, ok_iff] at hpointer
    obtain ⟨pack', hpack', hrange⟩ := hpointer
    obtain rfl := Option.some.inj (hpack'.symm.trans hpack)
    rw [hlen]
    exact hrange
  · intro u ordinal record hu hpayload
    obtain ⟨hholds, -, hpointer⟩ := haccepted.mutations _ hu u rfl
    rw [hpayload] at hholds hpointer
    obtain ⟨container, hcontainer, hordinal⟩ := hholds
    have hmem : container ∈ run.containers := List.mem_of_getElem? hcontainer
    obtain ⟨facts, hfacts, hlen, hcount⟩ :=
      containerRead_facts (haccepted.containers container hmem) (hkeys.2 container hmem) record u.contentLen
    refine ⟨container, facts, hcontainer, hfacts, recordRef_valid (by rw [hcount]; exact hordinal) ?_⟩
    simp only [validatePayloadPointer, ok_iff] at hpointer
    obtain ⟨container', hcontainer', hrange⟩ := hpointer
    obtain rfl := Option.some.inj (hcontainer'.symm.trans hcontainer)
    rw [hlen]
    exact hrange

/-- The reader's bound on the key identifier, from facts it accepted. -/
theorem keyId_of_packFacts (h : V3PayloadPackFacts.new packId attemptId contentKeyId storedLen recordCount = .ok facts) :
    textLen contentKeyId.asStr ≤ 255 := by
  unfold V3PayloadPackFacts.new at h
  split at h
  · rename_i hvalid
    rw [textLen, length_utf8]
    exact hvalid.1
  · cases h

theorem keyIds_of_pointersReadable (hnamed : run.PacksNamed) (h : PointersReadable run) :
    keyIdsReadable run = true := by
  rw [keyIdsReadable_iff]
  constructor
  · intro pack hpack
    obtain ⟨u, record, hu, hpayload⟩ := hnamed.selfPack (by rw [hpack]; rfl)
    obtain ⟨pack', facts, hpack', hfacts, -⟩ := h.selfPack u record hu hpayload
    cases hpack.symm.trans hpack'
    simp only [selfPackFacts, bind_eq_ok] at hfacts
    obtain ⟨_, -, hnew⟩ := hfacts
    exact keyId_of_packFacts hnew
  · intro container hcontainer
    obtain ⟨ordinal, hordinal⟩ := List.getElem?_of_mem hcontainer
    obtain ⟨u, record, hu, hpayload⟩ := hnamed.containers ordinal (List.getElem?_eq_some_iff.mp hordinal).1
    obtain ⟨container', facts, hcontainer', hfacts, -⟩ := h.externalPack u ordinal record hu hpayload
    cases hordinal.symm.trans hcontainer'
    simp only [V3CommitPackRead.facts, bind_eq_ok] at hfacts
    obtain ⟨_, -, _, -, hnew⟩ := hfacts
    exact keyId_of_packFacts hnew

/-- A decoded run is readable exactly when every content key identifier of its packs is one the reader takes. -/
theorem decoded_pointers_readable (frames : List Bytes) (run : IndexRun)
    (hrun : decodeIndexRunFrames .default frames = .ok run) : PointersReadable run ↔ keyIdsReadable run = true :=
  ⟨keyIds_of_pointersReadable (decodeIndexRunFrames_packsNamed hrun),
    pointersReadable_of_keyIds (decodeIndexRunFrames_accepted hrun)⟩

/-! ## One byte too many -/

/-- The start of a frame of a run with one mutation. -/
def pointerHeader (role : UInt8) : Bytes := indexRunPlaintextDomain ++ [0, 10, role, 0] ++ toBe 8 1 ++ [1, 1, 1]

/-- A run whose self pack is sealed under a key with an identifier of the given length; its only mutation puts one
byte, the first record of the pack. -/
def pointerFrames (keyLen : ℕ) : List Bytes :=
  [pointerHeader 0 ++ ([1] ++ List.replicate 32 7 ++ List.replicate 32 8 ++ varint keyLen ++ List.replicate keyLen 107 ++
      toBe 8 17 ++ [1, 1] ++ sized (3 :: wireText "pointer-namespace")),
    pointerHeader 1 ++ sized ([0, 0] ++ List.replicate 32 9 ++ [0, 1, 1, 0, 0, 1] ++ toBe 8 5 ++ [0, 0, 0] ++
      List.replicate 4 0 ++ List.replicate 16 3),
    pointerHeader 2 ++ sized ([0, 7] ++ utf8 "pointer" ++ [0, 0, 1, 1] ++ toBe 8 5)]

/-- The run decodes, and its record cannot be read: the facts of its pack are refused. -/
theorem decoded_pointer_refused :
    ((decodeIndexRunFrames .default (pointerFrames 256)).toOption.map fun run =>
      run.mutations.map IndexMutation.payload) = some [.selfPack ⟨0, 0⟩] ∧
    ((decodeIndexRunFrames .default (pointerFrames 256)).toOption.bind fun run =>
      run.selfPack.map fun pack => (selfPackFacts pack).isOk) = some false := by
  decide +kernel

/-- With one byte less the record is readable. -/
theorem decoded_pointers_readable_sample :
    ∃ run, decodeIndexRunFrames .default (pointerFrames 255) = .ok run ∧ PointersReadable run := by
  have hkeys : (decodeIndexRunFrames .default (pointerFrames 255)).toOption.any
      keyIdsReadable = true := by
    decide +kernel
  cases hrun : decodeIndexRunFrames .default (pointerFrames 255) with
  | error e =>
    rw [hrun] at hkeys
    cases hkeys
  | ok run =>
    rw [hrun] at hkeys
    exact ⟨run, rfl, (decoded_pointers_readable (pointerFrames 255) run hrun).mpr hkeys⟩

end Rs3.Payload
