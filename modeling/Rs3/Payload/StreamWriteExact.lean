/-
# Rs3.Payload.StreamWriteExact — a streaming upload does not depend on how its body is chunked.

Both buffers hand on the blocks of what they were given, so the sealed segments are those of the whole plaintext and
the parts are those of the whole ciphertext; a body of another length than declared never reaches publication.
-/
import Rs3.Payload.StreamWrite

namespace Rs3.Payload

open List BlockBuffer SegmentWriter

open Crypto SegmentedPayloadSealer
open Rs3.Index (divCeil)

section Upload

variable {K : Type} {context : UploadContext K} {provider : UploadProvider} {write : V3StandalonePayloadWrite}
  {sealer : SegmentedPayloadSealer} {partSize : ℕ}

/-! ## The assembler -/

theorem putPart_fails (uploaded : Uploaded) (part : Bytes) :
    FailsOnly .storageOperationFailed (putPart provider uploaded part) := by
  intro e herror
  unfold putPart ensure at herror
  split at herror
  · rw [ok_bind] at herror
    cases hindex : checkedAdd 64 uploaded.index 1 with
    | none =>
      rw [hindex] at herror
      cases herror
      rfl
    | some index =>
      rw [hindex] at herror
      cases herror
  · cases herror
    rfl

theorem pushBytes_fails (writer : SegmentWriter partSize) (bytes : Bytes) :
    FailsOnly .storageOperationFailed (writer.pushBytes provider bytes) := by
  intro e herror
  simp only [pushBytes, absorb_eq, bind_assoc, pure_bind] at herror
  have hfails := FailsOnly.foldlM (e := .storageOperationFailed) (f := putPart provider)
    (fun uploaded part => putPart_fails uploaded part) (fullBlocks partSize (writer.currentPart.held ++ bytes))
    writer.uploaded
  cases hparts : (fullBlocks partSize (writer.currentPart.held ++ bytes)).foldlM (putPart provider) writer.uploaded with
  | error e' =>
    rw [hparts, error_bind] at herror
    cases herror
    exact hfails _ hparts
  | ok uploaded =>
    rw [hparts, ok_bind] at herror
    cases herror

theorem foldlM_pushBytes (writer : SegmentWriter partSize) (pieces : List Bytes) :
    pieces.foldlM (pushBytes provider) writer = writer.pushBytes provider pieces.flatten := by
  induction pieces generalizing writer with
  | nil =>
    rw [foldlM_nil, flatten_nil, pushBytes, absorb_nil, ok_bind, append_nil]
  | cons piece pieces ih =>
    rw [foldlM_cons, flatten_cons]
    simp only [ih]
    simp only [pushBytes, absorb_append, bind_assoc, pure_bind, append_assoc]

theorem foldlM_putPart_parts {uploaded result : Uploaded} {parts : List Bytes}
    (h : parts.foldlM (putPart provider) uploaded = .ok result) : result.parts = uploaded.parts ++ parts := by
  induction parts generalizing uploaded with
  | nil => rw [← Except.ok.inj h, append_nil]
  | cons part parts ih =>
    rw [foldlM_cons, bind_eq_ok] at h
    obtain ⟨next, hnext, hrest⟩ := h
    simp only [putPart, ok_iff] at hnext
    obtain ⟨-, _, -, rfl⟩ := hnext
    rw [ih hrest, append_assoc]
    rfl

/-! ## The segments -/

/-- Segment `j` of a plaintext, sealed and pushed. -/
def pushChunk (context : UploadContext K) (provider : UploadProvider) (write : V3StandalonePayloadWrite)
    (sealer : SegmentedPayloadSealer) (size : ℕ) (plaintext : Bytes) (isFinal : Bool) (writer : SegmentWriter partSize)
    (j : ℕ) : Except V3FormatError (SegmentWriter partSize) :=
  pushStandalonePayloadSegment context provider write sealer writer j (chunk size plaintext j) isFinal

variable {size : ℕ} {plaintext : Bytes}

/-- After the first full segments: all but the last of them are pushed, and that one is pending. -/
theorem foldlM_segmentFull (hk : k < 2 ^ 64) :
    ((List.range k).map (chunk size plaintext)).foldlM (segmentFull context provider write sealer) ⟨writer, none, 0⟩ =
      (do
        let writer ← (List.range (k - 1)).foldlM (pushChunk context provider write sealer size plaintext false) writer
        return ⟨writer, if k = 0 then none else some (k - 1, chunk size plaintext (k - 1)), k⟩) := by
  induction k with
  | zero => rfl
  | succ k ih =>
    have hindex : checkedAdd 64 k 1 = some (k + 1) := checkedAdd_eq_some.mpr ⟨hk, rfl⟩
    rw [range_succ, map_append, foldlM_append, ih (by omega), bind_assoc, Nat.add_sub_cancel]
    simp only [pure_bind, map_singleton, foldlM_cons, foldlM_nil, bind_pure, segmentFull, hindex, okOr,
      ok_bind, Nat.succ_ne_zero, if_false]
    cases k with
    | zero => rfl
    | succ k =>
      rw [range_succ, foldlM_append, Nat.add_sub_cancel, bind_assoc]
      refine bind_congr fun writer => ?_
      simp only [Nat.succ_ne_zero, if_false, pushPending, foldlM_cons, foldlM_nil, bind_pure]
      rfl

/-- All segments, the last one final. -/
def pushAll (context : UploadContext K) (provider : UploadProvider) (write : V3StandalonePayloadWrite)
    (sealer : SegmentedPayloadSealer) (size : ℕ) (plaintext : Bytes) (writer : SegmentWriter partSize) :
    Except V3FormatError (SegmentWriter partSize) :=
  (List.range (divCeil plaintext.length size)).foldlM (fun writer j =>
    pushChunk context provider write sealer size plaintext (j + 1 = divCeil plaintext.length size) writer j) writer

theorem pushAll_succ (writer : SegmentWriter partSize) (hm : divCeil plaintext.length size = m + 1) :
    pushAll context provider write sealer size plaintext writer = (do
      let writer ← (List.range m).foldlM (pushChunk context provider write sealer size plaintext false) writer
      pushChunk context provider write sealer size plaintext true writer m) := by
  rw [pushAll, hm, range_succ, foldlM_append]
  have hothers : ∀ (s : SegmentWriter partSize), ∀ j ∈ List.range m,
      pushChunk context provider write sealer size plaintext (decide (j + 1 = m + 1)) s j =
        pushChunk context provider write sealer size plaintext false s j := by
    intro s j hj
    rw [decide_eq_false (by have := mem_range.mp hj; omega)]
  rw [foldlM_congr_mem hothers]
  refine bind_congr fun writer => ?_
  simp [foldlM_cons]

/-- The loop over the segments of a plaintext, and its end. -/
theorem segments_pushed (hsize : 0 < size) (writer : SegmentWriter partSize) (hlen : plaintext.length < 2 ^ 64) :
    (do
      let absorbed ← (⟨[], hsize⟩ : BlockBuffer UInt8 size).absorb (segmentFull context provider write sealer)
        ⟨writer, none, 0⟩ plaintext
      finishSegments context provider write sealer absorbed.1 absorbed.2) =
      pushAll context provider write sealer size plaintext writer := by
  have hdiv := Nat.div_add_mod plaintext.length size
  have hmod := Nat.mod_lt plaintext.length hsize
  have hle := Nat.div_le_self plaintext.length size
  rw [BlockBuffer.absorb_eq, nil_append, fullBlocks]
  rw [show ((List.range (plaintext.length / size)).map fun j => slice plaintext (j * size) ((j + 1) * size)) =
    (List.range (plaintext.length / size)).map (chunk size plaintext) from rfl]
  rw [foldlM_segmentFull (Nat.lt_of_le_of_lt hle hlen)]
  simp only [bind_assoc, pure_bind, finishSegments, BlockBuffer.after, nil_append]
  have hrest : blockRest size plaintext = chunk size plaintext (plaintext.length / size) := by
    rw [blockRest, chunk, slice, take_of_length_le]
    rw [Nat.succ_mul, Nat.mul_comm]
    omega
  have hempty : blockRest size plaintext = [] ↔ plaintext.length % size = 0 := by
    rw [blockRest, drop_eq_nil_iff, Nat.mul_comm]
    omega
  -- one full segment is held back, since only the last one is sealed as final
  by_cases hexact : plaintext.length % size = 0
  · simp only [if_pos (hempty.mpr hexact)]
    have hcount : divCeil plaintext.length size = plaintext.length / size := by rw [divCeil, if_pos hexact, Nat.add_zero]
    cases hfull : plaintext.length / size with
    | zero =>
      rw [pushAll, hcount, hfull]
      rfl
    | succ m =>
      rw [pushAll_succ writer (hcount.trans hfull), Nat.add_sub_cancel]
      rfl
  · simp only [if_neg (fun hnil => hexact (hempty.mp hnil))]
    have hcount : divCeil plaintext.length size = plaintext.length / size + 1 := by rw [divCeil, if_neg hexact]
    rw [pushAll_succ writer hcount, hrest]
    cases hfull : plaintext.length / size with
    | zero => rfl
    | succ m =>
      rw [range_succ, foldlM_append, Nat.add_sub_cancel, bind_assoc]
      refine bind_congr fun writer => ?_
      simp only [Nat.succ_ne_zero, if_false, pushPending, foldlM_cons, foldlM_nil, bind_pure]
      rfl

/-- All segments pushed are the one-shot sealing, pushed. -/
theorem pushAll_eq (hsealer : sealer.chunkSize = size) :
    pushAll context provider write sealer size plaintext writer = (do
      let sealed ← (sealer.sealPart context.aead.toAead context.keyring write.objectId plaintext).mapError
        fun _ => V3FormatError.storageOperationFailed
      writer.pushBytes provider sealed.flatten) := by
  subst hsealer
  have hmake : ∀ j, FailsOnly V3FormatError.storageOperationFailed
      ((sealer.sealSegment context.aead.toAead context.keyring write.objectId j (chunk sealer.chunkSize plaintext j)
        (j + 1 = divCeil plaintext.length sealer.chunkSize)).mapError fun _ => V3FormatError.storageOperationFailed) := by
    intro j e herror
    cases hsegment : sealer.sealSegment context.aead.toAead context.keyring write.objectId j
        (chunk sealer.chunkSize plaintext j) (j + 1 = divCeil plaintext.length sealer.chunkSize) with
    | error e' =>
      rw [hsegment] at herror
      cases herror
      rfl
    | ok bytes =>
      rw [hsegment] at herror
      cases herror
  have hmapError : ∀ (js : List ℕ) (f : ℕ → Except PayloadError Bytes),
      (js.mapM fun j => (f j).mapError fun _ => V3FormatError.storageOperationFailed) =
        (js.mapM f).mapError fun _ => V3FormatError.storageOperationFailed := by
    intro js f
    induction js with
    | nil => rfl
    | cons j js ih =>
      rw [mapM_cons, mapM_cons, ih]
      cases f j with
      | error e => rfl
      | ok bytes => cases js.mapM f <;> rfl
  have hloop := foldlM_make_use hmake (fun s y => @pushBytes_fails provider _ s y)
    (List.range (divCeil plaintext.length sealer.chunkSize)) writer
  rw [hmapError] at hloop
  rw [show pushAll context provider write sealer sealer.chunkSize plaintext writer = _ from hloop]
  simp only [foldlM_pushBytes]
  rfl

/-! ## The body -/

/-- A body that the upload takes: chunks only, not above the limit, and of the declared length. -/
structure BodyAccepted (write : V3StandalonePayloadWrite) (events : List BodyEvent) : Prop where
  chunks : ∀ event ∈ events, event.failure = none
  le : (bodyBytes events).length ≤ write.maxPlaintextLen
  expected : ∀ expected ∈ write.expectedPlaintextLen, (bodyBytes events).length = expected

theorem bodyBytes_chunk : bodyBytes (.chunk bytes :: events) = bytes ++ bodyBytes events := rfl

theorem consumeBody_chunks {segmentSize : ℕ} {state : BodyState partSize segmentSize} {events : List BodyEvent}
    (hchunks : ∀ event ∈ events, event.failure = none)
    (hle : state.plaintextSeen + (bodyBytes events).length ≤ write.maxPlaintextLen) :
    consumeBody context provider write sealer state events = (do
      let absorbed ← state.segmentBuffer.absorb (segmentFull context provider write sealer) state.sealed (bodyBytes events)
      return ⟨state.plaintextSeen + (bodyBytes events).length, state.md5 ++ bodyBytes events, absorbed.1, absorbed.2⟩) := by
  induction events generalizing state with
  | nil =>
    rw [consumeBody, bodyBytes, map_nil, flatten_nil, absorb_nil, ok_bind, length_nil, Nat.add_zero, append_nil]
    rfl
  | cons event events ih =>
    rw [forall_mem_cons] at hchunks
    cases event with
    | chunk bytes =>
      rw [bodyBytes_chunk] at hle ⊢
      rw [length_append] at hle ⊢
      rw [consumeBody]
      split
      · rename_i hempty
        subst hempty
        rw [ih hchunks.2 (by simpa using hle), nil_append, length_nil, Nat.zero_add]
      · have hmax := write.max_lt
        rw [show checkedAdd 64 state.plaintextSeen bytes.length = some (state.plaintextSeen + bytes.length) from
          checkedAdd_eq_some.mpr ⟨by omega, rfl⟩, okOr, ok_bind, ensure_of (by omega), ok_bind,
          absorb_append, bind_assoc]
        refine bind_congr fun absorbed => ?_
        rw [ih hchunks.2 (by dsimp only; omega)]
        simp only [append_assoc, Nat.add_assoc]
    | readFailed => cases hchunks.1
    | otherError => cases hchunks.1
    | stalled => cases hchunks.1
    | cancelled => cases hchunks.1

/-- A failure of the body, or too many bytes, ends the loop. -/
theorem consumeBody_error {segmentSize : ℕ} {state : BodyState partSize segmentSize} {events : List BodyEvent}
    (h : ¬((∀ event ∈ events, event.failure = none) ∧
      state.plaintextSeen + (bodyBytes events).length ≤ write.maxPlaintextLen))
    (hseen : state.plaintextSeen ≤ write.maxPlaintextLen) :
    ∃ e, consumeBody context provider write sealer state events = .error e := by
  induction events generalizing state with
  | nil => exact absurd ⟨by simp, by simpa [bodyBytes] using hseen⟩ h
  | cons event events ih =>
    cases event with
    | chunk bytes =>
      rw [bodyBytes_chunk, length_append, forall_mem_cons] at h
      rw [consumeBody]
      split
      · rename_i hempty
        subst hempty
        exact ih (fun hrest => h ⟨⟨rfl, hrest.1⟩, by simpa using hrest.2⟩) hseen
      · have hmax := write.max_lt
        unfold checkedAdd
        split
        · rw [okOr, ok_bind]
          by_cases hle : state.plaintextSeen + bytes.length ≤ write.maxPlaintextLen
          · rw [ensure_of hle, ok_bind]
            cases state.segmentBuffer.absorb (segmentFull context provider write sealer) state.sealed bytes with
            | error e => exact ⟨e, rfl⟩
            | ok absorbed =>
              rw [ok_bind]
              exact ih (fun hrest => h ⟨⟨rfl, hrest.1⟩, by have := hrest.2; dsimp only at this; omega⟩) hle
          · rw [ensure, if_neg hle]
            exact ⟨_, rfl⟩
        · exact ⟨_, rfl⟩
    | readFailed => exact ⟨_, rfl⟩
    | otherError => exact ⟨_, rfl⟩
    | stalled => exact ⟨_, rfl⟩
    | cancelled => exact ⟨_, rfl⟩

/-- An accepted body is sealed as its plaintext in one shot. -/
theorem sealBody_eq (haccepted : BodyAccepted write events)
    (writer : SegmentWriter partSize) (hsize : 0 < write.payloadSegmentSize)
    (hsealer : sealer.chunkSize = write.payloadSegmentSize) :
    sealBody context provider write sealer writer hsize events = (do
      let sealed ← (sealer.sealPart context.aead.toAead context.keyring write.objectId (bodyBytes events)).mapError
        fun _ => .storageOperationFailed
      let writer ← writer.pushBytes provider sealed.flatten
      return ((bodyBytes events).length, bodyBytes events, writer)) := by
  have hmax := write.max_lt
  have hle := haccepted.le
  have hpushed := @segments_pushed _ context provider write sealer _ _ (bodyBytes events) hsize writer (by omega)
  rw [pushAll_eq hsealer] at hpushed
  have hconsume := @consumeBody_chunks _ context provider _ sealer _ _
    ⟨0, [], ⟨writer, none, 0⟩, ⟨[], hsize⟩⟩ _ haccepted.chunks (by simpa using hle)
  simp only [sealBody, hconsume, bind_assoc, pure_bind, Nat.zero_add, nil_append, ensure_of haccepted.expected, ok_bind]
  rw [← bind_assoc, hpushed, bind_assoc]

theorem sealBody_error {events : List BodyEvent} (h : ¬ BodyAccepted write events) (writer : SegmentWriter partSize)
    (hsize : 0 < write.payloadSegmentSize) :
    ∃ e, sealBody context provider write sealer writer hsize events = .error e := by
  by_cases hbody : (∀ event ∈ events, event.failure = none) ∧ (bodyBytes events).length ≤ write.maxPlaintextLen
  · have hconsume := @consumeBody_chunks _ context provider _ sealer _ _
      ⟨0, [], ⟨writer, none, 0⟩, ⟨[], hsize⟩⟩ _ hbody.1 (by simpa using hbody.2)
    have hexpected : ¬ ∀ expected ∈ write.expectedPlaintextLen, (bodyBytes events).length = expected :=
      fun hexpected => h ⟨hbody.1, hbody.2, hexpected⟩
    simp only [sealBody, hconsume, bind_assoc, pure_bind, Nat.zero_add, ensure, if_neg hexpected, error_bind]
    cases (⟨[], hsize⟩ : BlockBuffer UInt8 write.payloadSegmentSize).absorb (segmentFull context provider write sealer)
        ⟨writer, none, 0⟩ (bodyBytes events) with
    | error e => exact ⟨e, rfl⟩
    | ok absorbed => exact ⟨_, rfl⟩
  · obtain ⟨e, he⟩ := @consumeBody_error _ context provider _ sealer _ _
      (⟨0, [], ⟨writer, none, 0⟩, ⟨[], hsize⟩⟩ : BodyState partSize write.payloadSegmentSize) events
      (by simpa using hbody) (Nat.zero_le _)
    exact ⟨e, by rw [sealBody, he, error_bind]⟩

/-! ## Uploads -/

theorem uploadSealer_chunkSize (h : uploadSealer context write = .ok sealer) :
    sealer.chunkSize = write.payloadSegmentSize ∧ 0 < write.payloadSegmentSize := by
  simp only [uploadSealer, ok_iff, SegmentedPayloadSealer.new] at h
  obtain ⟨_, -, _, -, hbounds, _, -, rfl⟩ := h
  exact ⟨rfl, by omega⟩

theorem layoutReference_eq_ok (h : sealer.layoutReference len = .ok layout) :
    Located layout ∧ layout.reference.parts = [⟨sealer.partNumber, sealer.attemptId, len⟩] ∧
      layout.sealer ⟨sealer.partNumber, sealer.attemptId, len⟩ = sealer ∧
      sealer.sealedLenForPlaintextLen len = .ok layout.storedLen := by
  obtain ⟨hlocated, hreference, hcontext, -⟩ := SegmentedPayloadLayout.new_located h
  refine ⟨hlocated, by rw [hreference], by rw [SegmentedPayloadLayout.sealer, hreference, hcontext], ?_⟩
  have hstored := hlocated.stored
  have hbounded := hlocated.bounded
  have hchunk := hlocated.chunk
  have hsegments : layout.segments = partSegments sealer.chunkSize ⟨0, 0, 0⟩ ⟨sealer.partNumber, sealer.attemptId, len⟩ := by
    rw [SegmentedPayloadLayout.segments, hreference]
    exact append_nil _
  rw [hreference] at hchunk
  rw [cipherBefore_eq _ (Nat.le_refl _), hsegments, length_partSegments, plainBefore_part _ _ hchunk] at hstored
  simp only [tagLen] at hstored
  simp only [sealedLenForPlaintextLen, ok_iff, checkedMul_eq_some, checkedAdd_eq_some, tagLen]
  exact ⟨_, ⟨by omega, rfl⟩, by omega, hstored⟩

/-- The parts of an object: full ones, then what is left. -/
def partsOf (partSize : ℕ) (object : Bytes) : List Bytes :=
  fullBlocks partSize object ++ if blockRest partSize object = [] then [] else [blockRest partSize object]

theorem flatten_partsOf (hsize : 0 < partSize) (object : Bytes) : (partsOf partSize object).flatten = object := by
  rw [partsOf, flatten_append]
  split
  · rename_i hempty
    have hall := flatten_fullBlocks_append hsize object
    rwa [hempty] at hall
  · rw [flatten_singleton, flatten_fullBlocks_append hsize]

theorem length_of_mem_partsOf (h : part ∈ (partsOf partSize object).dropLast) : part.length = partSize := by
  unfold partsOf at h
  split at h
  · rw [append_nil] at h
    exact length_of_mem_fullBlocks (dropLast_subset _ h)
  · rw [dropLast_concat] at h
    exact length_of_mem_fullBlocks h

/-- What is put when the sealed object is pushed and flushed. -/
theorem pushed_parts {writer : SegmentWriter partSize}
    (hpush : (⟨[], ⟨0, []⟩, ⟨[], hpart⟩⟩ : SegmentWriter partSize).pushBytes provider object = .ok writer)
    (hflush : writer.flushFinalPart provider = .ok parts) : parts = partsOf partSize object ∧ writer.hashed = object := by
  simp only [pushBytes, BlockBuffer.absorb_eq, bind_assoc, pure_bind, ok_iff, nil_append, BlockBuffer.after] at hpush
  obtain ⟨uploaded, huploaded, rfl⟩ := hpush
  have hparts := foldlM_putPart_parts huploaded
  rw [nil_append] at hparts
  refine ⟨?_, rfl⟩
  unfold flushFinalPart at hflush
  split at hflush
  · rename_i hempty
    rw [pure_eq_ok] at hflush
    rw [← hflush, partsOf, if_pos hempty, append_nil, hparts]
  · rename_i hne
    simp only [ok_iff] at hflush
    rw [← hflush.2, partsOf, if_neg hne, hparts]

theorem prepareUpload_eq_ok (h : prepareUpload context provider write events = .ok prepared) :
    BodyAccepted write events ∧ ∃ sealer sealed, uploadSealer context write = .ok sealer ∧
      sealer.sealPart context.aead.toAead context.keyring write.objectId (bodyBytes events) = .ok sealed ∧
      0 < write.multipartPartSize ∧ prepared.parts = partsOf write.multipartPartSize sealed.flatten ∧
      prepared.objectBytes = sealed.flatten ∧ prepared.plaintext = bodyBytes events ∧
      sealer.layoutReference (bodyBytes events).length = .ok prepared.payloadLayout ∧
      sealer.sealedLenForPlaintextLen (bodyBytes events).length = .ok prepared.objectLen := by
  simp only [prepareUpload, ok_iff] at h
  obtain ⟨_, -, -, sealer, hsealer, writer, hwriter, _, -, -, h⟩ := h
  obtain ⟨hchunk, hsize⟩ := uploadSealer_chunkSize hsealer
  rw [dif_pos hsize] at h
  simp only [ok_iff] at h
  obtain ⟨body, hbody, layout, hlayout, objectLen, hobjectLen, -, parts, hparts, -, rfl⟩ := h
  have haccepted : BodyAccepted write events := by
    by_contra hrefused
    obtain ⟨e, he⟩ := @sealBody_error _ context provider _ sealer _ _ hrefused writer hsize
    rw [he] at hbody
    cases hbody
  rw [sealBody_eq haccepted writer hsize hchunk] at hbody
  simp only [ok_iff] at hbody
  obtain ⟨sealed, hsealed, pushed, hpushed, rfl⟩ := hbody
  unfold SegmentWriter.new at hwriter
  split at hwriter
  · rename_i hpart
    cases hwriter
    obtain ⟨hparts, hhashed⟩ := pushed_parts hpushed hparts
    exact ⟨haccepted, sealer, sealed, hsealer, hsealed, hpart, hparts, hhashed, rfl, hlayout, hobjectLen⟩
  · cases hwriter

/-- The upload depends on an accepted body only through its plaintext. -/
theorem prepareUpload_congr (h : BodyAccepted write events)
    (h' : BodyAccepted write events') (hbytes : bodyBytes events' = bodyBytes events) :
    prepareUpload context provider write events' = prepareUpload context provider write events := by
  refine bind_congr fun _ => bind_congr fun _ => ?_
  cases hsealer : uploadSealer context write with
  | error e => rfl
  | ok sealer =>
    obtain ⟨hchunk, hsize⟩ := uploadSealer_chunkSize hsealer
    simp only [ok_bind, dif_pos hsize, sealBody_eq h _ hsize hchunk, sealBody_eq h' _ hsize hchunk, hbytes]

/-- A provider that takes every part, and a request that nothing stops. -/
structure Unhindered (context : UploadContext K) (provider : UploadProvider) (write : V3StandalonePayloadWrite) : Prop where
  protection : write.protection = .ok ()
  notCancelled : ∀ check, write.isCancelled check = false
  created : provider.createUpload = .ok ()
  putPart : ∀ index part, provider.putPart index part = true
  partSize : 0 < write.multipartPartSize

theorem foldlM_putPart_ok (hput : ∀ index part, provider.putPart index part = true) {parts : List Bytes}
    {uploaded : Uploaded} (hindex : uploaded.index + parts.length < 2 ^ 64) :
    ∃ result, parts.foldlM (putPart provider) uploaded = .ok result := by
  induction parts generalizing uploaded with
  | nil => exact ⟨uploaded, rfl⟩
  | cons part parts ih =>
    rw [length_cons] at hindex
    have hstep : putPart provider uploaded part = .ok ⟨uploaded.index + 1, uploaded.parts ++ [part]⟩ := by
      simp only [putPart, ok_iff, checkedAdd_eq_some]
      exact ⟨hput _ _, _, ⟨by omega, rfl⟩, rfl⟩
    rw [foldlM_cons, hstep, ok_bind]
    exact ih (by dsimp only; omega)

theorem length_sealPart (hlayout : sealer.layoutReference plaintext.length = .ok layout)
    (hsealed : sealer.sealPart context.aead.toAead context.keyring write.objectId plaintext = .ok sealed) :
    sealed.flatten.length = layout.storedLen := by
  obtain ⟨hlocated, hparts, hsealer, -⟩ := layoutReference_eq_ok hlayout
  have hcontents : PartsSealed context.aead.toAead context.keyring write.objectId layout [(plaintext, sealed)] := by
    rw [PartsSealed, hparts]
    refine .cons ⟨rfl, ?_⟩ .nil
    rw [hsealer]
    exact hsealed
  have hlength := (hcontents.opensTo hlocated).body_length
  simpa using hlength

theorem prepareUpload_ok (hfree : Unhindered context provider write)
    (haccepted : BodyAccepted write events) (hsealer : uploadSealer context write = .ok sealer)
    (hsealed : sealer.sealPart context.aead.toAead context.keyring write.objectId (bodyBytes events) = .ok sealed)
    (hlayout : sealer.layoutReference (bodyBytes events).length = .ok layout) :
    ∃ prepared, prepareUpload context provider write events = .ok prepared := by
  obtain ⟨hchunk, hsize⟩ := uploadSealer_chunkSize hsealer
  obtain ⟨hlocated, -, -, hlen⟩ := layoutReference_eq_ok hlayout
  have hbounded := hlocated.bounded
  have hlength := length_sealPart hlayout hsealed
  have hcount : (fullBlocks write.multipartPartSize sealed.flatten).length ≤ layout.storedLen := by
    rw [fullBlocks, length_map, length_range, hlength]
    exact Nat.div_le_self _ _
  obtain ⟨uploaded, huploaded⟩ := @foldlM_putPart_ok _ hfree.putPart
    (fullBlocks write.multipartPartSize sealed.flatten) ⟨0, []⟩ (by dsimp only; omega)
  have hpush : (⟨[], ⟨0, []⟩, ⟨[], hfree.partSize⟩⟩ : SegmentWriter write.multipartPartSize).pushBytes provider
      sealed.flatten = .ok ⟨[] ++ sealed.flatten, uploaded, after ⟨[], hfree.partSize⟩ sealed.flatten⟩ := by
    simp only [SegmentWriter.pushBytes, absorb_eq, nil_append, huploaded, ok_bind, pure_bind]
    rfl
  have hflush : ∀ writer : SegmentWriter write.multipartPartSize, ∃ parts,
      writer.flushFinalPart provider = .ok parts := by
    intro writer
    unfold SegmentWriter.flushFinalPart
    split
    · exact ⟨_, rfl⟩
    · rw [ensure_of (hfree.putPart _ _), ok_bind]
      exact ⟨_, rfl⟩
  obtain ⟨parts, hparts⟩ := hflush ⟨[] ++ sealed.flatten, uploaded, after ⟨[], hfree.partSize⟩ sealed.flatten⟩
  simp only [prepareUpload, hfree.protection, hfree.notCancelled, hsealer, SegmentWriter.new, dif_pos hfree.partSize,
    hfree.created, dif_pos hsize, sealBody_eq haccepted _ hsize hchunk, hsealed, Except.mapError, ok_bind, hpush,
    hlayout, hlen, hparts, ensure, if_true, pure_bind]
  exact ⟨_, rfl⟩

end Upload

/-- **A streaming upload does not depend on the chunks of its body.**  What it publishes is the one-shot sealing of the
plaintext, the last segment alone sealed as final, in parts of the configured size but for the last; the reported length
and layout are those of the plaintext.  Two bodies with the same bytes lead to the same outcome.  A body that is shorter
or longer than declared, exceeds the limit or fails is an error and publishes nothing.  Any other body is published when
the provider takes it and its plaintext has a layout. -/
theorem streaming_upload_exact {K : Type} (context : UploadContext K) (provider : UploadProvider)
    (write : V3StandalonePayloadWrite) (events : List BodyEvent) :
    let plaintext := bodyBytes events
    let outcome := writeStandaloneStreamingPayload context provider write events
    (∀ parts, outcome.published = some parts → ∃ sealer sealed, uploadSealer context write = .ok sealer ∧
      sealer.sealPart context.aead.toAead context.keyring write.objectId plaintext = .ok sealed ∧
      parts.flatten = sealed.flatten ∧ (∀ part ∈ parts.dropLast, part.length = write.multipartPartSize) ∧
      ∀ stored, outcome.result = .ok stored →
        sealer.sealedLenForPlaintextLen plaintext.length = .ok stored.objectLen ∧
        stored.objectLen = parts.flatten.length ∧ sealer.layoutReference plaintext.length = .ok stored.payloadLayout ∧
        stored.objectDigest = context.sha256 parts.flatten) ∧
    (∀ events', BodyAccepted write events → BodyAccepted write events' → bodyBytes events' = plaintext →
      writeStandaloneStreamingPayload context provider write events' = outcome) ∧
    (¬ BodyAccepted write events → outcome.published = none ∧ ∃ e, outcome.result = .error e) ∧
    (Unhindered context provider write → BodyAccepted write events → ∀ sealer sealed layout,
      uploadSealer context write = .ok sealer →
      sealer.sealPart context.aead.toAead context.keyring write.objectId plaintext = .ok sealed →
      sealer.layoutReference plaintext.length = .ok layout →
        outcome.published = some (partsOf write.multipartPartSize sealed.flatten)) := by
  intro plaintext outcome
  cases hprepare : prepareUpload context provider write events with
  | error e =>
    -- the upload is completed only once the whole body is accepted and sealed
    have houtcome : outcome = ⟨none, .error e⟩ := by
      simp only [outcome, writeStandaloneStreamingPayload, hprepare]
    rw [houtcome]
    refine ⟨fun parts hparts => (nomatch hparts), fun events' h h' hbytes => ?_, fun _ => ⟨rfl, e, rfl⟩,
      fun hfree haccepted sealer sealed layout hsealer hsealed hlayout => ?_⟩
    · rw [writeStandaloneStreamingPayload, prepareUpload_congr h h' hbytes, hprepare]
    · obtain ⟨prepared, hok⟩ := prepareUpload_ok hfree haccepted hsealer hsealed hlayout
      rw [hprepare] at hok
      cases hok
  | ok prepared =>
    have houtcome : outcome = ⟨some prepared.parts, do
        let metadata ← provider.complete prepared.parts
        verifyUpload context provider write prepared metadata⟩ := by
      simp only [outcome, writeStandaloneStreamingPayload, hprepare]
    obtain ⟨haccepted, sealer, sealed, hsealer, hsealed, hpart, hparts, hobject, -, hlayout, hlen⟩ :=
      prepareUpload_eq_ok hprepare
    have hflatten : prepared.parts.flatten = sealed.flatten := by rw [hparts, flatten_partsOf hpart]
    rw [houtcome]
    refine ⟨fun parts hpublished => ?_, fun events' h h' hbytes => ?_, fun hrefused => absurd haccepted hrefused,
      fun _ _ sealer' sealed' layout hsealer' hsealed' _ => ?_⟩
    · obtain rfl := Option.some.inj hpublished
      refine ⟨sealer, sealed, hsealer, hsealed, hflatten, fun part hmem => ?_, fun stored hstored => ?_⟩
      · rw [hparts] at hmem
        exact length_of_mem_partsOf hmem
      · simp only [verifyUpload, ok_iff] at hstored
        obtain ⟨metadata, -, -, -, version, -, rfl⟩ := hstored
        refine ⟨hlen, ?_, hlayout, by rw [hflatten, hobject]⟩
        have hstoredLen := (layoutReference_eq_ok hlayout).2.2.2
        rw [hlen] at hstoredLen
        rw [Except.ok.inj hstoredLen, hflatten, length_sealPart hlayout hsealed]
    · rw [writeStandaloneStreamingPayload, prepareUpload_congr h h' hbytes, hprepare]
    · rw [hsealer] at hsealer'
      cases hsealer'
      rw [hsealed] at hsealed'
      cases hsealed'
      rw [hparts]

end Rs3.Payload
