/-
# Rs3.Payload.ReadStream — authenticated streaming reads of detached payloads.

`read_stream.rs`.  The ciphertext arrives in chunks of any size; a cursor cuts it into groups of segments, each group
is hashed, opened and only then released, and the last group waits for the end of the body and the whole digest.
-/
import Rs3.Payload.ResolvedRead
import Rs3.Storage.BlobRead

namespace Rs3.Payload

open List SegmentedPayloadLayout

open Crypto Storage
open Rs3.Index (PayloadLayout)

/-! ## The cursor -/

/-- `BlobCursor`: what is left of the last chunk, and the answers to come. -/
structure BlobCursor where
  reader : List Reply
  buffered : Bytes

def streamStorageError : GetError := .format .storageOperationFailed

namespace BlobCursor

/-- The loop of `take_exact`. -/
def fill (len : ℕ) (output : Bytes) : List Reply → Except GetError (Bytes × BlobCursor)
  | [] => if len ≤ output.length then .ok (output, ⟨[], []⟩) else .error streamStorageError
  | .failed :: rest => if len ≤ output.length then .ok (output, ⟨.failed :: rest, []⟩) else .error streamStorageError
  | .chunk chunk :: rest =>
    if len ≤ output.length then .ok (output, ⟨.chunk chunk :: rest, []⟩)
    else if len - output.length < chunk.length then
      .ok (output ++ chunk.take (len - output.length), ⟨rest, chunk.drop (len - output.length)⟩)
    else fill len (output ++ chunk) rest

/-- `take_exact`. -/
def takeExact (cursor : BlobCursor) (len : ℕ) : Except GetError (Bytes × BlobCursor) :=
  if len = 0 then .ok ([], cursor)
  else if len ≤ cursor.buffered.length then
    .ok (cursor.buffered.take len, { cursor with buffered := cursor.buffered.drop len })
  else fill len cursor.buffered cursor.reader

/-- `finish_exact`. -/
def finishExact (cursor : BlobCursor) : Except GetError Unit := do
  ensure (cursor.buffered = []) streamStorageError
  match cursor.reader with
  | [] => return ()
  | _ :: _ => .error streamStorageError

/-- The bytes still to come. -/
def pending (cursor : BlobCursor) : Bytes := cursor.buffered ++ delivered cursor.reader

theorem fill_spec (hlen : output.length ≤ len) :
    (len ≤ (output ++ delivered replies).length →
      ∃ cursor, fill len output replies = .ok ((output ++ delivered replies).take len, cursor) ∧
        cursor.pending = (output ++ delivered replies).drop len ∧ (Complete cursor.reader ↔ Complete replies) ∧
        (Solid replies → Solid cursor.reader)) ∧
      ((output ++ delivered replies).length < len → ∃ e, fill len output replies = .error e) := by
  induction replies generalizing output with
  | nil =>
    rw [delivered, append_nil, fill]
    refine ⟨fun hle => ⟨⟨[], []⟩, ?_, ?_, Iff.rfl, id⟩, fun hlt => ⟨_, if_neg (Nat.not_le.mpr hlt)⟩⟩
    · rw [if_pos hle, take_of_length_le hlen]
    · rw [drop_of_length_le hlen]
      rfl
  | cons reply rest ih =>
    by_cases hfull : len ≤ output.length
    · have heq : output.length = len := le_antisymm hlen hfull
      have hfill : fill len output (reply :: rest) = .ok (output, ⟨reply :: rest, []⟩) := by
        cases reply <;> rw [fill, if_pos hfull]
      refine ⟨fun _ => ⟨⟨reply :: rest, []⟩, ?_, ?_, Iff.rfl, id⟩, fun hlt => ?_⟩
      · rw [hfill, take_append_of_le_length hfull, take_of_length_le hlen]
      · rw [← heq, drop_left]
        rfl
      · rw [length_append] at hlt
        omega
    · cases reply with
      | failed =>
        rw [delivered, append_nil, fill, if_neg hfull]
        exact ⟨fun hle => absurd hle hfull, fun _ => ⟨_, rfl⟩⟩
      | chunk chunk =>
        rw [delivered, ← append_assoc, fill, if_neg hfull]
        by_cases hover : len - output.length < chunk.length
        · -- the chunk holds more than is needed: the rest of it is kept
          have hle : len ≤ (output ++ chunk).length := by rw [length_append]; omega
          simp only [if_pos hover]
          refine ⟨fun _ => ⟨⟨rest, chunk.drop (len - output.length)⟩, ?_, ?_, ?_,
            fun hsolid hmem => hsolid (mem_cons_of_mem _ hmem)⟩, fun hlt => ?_⟩
          · rw [take_append_of_le_length hle, take_append, take_of_length_le hlen]
          · rw [pending, drop_append_of_le_length hle, drop_append, drop_of_length_le hlen, nil_append]
          · exact complete_chunk.symm
          · rw [length_append] at hlt
            omega
        · simp only [if_neg hover]
          have hlen' : (output ++ chunk).length ≤ len := by rw [length_append]; omega
          obtain ⟨hok, herror⟩ := ih hlen'
          refine ⟨fun hle => ?_, herror⟩
          obtain ⟨cursor, hfill, hpending, hcomplete, hsolid⟩ := hok hle
          exact ⟨cursor, hfill, hpending, hcomplete.trans complete_chunk.symm,
            fun hs => hsolid fun hmem => hs (mem_cons_of_mem _ hmem)⟩

/-- `take_exact` succeeds exactly when enough bytes are to come, and takes the first of them. -/
theorem takeExact_spec (cursor : BlobCursor) (len : ℕ) :
    (len ≤ cursor.pending.length → ∃ cursor', cursor.takeExact len = .ok (cursor.pending.take len, cursor') ∧
        cursor'.pending = cursor.pending.drop len ∧ (Complete cursor'.reader ↔ Complete cursor.reader) ∧
        (Solid cursor.reader → Solid cursor'.reader)) ∧
      (cursor.pending.length < len → ∃ e, cursor.takeExact len = .error e) := by
  unfold takeExact
  by_cases hzero : len = 0
  · subst hzero
    exact ⟨fun _ => ⟨cursor, rfl, rfl, Iff.rfl, id⟩, fun hlt => absurd hlt (Nat.not_lt_zero _)⟩
  · by_cases hbuffered : len ≤ cursor.buffered.length
    · rw [if_neg hzero, if_pos hbuffered]
      refine ⟨fun _ => ⟨{ cursor with buffered := cursor.buffered.drop len }, ?_, ?_, Iff.rfl, id⟩, fun hlt => ?_⟩
      · rw [pending, take_append_of_le_length hbuffered]
      · rw [pending, pending, drop_append_of_le_length hbuffered]
      · rw [pending, length_append] at hlt
        omega
    · rw [if_neg hzero, if_neg hbuffered]
      exact fill_spec (Nat.le_of_not_le hbuffered)

theorem finishExact_eq_ok {cursor : BlobCursor} (hsolid : Solid cursor.reader) :
    cursor.finishExact = .ok u ↔ cursor.pending = [] ∧ Complete cursor.reader := by
  simp only [finishExact, ok_iff, pending]
  constructor
  · rintro ⟨hbuffered, hreader⟩
    cases hreplies : cursor.reader with
    | nil => exact ⟨by rw [hbuffered, delivered]; rfl, complete_nil⟩
    | cons reply rest =>
      rw [hreplies] at hreader
      cases hreader
  · rintro ⟨hpending, hcomplete⟩
    obtain ⟨hbuffered, hdelivered⟩ := append_eq_nil_iff.mp hpending
    refine ⟨hbuffered, ?_⟩
    rw [hsolid.eq_nil hcomplete hdelivered]
    rfl

/-- Whatever the reader, nothing is to come after a successful `finish_exact`. -/
theorem pending_of_finishExact {cursor : BlobCursor} (h : cursor.finishExact = .ok u) : cursor.pending = [] := by
  simp only [finishExact, ok_iff] at h
  obtain ⟨hbuffered, hreader⟩ := h
  cases hreplies : cursor.reader with
  | nil => rw [pending, hbuffered, hreplies]; rfl
  | cons reply rest =>
    rw [hreplies] at hreader
    cases hreader

end BlobCursor

/-! ## The stream -/

def targetPlaintextChunkBytes : ℕ := 1024 * 1024

/-- `AuthenticatedReadState`: the hasher is the bytes hashed so far. -/
structure AuthenticatedReadState (layout : SegmentedPayloadLayout) where
  cursor : BlobCursor
  hashed : Bytes
  nextSegment : ℕ
  next_le : nextSegment ≤ layout.segmentCount

/-- `segments_per_chunk`. -/
def segmentsPerChunk (chunkSize : ℕ) : ℕ := max (targetPlaintextChunkBytes / chunkSize) 1

/-- `V3AuthenticatedReadBody`: what polling the body yields, chunk by chunk, and the error that ends it, if any. -/
structure V3AuthenticatedReadBody where
  contentLen : ℕ
  workingSetBytes : ℕ
  chunks : List Bytes
  failure : Option GetError

section Stream

variable {K : Type} (aead : Aead K) (keyring : KeyRing K) (digest : Bytes → Digest) (payloadId : BackendObjectId)
  (layout : SegmentedPayloadLayout) (expectedSectionDigest : Digest)

/-- Where the group that starts at a segment ends. -/
def endSegment (nextSegment : ℕ) : ℕ := min (nextSegment + segmentsPerChunk layout.reference.chunkSize) layout.segmentCount

/-- One group: take its ciphertext, hash it, open it, and at the end of the layout check the body. -/
def readGroup (state : AuthenticatedReadState layout) : Except GetError (Bytes × AuthenticatedReadState layout) := do
  let stop := endSegment layout state.nextSegment
  let offset ← (layout.plaintextOffset state.nextSegment).mapError PayloadError.toGet
  let «end» ← (layout.plaintextOffset stop).mapError PayloadError.toGet
  let len ← okOr (checkedSub «end» offset) (GetError.invalidObjectFormat payloadId)
  let span ← (segmentedCiphertextSpan layout (.slice offset len)).mapError PayloadError.toGet
  let taken ← state.cursor.takeExact span.len
  let plaintext ← (openSegmentedPayloadSpan aead keyring payloadId layout (.slice offset len) span
    taken.1).mapError PayloadError.toGet
  if stop = layout.segmentCount then
    taken.2.finishExact
    ensure (digest (state.hashed ++ taken.1) = expectedSectionDigest) (GetError.invalidObjectFormat payloadId)
  return (plaintext, ⟨taken.2, state.hashed ++ taken.1, stop, Nat.min_le_right _ _⟩)

theorem readGroup_nextSegment
    (h : readGroup aead keyring digest payloadId layout expectedSectionDigest state = .ok group) :
    group.2.nextSegment = endSegment layout state.nextSegment := by
  simp only [readGroup, bind_eq_ok] at h
  obtain ⟨_, -, _, -, _, -, _, -, taken, -, plaintext, -, h⟩ := h
  split at h
  · simp only [ok_iff] at h
    obtain ⟨_, -, _, -, rfl⟩ := h
    rfl
  · simp only [pure_eq_ok] at h
    subst h
    rfl

theorem lt_endSegment (h : nextSegment < layout.segmentCount) : nextSegment < endSegment layout nextSegment := by
  unfold endSegment segmentsPerChunk
  omega

/-- `try_unfold`: groups until the layout ends or a group fails. -/
def unfoldGroups (state : AuthenticatedReadState layout) : List Bytes × Option GetError :=
  if _hend : state.nextSegment = layout.segmentCount then ([], none)
  else match _hgroup : readGroup aead keyring digest payloadId layout expectedSectionDigest state with
    | .error error => ([], some error)
    | .ok group =>
      let rest := unfoldGroups group.2
      (group.1 :: rest.1, rest.2)
termination_by layout.segmentCount - state.nextSegment
decreasing_by
  have hnext := readGroup_nextSegment aead keyring digest payloadId layout expectedSectionDigest _hgroup
  have hlt := lt_endSegment layout (lt_of_le_of_ne state.next_le _hend)
  have hle := group.2.next_le
  omega

/-- `retained_bytes`, with the lengths for the capacities. -/
def SegmentedPayloadLayout.retainedBytes : ℕ :=
  layout.reference.parts.length * 48 + layout.starts.length * 24 + layout.repositoryContext.length +
    Index.textLen layout.reference.keyId.asStr

/-- The memory admission charge of a body. -/
def workingSetBytes : Option ℕ := do
  let perChunk := segmentsPerChunk layout.reference.chunkSize
  let plaintextBytes ← checkedMul 64 perChunk layout.reference.chunkSize
  let tags ← checkedMul 64 perChunk tagLen
  let ciphertextBytes ← checkedAdd 64 plaintextBytes tags
  let grouped ← checkedAdd 64 ciphertextBytes plaintextBytes
  let withChunk ← checkedAdd 64 grouped targetPlaintextChunkBytes
  checkedAdd 64 withChunk layout.retainedBytes

/-- `open_authenticated_payload_stream`: the first group is authenticated before a body is returned. -/
def openAuthenticatedPayloadStream (reader : List Reply) (exactLen expectedStoredLen : ℕ) :
    Except GetError V3AuthenticatedReadBody := do
  ensure (¬(exactLen ≠ expectedStoredLen ∨ layout.reference.plaintextLen = 0)) (.invalidObjectFormat payloadId)
  ensure (layout.storedLen = expectedStoredLen) (.invalidObjectFormat payloadId)
  let workingSet ← okOr (workingSetBytes layout) (.invalidObjectFormat payloadId)
  match unfoldGroups aead keyring digest payloadId layout expectedSectionDigest ⟨⟨reader, []⟩, [], 0, Nat.zero_le _⟩ with
  | ([], none) => .error streamStorageError
  | ([], some error) => .error error
  | (first :: rest, failure) => return ⟨layout.reference.plaintextLen, workingSet, first :: rest, failure⟩

end Stream

/-- The bytes released to the client. -/
def emitted : Except GetError V3AuthenticatedReadBody → Bytes
  | .ok body => body.chunks.flatten
  | .error _ => []

def EndsWithoutError : Except GetError V3AuthenticatedReadBody → Prop
  | .ok body => body.failure = none
  | .error _ => False

/-! ## Groups of segments -/

section Groups

variable {K : Type} {aead : Aead K} {keyring : KeyRing K} {payloadId : BackendObjectId} {layout : SegmentedPayloadLayout}
  {plaintext : Bytes}

/-- Authenticity of some stored bytes: a segment of them that opens, opens to the plaintext that was sealed there. -/
structure Authentic (aead : Aead K) (keyring : KeyRing K) (payloadId : BackendObjectId) (layout : SegmentedPayloadLayout)
    (plaintext stored : Bytes) : Prop where
  length : plaintext.length = layout.reference.plaintextLen
  opens : ∀ {o facts opened}, layout.segments[o]? = some facts →
    openPayloadSegment aead keyring (facts.context layout payloadId) layout.reference.keyId
      (segmentCiphertext layout stored o) = .ok opened → opened = segmentPlaintext layout plaintext o

def SegmentAuthenticates (aead : Aead K) (keyring : KeyRing K) (payloadId : BackendObjectId)
    (layout : SegmentedPayloadLayout) (stored : Bytes) (o : ℕ) : Prop :=
  ∃ facts opened, layout.segments[o]? = some facts ∧
    openPayloadSegment aead keyring (facts.context layout payloadId) layout.reference.keyId
      (segmentCiphertext layout stored o) = .ok opened

theorem plainBefore_lt (h : Located layout) (hij : i < j) (hj : j ≤ layout.segments.length) :
    plainBefore layout.segments i < plainBefore layout.segments j := by
  have hat := List.getElem?_eq_getElem (show i < layout.segments.length by omega)
  have hpos := (h.at_offsets hat).2.2.1
  have hsucc := plainBefore_succ hat
  have hmono : plainBefore layout.segments (i + 1) ≤ plainBefore layout.segments j := plainBefore_mono _ hij
  omega

theorem plaintextOffset_eq (h : Located layout) (ho : o ≤ layout.segments.length) :
    layout.plaintextOffset o = .ok (plainBefore layout.segments o) := by
  unfold plaintextOffset
  split
  · rename_i heq
    rw [heq, h.count, h.plain]
    rfl
  · rename_i hne
    obtain ⟨facts, hat, hsegment⟩ := h.segment_eq (o := o) (by have := h.count; omega)
    rw [hsegment, ok_bind, (h.at_offsets hat).1]
    rfl

/-- The plaintext of whole segments selects exactly those segments. -/
theorem selection_group (h : Located layout) (hlt : first < stop) (hstop : stop ≤ layout.segments.length) :
    let selection : SegmentSelection := ⟨plainBefore layout.segments first, plainBefore layout.segments stop, first, stop⟩
    SegmentSelection.new layout (.slice (plainBefore layout.segments first)
      (plainBefore layout.segments stop - plainBefore layout.segments first)) = .ok selection ∧
        Selects layout selection := by
  have hbytes := plainBefore_lt h hlt hstop
  have htotal := h.plainBefore_le stop
  obtain ⟨selection, hnew, hsel, hbounds⟩ := @Located.selection_eq _ h
    (.slice (plainBefore layout.segments first) (plainBefore layout.segments stop - plainBefore layout.segments first))
    (show _ + _ ≤ _ by omega) (show 0 < _ by omega)
  obtain ⟨start, stop', startSegment, endSegment⟩ := selection
  simp only [ByteRange.bounds, Prod.mk.injEq] at hbounds
  obtain ⟨rfl, hstop'⟩ := hbounds
  obtain rfl : stop' = plainBefore layout.segments stop := by omega
  have hstart_ge := hsel.start_ge
  have hstart_lt := hsel.start_lt
  have hlast_lt := hsel.last_lt
  have hend := hsel.stop_le_end
  have hsegments := hsel.segments_le
  have hsegments_lt := hsel.segments_lt
  dsimp only at hstart_ge hstart_lt hlast_lt hend hsegments hsegments_lt
  have hfirst : startSegment = first := by
    rcases Nat.lt_trichotomy startSegment first with hless | heq | hgreater
    · have := plainBefore_mono layout.segments (show startSegment + 1 ≤ first from hless)
      omega
    · exact heq
    · have := plainBefore_lt h hgreater (by omega)
      omega
  have hlast : endSegment = stop := by
    rcases Nat.lt_trichotomy endSegment stop with hless | heq | hgreater
    · have := plainBefore_lt h hless hstop
      omega
    · exact heq
    · have := plainBefore_mono layout.segments (show stop ≤ endSegment - 1 by omega)
      omega
  subst hfirst hlast
  exact ⟨hnew, hsel⟩

/-- Under authenticity a span opens exactly when its segments do, and to nothing but what was sealed. -/
theorem openSegmentedPayloadSpan_authentic (h : Located layout)
    {stored opened : Bytes} (hauth : Authentic aead keyring payloadId layout plaintext stored) {range : ByteRange}
    {selection : SegmentSelection} (hnew : SegmentSelection.new layout range = .ok selection)
    (hsel : Selects layout selection)
    (hstored : cipherBefore layout.segments selection.endSegment ≤ stored.length) :
    openSegmentedPayloadSpan aead keyring payloadId layout range (selectedSpan layout selection)
        (selectedBytes layout selection stored) = .ok opened ↔
      (∀ o, selection.startSegment ≤ o → o < selection.endSegment →
        SegmentAuthenticates aead keyring payloadId layout stored o) ∧
      opened = slice plaintext selection.start selection.stop := by
  have hlt := hsel.segments_lt
  have hle := hsel.segments_le
  have hend : selection.startSegment + (selection.endSegment - selection.startSegment) = selection.endSegment := by omega
  simp only [openSegmentedPayloadSpan, openSegmentedPayloadSpanWithSegments_loop h hsel hnew hstored plaintext, ok_iff]
  constructor
  · rintro ⟨result, hloop, rfl⟩
    obtain ⟨rfl, hsegments⟩ := @of_foldlM_range' _ _ _ (openedBefore layout selection plaintext)
      (SegmentAuthenticates aead keyring payloadId layout stored) _ _ (fun o s hfirst hlast hround => by
        have hat := List.getElem?_eq_getElem (l := layout.segments) (i := o) (by omega)
        have hround' := hround
        rw [openSelectedSegment_of_span h hsel hat hfirst (by omega) hstored] at hround'
        simp only [ok_iff] at hround'
        obtain ⟨segment, hopen, -⟩ := hround'
        obtain rfl := hauth.opens hat hopen
        refine ⟨?_, _, _, hat, hopen⟩
        rw [openSelectedSegment_eq h hsel hat hfirst (by omega) hstored hauth.length hopen] at hround
        exact (Except.ok.inj hround).symm) _ hloop
    rw [hend] at hsegments ⊢
    exact ⟨hsegments, outputBefore_end hsel plaintext⟩
  · rintro ⟨hsegments, rfl⟩
    refine ⟨openedBefore layout selection plaintext selection.endSegment, ?_, outputBefore_end hsel plaintext⟩
    have hloop := @foldlM_range' _ _ _ (openedBefore layout selection plaintext) selection.startSegment
      (selection.endSegment - selection.startSegment) fun o hfirst hlast => by
        obtain ⟨facts, segment, hat, hopen⟩ := hsegments o hfirst (by omega)
        obtain rfl := hauth.opens hat hopen
        exact openSelectedSegment_eq h hsel hat hfirst (by omega) hstored hauth.length hopen
    rwa [hend] at hloop

end Groups

/-! ## Runs of the stream -/

section Runs

variable {K : Type} {aead : Aead K} {keyring : KeyRing K} {digest : Bytes → Digest} {payloadId : BackendObjectId}
  {layout : SegmentedPayloadLayout} {expectedSectionDigest : Digest} {plaintext : Bytes} {replies : List Reply}
  {state : AuthenticatedReadState layout}

section

variable (layout : SegmentedPayloadLayout)

/-- A state of the stream over a body: the segments before the next one are taken and hashed, the rest is to come, and
the next segment starts a group. -/
structure Reading (replies : List Reply) (state : AuthenticatedReadState layout) : Prop where
  le : cipherBefore layout.segments state.nextSegment ≤ (delivered replies).length
  pending : state.cursor.pending = (delivered replies).drop (cipherBefore layout.segments state.nextSegment)
  hashed : state.hashed = (delivered replies).take (cipherBefore layout.segments state.nextSegment)
  complete : Complete state.cursor.reader ↔ Complete replies
  solid : Solid replies → Solid state.cursor.reader
  boundary : segmentsPerChunk layout.reference.chunkSize ∣ state.nextSegment ∨ state.nextSegment = layout.segmentCount

theorem Reading.start (replies : List Reply) : Reading layout replies ⟨⟨replies, []⟩, [], 0, Nat.zero_le _⟩ where
  le := by simp [cipherBefore]
  pending := by simp [cipherBefore, BlobCursor.pending]
  hashed := by simp [cipherBefore]
  complete := Iff.rfl
  solid := id
  boundary := Or.inl (Nat.dvd_zero _)

/-- The bytes of the group that starts at a segment. -/
def groupSelection (first : ℕ) : SegmentSelection where
  start := plainBefore layout.segments first
  stop := plainBefore layout.segments (endSegment layout first)
  startSegment := first
  endSegment := endSegment layout first

def groupRange (first : ℕ) : ByteRange :=
  .slice (plainBefore layout.segments first)
    (plainBefore layout.segments (endSegment layout first) - plainBefore layout.segments first)

/-- The stored bytes of the group that starts at a segment. -/
def groupSpan (first : ℕ) : SegmentCiphertextSpan := selectedSpan layout (groupSelection layout first)

def groupBytes (body : Bytes) (first : ℕ) : Bytes := selectedBytes layout (groupSelection layout first) body

end

variable (h : Located layout) (hauth : Authentic aead keyring payloadId layout plaintext (delivered replies))
  (hreading : Reading layout replies state)

include h in
theorem groupSelection_eq (hlt : first < layout.segmentCount) :
    SegmentSelection.new layout (groupRange layout first) = .ok (groupSelection layout first) ∧
      Selects layout (groupSelection layout first) :=
  selection_group h (lt_endSegment layout hlt) (h.count ▸ Nat.min_le_right _ _)

include h in
/-- What a group does besides the checks that cannot fail. -/
theorem readGroup_eq (hlt : state.nextSegment < layout.segmentCount) :
    readGroup aead keyring digest payloadId layout expectedSectionDigest state = (do
      let taken ← state.cursor.takeExact (groupSpan layout state.nextSegment).len
      let plaintext ← (openSegmentedPayloadSpan aead keyring payloadId layout (groupRange layout state.nextSegment)
        (groupSpan layout state.nextSegment) taken.1).mapError PayloadError.toGet
      if endSegment layout state.nextSegment = layout.segmentCount then
        taken.2.finishExact
        ensure (digest (state.hashed ++ taken.1) = expectedSectionDigest) (GetError.invalidObjectFormat payloadId)
      return (plaintext, ⟨taken.2, state.hashed ++ taken.1, endSegment layout state.nextSegment,
        Nat.min_le_right _ _⟩)) := by
  obtain ⟨hnew, hsel⟩ := groupSelection_eq h hlt
  have hspan := segmentedCiphertextSpan_eq h hnew hsel
  have hbytes := plainBefore_lt h (lt_endSegment layout hlt) (h.count ▸ Nat.min_le_right _ _)
  have hsub : checkedSub (plainBefore layout.segments (endSegment layout state.nextSegment))
      (plainBefore layout.segments state.nextSegment) =
        some (plainBefore layout.segments (endSegment layout state.nextSegment) -
          plainBefore layout.segments state.nextSegment) := if_pos hbytes.le
  simp only [groupRange] at hspan ⊢
  simp only [readGroup, groupSpan, plaintextOffset_eq h (h.count ▸ state.next_le),
    plaintextOffset_eq h (show endSegment layout state.nextSegment ≤ layout.segments.length from
      h.count ▸ Nat.min_le_right _ _), Except.mapError, ok_bind, hsub, okOr, hspan]

include hreading in
/-- Taking the bytes of a group succeeds when the body has them, and the stream goes on reading the same body. -/
theorem takeExact_group (hlt : state.nextSegment < layout.segmentCount) :
    (cipherBefore layout.segments (endSegment layout state.nextSegment) ≤ (delivered replies).length →
      ∃ cursor, state.cursor.takeExact (groupSpan layout state.nextSegment).len =
          .ok (groupBytes layout (delivered replies) state.nextSegment, cursor) ∧
        Reading layout replies ⟨cursor, state.hashed ++ groupBytes layout (delivered replies) state.nextSegment,
          endSegment layout state.nextSegment, Nat.min_le_right _ _⟩) ∧
      ((delivered replies).length < cipherBefore layout.segments (endSegment layout state.nextSegment) →
        ∃ e, state.cursor.takeExact (groupSpan layout state.nextSegment).len = .error e) := by
  have hmono := cipherBefore_mono layout.segments (lt_endSegment layout hlt).le
  have hlen : (groupSpan layout state.nextSegment).len = cipherBefore layout.segments (endSegment layout
    state.nextSegment) - cipherBefore layout.segments state.nextSegment := rfl
  have hle := hreading.le
  have hslice : state.cursor.pending.take (groupSpan layout state.nextSegment).len =
      groupBytes layout (delivered replies) state.nextSegment := by
    rw [hreading.pending, groupBytes, selectedBytes, slice, drop_take]
    simp only [groupSpan, selectedSpan, groupSelection]
    congr 1
    omega
  obtain ⟨hok, herror⟩ := state.cursor.takeExact_spec (groupSpan layout state.nextSegment).len
  rw [hreading.pending, length_drop] at hok herror
  refine ⟨fun hstored => ?_, fun hshort => herror (by omega)⟩
  obtain ⟨cursor, hcursor, hpending, hcomplete, hsolid⟩ := hok (by omega)
  rw [← hreading.pending, hslice] at hcursor
  refine ⟨cursor, hcursor, hstored, ?_, ?_, hcomplete.trans hreading.complete, fun hs => hsolid (hreading.solid hs), ?_⟩
  · rw [hpending, drop_drop, hlen, Nat.add_sub_cancel' hmono]
  · rw [← hslice, hreading.hashed, hreading.pending, hlen, ← take_add, Nat.add_sub_cancel' hmono]
  · rcases Nat.le_total (state.nextSegment + segmentsPerChunk layout.reference.chunkSize) layout.segmentCount
      with hin | hout
    · left
      show _ ∣ min _ _
      rw [Nat.min_eq_left hin]
      exact Nat.dvd_add (hreading.boundary.resolve_right hlt.ne) (Nat.dvd_refl _)
    · exact Or.inr (Nat.min_eq_right hout)

include h hauth hreading

/-- A group that succeeds: its plaintext is the sealed one, the stream goes on reading the same body, and at the end of
the layout the whole body was checked. -/
theorem readGroup_ok (hlt : state.nextSegment < layout.segmentCount)
    (hgroup : readGroup aead keyring digest payloadId layout expectedSectionDigest state = .ok group) :
    group.1 = slice plaintext (plainBefore layout.segments state.nextSegment)
        (plainBefore layout.segments group.2.nextSegment) ∧
      Reading layout replies group.2 ∧
      (∀ o, state.nextSegment ≤ o → o < group.2.nextSegment →
        SegmentAuthenticates aead keyring payloadId layout (delivered replies) o) ∧
      (group.2.nextSegment = layout.segmentCount → (delivered replies).length = layout.storedLen ∧
        digest (delivered replies) = expectedSectionDigest ∧ (Solid replies → Complete replies)) := by
  obtain ⟨hnew, hsel⟩ := groupSelection_eq h hlt
  rw [readGroup_eq h hlt, bind_eq_ok] at hgroup
  obtain ⟨taken, htake, hgroup⟩ := hgroup
  obtain ⟨hok, herror⟩ := takeExact_group hreading hlt
  have hstored : cipherBefore layout.segments (endSegment layout state.nextSegment) ≤ (delivered replies).length := by
    by_contra hshort
    obtain ⟨e, he⟩ := herror (Nat.lt_of_not_le hshort)
    rw [he] at htake
    cases htake
  obtain ⟨cursor, hcursor, hnext⟩ := hok hstored
  rw [hcursor] at htake
  obtain rfl := Except.ok.inj htake
  simp only [ok_iff] at hgroup
  obtain ⟨opened, hopened, hgroup⟩ := hgroup
  obtain ⟨hsegments, rfl⟩ := (openSegmentedPayloadSpan_authentic h hauth hnew hsel hstored).mp hopened
  split at hgroup
  · rename_i hend
    simp only [ok_iff] at hgroup
    obtain ⟨_, hfinish, hdigest, rfl⟩ := hgroup
    have hnone := BlobCursor.pending_of_finishExact hfinish
    have hhashed := hnext.hashed
    have hall : (delivered replies).length = layout.storedLen := by
      simp only [hnext.pending, drop_eq_nil_iff, hend, h.count, h.stored] at hnone hstored
      omega
    refine ⟨rfl, hnext, hsegments, fun _ => ⟨hall, ?_, fun hs => hnext.complete.mp
      ((BlobCursor.finishExact_eq_ok (hnext.solid hs)).mp hfinish).2⟩⟩
    simp only [hend, h.count, h.stored, ← hall, take_length] at hhashed
    exact hhashed ▸ hdigest
  · rename_i hend
    simp only [pure_eq_ok] at hgroup
    subst hgroup
    exact ⟨rfl, hnext, hsegments, fun heq => absurd heq hend⟩

/-- A group whose stored bytes are there, authenticate and, at the end of the layout, are the whole expected body. -/
theorem exists_readGroup (hlt : state.nextSegment < layout.segmentCount)
    (hsegments : ∀ o < layout.segments.length, SegmentAuthenticates aead keyring payloadId layout (delivered replies) o)
    (hlength : (delivered replies).length = layout.storedLen)
    (hdigest : digest (delivered replies) = expectedSectionDigest) (hcomplete : Complete replies) (hsolid : Solid replies) :
    ∃ group, readGroup aead keyring digest payloadId layout expectedSectionDigest state = .ok group := by
  obtain ⟨hnew, hsel⟩ := groupSelection_eq h hlt
  have hstored : cipherBefore layout.segments (endSegment layout state.nextSegment) ≤ (delivered replies).length :=
    hlength ▸ h.cipherBefore_le hsel.segments_le
  obtain ⟨cursor, hcursor, hnext⟩ := (takeExact_group hreading hlt).1 hstored
  have hopened := (openSegmentedPayloadSpan_authentic h hauth hnew hsel hstored).mpr
    ⟨fun o _ ho => hsegments o (ho.trans_le hsel.segments_le), rfl⟩
  rw [readGroup_eq h hlt, hcursor, ok_bind]
  simp only [groupSpan, groupBytes, hopened, Except.mapError, ok_bind]
  split
  · rename_i hend
    have hpending := hnext.pending
    have hhashed := hnext.hashed
    simp only [hend, h.count, h.stored, ← hlength, take_length, drop_length] at hpending hhashed
    have hfinish : cursor.finishExact = .ok () :=
      (BlobCursor.finishExact_eq_ok (hnext.solid hsolid)).mpr ⟨hpending, hnext.complete.mpr hcomplete⟩
    simp only [groupBytes] at hhashed
    simp only [hfinish, ok_bind, hhashed, ensure_of hdigest]
    exact ⟨_, rfl⟩
  · exact ⟨_, rfl⟩

/-- The groups released from a state on are the sealed plaintext up to a segment: the end of the layout when the stream
ends without an error, and the start of a group otherwise. -/
theorem unfoldGroups_released : ∃ stop, state.nextSegment ≤ stop ∧
      (unfoldGroups aead keyring digest payloadId layout expectedSectionDigest state).1.flatten =
        slice plaintext (plainBefore layout.segments state.nextSegment) (plainBefore layout.segments stop) ∧
      ((unfoldGroups aead keyring digest payloadId layout expectedSectionDigest state).2 = none →
        stop = layout.segmentCount) ∧
      ((unfoldGroups aead keyring digest payloadId layout expectedSectionDigest state).2 ≠ none →
        segmentsPerChunk layout.reference.chunkSize ∣ stop ∧ stop < layout.segmentCount) := by
  fun_induction unfoldGroups with
  | case1 state hend =>
    exact ⟨state.nextSegment, Nat.le_refl _, by rw [slice_self]; rfl, fun _ => hend, fun hne => absurd rfl hne⟩
  | case2 state hend error hgroup =>
    refine ⟨state.nextSegment, Nat.le_refl _, by rw [slice_self]; rfl, fun hnone => (nomatch hnone), fun _ => ?_⟩
    exact ⟨hreading.boundary.resolve_right hend, lt_of_le_of_ne state.next_le hend⟩
  | case3 state hend group hgroup rest ih =>
    have hlt := lt_of_le_of_ne state.next_le hend
    obtain ⟨hplain, hnext, -, -⟩ := readGroup_ok h hauth hreading hlt hgroup
    have hlast := lt_endSegment layout hlt
    rw [← readGroup_nextSegment _ _ _ _ _ _ hgroup] at hlast
    obtain ⟨stop, hle, hflatten, hnone, hsome⟩ := ih hnext
    refine ⟨stop, hlast.le.trans hle, ?_, hnone, hsome⟩
    rw [flatten_cons, hflatten, hplain]
    exact slice_append_slice plaintext (plainBefore_mono _ hlast.le) (plainBefore_mono _ hle)

/-- A stream that ends without an error checked every segment and the whole body. -/
theorem unfoldGroups_checked (hlt : state.nextSegment < layout.segmentCount)
    (hnone : (unfoldGroups aead keyring digest payloadId layout expectedSectionDigest state).2 = none) :
    (∀ o, state.nextSegment ≤ o → o < layout.segments.length →
      SegmentAuthenticates aead keyring payloadId layout (delivered replies) o) ∧
      (delivered replies).length = layout.storedLen ∧ digest (delivered replies) = expectedSectionDigest ∧
      (Solid replies → Complete replies) := by
  fun_induction unfoldGroups aead keyring digest payloadId layout expectedSectionDigest state with
  | case1 state hend => exact absurd hlt (by omega)
  | case2 state hend error hgroup => cases hnone
  | case3 state hend group hgroup rest ih =>
    obtain ⟨-, hnext, hsegments, hfinal⟩ := readGroup_ok h hauth hreading hlt hgroup
    by_cases hlast : group.2.nextSegment = layout.segmentCount
    · refine ⟨fun o hfirst ho => hsegments o hfirst ?_, hfinal hlast⟩
      rw [hlast, h.count]
      exact ho
    · obtain ⟨hrest, hbody⟩ := ih hnext (lt_of_le_of_ne group.2.next_le hlast) hnone
      refine ⟨fun o hfirst ho => ?_, hbody⟩
      rcases Nat.lt_or_ge o group.2.nextSegment with hbefore | hafter
      · exact hsegments o hfirst hbefore
      · exact hrest o hafter ho

/-- A body that is whole and authenticates is streamed to its end. -/
theorem unfoldGroups_of_checked (hsegments : ∀ o < layout.segments.length,
    SegmentAuthenticates aead keyring payloadId layout (delivered replies) o)
    (hlength : (delivered replies).length = layout.storedLen)
    (hdigest : digest (delivered replies) = expectedSectionDigest) (hcomplete : Complete replies) (hsolid : Solid replies) :
    (unfoldGroups aead keyring digest payloadId layout expectedSectionDigest state).2 = none := by
  fun_induction unfoldGroups with
  | case1 state hend => rfl
  | case2 state hend error hgroup =>
    obtain ⟨group, hok⟩ := exists_readGroup h hauth hreading (lt_of_le_of_ne state.next_le hend) hsegments hlength
      hdigest hcomplete hsolid
    rw [hgroup] at hok
    cases hok
  | case3 state hend group hgroup rest ih =>
    exact ih (readGroup_ok h hauth hreading (lt_of_le_of_ne state.next_le hend) hgroup).2.1

end Runs

/-! ## Safety -/

section Safety

variable {K : Type} {aead : TaggedAead K} {keyring : KeyRing K} {payloadId : BackendObjectId}
  {layout : SegmentedPayloadLayout}

theorem workingSetBytes_eq_some {reference : PayloadLayout} {repositoryContext : Bytes}
    (h : SegmentedPayloadLayout.new reference repositoryContext = .ok layout) :
    ∃ bytes, workingSetBytes layout = some bytes := by
  simp only [SegmentedPayloadLayout.new, ok_iff] at h
  obtain ⟨storedLen, hstored, hcontext, sums, hsums, rfl⟩ := h
  obtain rfl := addParts_eq_ok hsums
  obtain ⟨hparts, hkey⟩ := PayloadLayout.bounds_of_storedLen hstored
  have hchunk : reference.chunkSize ≤ 64 * 1024 * 1024 := by
    unfold PayloadLayout.storedLen at hstored
    split at hstored
    · cases hstored
    · rename_i hbounds
      push Not at hbounds
      exact hbounds.2.1
  have hstarts : ∀ (start : PartStart) parts, (startsOf reference.chunkSize start parts).length = parts.length := by
    intro start parts
    induction parts generalizing start with
    | nil => rfl
    | cons part rest ih => rw [startsOf, length_cons, ih, length_cons]
  have hper : segmentsPerChunk reference.chunkSize * reference.chunkSize ≤ 64 * 1024 * 1024 := by
    have hdiv := Nat.div_mul_le_self targetPlaintextChunkBytes reference.chunkSize
    unfold segmentsPerChunk
    rcases Nat.le_total (targetPlaintextChunkBytes / reference.chunkSize) 1 with hsmall | hlarge
    · rw [Nat.max_eq_right hsmall]
      omega
    · rw [Nat.max_eq_left hlarge]
      exact hdiv.trans (by decide)
  have hcount : segmentsPerChunk reference.chunkSize ≤ targetPlaintextChunkBytes :=
    Nat.max_le.mpr ⟨Nat.div_le_self _ _, by decide⟩
  simp only [not_or] at hcontext
  simp only [Index.maxPayloadParts] at hparts
  simp only [workingSetBytes, Option.bind_eq_bind, Option.bind_eq_some_iff, checkedMul_eq_some, checkedAdd_eq_some,
    retainedBytes, nil_append, hstarts, targetPlaintextChunkBytes, tagLen] at hcount ⊢
  exact ⟨_, _, ⟨by omega, rfl⟩, _, ⟨by omega, rfl⟩, _, ⟨by omega, rfl⟩, _, ⟨by omega, rfl⟩, _, ⟨by omega, rfl⟩,
    by omega, rfl⟩

def lastGroup (layout : SegmentedPayloadLayout) : ℕ :=
  (layout.segmentCount - 1) / segmentsPerChunk layout.reference.chunkSize * segmentsPerChunk layout.reference.chunkSize

/-- No segment of the stored bytes is a forgery: one that opens in its context is the sealed one. -/
def Unforged (aead : Aead K) (keyring : KeyRing K) (payloadId : BackendObjectId) (layout : SegmentedPayloadLayout)
    (body stored : Bytes) : Prop :=
  ∀ o facts opened, layout.segments[o]? = some facts →
    openPayloadSegment aead keyring (facts.context layout payloadId) layout.reference.keyId
      (segmentCiphertext layout stored o) = .ok opened → segmentCiphertext layout stored o = segmentCiphertext layout body o

theorem OpensTo.authentic {aead : Aead K} {plaintext body stored : Bytes}
    (h : OpensTo aead keyring payloadId layout plaintext body)
    (hunforged : Unforged aead keyring payloadId layout body stored) :
    Authentic aead keyring payloadId layout plaintext stored where
  length := h.plaintext_length
  opens := by
    intro o facts opened hat hopen
    rw [hunforged o facts opened hat hopen, h.segment hat] at hopen
    exact (Except.ok.inj hopen).symm

/-- The body that the stream returns, by how its groups end. -/
theorem openAuthenticatedPayloadStream_eq {aead : Aead K} (h : Located layout) {charge : ℕ}
    (hcharge : workingSetBytes layout = some charge)
    (digest : Bytes → Digest) (expectedSectionDigest : Digest) (reader : List Reply) (storedLen : ℕ)
    (hlen : layout.storedLen = storedLen) :
    let groups := unfoldGroups aead keyring digest payloadId layout expectedSectionDigest
      ⟨⟨reader, []⟩, [], 0, Nat.zero_le _⟩
    let result := openAuthenticatedPayloadStream aead keyring digest payloadId layout expectedSectionDigest reader
      storedLen storedLen
    emitted result = groups.1.flatten ∧ (EndsWithoutError result ↔ groups.1 ≠ [] ∧ groups.2 = none) := by
  intro groups result
  have hpos := h.nonempty
  have hresult : result = match groups with
      | ([], none) => .error streamStorageError
      | ([], some error) => .error error
      | (first :: rest, failure) => .ok ⟨layout.reference.plaintextLen, charge, first :: rest, failure⟩ := by
    simp only [result, openAuthenticatedPayloadStream, hcharge, okOr]
    rw [ensure_of (by omega), ok_bind, ensure_of hlen, ok_bind, ok_bind]
    rfl
  rw [hresult]
  rcases groups with ⟨_ | ⟨first, rest⟩, _ | failure⟩ <;> simp [emitted, EndsWithoutError]

/-- A body whose announced lengths are not the expected ones is refused. -/
theorem openAuthenticatedPayloadStream_error {aead : Aead K} {exactLen expectedStoredLen : ℕ}
    (h : ¬(exactLen = expectedStoredLen ∧ layout.storedLen = expectedStoredLen)) (digest : Bytes → Digest)
    (expectedSectionDigest : Digest) (reader : List Reply) :
    ∃ error, openAuthenticatedPayloadStream aead keyring digest payloadId layout expectedSectionDigest reader exactLen
      expectedStoredLen = .error error := by
  unfold openAuthenticatedPayloadStream
  by_cases hfirst : ¬(exactLen ≠ expectedStoredLen ∨ layout.reference.plaintextLen = 0)
  · rw [ensure_of hfirst, ok_bind, ensure, if_neg (by push Not at hfirst; exact fun hlen => h ⟨hfirst.1, hlen⟩)]
    exact ⟨_, rfl⟩
  · rw [ensure, if_neg hfirst]
    exact ⟨_, rfl⟩

/-- The stream over a reader whose announced lengths are the expected ones. -/
theorem stream_released {aead : Aead K} {plaintext : Bytes} (h : Located layout)
    {charge : ℕ} (hcharge : workingSetBytes layout = some charge) (digest : Bytes → Digest)
    (expectedSectionDigest : Digest) (reader : List Reply)
    (hauth : Authentic aead keyring payloadId layout plaintext (delivered reader)) :
    let groups := unfoldGroups aead keyring digest payloadId layout expectedSectionDigest
      ⟨⟨reader, []⟩, [], 0, Nat.zero_le _⟩
    let result := openAuthenticatedPayloadStream aead keyring digest payloadId layout expectedSectionDigest reader
      layout.storedLen layout.storedLen
    (EndsWithoutError result ↔ groups.2 = none) ∧
      ∃ stop, emitted result = plaintext.take (plainBefore layout.segments stop) ∧
        (groups.2 = none → stop = layout.segmentCount) ∧
        (groups.2 ≠ none → segmentsPerChunk layout.reference.chunkSize ∣ stop ∧ stop < layout.segmentCount) := by
  intro groups result
  obtain ⟨hemitted, hends⟩ := @openAuthenticatedPayloadStream_eq _ keyring
    payloadId _ aead h _ hcharge digest expectedSectionDigest reader layout.storedLen rfl
  obtain ⟨stop, -, hreleased, hnone, hsome⟩ := @unfoldGroups_released _ _ _ digest _ _
    expectedSectionDigest _ _ _ h hauth (Reading.start layout reader)
  have htake : groups.1.flatten = plaintext.take (plainBefore layout.segments stop) := by
    rw [show groups.1.flatten = _ from hreleased]
    simp [plainBefore, slice]
  refine ⟨hends.trans ⟨And.right, fun hend => ⟨fun hnil => ?_, hend⟩⟩, stop, hemitted.trans htake, hnone, hsome⟩
  -- an empty stream cannot end without an error, because the plaintext is not empty
  rw [hnil, hnone hend, h.count, h.plain, ← hauth.length, take_length] at htake
  have hzero := hauth.length
  rw [← htake] at hzero
  exact absurd hzero h.nonempty.ne

/-- **A streaming read never releases unauthenticated data.**  Over any reader that delivers no forged segment, what is
emitted is a beginning of the sealed plaintext, and unless the stream ends without an error the last group is withheld.
Over any chunks of a source, the stream ends without an error exactly when the body has the expected length and digest
and every segment of it authenticates; all of the plaintext is then emitted. -/
theorem authenticated_stream_safe {reference : PayloadLayout} {repositoryContext : Bytes}
    (hlayout : SegmentedPayloadLayout.new reference repositoryContext = .ok layout) {contents : List (Bytes × List Bytes)}
    (hsealed : PartsSealed aead.toAead keyring payloadId layout contents)
    (digest : Bytes → Digest) (expectedSectionDigest : Digest) (exactLen expectedStoredLen : ℕ) :
    let plaintext := (contents.map Prod.fst).flatten
    let body := (contents.map Prod.snd).flatten.flatten
    let result := fun reader => openAuthenticatedPayloadStream aead.toAead keyring digest payloadId layout
      expectedSectionDigest reader exactLen expectedStoredLen
    (∀ reader, Unforged aead.toAead keyring payloadId layout body (delivered reader) →
      emitted (result reader) <+: plaintext ∧
      (EndsWithoutError (result reader) → emitted (result reader) = plaintext) ∧
      (¬ EndsWithoutError (result reader) →
        emitted (result reader) <+: plaintext.take (plainBefore layout.segments (lastGroup layout)))) ∧
    plainBefore layout.segments (lastGroup layout) < plaintext.length ∧
    ∀ source : List Reply,
      Unforged aead.toAead keyring payloadId layout body (delivered (exactBlobRead exactLen source)) →
      (EndsWithoutError (result (exactBlobRead exactLen source)) ↔
        (exactLen = expectedStoredLen ∧ layout.storedLen = expectedStoredLen) ∧ Complete source ∧
          (delivered source).length = expectedStoredLen ∧ digest (delivered source) = expectedSectionDigest ∧
          ∀ o < layout.segmentCount, SegmentAuthenticates aead.toAead keyring payloadId layout (delivered source) o) := by
  obtain ⟨h, rfl, rfl, hstored⟩ := new_located hlayout
  have hopens := hsealed.opensTo h
  obtain ⟨charge, hcharge⟩ := workingSetBytes_eq_some hlayout
  intro plaintext body result
  have hlength : plaintext.length = layout.reference.plaintextLen := hopens.plaintext_length
  have hcount := h.count
  have hper : 0 < segmentsPerChunk layout.reference.chunkSize := Nat.lt_of_lt_of_le Nat.zero_lt_one (Nat.le_max_right _ _)
  have hsegments : 0 < layout.segmentCount := by
    by_contra hzero
    have hplain := h.plain
    rw [← hcount, Nat.eq_zero_of_not_pos hzero] at hplain
    exact absurd hplain h.nonempty.ne
  have hlast : lastGroup layout < layout.segmentCount := Nat.lt_of_le_of_lt (Nat.div_mul_le_self _ _) (by omega)
  refine ⟨fun reader hunforged => ?_, ?_, fun source hunforged => ?_⟩
  · have hauth := hopens.authentic hunforged
    by_cases hchecks : exactLen = expectedStoredLen ∧ layout.storedLen = expectedStoredLen
    · obtain ⟨rfl, rfl⟩ := hchecks
      obtain ⟨hends, stop, hemitted, hnone, hsome⟩ := stream_released h hcharge digest expectedSectionDigest reader hauth
      refine ⟨hemitted ▸ take_prefix _ _, fun hend => ?_, fun hfail => ?_⟩
      · rw [show emitted (result reader) = _ from hemitted, hnone (hends.mp hend), hcount, h.plain, ← hlength,
          take_length]
      · obtain ⟨⟨k, rfl⟩, hlt⟩ := hsome fun hnil => hfail (hends.mpr hnil)
        have hle : segmentsPerChunk layout.reference.chunkSize * k ≤ lastGroup layout := by
          rw [Nat.mul_comm]
          exact Nat.mul_le_mul_right _ ((Nat.le_div_iff_mul_le hper).mpr (by rw [Nat.mul_comm]; omega))
        rw [show emitted (result reader) = _ from hemitted]
        exact take_prefix_take_left (plainBefore_mono _ hle)
    · obtain ⟨error, herror⟩ := @openAuthenticatedPayloadStream_error _ keyring
        payloadId _ aead.toAead _ _ hchecks digest expectedSectionDigest reader
      rw [show result reader = .error error from herror]
      exact ⟨List.nil_prefix, False.elim, fun _ => nil_prefix⟩
  · rw [hlength, ← h.plain, ← hcount]
    exact plainBefore_lt h hlast hcount.le
  · have hauth := hopens.authentic hunforged
    by_cases hchecks : exactLen = expectedStoredLen ∧ layout.storedLen = expectedStoredLen
    · obtain ⟨rfl, rfl⟩ := hchecks
      obtain ⟨hends, -⟩ := stream_released h hcharge digest expectedSectionDigest
        (exactBlobRead layout.storedLen source) hauth
      obtain ⟨hcomplete, hdelivered⟩ := complete_exactBlobRead layout.storedLen source
      have hsolid := solid_exactBlobRead layout.storedLen source
      refine hends.trans ⟨fun hnone => ?_, ?_⟩
      · obtain ⟨hsegs, hlen, hdigest, hcompleted⟩ := unfoldGroups_checked h hauth (Reading.start layout _) hsegments hnone
        have hread := hcompleted hsolid
        rw [hdelivered hread] at hsegs hdigest
        exact ⟨⟨rfl, rfl⟩, (hcomplete.mp hread).1, (hcomplete.mp hread).2, hdigest,
          fun o ho => hsegs o (Nat.zero_le _) (hcount ▸ ho)⟩
      · rintro ⟨-, hsource, hlen, hdigest, hsegs⟩
        have hread := hcomplete.mpr ⟨hsource, hlen⟩
        have heq := hdelivered hread
        exact unfoldGroups_of_checked h hauth (Reading.start layout _) (fun o ho => heq ▸ hsegs o (hcount ▸ ho))
          (heq ▸ hlen) (heq ▸ hdigest) hread hsolid
    · obtain ⟨error, herror⟩ := @openAuthenticatedPayloadStream_error _ keyring
        payloadId _ aead.toAead _ _ hchecks digest expectedSectionDigest (exactBlobRead exactLen source)
      rw [show result (exactBlobRead exactLen source) = .error error from herror]
      exact ⟨False.elim, fun hright => absurd hright.1 hchecks⟩

end Safety

/-! ## A payload with sums for tags -/

/-- A cipher that hides nothing and tags a plaintext with the sum of its bytes. -/
def summedAead : TaggedAead Unit where
  deriveHmac _ _ _ := Vector.replicate 32 0
  encrypt _ _ _ plaintext := some (plaintext ++ List.replicate 16 (plaintext.foldl UInt8.add 0))
  decrypt _ _ _ ciphertext :=
    let plaintext := ciphertext.take (ciphertext.length - 16)
    if ciphertext = plaintext ++ List.replicate 16 (plaintext.foldl UInt8.add 0) then some plaintext else none
  decrypt_encrypt := by
    intro _ _ _ plaintext ciphertext h
    obtain rfl := Option.some.inj h
    simp
  length_encrypt := by
    intro _ _ _ plaintext ciphertext h
    obtain rfl := Option.some.inj h
    rw [length_append, length_replicate]

def summedContents : List (Bytes × List Bytes) :=
  [([1, 2, 3], [[1, 2] ++ List.replicate 16 3, [3] ++ List.replicate 16 3]), ([4], [[4] ++ List.replicate 16 4])]

theorem summedContents_sealed :
    PartsSealed summedAead.toAead sampleKeyring sampleStreamId sampleLayout summedContents :=
  .cons ⟨rfl, by decide +kernel⟩ (.cons ⟨rfl, by decide +kernel⟩ .nil)

def summedBody : Bytes := (summedContents.map Prod.snd).flatten.flatten

/-- The body with the byte of its last segment changed, and the tag left as it was. -/
def alteredBody : Bytes := summedBody.take 35 ++ (5 :: summedBody.drop 36)

theorem summedBody_opens : OpensTo summedAead.toAead sampleKeyring sampleStreamId sampleLayout [1, 2, 3, 4] summedBody :=
  summedContents_sealed.opensTo (new_located sampleLayout_new).1

/-- The altered segment does not open, and the other two are the sealed ones. -/
theorem alteredBody_unforged :
    Unforged summedAead.toAead sampleKeyring sampleStreamId sampleLayout summedBody alteredBody := by
  have hsegments : ∀ o < 3, segmentCiphertext sampleLayout alteredBody o = segmentCiphertext sampleLayout summedBody o ∨
      sampleLayout.segments[o]?.all (fun facts => !(openPayloadSegment summedAead.toAead sampleKeyring
        (facts.context sampleLayout sampleStreamId) sampleLayout.reference.keyId
        (segmentCiphertext sampleLayout alteredBody o)).isOk) = true := by
    decide +kernel
  intro o facts opened hat hopen
  have ho : o < 3 := (List.getElem?_eq_some_iff.mp hat).1
  refine (hsegments o ho).resolve_right fun hclosed => ?_
  rw [hat, Option.all_some, hopen] at hclosed
  cases hclosed

/-- The stored body in two chunks, with an empty one between them. -/
def splitSource : List Reply := [.chunk (summedBody.take 5), .chunk [], .chunk (summedBody.drop 5)]

def summedStream (source : List Reply) : Except GetError V3AuthenticatedReadBody :=
  openAuthenticatedPayloadStream summedAead.toAead sampleKeyring (fun _ => Vector.replicate 32 0) sampleStreamId
    sampleLayout (Vector.replicate 32 0) (exactBlobRead 52 source) 52 52

/-- The sealed body, in three chunks with an empty one, is streamed to its end; of the altered one, whose digest is
taken for the expected one, nothing is emitted. -/
theorem authenticated_stream_safe_sample :
    EndsWithoutError (summedStream splitSource) ∧ emitted (summedStream [.chunk alteredBody]) = [] := by
  obtain ⟨hstart, -, hends⟩ := @authenticated_stream_safe _ summedAead _ _ _ _ _ sampleLayout_new _ summedContents_sealed
    (fun _ => Vector.replicate 32 0) (Vector.replicate 32 0) 52 52
  have hcount := (new_located sampleLayout_new).1.count
  constructor
  · have hbody : delivered splitSource = summedBody := by simp [splitSource, delivered]
    have hread : delivered (exactBlobRead 52 splitSource) = summedBody := by decide +kernel
    refine (hends _ fun o facts opened hat hopen => by rw [hread]; rfl).mpr
      ⟨⟨rfl, rfl⟩, by decide, by rw [hbody]; rfl, rfl, fun o ho => ?_⟩
    rw [hbody]
    have hat := List.getElem?_eq_getElem (show o < sampleLayout.segments.length from hcount ▸ ho)
    exact ⟨_, _, hat, summedBody_opens.segment hat⟩
  · have hread : delivered (exactBlobRead 52 [.chunk alteredBody]) = alteredBody := by decide +kernel
    have hunforged := alteredBody_unforged
    rw [← hread] at hunforged
    obtain ⟨-, -, hwithheld⟩ := hstart _ hunforged
    have hfails : ¬EndsWithoutError (summedStream [.chunk alteredBody]) := by
      intro hend
      obtain ⟨-, -, -, -, hsegments⟩ := (hends _ hunforged).mp hend
      obtain ⟨facts, opened, hat, hopen⟩ := hsegments 2 (by decide)
      have haltered := hunforged 2 facts opened hat (by rw [hread]; exact hopen)
      rw [hread] at haltered
      revert haltered
      decide +kernel
    exact List.prefix_nil.mp (hwithheld hfails)

end Rs3.Payload
