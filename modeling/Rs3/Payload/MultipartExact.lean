/-
# Rs3.Payload.MultipartExact — a completed multipart upload is exactly its selected parts.

Every accepted part is the one-shot sealing of its body.  A selection that completes names the latest attempt of each
number, and the object read back is the concatenation of the sealed parts, which the returned layout opens.
-/
import Rs3.Payload.Multipart
import Rs3.Payload.StreamWriteExact

namespace Rs3.Payload

open List SegmentedPayloadLayout

open Crypto Storage SegmentedPayloadSealer
open Rs3.Index (PayloadLayout PayloadPart divCeil)

/-! ## Collecting bytes -/

/-- No chunk is invalid. -/
def ValidChunks (replies : List Reply) : Prop := ∀ chunk, .chunk chunk ∈ replies → ¬ InvalidChunk chunk

/-- The wanted bytes were taken from what was pending and delivered, and the rest of it is to come. -/
structure Collected (wanted : ℕ) (taken pending : Bytes) (replies : List Reply) (result : Bytes × Bytes × List Reply) :
    Prop where
  le : wanted ≤ (pending ++ delivered replies).length
  bytes : result.1 = taken ++ (pending ++ delivered replies).take wanted
  rest : result.2.1 ++ delivered result.2.2 = (pending ++ delivered replies).drop wanted
  complete : Complete result.2.2 ↔ Complete replies
  suffix : result.2.2 <:+ replies

variable {wanted : ℕ} {taken pending : Bytes} {replies : List Reply}

/-- Enough is pending: nothing more is read. -/
theorem Collected.of_pending (hle : wanted ≤ pending.length) :
    Collected wanted taken pending replies (taken ++ pending.take wanted, pending.drop wanted, replies) := by
  refine ⟨by rw [length_append]; omega, ?_, ?_, Iff.rfl, suffix_refl _⟩
  · rw [take_append_of_le_length hle]
  · rw [drop_append_of_le_length hle]

theorem collect_eq_some (h : collect limit wanted taken pending replies = some result) :
    Collected wanted taken pending replies result := by
  fun_induction collect limit wanted taken pending replies with
  | case1 _ _ _ _ hle | case3 _ _ _ _ _ hle | case5 _ _ _ _ _ _ hle =>
    cases h
    exact .of_pending hle
  | case2 | case4 | case6 => cases h
  | case7 limit wanted taken pending chunk rest hlt hvalid ih =>
    obtain ⟨hle, hbytes, hrest, hcomplete, hsuffix⟩ := ih h
    have hpending : pending.length ≤ wanted := Nat.le_of_not_le hlt
    refine ⟨?_, ?_, ?_, hcomplete.trans complete_chunk.symm, hsuffix.trans (suffix_cons _ _)⟩
    · rw [delivered, length_append]
      omega
    · rw [hbytes, delivered, append_assoc, @take_append _ pending, take_of_length_le hpending]
    · rw [hrest, delivered, @drop_append _ pending, drop_of_length_le hpending, nil_append]

theorem exists_collect (hvalid : ValidChunks replies) (h : wanted ≤ (pending ++ delivered replies).length) :
    ∃ result, collect none wanted taken pending replies = some result := by
  induction replies generalizing wanted taken pending with
  | nil =>
    rw [delivered, append_nil] at h
    exact ⟨_, by rw [collect, if_pos h]⟩
  | cons reply rest ih =>
    by_cases hle : wanted ≤ pending.length
    · cases reply with
      | failed => exact ⟨_, by rw [collect, if_pos hle]⟩
      | chunk chunk => exact ⟨_, by rw [collect, if_pos hle]⟩
    · cases reply with
      | failed =>
        rw [delivered, append_nil] at h
        exact absurd h hle
      | chunk chunk =>
        have hchunk := hvalid chunk mem_cons_self
        rw [collect, if_neg hle, if_neg (by simpa using hchunk)]
        refine ih (fun chunk hmem => hvalid chunk (mem_cons_of_mem _ hmem)) ?_
        rw [delivered, length_append] at h
        omega

theorem validChunks_pieces {chunk : Bytes} (hne : chunk ≠ []) : ValidChunks (pieces chunk) := by
  have hsolid := solid_pieces hne
  intro piece hmem
  refine not_or.mpr ⟨?_, ?_⟩
  · rintro rfl
    exact hsolid hmem
  · clear hsolid hne
    fun_induction pieces chunk with
    | case1 chunk hshort =>
      rw [mem_singleton, Reply.chunk.injEq] at hmem
      rw [hmem]
      omega
    | case2 chunk hlong ih =>
      rcases mem_cons.mp hmem with hfirst | hrest
      · rw [Reply.chunk.injEq] at hfirst
        rw [hfirst, length_take]
        omega
      · exact ih hrest

theorem validChunks_exactBlobRead : ValidChunks (exactBlobRead remaining source) := by
  fun_induction exactBlobRead remaining source with
  | case1 => simp [ValidChunks]
  | case2 => simp [ValidChunks]
  | case3 => simp [ValidChunks]
  | case4 remaining source ih => exact ih
  | case5 => simp [ValidChunks]
  | case6 remaining chunk source hne _ ih =>
    intro piece hmem
    rcases mem_append.mp hmem with hpiece | hrest
    · exact validChunks_pieces hne piece hpiece
    · exact ih piece hrest

/-! ## The sealed body of a part -/

section Body

variable {K : Type} {aead : TaggedAead K} {keyring : KeyRing K} {objectId : BackendObjectId}
  {sealer : SegmentedPayloadSealer}

/-- The segments of a plaintext whose first one has a given ordinal. -/
def sealFrom (aead : TaggedAead K) (keyring : KeyRing K) (objectId : BackendObjectId) (sealer : SegmentedPayloadSealer)
    (segment : ℕ) (plaintext : Bytes) : Except PayloadError (List Bytes) :=
  (List.range (divCeil plaintext.length partSegmentBytes)).mapM fun j =>
    sealer.sealSegment aead.toAead keyring objectId (segment + j) (chunk partSegmentBytes plaintext j)
      (j + 1 = divCeil plaintext.length partSegmentBytes)

theorem partSegmentBytes_pos : 0 < partSegmentBytes := by decide

theorem divCeil_le_one (hpos : 0 < len) (hle : len ≤ partSegmentBytes) : divCeil len partSegmentBytes = 1 := by
  have hlower := (@lt_divCeil _ len 0 partSegmentBytes_pos).mpr (by omega)
  have hupper : ¬ 1 < divCeil len partSegmentBytes := fun h => by
    have := (lt_divCeil partSegmentBytes_pos).mp h
    omega
  omega

theorem divCeil_add : divCeil (partSegmentBytes + len) partSegmentBytes = divCeil len partSegmentBytes + 1 := by
  unfold divCeil
  rw [Nat.add_div_left _ partSegmentBytes_pos, Nat.add_mod_left]
  omega

theorem sealFrom_last (segment : ℕ) (hpos : 0 < plaintext.length) (hle : plaintext.length ≤ partSegmentBytes) :
    sealFrom aead keyring objectId sealer segment plaintext =
      (do return [← sealer.sealSegment aead.toAead keyring objectId segment plaintext true]) := by
  have hchunk : chunk partSegmentBytes plaintext 0 = plaintext := by
    rw [chunk, Nat.zero_mul, Nat.zero_add, Nat.one_mul, slice, drop_zero, take_of_length_le hle]
  rw [sealFrom, divCeil_le_one hpos hle]
  simp [range_succ, mapM_cons, hchunk]

theorem sealFrom_append (segment : ℕ) (hfirst : first.length = partSegmentBytes) (hrest : 0 < rest.length) :
    sealFrom aead keyring objectId sealer segment (first ++ rest) = (do
      let bytes ← sealer.sealSegment aead.toAead keyring objectId segment first false
      let others ← sealFrom aead keyring objectId sealer (segment + 1) rest
      return bytes :: others) := by
  have hcount : 0 < divCeil rest.length partSegmentBytes := (lt_divCeil partSegmentBytes_pos).mpr (by omega)
  have hzero : chunk partSegmentBytes (first ++ rest) 0 = first := by
    rw [chunk, Nat.zero_mul, Nat.zero_add, Nat.one_mul, slice, drop_zero, ← hfirst, take_left]
  have hsucc : ∀ j, chunk partSegmentBytes (first ++ rest) (j + 1) = chunk partSegmentBytes rest j := by
    intro j
    have hstart : (j + 1) * partSegmentBytes = first.length + j * partSegmentBytes := by
      rw [hfirst, Nat.succ_mul, Nat.add_comm]
    have hstop : (j + 1 + 1) * partSegmentBytes = first.length + (j + 1) * partSegmentBytes := by
      rw [hfirst, Nat.succ_mul (j + 1), Nat.add_comm]
    rw [chunk, chunk, hstop, hstart, slice, slice, take_length_add_append, drop_length_add_append]
  have hothers : (fun j => sealer.sealSegment aead.toAead keyring objectId (segment + j)
      (chunk partSegmentBytes (first ++ rest) j) (j + 1 = divCeil rest.length partSegmentBytes + 1)) ∘ Nat.succ =
      fun j => sealer.sealSegment aead.toAead keyring objectId (segment + 1 + j) (chunk partSegmentBytes rest j)
        (j + 1 = divCeil rest.length partSegmentBytes) := by
    funext j
    rw [Function.comp_apply, Nat.succ_eq_add_one, hsucc, ← Nat.add_assoc, Nat.add_right_comm segment j 1]
    simp only [Nat.add_right_cancel_iff]
  rw [sealFrom, length_append, hfirst, divCeil_add, range_succ_eq_map, mapM_cons, mapM_map, hothers]
  rw [hzero, Nat.add_zero, decide_eq_false (by omega), ← sealFrom]

theorem toOption_eq_some {ε α : Type} {x : Except ε α} {a : α} : x.toOption = some a ↔ x = .ok a := by
  cases x <;> simp [Except.toOption]

/-- A body that is sealed to its end: all that was announced was delivered, and it is sealed segment by segment. -/
theorem encryptedPartBody_eq_some {remaining segment : ℕ} {pending : Bytes} {input : List Reply}
    {result : List Bytes × Bytes}
    (h : encryptedPartBody aead keyring objectId sealer remaining segment pending input = some result) :
    result.2 = pending ++ delivered input ∧ Complete input ∧ result.2.length = remaining ∧
      sealFrom aead keyring objectId sealer segment result.2 = .ok result.1 := by
  induction remaining using Nat.strong_induction_on generalizing segment pending input result with
  | _ remaining ih =>
    rw [encryptedPartBody] at h
    split at h
    · rename_i hzero
      split at h
      · rename_i heof
        obtain ⟨rfl, rfl⟩ := heof
        cases h
        exact ⟨rfl, complete_nil, hzero.symm, rfl⟩
      · cases h
    · rename_i hpos
      simp only [Option.bind_eq_bind, Option.bind_eq_some_iff] at h
      obtain ⟨⟨plaintext, pending', input'⟩, hcollect, h⟩ := h
      obtain ⟨henough, hbytes, hrest, hcomplete, -⟩ := collect_eq_some hcollect
      dsimp only at hbytes hrest hcomplete h
      rw [nil_append] at hbytes
      have hlength : plaintext.length = min remaining partSegmentBytes := by
        rw [hbytes, length_take, Nat.min_eq_left henough]
      have hsplit : pending ++ delivered input = plaintext ++ (pending' ++ delivered input') := by
        rw [hbytes, hrest, take_append_drop]
      split at h
      · rename_i hlast
        split at h
        · rename_i heof
          obtain ⟨rfl, rfl⟩ := heof
          simp only [Option.bind_eq_some_iff, toOption_eq_some, Option.some.injEq] at h
          obtain ⟨bytes, hsealed, rfl⟩ := h
          refine ⟨by rw [hsplit, delivered]; simp, hcomplete.mp complete_nil, by dsimp only; omega, ?_⟩
          dsimp only
          rw [sealFrom_last segment (by omega) (by omega), hsealed]
          rfl
        · cases h
      · rename_i hmore
        simp only [Option.bind_eq_some_iff, toOption_eq_some, Option.some.injEq] at h
        obtain ⟨bytes, hsealed, rest, hrestSealed, rfl⟩ := h
        have hpositive := partSegmentBytes_pos
        obtain ⟨hplain, hcompleted, hrestLength, hothers⟩ := ih (remaining - min remaining partSegmentBytes) (by omega)
          hrestSealed
        refine ⟨by rw [hsplit, hplain], hcomplete.mp hcompleted, ?_, ?_⟩
        · rw [length_append]
          omega
        · rw [sealFrom_append segment (by omega) (by omega), hsealed, ok_bind, hothers]
          rfl

theorem sealFrom_zero (hchunk : sealer.chunkSize = partSegmentBytes) (plaintext : Bytes) :
    sealFrom aead keyring objectId sealer 0 plaintext = sealer.sealPart aead.toAead keyring objectId plaintext := by
  simp only [sealFrom, sealPart, hchunk, Nat.zero_add]

theorem length_sealSegment (h : sealer.sealSegment aead.toAead keyring objectId j plaintext isFinal = .ok bytes) :
    bytes.length = plaintext.length + tagLen := by
  simp only [sealSegment, ok_iff] at h
  obtain ⟨-, sealed, hsealed, -, rfl⟩ := h
  exact length_sealPayloadSegment hsealed

theorem length_flatten_sealPart (hchunk : 0 < sealer.chunkSize)
    (h : sealer.sealPart aead.toAead keyring objectId plaintext = .ok sealed) :
    sealed.flatten.length = plaintext.length + divCeil plaintext.length sealer.chunkSize * tagLen := by
  have hsum : ∀ {js : List ℕ} {sealed : List Bytes}, List.Forall₂ (fun j bytes =>
      sealer.sealSegment aead.toAead keyring objectId j (chunk sealer.chunkSize plaintext j)
        (j + 1 = divCeil plaintext.length sealer.chunkSize) = .ok bytes) js sealed →
      sealed.flatten.length = (js.map (chunk sealer.chunkSize plaintext)).flatten.length + js.length * tagLen := by
    intro js sealed hsealed
    induction hsealed with
    | nil => rw [flatten_nil, map_nil, flatten_nil, length_nil, length_nil, Nat.zero_mul]
    | cons hbytes _ ih =>
      rw [flatten_cons, map_cons, flatten_cons, length_append, length_append, ih,
        length_sealSegment hbytes, length_cons, Nat.succ_mul]
      omega
  rw [hsum (mapM_eq_ok.mp h), flatten_chunks hchunk, length_range]

end Body

/-! ## Reading the object back -/

section Verify

variable {hashes : PartHashes}

/-- A body that carries the digest and the length of a part. -/
def Matches (hashes : PartHashes) (part : V3UploadedPart) (body : Bytes) : Prop :=
  part.backend.contentLen = body.length ∧ hashes.sha256 body = part.digest

theorem foldlM_verifyPart_eq_ok (h : parts.foldlM (verifyPart hashes) state = .ok result) :
    (∃ bodies, List.Forall₂ (Matches hashes) parts bodies ∧
      state.2.1 ++ delivered state.2.2 = bodies.flatten ++ (result.2.1 ++ delivered result.2.2)) ∧
      (Complete result.2.2 ↔ Complete state.2.2) := by
  induction parts generalizing state with
  | nil =>
    cases h
    exact ⟨⟨[], .nil, rfl⟩, Iff.rfl⟩
  | cons part parts ih =>
    rw [foldlM_cons, bind_eq_ok] at h
    obtain ⟨next, hnext, hrest⟩ := h
    simp only [verifyPart, ok_iff] at hnext
    obtain ⟨⟨bytes, pending, reader⟩, hcollect, hdigest, rfl⟩ := hnext
    obtain ⟨⟨bodies, hmatches, hbodies⟩, hcompleted⟩ := ih hrest
    obtain ⟨henough, hbytes, hleft, hcomplete, -⟩ := collect_eq_some hcollect
    dsimp only at hbytes hleft hcomplete hbodies hcompleted hdigest
    rw [nil_append] at hbytes
    refine ⟨⟨bytes :: bodies, .cons ⟨?_, hdigest⟩ hmatches, ?_⟩, hcompleted.trans hcomplete⟩
    · rw [hbytes, length_take, Nat.min_eq_left henough]
    · rw [flatten_cons, append_assoc, ← hbodies, hbytes, hleft, take_append_drop]

theorem exists_foldlM_verifyPart {parts : List V3UploadedPart} {bodies : List Bytes}
    (hmatches : List.Forall₂ (Matches hashes) parts bodies) {whole pending : Bytes} {reader : List Reply}
    (hvalid : ValidChunks reader) (hbodies : pending ++ delivered reader = bodies.flatten) :
    ∃ result, parts.foldlM (verifyPart hashes) (whole, pending, reader) = .ok result ∧
      result.2.1 ++ delivered result.2.2 = [] ∧ (Complete result.2.2 ↔ Complete reader) ∧ result.2.2 <:+ reader := by
  induction hmatches generalizing whole pending reader with
  | nil => exact ⟨_, rfl, hbodies, Iff.rfl, suffix_rfl⟩
  | @cons part body parts bodies hmatch _ ih =>
    rw [flatten_cons] at hbodies
    obtain ⟨⟨bytes, pending', reader'⟩, hcollect⟩ := @exists_collect part.backend.contentLen [] _ _
      hvalid (by rw [hbodies, hmatch.1, length_append]; omega)
    obtain ⟨-, hbytes, hleft, hcomplete, hsuffix⟩ := collect_eq_some hcollect
    rw [hbodies, hmatch.1] at hbytes hleft
    rw [nil_append, take_left] at hbytes
    rw [drop_left] at hleft
    have hstep : verifyPart hashes (whole, pending, reader) part = .ok (whole ++ bytes, pending', reader') := by
      simp only [verifyPart, ok_iff]
      exact ⟨_, hcollect, hbytes ▸ hmatch.2, rfl⟩
    rw [foldlM_cons, hstep, ok_bind]
    obtain ⟨result, hresult, hempty, hcompleted, hsuffixes⟩ := ih (fun chunk hchunk => hvalid chunk (hsuffix.subset hchunk))
      hleft
    exact ⟨result, hresult, hempty, hcompleted.trans hcomplete, hsuffixes.trans hsuffix⟩

/-- No range of an object has the digest of one of the bodies without being it. -/
def CollisionFree (sha256 : Bytes → Digest) (object : Bytes) (bodies : List Bytes) : Prop :=
  ∀ body ∈ bodies, ∀ start ≤ object.length, ∀ stop ≤ object.length,
    sha256 (slice object start stop) = sha256 body → slice object start stop = body

/-- Without a collision, bodies that lie side by side in an object and match the parts are the parts' own. -/
theorem eq_of_matches {object leading : Bytes} {parts : List V3UploadedPart} {bodies ciphertexts : List Bytes}
    (hfree : CollisionFree hashes.sha256 object ciphertexts) (hobject : object = leading ++ bodies.flatten)
    (hbodies : List.Forall₂ (Matches hashes) parts bodies)
    (hciphertexts : List.Forall₂ (Matches hashes) parts ciphertexts) : bodies = ciphertexts := by
  induction hbodies generalizing leading ciphertexts with
  | nil =>
    cases hciphertexts
    rfl
  | @cons part body parts bodies hbody _ ih =>
    cases hciphertexts with
    | @cons _ ciphertext _ ciphertexts hciphertext hrest =>
      have hslice : slice object leading.length (leading ++ body).length = body := by
        rw [hobject, flatten_cons, ← append_assoc, slice, take_left, drop_left]
      have hle : (leading ++ body).length ≤ object.length := by
        simp only [hobject, flatten_cons, length_append]
        omega
      have heq := hfree ciphertext mem_cons_self leading.length (by rw [length_append] at hle; omega)
        (leading ++ body).length hle (by rw [hslice, hbody.2, hciphertext.2])
      rw [hslice] at heq
      rw [heq, @ih (leading ++ body) _ (fun c hc => hfree c (mem_cons_of_mem _ hc)) (by
        rw [hobject, flatten_cons, append_assoc]) hrest]

/-- The object that is read back is taken iff it is the concatenation of the ciphertexts. -/
theorem verifySelectedParts_iff (hmatches : List.Forall₂ (Matches hashes) parts ciphertexts)
    (hexpected : expectedLen = ciphertexts.flatten.length)
    (hfree : CollisionFree hashes.sha256 (delivered source) ciphertexts) :
    (∃ digest, verifySelectedParts hashes (exactBlobRead exactLen source) exactLen expectedLen parts = .ok digest) ↔
      exactLen = expectedLen ∧ Complete source ∧ delivered source = ciphertexts.flatten := by
  obtain ⟨hcomplete, hdelivered⟩ := complete_exactBlobRead exactLen source
  constructor
  · rintro ⟨digest, h⟩
    simp only [verifySelectedParts, ok_iff] at h
    obtain ⟨hlen, result, hfold, ⟨hpending, hreader⟩, -⟩ := h
    obtain ⟨⟨bodies, hbodies, hsplit⟩, hcompleted⟩ := foldlM_verifyPart_eq_ok hfold
    rw [hreader] at hcompleted hsplit
    have hall := hcompleted.mp complete_nil
    rw [hpending, hdelivered hall, nil_append, delivered, append_nil, append_nil] at hsplit
    exact ⟨hlen, (hcomplete.mp hall).1, hsplit.trans (by rw [@eq_of_matches _ _ [] _ _ _ hfree hsplit hbodies hmatches])⟩
  · rintro ⟨hlen, hsource, hbytes⟩
    have hall := hcomplete.mpr ⟨hsource, by rw [hbytes, hlen, hexpected]⟩
    obtain ⟨⟨whole, pending, reader⟩, hfold, hempty, hcompleted, hsuffix⟩ := @exists_foldlM_verifyPart _ _ _ hmatches []
      [] _ (validChunks_exactBlobRead)
      (by rw [nil_append, hdelivered hall, hbytes])
    obtain ⟨hpending, hreader⟩ := append_eq_nil_iff.mp hempty
    have hsolid : Solid reader := fun hmem => solid_exactBlobRead exactLen source (hsuffix.subset hmem)
    refine ⟨hashes.sha256 whole, ?_⟩
    simp only [verifySelectedParts, ok_iff]
    exact ⟨hlen, _, hfold, ⟨hpending, hsolid.eq_nil (hcompleted.mpr hall) hreader⟩, rfl⟩

end Verify

/-! ## The history of a session -/

section History

variable {K : Type} {aead : TaggedAead K} {hashes : PartHashes} {upload upload' : V3MultipartUpload K} {call : PartCall}
  {part : V3UploadedPart}

def partSealer (upload : V3MultipartUpload K) (keyId : KeyId) (part : PayloadPart) : SegmentedPayloadSealer :=
  ⟨partSegmentBytes, keyId, upload.context, upload.carrierId, part.attemptId, part.partNumber⟩

/-- A part and the sealed segments of the plaintext of its call. -/
structure PartSealed (aead : TaggedAead K) (hashes : PartHashes) (upload : V3MultipartUpload K) (call : PartCall)
    (part : V3UploadedPart) (keyId : KeyId) (sealed : List Bytes) : Prop where
  scope : part.scope = upload.scope
  part_eq : part.part = ⟨call.partNumber, call.attemptId, call.exactLen⟩
  complete : Complete call.body
  length : (delivered call.body).length = call.exactLen
  key : ∃ key, upload.keyring.primaryKey .content = .ok key ∧ key.id = keyId
  sealed_eq : (partSealer upload keyId part.part).sealPart aead.toAead upload.keyring upload.objectId
    (delivered call.body) = .ok sealed
  «matches» : Matches hashes part sealed.flatten

theorem uploadPart_eq_ok (h : uploadPart aead hashes upload call = .ok (part, upload')) :
    upload' = upload.insert call.partNumber part ∧ ∃ keyId sealed, PartSealed aead hashes upload call part keyId sealed := by
  simp only [uploadPart, ok_iff, Prod.mk.injEq]
    at h
  obtain ⟨-, -, sealer, hsealer, ciphertextLen, hlen, -, -, backend, -, ⟨-, hbackend⟩, ⟨body, digest, md5⟩, hbody, -, -,
    rfl, rfl⟩ := h
  simp only [SegmentedPayloadSealer.new, ok_iff] at hsealer
  obtain ⟨-, key, hkey, rfl⟩ := hsealer
  simp only [sealedBody, Option.bind_eq_bind, Option.bind_eq_some_iff] at hbody
  obtain ⟨sealed, hsealed, hbody⟩ := hbody
  split at hbody
  · cases hbody
    obtain ⟨hplain, hcomplete, hlength, hfrom⟩ := encryptedPartBody_eq_some hsealed
    rw [nil_append] at hplain
    rw [sealFrom_zero rfl, hplain] at hfrom
    rw [hplain] at hlength
    simp only [sealedLenForPlaintextLen, ok_iff, checkedMul_eq_some, checkedAdd_eq_some] at hlen
    obtain ⟨_, ⟨-, rfl⟩, -, rfl⟩ := hlen
    refine ⟨rfl, key.id, sealed.1, rfl, rfl, hcomplete, hlength, ⟨key, hkey, rfl⟩, hfrom, ?_, rfl⟩
    rw [hbackend, length_flatten_sealPart partSegmentBytes_pos hfrom, hlength]
  · cases hbody

/-- Two sessions that differ in their parts only. -/
structure SameSession (upload upload' : V3MultipartUpload K) : Prop where
  objectId : upload'.objectId = upload.objectId
  keyring : upload'.keyring = upload.keyring
  context : upload'.context = upload.context
  carrierId : upload'.carrierId = upload.carrierId
  scope : upload'.scope = upload.scope

theorem SameSession.trans (h : SameSession upload upload')
    (h' : SameSession upload' upload'') : SameSession upload upload'' :=
  ⟨h'.objectId.trans h.objectId, h'.keyring.trans h.keyring, h'.context.trans h.context, h'.carrierId.trans h.carrierId,
    h'.scope.trans h.scope⟩

theorem afterCall_eq (h : uploadPart aead hashes upload call = .ok (part, upload')) :
    afterCall aead hashes upload call = upload' := by
  rw [afterCall, h]

theorem afterCall_same : SameSession upload (afterCall aead hashes upload call) := by
  unfold afterCall
  split
  · rename_i part upload' hok
    rw [(uploadPart_eq_ok hok).1]
    exact ⟨rfl, rfl, rfl, rfl, rfl⟩
  · exact ⟨rfl, rfl, rfl, rfl, rfl⟩

theorem afterCalls_same (upload : V3MultipartUpload K) (calls : List PartCall) :
    SameSession upload (afterCalls aead hashes upload calls) := by
  induction calls generalizing upload with
  | nil => exact ⟨rfl, rfl, rfl, rfl, rfl⟩
  | cons call calls ih => exact (afterCall_same).trans (ih _)

/-- The `i`-th call of a history, and what it returns. -/
def Attempted (aead : TaggedAead K) (hashes : PartHashes) (start : V3MultipartUpload K) (calls : List PartCall) (i : ℕ)
    (call : PartCall) (outcome : Except MultipartError (V3UploadedPart × V3MultipartUpload K)) : Prop :=
  calls[i]? = some call ∧ uploadPart aead hashes (afterCalls aead hashes start (calls.take i)) call = outcome

/-- A part is the latest attempt for its number: its call returned it, and every later call for the number failed. -/
def LatestAttempt (aead : TaggedAead K) (hashes : PartHashes) (start : V3MultipartUpload K) (calls : List PartCall)
    (call : PartCall) (part : V3UploadedPart) : Prop :=
  ∃ i upload', Attempted aead hashes start calls i call (.ok (part, upload')) ∧
    ∀ j later outcome, i < j → Attempted aead hashes start calls j later outcome →
      later.partNumber = part.part.partNumber → ∃ e, outcome = .error e

variable {start : V3MultipartUpload K} {calls : List PartCall}

variable {i : ℕ} {outcome : Except MultipartError (V3UploadedPart × V3MultipartUpload K)}

theorem Attempted.append (h : Attempted aead hashes start calls i call outcome) (more : List PartCall) :
    Attempted aead hashes start (calls ++ more) i call outcome := by
  have hlt := (List.getElem?_eq_some_iff.mp h.1).1
  exact ⟨by rw [List.getElem?_append_left hlt, h.1], by rw [take_append_of_le_length hlt.le, h.2]⟩

theorem Attempted.of_append (hlt : i < calls.length) (h : Attempted aead hashes start (calls ++ more) i call outcome) :
    Attempted aead hashes start calls i call outcome := by
  obtain ⟨hat, houtcome⟩ := h
  rw [List.getElem?_append_left hlt] at hat
  rw [take_append_of_le_length hlt.le] at houtcome
  exact ⟨hat, houtcome⟩

theorem attempted_last (calls : List PartCall) (call : PartCall) :
    Attempted aead hashes start (calls ++ [call]) calls.length call
      (uploadPart aead hashes (afterCalls aead hashes start calls) call) :=
  ⟨by rw [List.getElem?_append_right (Nat.le_refl _), Nat.sub_self]; rfl, by rw [take_left]⟩

theorem LatestAttempt.append (h : LatestAttempt aead hashes start calls call part)
    (hlast : last.partNumber = part.part.partNumber →
      ∃ e, uploadPart aead hashes (afterCalls aead hashes start calls) last = .error e) :
    LatestAttempt aead hashes start (calls ++ [last]) call part := by
  obtain ⟨i, upload', hreturned, hlater⟩ := h
  refine ⟨i, upload', hreturned.append [last], fun j later outcome hj hattempted hnumber => ?_⟩
  have hbound := (List.getElem?_eq_some_iff.mp hattempted.1).1
  rw [length_append, length_singleton] at hbound
  by_cases hlt : j < calls.length
  · exact hlater j later outcome hj (hattempted.of_append hlt) hnumber
  · obtain rfl : j = calls.length := by omega
    obtain ⟨hat, houtcome⟩ := @attempted_last _ aead hashes start calls last
    obtain ⟨hat', houtcome'⟩ := hattempted
    obtain rfl := Option.some.inj (hat'.symm.trans hat)
    rw [← houtcome', houtcome]
    exact hlast hnumber

theorem latestAttempt_of_parts (hstart : ∀ number, start.parts number = none) (calls : List PartCall)
    (h : (afterCalls aead hashes start calls).parts number = some part) :
    part.part.partNumber = number ∧ ∃ call, LatestAttempt aead hashes start calls call part := by
  induction calls using List.reverseRecOn with
  | nil =>
    rw [afterCalls, foldl_nil, hstart] at h
    cases h
  | append_singleton calls last ih =>
    rw [afterCalls, foldl_append, foldl_cons, foldl_nil, ← afterCalls, afterCall] at h
    cases hlast : uploadPart aead hashes (afterCalls aead hashes start calls) last with
    | error e =>
      rw [hlast] at h
      obtain ⟨hnumber, call, hlatest⟩ := ih h
      exact ⟨hnumber, call, hlatest.append fun _ => ⟨e, hlast⟩⟩
    | ok result =>
      obtain ⟨returned, upload'⟩ := result
      obtain ⟨hinsert, _, _, hsealed⟩ := uploadPart_eq_ok hlast
      rw [hlast] at h
      rw [hinsert, V3MultipartUpload.insert] at h
      dsimp only at h
      split at h
      · rename_i heq
        obtain rfl := Option.some.inj h
        refine ⟨by rw [hsealed.part_eq, heq], last, calls.length, upload', hlast ▸ attempted_last calls last, ?_⟩
        intro j later outcome hj hattempted
        have hbound := (List.getElem?_eq_some_iff.mp hattempted.1).1
        rw [length_append, length_singleton] at hbound
        omega
      · rename_i hne
        obtain ⟨hnumber, call, hlatest⟩ := ih h
        exact ⟨hnumber, call, hlatest.append fun hsame => absurd (hnumber.symm.trans hsame.symm) hne⟩

/-- A part that was returned and has the attempt of the latest one is it. -/
theorem eq_of_attemptId (hattempts : (calls.map PartCall.attemptId).Nodup)
    (h : Attempted aead hashes start calls i call (.ok (part, upload)))
    (h' : Attempted aead hashes start calls j call' (.ok (part', upload')))
    (hsame : part.part.attemptId = part'.part.attemptId) : part = part' := by
  obtain ⟨-, _, _, hsealed⟩ := uploadPart_eq_ok h.2
  obtain ⟨-, _, _, hsealed'⟩ := uploadPart_eq_ok h'.2
  rw [hsealed.part_eq, hsealed'.part_eq] at hsame
  have hi : (calls.map PartCall.attemptId)[i]? = some call.attemptId := by rw [List.getElem?_map, h.1]; rfl
  have hj : (calls.map PartCall.attemptId)[j]? = some call'.attemptId := by rw [List.getElem?_map, h'.1]; rfl
  have hbound := (List.getElem?_eq_some_iff.mp hi).1
  obtain rfl : i = j := (List.getElem?_inj hbound hattempts).mp (by rw [hi, hj]; exact congrArg some hsame)
  obtain rfl := Option.some.inj (h.1.symm.trans h'.1)
  exact (Prod.mk.inj (Except.ok.inj (h.2.symm.trans h'.2))).1

theorem partSealed_of_attempted (h : Attempted aead hashes start calls i call (.ok (part, upload'))) :
    ∃ keyId sealed, PartSealed aead hashes start call part keyId sealed := by
  obtain ⟨-, keyId, sealed, hsealed⟩ := uploadPart_eq_ok h.2
  have hsame := @afterCalls_same _ aead hashes start (calls.take i)
  refine ⟨keyId, sealed, hsealed.scope.trans hsame.scope, hsealed.part_eq, hsealed.complete, hsealed.length, ?_, ?_,
    hsealed.matches⟩
  · rw [← hsame.keyring]
    exact hsealed.key
  · have heq := hsealed.sealed_eq
    rwa [partSealer, hsame.context, hsame.carrierId, hsame.keyring, hsame.objectId] at heq

end History

/-! ## Completion -/

section Completion

variable {K : Type} {aead : TaggedAead K} {hashes : PartHashes}

variable {parts : List V3UploadedPart}

theorem foldlM_selectPart_eq_ok {count from_ : ℕ} {state result : ℕ × ℕ}
    (h : (parts.zipIdx from_).foldlM (selectPart upload count) state = .ok result) :
    (∀ part ∈ parts, part.scope = upload.scope ∧ state.1 < part.part.partNumber ∧
      ∃ latest, upload.parts part.part.partNumber = some latest ∧ latest.part.attemptId = part.part.attemptId) ∧
      (parts.map fun part => part.part.partNumber).Pairwise (· < ·) ∧
      result.2 = state.2 + (parts.map fun part => part.part.plaintextLen).sum := by
  induction parts generalizing from_ state with
  | nil =>
    cases h
    exact ⟨by simp, .nil, rfl⟩
  | cons part parts ih =>
    rw [zipIdx_cons, foldlM_cons, bind_eq_ok] at h
    obtain ⟨next, hnext, hrest⟩ := h
    simp only [selectPart, ok_iff, checkedAdd_eq_some, not_or]
      at hnext
    obtain ⟨⟨hlatest, hscope, hnumber, -, -⟩, len, ⟨-, rfl⟩, rfl⟩ := hnext
    obtain ⟨hparts, hincreasing, hlen⟩ := ih hrest
    refine ⟨forall_mem_cons.mpr ⟨⟨(not_not.mp hscope).symm, by omega, ?_⟩, fun other hother => ?_⟩, ?_, ?_⟩
    · cases hfound : upload.parts part.part.partNumber with
      | none => simp [hfound] at hlatest
      | some latest =>
        rw [hfound] at hlatest
        exact ⟨latest, rfl, by simpa using hlatest⟩
    · obtain ⟨hotherScope, hlt, hotherLatest⟩ := hparts other hother
      exact ⟨hotherScope, by omega, hotherLatest⟩
    · rw [map_cons, pairwise_cons]
      refine ⟨fun number hmem => ?_, hincreasing⟩
      obtain ⟨other, hother, rfl⟩ := mem_map.mp hmem
      exact (hparts other hother).2.1
    · rw [hlen, map_cons, sum_cons]
      omega

/-- Leaving out what contributes nothing. -/
theorem flatten_map_filter {α β : Type} {p : α → Bool} {f : α → List β} {xs : List α}
    (h : ∀ x ∈ xs, p x = false → f x = []) : ((xs.filter p).map f).flatten = (xs.map f).flatten := by
  induction xs with
  | nil => rfl
  | cons x xs ih =>
    rw [forall_mem_cons] at h
    cases hx : p x with
    | false => rw [filter_cons_of_neg (by simp [hx]), ih h.2, map_cons, flatten_cons, h.1 hx, nil_append]
    | true => rw [filter_cons_of_pos hx, map_cons, flatten_cons, ih h.2, map_cons, flatten_cons]

variable {storeContext : Except V3FormatError Bytes} {inflight : Bool} {part : V3UploadedPart} {call : PartCall}

theorem validateMultipartSelection_eq_ok
    (h : validateMultipartSelection storeContext inflight upload parts = .ok layout) :
    (∀ part ∈ parts, part.scope = upload.scope ∧
      ∃ latest, upload.parts part.part.partNumber = some latest ∧ latest.part.attemptId = part.part.attemptId) ∧
      (parts.map fun part => part.part.partNumber).Pairwise (· < ·) ∧
      (layout = none → (parts.map fun part => part.part.plaintextLen).sum = 0) ∧
      ∀ found ∈ layout, ∃ key, upload.keyring.primaryKey .content = .ok key ∧
        SegmentedPayloadLayout.new ⟨partSegmentBytes, (parts.map fun part => part.part.plaintextLen).sum, key.id,
          upload.carrierId, (parts.filter fun part => part.part.plaintextLen ≠ 0).map V3UploadedPart.part⟩
          upload.context = .ok found := by
  simp only [validateMultipartSelection, ok_iff, not_or] at h
  obtain ⟨context, -, ⟨hcontext, -⟩, ⟨last, len⟩, hfold, h⟩ := h
  obtain ⟨hparts, hincreasing, hlen⟩ := foldlM_selectPart_eq_ok hfold
  rw [Nat.zero_add] at hlen
  dsimp only at hlen h
  refine ⟨fun part hpart => ⟨(hparts part hpart).1, (hparts part hpart).2.2⟩, hincreasing, ?_⟩
  split at h
  · rename_i hzero
    cases h
    exact ⟨fun _ => hlen ▸ hzero, by simp⟩
  · simp only [ok_iff] at h
    obtain ⟨key, hkey, found, hfound, rfl⟩ := h
    refine ⟨fun hnone => ?_, fun _ hsome => ⟨key, hkey, ?_⟩⟩
    · cases hnone
    cases hsome
    rwa [hlen, not_not.mp hcontext] at hfound

theorem completeClientMultipartUpload_eq_ok
    (h : completeClientMultipartUpload hashes storeContext inflight provider upload parts = .ok result) :
    ∃ layout, validateMultipartSelection storeContext inflight upload parts = .ok layout ∧
      result.stored.map (fun stored => stored.payloadLayout) = layout ∧
      ∀ stored ∈ result.stored, stored.payloadLayout.reference.storedLen = some stored.objectLen ∧
        ∃ metadata exactLen source digest, provider.complete (parts.map V3UploadedPart.backend) = .ok metadata ∧
          provider.openObject metadata.versionId = .ok (exactLen, source) ∧
          verifySelectedParts hashes (exactBlobRead exactLen source) exactLen stored.objectLen parts = .ok digest := by
  simp only [completeClientMultipartUpload, bind_eq_ok] at h
  obtain ⟨layout, hlayout, etag, -, h⟩ := h
  refine ⟨layout, hlayout, ?_⟩
  cases layout with
  | none =>
    simp only [ok_iff] at h
    obtain ⟨_, -, rfl⟩ := h
    refine ⟨rfl, fun stored hstored => ?_⟩
    cases hstored
  | some layout =>
    simp only [ok_iff] at h
    obtain ⟨expectedLen, hexpected, metadata, hmetadata, -, -, _, -, ⟨exactLen, source⟩, hopen, digest, hverify, _, -,
      rfl⟩ := h
    refine ⟨rfl, fun stored hstored => ?_⟩
    cases hstored
    exact ⟨hexpected, metadata, exactLen, source, digest, hmetadata, hopen, hverify⟩

/-- Where the bytes of a selected part come from: the latest attempt for its number, and its sealed segments. -/
def StoredAs (aead : TaggedAead K) (hashes : PartHashes) (start : V3MultipartUpload K) (calls : List PartCall)
    (part : V3UploadedPart) (call : PartCall) (sealed : List Bytes) : Prop :=
  LatestAttempt aead hashes start calls call part ∧ ∃ keyId, PartSealed aead hashes start call part keyId sealed

/-- A selected part is the latest attempt for its number. -/
theorem exists_storedAs (hstart : ∀ number, start.parts number = none)
    (hattempts : (calls.map PartCall.attemptId).Nodup)
    (hreturned : Attempted aead hashes start calls i call (.ok (part, upload')))
    (hlatest : (afterCalls aead hashes start calls).parts part.part.partNumber = some latest)
    (hattempt : latest.part.attemptId = part.part.attemptId) :
    ∃ call sealed, StoredAs aead hashes start calls part call sealed := by
  obtain ⟨-, call', j, upload'', hattempted, hlater⟩ := latestAttempt_of_parts hstart calls hlatest
  obtain rfl := eq_of_attemptId hattempts hattempted hreturned hattempt
  obtain ⟨keyId, sealed, hsealed⟩ := partSealed_of_attempted hattempted
  exact ⟨call', sealed, ⟨j, upload'', hattempted, hlater⟩, keyId, hsealed⟩

theorem PartSealed.eq_nil {keyId : KeyId} {sealed : List Bytes}
    (h : PartSealed aead hashes upload call part keyId sealed) (hempty : part.part.plaintextLen = 0) :
    delivered call.body = [] ∧ sealed = [] := by
  rw [h.part_eq] at hempty
  have hnil : delivered call.body = [] := length_eq_zero_iff.mp (h.length.trans hempty)
  have hsealed := h.sealed_eq
  rw [hnil, sealPart, show divCeil (List.length ([] : Bytes)) (partSealer upload keyId part.part).chunkSize = 0 from by
    rw [divCeil, length_nil, Nat.zero_div, Nat.zero_mod]; rfl] at hsealed
  exact ⟨hnil, (Except.ok.inj hsealed).symm⟩

/-- The layout of a selection opens the sealed parts to their plaintexts, the empty parts left out. -/
theorem selection_opens {callOf : V3UploadedPart → PartCall} {sealedOf : V3UploadedPart → List Bytes}
    (hsealed : ∀ part ∈ parts, ∃ keyId, PartSealed aead hashes upload (callOf part) part keyId (sealedOf part))
    (hkey : upload.keyring.primaryKey .content = .ok key)
    (hlayout : SegmentedPayloadLayout.new ⟨partSegmentBytes, (parts.map fun part => part.part.plaintextLen).sum, key.id,
      upload.carrierId, (parts.filter fun part => part.part.plaintextLen ≠ 0).map V3UploadedPart.part⟩
      upload.context = .ok layout) :
    Located layout ∧ OpensTo aead.toAead upload.keyring upload.objectId layout
      (parts.map fun part => delivered (callOf part).body).flatten
      (parts.map fun part => (sealedOf part).flatten).flatten := by
  obtain ⟨hlocated, hreference, hcontext, -⟩ := new_located hlayout
  have hparts : PartsSealed aead.toAead upload.keyring upload.objectId layout
      ((parts.filter fun part => part.part.plaintextLen ≠ 0).map fun part => (delivered (callOf part).body,
      sealedOf part)) := by
    rw [PartsSealed, hreference, List.forall₂_map_left_iff, List.forall₂_map_right_iff, List.forall₂_same]
    intro part hpart
    obtain ⟨keyId, h⟩ := hsealed part (mem_of_mem_filter hpart)
    obtain ⟨key', hkey', rfl⟩ := h.key
    obtain rfl := Except.ok.inj (hkey.symm.trans hkey')
    refine ⟨by rw [h.part_eq]; exact h.length, ?_⟩
    have hsealer : layout.sealer part.part = partSealer upload key.id part.part := by
      rw [sealer, hreference, hcontext]
      rfl
    rw [hsealer]
    exact h.sealed_eq
  have hopens := hparts.opensTo hlocated
  rw [map_map, map_map, flatten_flatten, map_map] at hopens
  have hempty : ∀ part ∈ parts, decide (part.part.plaintextLen ≠ 0) = false →
      delivered (callOf part).body = [] ∧ (sealedOf part).flatten = [] := by
    intro part hpart hzero
    obtain ⟨keyId, h⟩ := hsealed part hpart
    obtain ⟨hnil, hnone⟩ := h.eq_nil (by simpa using hzero)
    exact ⟨hnil, by rw [hnone]; rfl⟩
  rw [← flatten_map_filter fun part hpart hzero => (hempty part hpart hzero).1,
    ← flatten_map_filter fun part hpart hzero => (hempty part hpart hzero).2]
  exact ⟨hlocated, hopens⟩

end Completion

/-- **A completed multipart upload is exactly its selected parts.**  For every history of part uploads and every
selection of returned parts that is accepted: the numbers increase, each part is the latest attempt for its number, and
the returned layout opens the concatenation of the parts' ciphertexts to the concatenation of their plaintexts, empty
parts included.  The object that is read back is accepted, in whatever chunks it comes, iff it is that concatenation,
unless SHA-256 collides on it; so a completion that succeeds has stored it. -/
theorem completed_upload_exact {K : Type} {aead : TaggedAead K} {hashes : PartHashes} {start : V3MultipartUpload K}
    (hstart : ∀ number, start.parts number = none) {calls : List PartCall}
    (hattempts : (calls.map PartCall.attemptId).Nodup) {storeContext : Except V3FormatError Bytes} {inflight : Bool}
    {provider : CompletionProvider} {parts : List V3UploadedPart}
    -- parts are made by `upload_part` only, and carry the identity of their session
    (hparts : ∀ part ∈ parts, part.scope = start.scope →
      ∃ i call upload', Attempted aead hashes start calls i call (.ok (part, upload')))
    {layout : Option SegmentedPayloadLayout}
    (hselected : validateMultipartSelection storeContext inflight (afterCalls aead hashes start calls) parts =
      .ok layout) :
    (parts.map fun part => part.part.partNumber).Pairwise (· < ·) ∧
      ∃ (callOf : V3UploadedPart → PartCall) (sealedOf : V3UploadedPart → List Bytes),
        (∀ part ∈ parts, StoredAs aead hashes start calls part (callOf part) (sealedOf part)) ∧
        let plaintext := (parts.map fun part => delivered (callOf part).body).flatten
        let ciphertexts := parts.map fun part => (sealedOf part).flatten
        (layout = none → plaintext = []) ∧
        (∀ found ∈ layout, found.reference.storedLen = some ciphertexts.flatten.length ∧
          ∀ range : ByteRange, range.InBounds plaintext.length → range.Nonempty →
            openPayloadObject aead.toAead start.keyring start.objectId found ciphertexts.flatten range =
              .ok (range.of plaintext)) ∧
        (∀ exactLen source, CollisionFree hashes.sha256 (delivered source) ciphertexts →
          ((∃ digest, verifySelectedParts hashes (exactBlobRead exactLen source) exactLen ciphertexts.flatten.length parts =
              .ok digest) ↔
            exactLen = ciphertexts.flatten.length ∧ Complete source ∧ delivered source = ciphertexts.flatten)) ∧
        ∀ result, completeClientMultipartUpload hashes storeContext inflight provider (afterCalls aead hashes start calls)
            parts = .ok result →
          (result.stored.map fun stored => stored.payloadLayout) = layout ∧
          ∀ stored ∈ result.stored, ∃ metadata exactLen source,
            provider.complete (parts.map V3UploadedPart.backend) = .ok metadata ∧
            provider.openObject metadata.versionId = .ok (exactLen, source) ∧
            (CollisionFree hashes.sha256 (delivered source) ciphertexts → delivered source = ciphertexts.flatten) := by
  have hsame := @afterCalls_same _ aead hashes start calls
  obtain ⟨hchecked, hincreasing, hnone, hsome⟩ := validateMultipartSelection_eq_ok hselected
  have hstored : ∀ part ∈ parts, ∃ call sealed, StoredAs aead hashes start calls part call sealed := by
    intro part hpart
    obtain ⟨hscope, latest, hlatest, hattempt⟩ := hchecked part hpart
    obtain ⟨i, call, upload', hreturned⟩ := hparts part hpart (hscope.trans hsame.scope)
    exact exists_storedAs hstart hattempts hreturned hlatest hattempt
  have : Nonempty PartCall := ⟨⟨0, 0, [], none, none, Vector.replicate 32 0, false, .error .invalidHeaderField⟩⟩
  choose! callOf sealedOf hstored using hstored
  refine ⟨hincreasing, callOf, sealedOf, hstored, ?_⟩
  intro plaintext ciphertexts
  have hlength : plaintext.length = (parts.map fun part => part.part.plaintextLen).sum := by
    rw [length_flatten, map_map]
    refine congrArg List.sum (map_congr_left fun part hpart => ?_)
    obtain ⟨-, keyId, h⟩ := hstored part hpart
    rw [Function.comp_apply, h.length, h.part_eq]
  have hmatches : List.Forall₂ (Matches hashes) parts ciphertexts := by
    rw [List.forall₂_map_right_iff, List.forall₂_same]
    intro part hpart
    obtain ⟨-, keyId, h⟩ := hstored part hpart
    exact h.matches
  have hopens : ∀ found ∈ layout, Located found ∧ found.reference.storedLen = some found.storedLen ∧
      OpensTo aead.toAead start.keyring start.objectId found plaintext ciphertexts.flatten := by
    intro found hfound
    obtain ⟨key, hkey, hlayout⟩ := hsome found hfound
    rw [hsame.carrierId, hsame.context] at hlayout
    rw [hsame.keyring] at hkey
    obtain ⟨hlocated, hopens⟩ := selection_opens (fun part hpart => (hstored part hpart).2) hkey hlayout
    obtain ⟨-, hreference, -, hlen⟩ := new_located hlayout
    exact ⟨hlocated, hreference ▸ hlen, hopens⟩
  refine ⟨fun hempty => length_eq_zero_iff.mp (hlength.trans (hnone hempty)), fun found hfound => ?_,
    fun exactLen source hfree => verifySelectedParts_iff hmatches rfl hfree, fun result hresult => ?_⟩
  · obtain ⟨hlocated, hlen, hfoundOpens⟩ := hopens found hfound
    refine ⟨by rw [hlen, hfoundOpens.body_length], fun range hrange hne => ?_⟩
    rw [hfoundOpens.plaintext_length] at hrange
    exact openPayloadObject_eq hlocated hfoundOpens hrange hne
  · obtain ⟨layout', hlayout', hlayouts, hread⟩ := completeClientMultipartUpload_eq_ok hresult
    obtain rfl := Except.ok.inj (hselected.symm.trans hlayout')
    refine ⟨hlayouts, fun stored hmem => ?_⟩
    obtain ⟨hstoredLen, metadata, exactLen, source, digest, hmetadata, hopen, hverify⟩ := hread stored hmem
    obtain ⟨-, hlen, hfoundOpens⟩ := hopens stored.payloadLayout (hlayouts ▸ Option.mem_map_of_mem _ hmem)
    have hobjectLen : stored.objectLen = ciphertexts.flatten.length := by
      rw [hfoundOpens.body_length]
      exact Option.some.inj (hstoredLen.symm.trans hlen)
    exact ⟨metadata, exactLen, source, hmetadata, hopen,
      fun hfree => ((verifySelectedParts_iff hmatches hobjectLen hfree).mp ⟨digest, hverify⟩).2.2⟩

/-! ## A part that is replaced, and an empty one after it -/

/-- A segment of a part, and what it is sealed to. -/
def fullSegment : Bytes := replicate partSegmentBytes 7

def sealedSegment : Bytes := fullSegment ++ replicate 16 0

/-- The ciphertext of a part of 5 MiB. -/
@[irreducible]
def longBody : Bytes := (replicate 80 sealedSegment).flatten

theorem length_fullSegment : fullSegment.length = partSegmentBytes := length_replicate ..

theorem length_longBody : longBody.length = 5244160 := by
  rw [longBody, length_flatten, map_replicate, sum_replicate_nat, sealedSegment, length_append, length_fullSegment,
    length_replicate]
  rfl

theorem longBody_ne_nil : longBody ≠ [] := by
  rw [← length_pos_iff, length_longBody]
  decide

/-- Hashes that tell the ciphertexts of the selection from every other text. -/
def sessionHashes : PartHashes where
  sha256 bytes := Vector.replicate 32 (if bytes = [] then 0 else if bytes = longBody then 1 else 2)
  md5 _ := Vector.replicate 16 0

theorem eq_of_sessionHashes {object body : Bytes} (hbody : body = [] ∨ body = longBody)
    (h : sessionHashes.sha256 object = sessionHashes.sha256 body) : object = body := by
  have hbyte : (if object = [] then 0 else if object = longBody then 1 else 2 : UInt8) =
      if body = [] then 0 else if body = longBody then 1 else 2 := congrArg (fun digest => digest[0]) h
  by_contra hne
  rcases hbody with rfl | rfl
  · rw [if_neg hne, if_pos rfl] at hbyte
    split at hbyte <;> cases hbyte
  · rw [if_neg hne, if_neg longBody_ne_nil, if_pos rfl] at hbyte
    split at hbyte <;> cases hbyte

/-- A session with these latest attempts. -/
def sampleUpload (parts : ℕ → Option V3UploadedPart) : V3MultipartUpload Unit :=
  ⟨sampleStreamId, sampleKeyring, [1], Vector.replicate 32 0, 0, none, parts⟩

section Samples

variable (number : ℕ) (attempt : UInt8) (count : ℕ)

def sampleSealer : SegmentedPayloadSealer :=
  ⟨partSegmentBytes, sampleContentKey, [1], Vector.replicate 32 0, Vector.replicate 32 attempt, number⟩

/-- A part of whole segments, one in each chunk. -/
def sampleCall : PartCall where
  partNumber := number
  exactLen := count * partSegmentBytes
  body := replicate count (.chunk fullSegment)
  checksum := none
  expectedMd5 := none
  attemptId := Vector.replicate 32 attempt
  readsBody := true
  answer := .ok ⟨number - 1, count * (partSegmentBytes + 16)⟩

def samplePart : V3UploadedPart where
  scope := 0
  backend := ⟨number - 1, count * (partSegmentBytes + 16)⟩
  part := ⟨number, Vector.replicate 32 attempt, count * partSegmentBytes⟩
  digest := sessionHashes.sha256 (replicate count sealedSegment).flatten
  checksum := none
  md5 := Vector.replicate 16 0

theorem sealSegment_fullSegment (segment : ℕ) (isFinal : Bool) :
    (sampleSealer number attempt).sealSegment plainTaggedAead.toAead sampleKeyring sampleStreamId segment fullSegment
      isFinal = .ok sealedSegment := by
  simp only [sealSegment, sealPayloadSegment, PayloadSegmentContext.associatedData, ok_iff]
  refine ⟨?_, ⟨sampleContentKey, sealedSegment⟩,
    ⟨rfl, ⟨sampleContentKey, .content, .primary, ()⟩, rfl, _, ⟨?_, rfl⟩, _, rfl, rfl⟩, rfl, rfl⟩
  · rw [length_fullSegment]
    simp [sampleSealer, partSegmentBytes]
  · dsimp only [detachedSegmentContext, sampleSealer]
    rw [length_fullSegment]
    decide

theorem collect_fullSegment (rest : List Reply) : collect (some ((count + 1) * partSegmentBytes)) partSegmentBytes [] []
    (.chunk fullSegment :: rest) = some (fullSegment, [], rest) := by
  have hpositive := partSegmentBytes_pos
  have hlength := length_fullSegment
  have hvalid : ¬ (InvalidChunk fullSegment ∨
      ∃ most ∈ some ((count + 1) * partSegmentBytes), most - ([] : Bytes).length < fullSegment.length) := by
    rintro ((hnil | hlong) | ⟨most, ⟨⟩, hshort⟩)
    · exact absurd (hlength.symm.trans (congrArg List.length hnil)) (by decide)
    · exact absurd (hlength ▸ hlong) (by decide)
    · rw [length_nil, hlength, Nat.succ_mul] at hshort
      omega
  rw [collect, if_neg (by rw [length_nil]; omega), if_neg hvalid]
  rcases rest with _ | ⟨_ | _, rest⟩ <;> simp [collect, hlength, take_of_length_le, drop_eq_nil_of_le]

/-- Whole segments are sealed one by one. -/
theorem encryptedPartBody_fullSegments (segment : ℕ) :
    encryptedPartBody plainTaggedAead sampleKeyring sampleStreamId (sampleSealer number attempt)
      (count * partSegmentBytes) segment [] (replicate count (.chunk fullSegment)) =
      some (replicate count sealedSegment, (replicate count fullSegment).flatten) := by
  induction count generalizing segment with
  | zero =>
    rw [encryptedPartBody]
    rfl
  | succ count ih =>
    have hpositive := partSegmentBytes_pos
    have hmin : min ((count + 1) * partSegmentBytes) partSegmentBytes = partSegmentBytes := by
      rw [Nat.succ_mul]
      omega
    have hleft : (count + 1) * partSegmentBytes - partSegmentBytes = count * partSegmentBytes := by
      rw [Nat.succ_mul, Nat.add_sub_cancel]
    rw [encryptedPartBody, if_neg (by rw [Nat.succ_mul]; omega), replicate_succ]
    simp only [hmin, collect_fullSegment, Option.bind_eq_bind, Option.bind_some, hleft, sealSegment_fullSegment,
      Except.toOption]
    rw [ih]
    cases count with
    | zero =>
      rw [if_pos (Nat.zero_mul _), if_pos ⟨rfl, rfl⟩]
      simp
    | succ count =>
      rw [if_neg (by rw [Nat.succ_mul]; omega)]
      rfl

variable {number attempt count}

theorem sampleCall_returns (parts : ℕ → Option V3UploadedPart) (hnumber : number ≠ 0)
    (hsealer : SegmentedPayloadSealer.new sampleKeyring partSegmentBytes [1] (Vector.replicate 32 0) number
      (Vector.replicate 32 attempt) = .ok (sampleSealer number attempt))
    (hlen : (sampleSealer number attempt).sealedLenForPlaintextLen (count * partSegmentBytes) =
      .ok (count * (partSegmentBytes + 16))) (hmax : count * (partSegmentBytes + 16) ≤ multipartMaxPartBytes) :
    uploadPart plainTaggedAead sessionHashes (sampleUpload parts) (sampleCall number attempt count) =
      .ok (samplePart number attempt count, (sampleUpload parts).insert number (samplePart number attempt count)) := by
  have hbody : sealedBody plainTaggedAead sessionHashes (sampleUpload parts) (sampleCall number attempt count)
      (sampleSealer number attempt) = some ((replicate count sealedSegment).flatten,
        sessionHashes.sha256 (replicate count sealedSegment).flatten, Vector.replicate 16 0) := by
    simp only [sealedBody, sampleUpload, sampleCall, encryptedPartBody_fullSegments, Option.bind_eq_bind,
      Option.bind_some, if_true]
    rfl
  simp only [uploadPart, ok_iff]
  refine ⟨rfl, hnumber, _, hsealer, _, hlen, hmax, ?_, _, rfl, ⟨rfl, rfl⟩, _, hbody, nofun, nofun, rfl⟩
  rw [Option.all_eq_true]
  exact fun _ _ => rfl

end Samples

/-- Part 1 is uploaded and replaced, and an empty part 2 follows. -/
def sessionCalls : List PartCall := [sampleCall 1 9 1, sampleCall 1 10 80, sampleCall 2 11 0]

def longPart : V3UploadedPart := samplePart 1 10 80

def emptyPart : V3UploadedPart := samplePart 2 11 0

def sessionParts : List V3UploadedPart := [longPart, emptyPart]

def freshUpload : V3MultipartUpload Unit := sampleUpload fun _ => none

def replacedUpload : V3MultipartUpload Unit := freshUpload.insert 1 (samplePart 1 9 1)

def replacingUpload : V3MultipartUpload Unit := replacedUpload.insert 1 longPart

theorem session_returns :
    uploadPart plainTaggedAead sessionHashes freshUpload (sampleCall 1 9 1) =
        .ok (samplePart 1 9 1, replacedUpload) ∧
      uploadPart plainTaggedAead sessionHashes replacedUpload (sampleCall 1 10 80) =
        .ok (longPart, replacingUpload) ∧
      uploadPart plainTaggedAead sessionHashes replacingUpload (sampleCall 2 11 0) =
        .ok (emptyPart, replacingUpload.insert 2 emptyPart) := by
  refine ⟨?_, ?_, ?_⟩ <;> exact sampleCall_returns _ (by decide) rfl rfl (by decide)

theorem session_attempted : ∀ part ∈ sessionParts, ∃ i call upload',
    Attempted plainTaggedAead sessionHashes freshUpload sessionCalls i call (.ok (part, upload')) := by
  obtain ⟨hfirst, hsecond, hthird⟩ := session_returns
  intro part hpart
  rcases mem_pair.mp hpart with rfl | rfl
  · refine ⟨1, sampleCall 1 10 80, replacingUpload, rfl, ?_⟩
    rw [sessionCalls, take_succ_cons, take_zero, afterCalls, foldl_cons, foldl_nil, afterCall_eq hfirst, hsecond]
  · refine ⟨2, sampleCall 2 11 0, replacingUpload.insert 2 emptyPart, rfl, ?_⟩
    rw [sessionCalls, take_succ_cons, take_succ_cons, take_zero, afterCalls, foldl_cons, foldl_cons, foldl_nil,
      afterCall_eq hfirst, afterCall_eq hsecond, hthird]

def sessionLayout : SegmentedPayloadLayout where
  reference := ⟨partSegmentBytes, 5242880, sampleContentKey, Vector.replicate 32 0, [longPart.part]⟩
  repositoryContext := [1]
  starts := [⟨0, 0, 0⟩]
  storedLen := 5244160
  segmentCount := 80

theorem session_selected : validateMultipartSelection (.ok [1]) true
    (afterCalls plainTaggedAead sessionHashes freshUpload sessionCalls)
    sessionParts = .ok (some sessionLayout) := by
  obtain ⟨hfirst, hsecond, hthird⟩ := session_returns
  have hafter : afterCalls plainTaggedAead sessionHashes freshUpload sessionCalls =
      replacingUpload.insert 2 emptyPart := by
    rw [sessionCalls, afterCalls, foldl_cons, foldl_cons, foldl_cons, foldl_nil, afterCall_eq hfirst,
      afterCall_eq hsecond, afterCall_eq hthird]
  rw [hafter]
  rfl

/-- The provider completes the object, and returns it in one chunk. -/
def sessionProvider : CompletionProvider where
  complete _ := .ok ⟨sampleStreamId, 5244160, none⟩
  extendRetention := .ok ()
  openObject _ := .ok (5244160, [.chunk longBody])
  verifyProtection _ := .ok none
  abort := .ok ()
  retainedVersions := false

theorem sessionProvider_completes {upload : V3MultipartUpload Unit} {parts : List V3UploadedPart}
    {etag : Index.ObjectEtag} {digest : Digest} (hobject : upload.objectId = sampleStreamId)
    (hselected : validateMultipartSelection (.ok [1]) true upload parts = .ok (some sessionLayout))
    (hetag : multipartEtag sessionHashes.md5 (parts.map V3UploadedPart.md5) = .ok etag)
    (hdigest : verifySelectedParts sessionHashes (exactBlobRead 5244160 [.chunk longBody]) 5244160 5244160 parts =
      .ok digest) :
    completeClientMultipartUpload sessionHashes (.ok [1]) true sessionProvider upload parts =
      .ok ⟨etag, some ⟨etag, upload.objectId, none, 5244160, digest, sessionLayout⟩⟩ := by
  simp only [completeClientMultipartUpload, ok_iff]
  refine ⟨_, hselected, _, hetag, ?_⟩
  simp only [ok_iff]
  exact ⟨_, rfl, _, rfl, ⟨hobject.symm, rfl⟩, by simp [sessionProvider], _, rfl, _, rfl, _, hdigest, _, rfl, rfl⟩

theorem delivered_fullSegments (count : ℕ) :
    delivered (replicate count (.chunk fullSegment)) = replicate (count * partSegmentBytes) 7 := by
  induction count with
  | zero =>
    rw [Nat.zero_mul]
    rfl
  | succ count ih =>
    rw [replicate_succ, delivered, ih, fullSegment, replicate_append_replicate, Nat.succ_mul, Nat.add_comm]

/-- The second attempt for the first part and the empty part are completed, and the last byte is read back. -/
theorem completed_upload_exact_sample : ∃ result stored,
    completeClientMultipartUpload sessionHashes (.ok [1]) true sessionProvider
        (afterCalls plainTaggedAead sessionHashes freshUpload sessionCalls)
        sessionParts = .ok result ∧
      result.stored = some stored ∧ stored.payloadLayout = sessionLayout ∧
      openPayloadObject plainAead sampleKeyring sampleStreamId stored.payloadLayout longBody (.slice 5242879 1) =
        .ok [7] := by
  obtain ⟨-, callOf, sealedOf, hstored, -, hopens, hverified, -⟩ := @completed_upload_exact Unit plainTaggedAead
    sessionHashes freshUpload (fun _ => rfl) sessionCalls (by decide) (.ok [1]) true sessionProvider
    sessionParts (fun part hpart _ => session_attempted part hpart) (some sessionLayout)
    session_selected
  obtain ⟨⟨_, _, ⟨hcall, -⟩, -⟩, _, hlong⟩ := hstored longPart mem_cons_self
  obtain ⟨-, _, hnone⟩ := hstored emptyPart (mem_cons_of_mem _ mem_cons_self)
  have hbody : (sealedOf longPart).flatten = longBody := by
    refine eq_of_sessionHashes (.inr rfl) (hlong.matches.2.trans ?_)
    rw [longBody]
    rfl
  obtain ⟨hnothing, hempty⟩ := hnone.eq_nil rfl
  have hplain : delivered (callOf longPart).body = replicate 5242880 7 := by
    have hattempt := congrArg PayloadPart.attemptId hlong.part_eq
    have hmem := mem_of_getElem? hcall
    simp only [sessionCalls, mem_cons, not_mem_nil, or_false] at hmem
    rcases hmem with heq | heq | heq <;> rw [heq] at hattempt ⊢
    · exact absurd hattempt (by decide)
    · exact delivered_fullSegments 80
    · exact absurd hattempt (by decide)
  simp only [sessionParts, map_cons, map_nil, hbody, hempty, hplain, hnothing, flatten_cons, flatten_nil,
    append_nil] at hopens hverified
  have hsource : delivered [.chunk longBody] = longBody := by rw [delivered, delivered, append_nil]
  have hfree : CollisionFree sessionHashes.sha256 longBody [longBody, []] := by
    intro body hmem start _ stop _ heq
    exact eq_of_sessionHashes (mem_pair.mp hmem).symm heq
  obtain ⟨digest, hdigest⟩ := (hverified 5244160 [.chunk longBody] (by rwa [hsource])).mpr
    ⟨length_longBody.symm, by simp [Complete], hsource⟩
  rw [length_longBody] at hdigest
  have hresult := sessionProvider_completes (afterCalls_same freshUpload sessionCalls).objectId
    session_selected rfl hdigest
  obtain ⟨-, hread⟩ := hopens sessionLayout rfl
  rw [length_replicate] at hread
  have hlast := hread (.slice 5242879 1) (show 5242879 + 1 ≤ 5242880 by decide) (show 0 < 1 by decide)
  refine ⟨_, _, hresult, rfl, rfl, hlast.trans (congrArg Except.ok ?_)⟩
  show slice (replicate 5242880 (7 : UInt8)) 5242879 5242880 = [7]
  rw [slice, take_replicate, drop_replicate]
  rfl

end Rs3.Payload
