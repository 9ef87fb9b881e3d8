/-
# Rs3.K8s.AnchorCodec — the accepted anchor state as Lease annotations.

`v3_lease_with_state` and the two decoders of `rs3-k8s/src/lib.rs`.  The codec round trip is exact: what an
advance writes is what a later read returns, except for an empty format digest, which the decoder
refuses.  The writer coordination and the anchor live on disjoint annotations, so each side leaves
the other alone.
-/
import Rs3.K8s.Lease
import Rs3.Types

namespace Rs3.K8s

open BackendVersionId

open Std (ExtTreeMap)

/-! ## Keys -/

def repositoryFormatKey : String := "rs3.rs/repository-format-generation"
def anchorFenceKey : String := "rs3.rs/anchor-fence"
def v3SequenceKey : String := "rs3.rs/v3-sequence"
def v3CommitKeyKey : String := "rs3.rs/v3-commit-key"
def v3BodyDigestKey : String := "rs3.rs/v3-body-digest"
def v3VersionIdKey : String := "rs3.rs/v3-version-id"
def v3SigningKeyIdKey : String := "rs3.rs/v3-signing-key-id"
def v3FormatGenerationKey : String := "rs3.rs/v3-format-generation"
def v3FormatDigestKey : String := "rs3.rs/v3-format-digest"
def v3FormatObjectIdKey : String := "rs3.rs/v3-format-object-id"
def v3FormatVersionIdKey : String := "rs3.rs/v3-format-version-id"

/-- `ANCHOR_ANNOTATIONS`. -/
def anchorKeys : List String :=
  [repositoryFormatKey, v3SequenceKey, v3CommitKeyKey, v3BodyDigestKey, v3VersionIdKey,
    v3SigningKeyIdKey, v3FormatGenerationKey, v3FormatDigestKey, v3FormatObjectIdKey, v3FormatVersionIdKey]

/-- Anchor state, coordination counters and the fencing counter never share a key. -/
theorem counterKeys_not_mem_anchorKeys :
    writerFenceAnnotationKey ∉ anchorKeys ∧ writerRenewalAnnotationKey ∉ anchorKeys ∧
      anchorFenceKey ∉ anchorKeys ∧ anchorFenceKey ≠ writerFenceAnnotationKey ∧
      anchorFenceKey ≠ writerRenewalAnnotationKey := by
  decide

/-! ## Encoding -/

/-- Insert when present, remove when absent. -/
def setOptional (key : String) (value : Option String) (m : Annotations) : Annotations :=
  match value with
  | some v => m.insert key v
  | none => m.erase key

theorem getElem?_setOptional : (setOptional k v m)[a]? = if k = a then v else m[a]? := by
  cases v with
  | none => exact getElem?_erase_eq m k a
  | some v => exact getElem?_insert_eq m k a v

def setAnchor (state : V3AnchorState) (m : Annotations) : Annotations :=
  let m := m.insert repositoryFormatKey "3"
  let m := m.insert v3SequenceKey (toString state.sequence.get)
  let m := m.insert v3CommitKeyKey state.commitKey.asStr
  let m := m.insert v3BodyDigestKey (Text.hexEncode state.bodyDigest.toList)
  let m := setOptional v3VersionIdKey (state.versionId.map asStr) m
  let m := m.insert v3SigningKeyIdKey state.signingKeyId.asStr
  let m := m.insert v3FormatGenerationKey (toString state.formatRef.generation.get)
  let m := m.insert v3FormatDigestKey state.formatRef.digest
  let m := m.insert v3FormatObjectIdKey state.formatRef.objectId.asStr
  setOptional v3FormatVersionIdKey (state.formatRef.versionId.map asStr) m

def v3LeaseWithState (lease : Lease) (state : V3AnchorState) : Lease := lease.editAnnotations (setAnchor state)

def newV3Lease (name : String) (state : V3AnchorState) : Lease := v3LeaseWithState ⟨some name, none, none⟩ state

/-! ## Decoding -/

/-- `key.starts_with("rs3.rs/v2-")`: a key of the retired v2 layout. -/
def isV2Key (key : String) : Bool := "rs3.rs/v2-".toList.isPrefixOf key.toList

def hasV2Keys (m : Annotations) : Bool := m.keys.any isV2Key

/-- `v3_annotation`. -/
def v3Text (m : Annotations) (key : String) : Except V3FormatError String := okOr m[key]? .anchorReadFailed

def readU64 (text : String) : Except V3FormatError U64 :=
  match h : Text.parseU64 text with
  | some n => .ok ⟨n, Text.parseU64_lt h⟩
  | none => .error .anchorReadFailed

def hexDigest (text : String) : Except V3FormatError Digest :=
  okOr ((Text.hexDecode text).bind Digest.ofBytes?) .anchorReadFailed

/-- An optional validated annotation. -/
def v3VersionText (m : Annotations) (key : String) : Except V3FormatError (Option BackendVersionId) :=
  match m[key]? with
  | none => .ok none
  | some text => (okOr (new? text) .typeValidation).map some

/-- The body of `v3_anchor_state_from_lease` on present annotations. -/
def decodeAnchor (m : Annotations) : Except V3FormatError V3AnchorState := do
  let format ← v3Text m repositoryFormatKey
  ensure (format = "3" ∧ hasV2Keys m = false) .anchorReadFailed
  let sequence ← v3Text m v3SequenceKey >>= readU64
  let commitKey ← v3Text m v3CommitKeyKey >>= fun t => okOr (BackendObjectId.new? t) .typeValidation
  let bodyDigest ← v3Text m v3BodyDigestKey >>= hexDigest
  let versionId ← v3VersionText m v3VersionIdKey
  let signingKeyId ← v3Text m v3SigningKeyIdKey >>= fun t => okOr (KeyId.new? t) .typeValidation
  let generation ← v3Text m v3FormatGenerationKey >>= readU64
  let digest ← v3Text m v3FormatDigestKey
  let objectId ← v3Text m v3FormatObjectIdKey >>= fun t =>
    okOr (BackendObjectId.new? t) .typeValidation
  let formatVersionId ← v3VersionText m v3FormatVersionIdKey
  ensure (digest ≠ "") .anchorReadFailed
  return ⟨sequence, commitKey, bodyDigest, versionId, signingKeyId, ⟨generation, digest, objectId, formatVersionId⟩⟩

def v3AnchorStateFromLease (lease : Lease) : Except V3FormatError V3AnchorState := do
  let m ← okOr lease.annotations .anchorReadFailed
  decodeAnchor m

def v3AnchorStateFromLeaseOptional (lease : Lease) : Except V3FormatError (Option V3AnchorState) :=
  match lease.annotations with
  | none => .ok none
  | some m =>
    if hasV2Keys m = true then .error .anchorReadFailed
    else if anchorKeys.any (fun key => (m[key]?).isSome) = false then .ok none
    else (v3AnchorStateFromLease lease).map some

/-! ## Round trip -/

variable {m : Annotations} {key : String}

theorem hasV2Keys_eq_true :
    hasV2Keys m = true ↔ ∃ key, (m[key]?).isSome = true ∧ isV2Key key = true := by
  simp only [hasV2Keys, List.any_eq_true, ExtTreeMap.mem_keys, ExtTreeMap.mem_iff_isSome_getElem?]

variable {m' : Annotations} {state : V3AnchorState}

/-- Only keys outside the v2 layout were touched. -/
theorem hasV2Keys_congr (h : ∀ key, isV2Key key = true → m'[key]? = m[key]?) : hasV2Keys m' = hasV2Keys m := by
  rw [Bool.eq_iff_iff, hasV2Keys_eq_true, hasV2Keys_eq_true]
  constructor
  · rintro ⟨key, hs, hp⟩
    exact ⟨key, h key hp ▸ hs, hp⟩
  · rintro ⟨key, hs, hp⟩
    exact ⟨key, (h key hp).symm ▸ hs, hp⟩

theorem setAnchor_other (state : V3AnchorState) (m : Annotations)
    (h : key ∉ anchorKeys) : (setAnchor state m)[key]? = m[key]? := by
  simp only [anchorKeys, List.mem_cons, List.not_mem_nil, or_false, not_or] at h
  simp only [setAnchor, getElem?_setOptional, getElem?_insert_eq, h, if_false, eq_comm]

theorem anchorKeys_not_v2 (h : key ∈ anchorKeys) : isV2Key key = false := by
  revert key
  decide

theorem hasV2Keys_setAnchor (state : V3AnchorState) (m : Annotations) :
    hasV2Keys (setAnchor state m) = hasV2Keys m := by
  apply hasV2Keys_congr
  intro key hp
  refine setAnchor_other state m fun hk => ?_
  rw [anchorKeys_not_v2 hk] at hp
  cases hp

theorem readU64_toString (n : U64) : readU64 (toString n.get) = .ok n := by
  have h := Text.parseU64_toString n.isLt
  unfold readU64
  split
  · rename_i m hm
    rw [h] at hm
    cases hm
    rfl
  · rename_i hm
    rw [h] at hm
    cases hm

theorem hexDigest_hexEncode (d : Digest) : hexDigest (Text.hexEncode d.toList) = .ok d := by
  have hlen : d.toList.length = 32 := by simp
  rw [hexDigest, Text.hexDecode_hexEncode, okOr_eq_ok, Option.bind_some, Digest.ofBytes?, dif_pos hlen]
  rfl

theorem v3VersionText_setOptional (h : m[key]? = v.map asStr) : v3VersionText m key = .ok v := by
  unfold v3VersionText
  rw [h]
  cases v with
  | none => rfl
  | some v => simp [okOr, Except.map]

/-- The anchor keys are pairwise distinct, so each annotation reads back what was inserted for it. -/
theorem setAnchor_lookup (state : V3AnchorState) (m : Annotations) :
    (setAnchor state m)[repositoryFormatKey]? = some "3" ∧
    (setAnchor state m)[v3SequenceKey]? = some (toString state.sequence.get) ∧
    (setAnchor state m)[v3CommitKeyKey]? = some state.commitKey.asStr ∧
    (setAnchor state m)[v3BodyDigestKey]? = some (Text.hexEncode state.bodyDigest.toList) ∧
    (setAnchor state m)[v3VersionIdKey]? = state.versionId.map asStr ∧
    (setAnchor state m)[v3SigningKeyIdKey]? = some state.signingKeyId.asStr ∧
    (setAnchor state m)[v3FormatGenerationKey]? = some (toString state.formatRef.generation.get) ∧
    (setAnchor state m)[v3FormatDigestKey]? = some state.formatRef.digest ∧
    (setAnchor state m)[v3FormatObjectIdKey]? = some state.formatRef.objectId.asStr ∧
    (setAnchor state m)[v3FormatVersionIdKey]? = state.formatRef.versionId.map asStr := by
  simp only [setAnchor, getElem?_setOptional, getElem?_insert_eq, repositoryFormatKey, v3SequenceKey,
    v3CommitKeyKey, v3BodyDigestKey, v3VersionIdKey, v3SigningKeyIdKey, v3FormatGenerationKey,
    v3FormatDigestKey, v3FormatObjectIdKey, v3FormatVersionIdKey, String.reduceEq, reduceIte, and_self]

/-- **Codec round trip.** -/
theorem decodeAnchor_setAnchor (hm : hasV2Keys m = false)
    (hd : state.formatRef.digest ≠ "") : decodeAnchor (setAnchor state m) = .ok state := by
  have hv2 := (hasV2Keys_setAnchor state m).trans hm
  obtain ⟨hformat, hseq, hkey, hbody, hver, hsign, hgen, hdig, hobj, hfver⟩ := setAnchor_lookup state m
  have hversion := v3VersionText_setOptional hver
  have hfversion := v3VersionText_setOptional hfver
  unfold decodeAnchor
  simp only [v3Text, hformat, hseq, hkey, hbody, hsign, hgen, hdig, hobj, hversion, hfversion, okOr,
    ok_bind, hv2, and_self, ensure_of, readU64_toString, hexDigest_hexEncode, BackendObjectId.new?_asStr,
    KeyId.new?_asStr, ne_eq, hd, not_false_eq_true]
  rfl

/-- An empty format digest is written but never decodes. -/
theorem decodeAnchor_setAnchor_empty (hd : state.formatRef.digest = "") (state' : V3AnchorState) :
    decodeAnchor (setAnchor state m) ≠ .ok state' := by
  intro h
  have hdig := (setAnchor_lookup state m).2.2.2.2.2.2.2.1
  simp only [decodeAnchor, bind_eq_ok, pure_eq_ok, ensure_eq_ok, v3Text, okOr_eq_ok, hdig, hd, Option.some.injEq] at h
  obtain ⟨_, _, _, _, _, _, _, _, _, _, _, _, _, _, _, _, _, rfl, _, _, _, _, _, hne, _⟩ := h
  exact hne rfl

/-! ## What the decoders see -/

/-- The optional decoder on the map itself; an absent map reads as an empty one. -/
def decodeAnchorOptional (m : Annotations) : Except V3FormatError (Option V3AnchorState) :=
  if hasV2Keys m = true then .error .anchorReadFailed
  else if anchorKeys.any (fun key => (m[key]?).isSome) = false then .ok none
  else (decodeAnchor m).map some

theorem v3AnchorStateFromLeaseOptional_eq (lease : Lease) :
    v3AnchorStateFromLeaseOptional lease = decodeAnchorOptional (lease.annotations.getD ∅) := by
  unfold v3AnchorStateFromLeaseOptional v3AnchorStateFromLease
  cases h : lease.annotations with
  | none => rfl
  | some m => rfl

/-- Decoding depends on the anchor annotations and on the presence of retired keys only. -/
theorem decodeAnchorOptional_congr (hv2 : hasV2Keys m' = hasV2Keys m) (h : ∀ key ∈ anchorKeys, m'[key]? = m[key]?) :
    decodeAnchorOptional m' = decodeAnchorOptional m := by
  have hany : anchorKeys.any (fun key => (m'[key]?).isSome) = anchorKeys.any (fun key => (m[key]?).isSome) := by
    rw [Bool.eq_iff_iff]
    simp only [List.any_eq_true]
    constructor
    · rintro ⟨key, hk, hs⟩
      exact ⟨key, hk, h key hk ▸ hs⟩
    · rintro ⟨key, hk, hs⟩
      exact ⟨key, hk, (h key hk).symm ▸ hs⟩
  have hdecode : decodeAnchor m' = decodeAnchor m := by
    simp only [anchorKeys, List.mem_cons, List.not_mem_nil, or_false, forall_eq_or_imp, forall_eq] at h
    simp only [decodeAnchor, v3Text, v3VersionText, h, hv2]
  rw [decodeAnchorOptional, decodeAnchorOptional, hv2, hany, hdecode]

/-- The keys of the writer coordination and of the fencing counter. -/
def counterKeys : List String := [writerFenceAnnotationKey, writerRenewalAnnotationKey, anchorFenceKey]

/-- **Frame.** Rewriting the counters leaves the anchor as it was. -/
theorem v3AnchorStateFromLeaseOptional_congr
    (h : ∀ key, key ∉ counterKeys → lease'.annotationText key = lease.annotationText key) :
    v3AnchorStateFromLeaseOptional lease' = v3AnchorStateFromLeaseOptional lease := by
  simp only [Lease.annotationText_eq_getD] at h
  rw [v3AnchorStateFromLeaseOptional_eq, v3AnchorStateFromLeaseOptional_eq]
  apply decodeAnchorOptional_congr
  · apply hasV2Keys_congr
    intro key hp
    refine h key fun hk => ?_
    have hnot : ∀ key ∈ counterKeys, isV2Key key = false := by decide
    rw [hnot key hk] at hp
    cases hp
  · intro key hk
    refine h key fun hc => ?_
    have hdisj : ∀ key ∈ anchorKeys, key ∉ counterKeys := by decide
    exact hdisj key hk hc

end Rs3.K8s
