/-
# Rs3.Index.RunReplay — replaying one index run from its commit.

`apply_packed_index_run` of `v3/service/packed.rs` with its helpers.  Replay checks the run against the signed
header that carries it and against the state it continues, resolves every payload pointer to a carrier, and then
applies the mutations in order.  `IndexEffect` is what one mutation means once its pointer is resolved; the main
result says that a run that replay accepts has written exactly its effects.
-/
import Rs3.Index.Commit

namespace Rs3.Index

open List

open KeyedLog (replay)
open Repository (V3CommitHeader)

/-! ## Bounds of a run -/

section

variable {α : Type} [Ord α]

/-- `Ord::min`. -/
def ordMin (a b : α) : α := if (compare a b).isGT then b else a

/-- `Ord::max`. -/
def ordMax (a b : α) : α := if (compare a b).isGT then a else b

end

structure IndexRunBounds where
  minimumGeneration : Sequence
  maximumGeneration : Sequence
  namespaceBounds : BlindIndexKey × BlindIndexKey
  listing : LogicalPath × LogicalPath
  deriving DecidableEq

def IndexRunBounds.single (mutation : IndexMutation) : IndexRunBounds :=
  ⟨mutation.generation, mutation.generation, (mutation.blindKey, mutation.blindKey), (mutation.path, mutation.path)⟩

def IndexRunBounds.extend (bounds : IndexRunBounds) (mutation : IndexMutation) : IndexRunBounds where
  minimumGeneration := ordMin bounds.minimumGeneration mutation.generation
  maximumGeneration := ordMax bounds.maximumGeneration mutation.generation
  namespaceBounds :=
    (ordMin bounds.namespaceBounds.1 mutation.blindKey, ordMax bounds.namespaceBounds.2 mutation.blindKey)
  listing := (ordMin bounds.listing.1 mutation.path, ordMax bounds.listing.2 mutation.path)

def indexRunBounds : List IndexMutation → Except V3FormatError IndexRunBounds
  | [] => .error .invalidIndexRun
  | first :: rest => .ok (rest.foldl IndexRunBounds.extend (.single first))

def maximumGeneration : List Sequence → Option Sequence
  | [] => none
  | first :: rest => some (rest.foldl ordMax first)

/-! ## Effects of mutations -/

/-- What a mutation means: the object it leaves under its blind key, if any. -/
structure IndexEffect where
  blindKey : BlindIndexKey
  namespaceKeyId : KeyId
  path : LogicalPath
  generation : Sequence
  object : Option LiveObject
  deriving DecidableEq

/-- The objects after some effects. -/
def Live.after (objects : Live) (effects : List IndexEffect) : Live :=
  replay IndexEffect.blindKey IndexEffect.object objects effects

/-- The carriers to which the pointers of a run lead, and the commit that holds the run. -/
structure ReplayContext where
  commitKey : BackendObjectId
  versionId : Option BackendVersionId
  selfPackCarrier : Option V3PackCarrierReference
  packCarriers : List V3PackCarrierReference
  standaloneStreamCarriers : List V3StandaloneStreamCarrierReference

namespace ReplayContext

def payloadRef (context : ReplayContext) : IndexPayloadPointer → Except V3FormatError (Option PayloadReference)
  | .empty => .ok none
  | .selfPack record => do
    let carrier ← okOr context.selfPackCarrier .sectionBounds
    return some (.v3Pack carrier (packRecordReference record))
  | .externalPack containerOrdinal record => do
    let carrier ← okOr context.packCarriers[containerOrdinal]? .invalidIndexRun
    return some (.v3Pack carrier (packRecordReference record))
  | .externalStandaloneStream containerOrdinal => do
    let carrier ← okOr context.standaloneStreamCarriers[containerOrdinal]? .invalidIndexRun
    return some (.v3StandaloneStream carrier)

/-- The object identity of an entry: its payload's, or the commit that holds the run. -/
def objectOf (context : ReplayContext) : Option PayloadReference → BackendObjectId × Option BackendVersionId
  | some (.v3Pack carrier _) => (carrier.commitKey, carrier.commitVersionId)
  | some (.v3StandaloneStream carrier) => (carrier.objectId, carrier.versionId)
  | _ => (context.commitKey, context.versionId)

end ReplayContext

def IndexUpsert.manifest (upsert : IndexUpsert) : TrustedManifest :=
  ⟨upsert.etag, upsert.checksum, upsert.path, upsert.contentLen, upsert.modifiedAtMs, upsert.retention,
    upsert.legalHold⟩

def IndexUpsert.liveObject (upsert : IndexUpsert) (payloadRef : Option PayloadReference) : LiveObject :=
  ⟨upsert.namespaceKeyId, payloadRef, payloadRef.bind PayloadReference.object, upsert.contentLen,
    upsert.modifiedAtMs, upsert.generation, upsert.retention, upsert.legalHold, some upsert.manifest⟩

def ReplayContext.effect (context : ReplayContext) : IndexMutation → Except V3FormatError IndexEffect
  | .upsert u => do
    let payloadRef ← context.payloadRef u.payload
    return ⟨u.blindKey, u.namespaceKeyId, u.path, u.generation, some (u.liveObject payloadRef)⟩
  | .tombstone t => .ok ⟨t.blindKey, t.namespaceKeyId, t.path, t.generation, none⟩

/-! ## Applying mutations -/

section

variable (prf : Prf) (keyring : KeyRing) (context : ReplayContext)

def replayEntry (upsert : IndexUpsert) (payloadRef : Option PayloadReference) : NamespaceEntry where
  namespaceKeyId := upsert.namespaceKeyId
  blindKey := upsert.blindKey
  objectId := (context.objectOf payloadRef).1
  objectVersionId := (context.objectOf payloadRef).2
  payloadRef := payloadRef
  manifestId := keyring.deriveManifestId prf (objectMaterial upsert.path upsert.generation)
  contentLen := upsert.contentLen
  modifiedAtMs := upsert.modifiedAtMs
  generation := upsert.generation
  retention := upsert.retention
  legalHold := upsert.legalHold

def applyMutation (state : RepositoryState) : IndexMutation → Except V3FormatError RepositoryState
  | .upsert u => do
    verifyBlindKey keyring prf u.namespaceKeyId u.path u.blindKey
    let payloadRef ← context.payloadRef u.payload
    return state.upsertObject (replayEntry prf keyring context u payloadRef) u.manifest
  | .tombstone t => do
    verifyBlindKey keyring prf t.namespaceKeyId t.path t.blindKey
    return state.removeNamespaceEntry t.blindKey

end

/-! ## The whole run -/

inductive V3ProviderProfile where
  | dev
  | atomicCreate
  | retainedVersionObjectLock
  deriving DecidableEq, Repr

/-- `V3_STANDALONE_OBJECT_PREFIX`. -/
def standaloneObjectPrefixText : String := "objects/v03/"

/-- `validate_v3_standalone_object`: a non-empty object whose key is the prefix and 32 canonical random bytes. -/
def validateV3StandaloneObject (objectId : BackendObjectId) (storedLen : ℕ) : Except V3FormatError Unit := do
  ensure (storedLen ≠ 0) .invalidHeaderField
  let encoded ← okOr (standaloneObjectPrefixText.toList.isPrefixOf? objectId.asStr.toList) .invalidHeaderField
  let _ ← okOr (Repository.parseRandomSegment encoded) .invalidHeaderField
  return ()

def validateStandaloneContainer (profile : V3ProviderProfile) (container : IndexRunStandaloneStreamContainer) :
    Except V3FormatError Unit := do
  validateV3StandaloneObject container.objectId container.storedLen
  ensure (¬ (profile = .retainedVersionObjectLock ∧ container.versionId = none)) .invalidHeaderField

/-- A run in its commit, as a chain or a catalog names it. -/
structure V3PackedIndexRunReplay where
  commit : V3ReplayCommit
  sectionOrdinal : ℕ
  sealedRun : V3SealedIndexRun
  level : ℕ
  compactionGeneration : ℕ

namespace V3PackedIndexRunReplay

variable (replay : V3PackedIndexRunReplay)

def run : IndexRun := replay.sealedRun.run

/-- A receipt belongs to the commit that accepted it and never to a compacted run. -/
def validateReceipt : Except V3FormatError Unit :=
  match replay.run.completionReceipt with
  | none => .ok ()
  | some receipt =>
    ensure (receipt.commitSequence = replay.commit.header.selfRef.sequence ∧ replay.level = 0) .invalidIndexRun

def validateLevel : Except V3FormatError Unit :=
  if replay.level = 0 then ensure (replay.compactionGeneration = 0) .invalidIndexRun
  else ensure (replay.compactionGeneration ≠ 0 ∧ replay.run.selfPack = none) .invalidIndexRun

/-- Generations continue the state's, and the run sequence is the greatest of them. -/
def validateGenerations (nextSequence : Sequence) : Except V3FormatError Unit := do
  ensure (nextSequence < replay.run.sequence) .invalidHeaderField
  ensure (∀ mutation ∈ replay.run.mutations,
    nextSequence < mutation.generation ∧ mutation.generation ≤ replay.run.sequence) .invalidIndexRun
  ensure (maximumGeneration (replay.run.mutations.map IndexMutation.generation) = some replay.run.sequence)
    .invalidIndexRun

/-- The catalog reference rebuilt from the header and the section's descriptor. -/
def acceptedRun : Except V3FormatError V3IndexRootRunRef := do
  let bounds ← indexRunBounds replay.run.mutations
  let descriptor ← okOr replay.commit.sectionIndex[replay.sectionOrdinal]? .sectionBounds
  ensure (descriptor.sectionType = .indexRun) .invalidIndexRun
  return {
    runId := replay.sealedRun.runId
    runSequence := replay.run.sequence
    minimumGeneration := bounds.minimumGeneration
    maximumGeneration := bounds.maximumGeneration
    mutationCount := replay.run.mutations.length
    frameCount := replay.sealedRun.frameCount
    level := replay.level
    compactionGeneration := replay.compactionGeneration
    namespaceBounds := bounds.namespaceBounds
    listingBounds := bounds.listing
    keyringEnvelopeRef := replay.commit.header.keyringEnvelopeRef
    location := {
      commitKey := replay.commit.header.selfRef.commitKey
      versionId := replay.commit.versionId
      commitStoredLen := replay.commit.objectLen
      commitBodyDigest := replay.commit.header.bodyDigest
      sectionsStart := replay.commit.sectionsStart
      sectionOrdinal := replay.sectionOrdinal
      sectionOffset := descriptor.offset
      sectionLen := descriptor.length
      sectionDigest := descriptor.digest } }

end V3PackedIndexRunReplay

def V3ReplayCommit.packSections (commit : V3ReplayCommit) : List (V3SectionDescriptor × ℕ) :=
  commit.sectionIndex.zipIdx.filter fun descriptor => descriptor.1.sectionType = .payloadPack

/-- The carrier of the pack that a run shares a commit with. -/
def packCarrierOf (commit : V3ReplayCommit) (descriptor : V3SectionDescriptor) (ordinal : ℕ)
    (pack : IndexRunSelfPack) : V3PackCarrierReference where
  commitKey := commit.header.selfRef.commitKey
  commitVersionId := commit.versionId
  bodyDigest := commit.header.bodyDigest
  commitStoredLen := commit.objectLen
  packSectionOrdinal := ordinal
  packOffset := commit.sectionsStart + descriptor.offset
  length := descriptor.length
  packId := pack.packId
  attemptId := pack.attemptId
  contentKeyId := pack.contentKeyId
  keyringEnvelopeObjectId := commit.header.keyringEnvelopeRef.objectId
  keyringEnvelopeDigest := commit.header.keyringEnvelopeRef.digest
  packRecordCount := pack.recordCount

/-- A run with a pack has exactly one pack section next to it, of the stated length; a run without has none. -/
def selfPackCarrier (commit : V3ReplayCommit) (selfPack : Option IndexRunSelfPack) :
    Except V3FormatError (Option V3PackCarrierReference) :=
  match selfPack, commit.packSections with
  | some pack, [(descriptor, ordinal)] => do
    ensure (descriptor.length = pack.storedLen) .sectionBounds
    ensure (commit.sectionsStart + descriptor.offset < 2 ^ 64) .sectionBounds
    return some (packCarrierOf commit descriptor ordinal pack)
  | some _, _ => .error .sectionBounds
  | none, [] => .ok none
  | none, _ :: _ => .error .sectionBounds

def internStandaloneStreamCarrier (state : RepositoryState) (carrier : V3StandaloneStreamCarrierReference) :
    Except V3FormatError (RepositoryState × V3StandaloneStreamCarrierReference) :=
  match state.v3StandaloneCarriers.find? fun existing =>
      existing.objectId = carrier.objectId ∧ existing.versionId = carrier.versionId with
  | some existing => if existing ≠ carrier then .error .invalidHeaderField else .ok (state, existing)
  | none => .ok ({ state with v3StandaloneCarriers := state.v3StandaloneCarriers ++ [carrier] }, carrier)

/-- Intern the carriers of a run's standalone containers, in order. -/
def internStandaloneStreamCarriers (state : RepositoryState) : List IndexRunStandaloneStreamContainer →
    Except V3FormatError (RepositoryState × List V3StandaloneStreamCarrierReference)
  | [] => .ok (state, [])
  | container :: rest => do
    let first ← internStandaloneStreamCarrier state (standaloneStreamCarrierFromIndexRun container)
    let others ← internStandaloneStreamCarriers first.1 rest
    return (others.1, first.2 :: others.2)

/-- Insert an optional receipt.  The source validates it first and inserts it last; nothing in between touches the
receipts. -/
def insertReceipt (receipts : CompletionReceipts) (receipt : Option CompletionReceipt) :
    Except V3FormatError CompletionReceipts :=
  match receipt with
  | none => .ok receipts
  | some receipt => okOr (receipts.insert receipt) .invalidIndexRun

def applyPackedIndexRun (prf : Prf) (keyring : KeyRing) (profile : V3ProviderProfile) (state : RepositoryState)
    (replay : V3PackedIndexRunReplay) : Except V3FormatError (RepositoryState × V3IndexRootRunRef) := do
  replay.run.standaloneStreamContainers.forM (validateStandaloneContainer profile)
  replay.validateReceipt
  let receipts ← insertReceipt state.completionReceipts replay.run.completionReceipt
  replay.validateLevel
  replay.validateGenerations state.nextSequence
  let acceptedRun ← replay.acceptedRun
  let selfPack ← selfPackCarrier replay.commit replay.run.selfPack
  let interned ← internStandaloneStreamCarriers state replay.run.standaloneStreamContainers
  let context : ReplayContext := {
    commitKey := replay.commit.header.selfRef.commitKey
    versionId := replay.commit.versionId
    selfPackCarrier := selfPack
    packCarriers := replay.run.containers.map packCarrierFromIndexRun
    standaloneStreamCarriers := interned.2 }
  let applied ← replay.run.mutations.foldlM (applyMutation prf keyring context) interned.1
  return ({ applied with completionReceipts := receipts, nextSequence := ordMax state.nextSequence replay.run.sequence },
    acceptedRun)

/-! ## Generations -/

variable {a b : U64} {state : RepositoryState}

theorem ordMax_of_lt (h : a < b) : ordMax a b = b := by
  have hgt : ¬ (compare a b).isGT = true := by
    rw [Ordering.isGT_iff_eq_gt]
    exact fun hgt => Nat.lt_asymm (Nat.compare_eq_gt.mp hgt) h
  rw [ordMax, if_neg hgt]

/-! ## Effects -/

/-- A blind key that an enabled namespace key derives from the path of the effect. -/
structure IndexEffect.Verified (prf : Prf) (keyring : KeyRing) (effect : IndexEffect) : Prop where
  enabled : effect.namespaceKeyId ∈ keyring.enabled
  derived : prf.deriveBlindIndexKey effect.namespaceKeyId effect.path = effect.blindKey

/-- The object of an effect carries the effect's path and generation. -/
def IndexEffect.Consistent (effect : IndexEffect) : Prop :=
  ∀ object, effect.object = some object → object.generation = effect.generation ∧
    ∃ manifest, object.manifest = some manifest ∧ manifest.key = effect.path

/-- One object version has one blind key: two effects that write the same version write the same key. -/
def SameVersionSameKey (a b : IndexEffect) : Prop :=
  a.object ≠ none → b.object ≠ none → a.path = b.path → a.generation = b.generation → a.blindKey = b.blindKey

section

variable {prf : Prf} {keyring : KeyRing} {context : ReplayContext}

variable {effect : IndexEffect} {mutations : List IndexMutation} {effects : List IndexEffect}

/-- An effect has the generation of its mutation. -/
theorem effect_facts (h : context.effect mutation = .ok effect) :
    effect.generation = mutation.generation ∧ effect.Consistent := by
  rcases mutation with u | t
  · simp only [ReplayContext.effect, ok_iff] at h
    obtain ⟨payloadRef, -, rfl⟩ := h
    refine ⟨rfl, ?_⟩
    rintro object ⟨⟩
    exact ⟨rfl, u.manifest, rfl, rfl⟩
  · cases h
    refine ⟨rfl, ?_⟩
    rintro object ⟨⟩

theorem payloadRef_ne_pending (h : context.payloadRef pointer = .ok payloadRef) : payloadRef ≠ some .pending := by
  rintro rfl
  cases pointer with
  | empty => cases h
  | selfPack | externalPack | externalStandaloneStream =>
    simp only [ReplayContext.payloadRef, ok_iff] at h
    obtain ⟨carrier, -, ⟨⟩⟩ := h

theorem replayEntry_liveObject (h : payloadRef ≠ some .pending) :
    (replayEntry prf keyring context u payloadRef).liveObject (some u.manifest) = u.liveObject payloadRef := by
  rcases payloadRef with _ | ⟨carrier, record⟩ | _ | carrier
  · rfl
  · rfl
  · exact absurd rfl h
  · rfl

variable {state : RepositoryState} {objects : Live}

/-- **One mutation writes its effect.**  What replay accepts has a verified blind key. -/
theorem applyMutation_ok (h : applyMutation prf keyring context state mutation = .ok state') :
    ∃ effect, context.effect mutation = .ok effect ∧ effect.Verified prf keyring ∧
      ∀ {objects}, Represents prf keyring state objects →
        (effect.object ≠ none → FreshVersion objects effect.blindKey effect.path effect.generation) →
        Represents prf keyring state' (Function.update objects effect.blindKey effect.object) := by
  rcases mutation with u | t
  · simp only [applyMutation, ok_iff, verifyBlindKey_eq_ok] at h
    obtain ⟨⟨henabled, hderived⟩, payloadRef, hpayload, rfl⟩ := h
    refine ⟨⟨u.blindKey, u.namespaceKeyId, u.path, u.generation, some (u.liveObject payloadRef)⟩, ?_,
      ⟨henabled, hderived⟩, fun hrep hfresh => ?_⟩
    · simp only [ReplayContext.effect, hpayload, ok_bind]
      rfl
    · have hupsert := hrep.upsertObject (replayEntry prf keyring context u payloadRef) u.manifest rfl hderived
        (hfresh (by simp))
      rwa [replayEntry_liveObject (payloadRef_ne_pending hpayload)] at hupsert
  · simp only [applyMutation, ok_iff, verifyBlindKey_eq_ok] at h
    obtain ⟨⟨henabled, hderived⟩, rfl⟩ := h
    exact ⟨_, rfl, ⟨henabled, hderived⟩, fun hrep _ => hrep.removeNamespaceEntry t.blindKey⟩

/-- A version that is fresh now stays fresh after an effect that writes no other key with that version. -/
theorem FreshVersion.update {a b : IndexEffect} (ha : a.Consistent)
    (hpair : SameVersionSameKey a b) (hb : b.object ≠ none)
    (h : FreshVersion objects b.blindKey b.path b.generation) :
    FreshVersion (Function.update objects a.blindKey a.object) b.blindKey b.path b.generation := by
  intro k object manifest hobj hman hpath hgen
  by_cases hk : k = a.blindKey
  · subst hk
    rw [Function.update_self] at hobj
    obtain ⟨hgen', manifest', hman', hpath'⟩ := ha object hobj
    rw [hman] at hman'
    cases hman'
    exact hpair (by simp [hobj]) hb (hpath'.symm.trans hpath) (hgen'.symm.trans hgen)
  · rw [Function.update_of_ne hk] at hobj
    exact h k object manifest hobj hman hpath hgen

/-- **The mutation loop writes the effects of the run, in order.** -/
theorem applyMutations_ok (h : mutations.foldlM (applyMutation prf keyring context) state = .ok state') :
    ∃ effects, mutations.mapM context.effect = .ok effects ∧ (∀ effect ∈ effects, effect.Verified prf keyring) ∧
      ∀ {objects}, Represents prf keyring state objects →
        (∀ effect ∈ effects, effect.object ≠ none →
          FreshVersion objects effect.blindKey effect.path effect.generation) →
        effects.Pairwise SameVersionSameKey → Represents prf keyring state' (objects.after effects) := by
  induction mutations generalizing state with
  | nil =>
    cases h
    exact ⟨[], rfl, by simp, fun hrep _ _ => hrep⟩
  | cons mutation mutations ih =>
    rw [foldlM_cons, bind_eq_ok] at h
    obtain ⟨state₁, hstep, hloop⟩ := h
    obtain ⟨effect, heffect, hverified, hrep₁⟩ := applyMutation_ok hstep
    obtain ⟨rest, hrest, hverified', hrep₂⟩ := ih hloop
    refine ⟨effect :: rest, ?_, forall_mem_cons.mpr ⟨hverified, hverified'⟩, ?_⟩
    · rw [mapM_cons, heffect, hrest]
      rfl
    · intro objects hrep hfresh hpair
      obtain ⟨hfirst, hpair⟩ := pairwise_cons.mp hpair
      refine hrep₂ (hrep₁ hrep (hfresh effect mem_cons_self)) (fun e he hne => ?_) hpair
      exact (hfresh e (mem_cons_of_mem effect he) hne).update (effect_facts heffect).2 (hfirst e he) hne

end

/-! ## Interning -/

/-- A carrier that is interned already has to be the same one. -/
theorem internStandaloneStreamCarriers_eq_ok (h : internStandaloneStreamCarriers state containers = .ok interned) :
    interned.2 = containers.map standaloneStreamCarrierFromIndexRun ∧
      ∃ carriers, interned.1 = { state with v3StandaloneCarriers := carriers } := by
  induction containers generalizing state interned with
  | nil =>
    cases h
    exact ⟨rfl, _, rfl⟩
  | cons container containers ih =>
    simp only [internStandaloneStreamCarriers, ok_iff] at h
    obtain ⟨first, hfirst, others, hothers, rfl⟩ := h
    obtain ⟨hcarriers, carriers, hstate⟩ := ih hothers
    unfold internStandaloneStreamCarrier at hfirst
    split at hfirst
    · split at hfirst
      · cases hfirst
      · rename_i hsame
        cases hfirst
        exact ⟨congrArg₂ cons (not_not.mp hsame) hcarriers, carriers, hstate⟩
    · cases hfirst
      exact ⟨congrArg (cons _) hcarriers, carriers, hstate⟩

/-! ## Runs -/

def V3PackedIndexRunReplay.context (replay : V3PackedIndexRunReplay) (selfPack : Option V3PackCarrierReference) :
    ReplayContext where
  commitKey := replay.commit.header.selfRef.commitKey
  versionId := replay.commit.versionId
  selfPackCarrier := selfPack
  packCarriers := replay.run.containers.map packCarrierFromIndexRun
  standaloneStreamCarriers := replay.run.standaloneStreamContainers.map standaloneStreamCarrierFromIndexRun

/-- What a run means: its mutations in order, with their pointers resolved. -/
def V3PackedIndexRunReplay.Effects (replay : V3PackedIndexRunReplay) (effects : List IndexEffect) : Prop :=
  ∃ selfPack, selfPackCarrier replay.commit replay.run.selfPack = .ok selfPack ∧
    replay.run.mutations.mapM (replay.context selfPack).effect = .ok effects

/-- A state that stands for `objects` and whose counter covers every live object. -/
structure Tracks (prf : Prf) (keyring : KeyRing) (state : RepositoryState) (objects : Live) : Prop where
  represents : Represents prf keyring state objects
  bound : ∀ blindKey object, objects blindKey = some object → object.generation ≤ state.nextSequence

/-- **An accepted run wrote its effects**, all of them newer than the state before and no newer than the state after. -/
theorem applyPackedIndexRun_ok {prf : Prf} {replay : V3PackedIndexRunReplay} (htracks : Tracks prf keyring state objects)
    (h : applyPackedIndexRun prf keyring profile state replay = .ok (state', acceptedRun)) :
    ∃ effects, replay.Effects effects ∧ state.nextSequence < state'.nextSequence ∧
      (∀ effect ∈ effects, effect.Verified prf keyring ∧
        state.nextSequence < effect.generation ∧ effect.generation ≤ state'.nextSequence) ∧
      (effects.Pairwise SameVersionSameKey → Tracks prf keyring state' (objects.after effects)) := by
  simp only [applyPackedIndexRun, ok_iff, V3PackedIndexRunReplay.validateGenerations, Prod.mk.injEq] at h
  obtain ⟨-, -, _, -, receipts, -, _, -, ⟨hlt, hall, -⟩, _, -, selfPack, hself, ⟨interned, _⟩, hintern, applied,
    hloop, rfl, rfl⟩ := h
  obtain ⟨rfl, carriers, rfl⟩ := internStandaloneStreamCarriers_eq_ok hintern
  obtain ⟨effects, heffects, hverified, hrepresents⟩ := applyMutations_ok hloop
  have hnext := ordMax_of_lt hlt
  have hfacts : ∀ effect ∈ effects, effect.Consistent ∧ state.nextSequence < effect.generation ∧
      effect.generation ≤ ordMax state.nextSequence replay.run.sequence := by
    intro effect heffect
    obtain ⟨mutation, hmutation, hof⟩ := (mem_of_mapM heffects).1 effect heffect
    obtain ⟨hgeneration, hconsistent⟩ := effect_facts hof
    rw [hgeneration, hnext]
    exact ⟨hconsistent, hall mutation hmutation⟩
  refine ⟨effects, ⟨selfPack, hself, heffects⟩, hnext.symm ▸ hlt,
    fun effect heffect => ⟨hverified effect heffect, (hfacts effect heffect).2⟩, fun hpair => ?_⟩
  -- nothing live has a generation of the run
  have hfresh : ∀ effect ∈ effects, effect.object ≠ none →
      FreshVersion objects effect.blindKey effect.path effect.generation := by
    intro effect heffect _ k object manifest hobj _ _ hgen
    have hle := htracks.bound k object hobj
    rw [hgen] at hle
    exact absurd (hfacts effect heffect).2.1 (Nat.not_lt_of_le hle)
  have happlied := hrepresents ⟨htracks.represents.object, htracks.represents.entry, htracks.represents.shows⟩
    hfresh hpair
  refine ⟨⟨happlied.object, happlied.entry, happlied.shows⟩, fun k object hobj => ?_⟩
  show object.generation ≤ ordMax state.nextSequence replay.run.sequence
  rcases KeyedLog.replay_some hobj with ⟨effect, heffect, -, hval⟩ | ⟨-, hold⟩
  · rw [((hfacts effect heffect).1 object hval).1]
    exact (hfacts effect heffect).2.2
  · rw [hnext]
    exact Nat.le_trans (htracks.bound k object hold) (Nat.le_of_lt hlt)

end Rs3.Index
