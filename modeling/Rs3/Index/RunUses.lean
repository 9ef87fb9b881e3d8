/-
# Rs3.Index.RunUses — every pack of a decoded run is named by one of its mutations.

`validate_container_use` compares the tables with the uses the decoder recorded while it read the namespace halves.
The halves wait in their slots until a listing record pairs them, so at the end each recorded use belongs to a mutation
of the run: no pack is in the tables for nothing.
-/
import Rs3.Index.RunFrames

namespace Rs3.Index

open List IndexRunError

/-- A pointer into the pack the run lies in. -/
def IndexPayloadPointer.InSelfPack : IndexPayloadPointer → Prop
  | .selfPack _ => True
  | _ => False

/-- A pointer into this entry of the container table. -/
def IndexPayloadPointer.InContainer (ordinal : ℕ) : IndexPayloadPointer → Prop
  | .externalPack container _ => container = ordinal
  | _ => False

/-- A waiting namespace half or a paired mutation has such a payload. -/
def IndexRunFrameDecoder.Has (decoder : IndexRunFrameDecoder) (P : IndexPayloadPointer → Prop) : Prop :=
  (∃ projection, some projection ∈ decoder.namespaces ∧ P projection.payload) ∨
    ∃ mutation, some mutation ∈ decoder.mutations ∧ P mutation.payload

/-- Each recorded use is that of a slot, and a namespace half waits only where no mutation is yet. -/
structure IndexRunFrameDecoder.Tracked (decoder : IndexRunFrameDecoder) : Prop where
  unopened : decoder.sawNamespace = false → decoder.NoSlots
  slots : decoder.namespaces.length = decoder.mutations.length
  waiting : ∀ (i : ℕ) (projection : NamespaceProjection), decoder.namespaces[i]? = some (some projection) →
    decoder.mutations[i]? = some none
  selfPack : decoder.uses.selfPack = true → decoder.Has IndexPayloadPointer.InSelfPack
  containers : ∀ ordinal ∈ decoder.uses.containers, decoder.Has (IndexPayloadPointer.InContainer ordinal)

/-- No mutation is paired yet. -/
def IndexRunFrameDecoder.Unlisted (decoder : IndexRunFrameDecoder) : Prop := ∀ slot ∈ decoder.mutations, slot = none

section

variable {limits : IndexRunLimits} {decoder decoder' : IndexRunFrameDecoder} {input rest : Bytes}

variable {header : DecodedFrameHeader} {progress progress' : FrameProgress} {α : Type}

/-! ## Metadata frames -/

/-- What a metadata record leaves as it is. -/
structure SameSlots (decoder decoder' : IndexRunFrameDecoder) : Prop where
  namespaces : decoder'.namespaces = decoder.namespaces
  mutations : decoder'.mutations = decoder.mutations
  uses : decoder'.uses = decoder.uses
  sawNamespace : decoder'.sawNamespace = decoder.sawNamespace

theorem SameSlots.has (h : SameSlots decoder decoder') {P : IndexPayloadPointer → Prop} (hhas : decoder.Has P) :
    decoder'.Has P := by
  unfold IndexRunFrameDecoder.Has
  rwa [h.namespaces, h.mutations]

theorem SameSlots.tracked (h : SameSlots decoder decoder') (htracked : decoder.Tracked) : decoder'.Tracked := by
  refine ⟨fun hsaw => ?_, ?_, ?_, fun hself => h.has (htracked.selfPack (h.uses ▸ hself)),
    fun ordinal hordinal => h.has (htracked.containers ordinal (h.uses ▸ hordinal))⟩
  · unfold IndexRunFrameDecoder.NoSlots
    rw [h.namespaces, h.mutations]
    exact htracked.unopened (h.sawNamespace ▸ hsaw)
  · rw [h.namespaces, h.mutations]
    exact htracked.slots
  · rw [h.namespaces, h.mutations]
    exact htracked.waiting

theorem SameSlots.unlisted (h : SameSlots decoder decoder') (hunlisted : decoder.Unlisted) : decoder'.Unlisted := by
  unfold IndexRunFrameDecoder.Unlisted
  rwa [h.mutations]

theorem decodeMetadataFields_sameSlots (h : (decodeMetadataFields limits decoder).run input = .ok (decoder', rest)) :
    SameSlots decoder decoder' := by
  obtain ⟨tag, mid, -, h⟩ := Reader.bind_eq_ok.mp h
  split_ifs at h
  · simp only [decodeContainerRecord, Reader.ok_iff] at h
    obtain ⟨_, _, -, _, _, -, _, _, -, _, _, -, rfl, -⟩ := h
    exact ⟨rfl, rfl, rfl, rfl⟩
  · simp only [decodeStandaloneRecord, Reader.ok_iff] at h
    obtain ⟨_, _, -, _, _, -, _, _, -, _, _, -, rfl, -⟩ := h
    exact ⟨rfl, rfl, rfl, rfl⟩
  · simp only [decodeNamespaceKeyRecord, Reader.ok_iff] at h
    obtain ⟨_, _, -, _, _, -, _, _, -, _, _, -, rfl, -⟩ := h
    exact ⟨rfl, rfl, rfl, rfl⟩
  · unfold decodeReceiptRecord at h
    simp only [StateT.run, ok_iff, Prod.mk.injEq] at h
    obtain ⟨receipt, -, rfl, -⟩ := h
    exact ⟨rfl, rfl, rfl, rfl⟩
  · cases h

theorem decodeMetadata_tracked (htracked : decoder.Tracked) (hunlisted : decoder.Unlisted)
    (h : (decodeMetadata limits decoder header).run input = .ok (decoder', rest)) :
    decoder'.Tracked ∧ decoder'.Unlisted := by
  simp only [decodeMetadata, Reader.ok_iff, acceptMetadataHeader, bind_eq_ok, okOr_eq_ok, pure_eq_ok] at h
  obtain ⟨accepted, _, ⟨⟨keyCount, -, _, -, _, -, pack, -, _, -, rfl⟩, -⟩, hloop⟩ := h
  have haccepted : SameSlots decoder { decoder with
      declaredNamespaceKeyCount := some keyCount, selfPack := pack, sawSelfPayloadFact := true } := ⟨rfl, rfl, rfl, rfl⟩
  refine repeated_keeps (P := fun d => d.Tracked ∧ d.Unlisted) ?_
    ⟨haccepted.tracked htracked, haccepted.unlisted hunlisted⟩ hloop
  intro s s' input rest hs hstep
  simp only [decodeMetadataRecord, Reader.ok_iff, Reader.whole_eq_ok] at hstep
  obtain ⟨_, _, -, _, _, -, _, _, -, hfields, -⟩ := hstep
  have hsame := decodeMetadataFields_sameSlots hfields
  exact ⟨hsame.tracked hs.1, hsame.unlisted hs.2⟩

/-! ## Namespace frames -/

/-- Writing an empty slot drops nothing. -/
theorem mem_set_of_empty {slots : List (Option α)} (hslot : slots[i]? = some none) (h : some a ∈ slots) :
    some a ∈ slots.set i b := by
  obtain ⟨j, hj⟩ := getElem?_of_mem h
  have hne : i ≠ j := by
    rintro rfl
    cases hslot.symm.trans hj
  exact mem_of_getElem? ((getElem?_set_ne hne).trans hj)

theorem mem_set_self {slots : List (Option α)} (hslot : slots[i]? = some old) : b ∈ slots.set i b :=
  mem_of_getElem? (getElem?_set_self (List.getElem?_eq_some_iff.mp hslot).1)

theorem decodeNamespaceRecord_tracked (htracked : decoder.Tracked) (hunlisted : decoder.Unlisted)
    (h : (decodeNamespaceRecord limits decoder).run input = .ok (decoder', rest)) :
    decoder'.Tracked ∧ decoder'.Unlisted := by
  simp only [decodeNamespaceRecord, Reader.ok_iff, okOr_eq_ok, ensure_eq_ok] at h
  obtain ⟨_, _, -, ⟨ordinal, projection, keyOrdinal⟩, _, -, _, _, -, slot, _, ⟨hslot, -⟩, _, _, ⟨rfl, -⟩, rfl, -⟩ := h
  dsimp only at hslot ⊢
  have hkept : ∀ P : IndexPayloadPointer → Prop, (decoder.Has P ∨ P projection.payload) →
      (∃ p, some p ∈ decoder.namespaces.set ordinal (some projection) ∧ P p.payload) ∨
        ∃ m, some m ∈ decoder.mutations ∧ P m.payload := by
    rintro P ((⟨p, hp, hP⟩ | hmutation) | hP)
    · exact .inl ⟨p, mem_set_of_empty hslot hp, hP⟩
    · exact .inr hmutation
    · exact .inl ⟨projection, mem_set_self hslot, hP⟩
  refine ⟨⟨fun hsaw => ?_, ?_, fun i p hp => ?_, fun hself => hkept IndexPayloadPointer.InSelfPack ?_,
    fun container hcontainer => hkept (IndexPayloadPointer.InContainer container) ?_⟩, hunlisted⟩
  · -- there is a slot, so the slots are open
    obtain ⟨hnone, -⟩ := htracked.unopened hsaw
    rw [hnone] at hslot
    cases hslot
  · exact (length_set ..).trans htracked.slots
  · have hlength : i < decoder.mutations.length := by
      have hset := (List.getElem?_eq_some_iff.mp hp).1
      rwa [length_set, htracked.slots] at hset
    rw [getElem?_eq_getElem hlength, hunlisted _ (getElem_mem hlength)]
  · rcases hpayload : projection.payload with _ | record | ⟨container, record⟩ | container <;>
      simp only [hpayload, PayloadUses.insert] at hself
    · exact .inl (htracked.selfPack hself)
    · exact .inr trivial
    · exact .inl (htracked.selfPack hself)
    · exact .inl (htracked.selfPack hself)
  · rcases hpayload : projection.payload with _ | record | ⟨named, record⟩ | named <;>
      simp only [hpayload, PayloadUses.insert, mem_cons] at hcontainer
    · exact .inl (htracked.containers container hcontainer)
    · exact .inl (htracked.containers container hcontainer)
    · rcases hcontainer with rfl | hcontainer
      · exact .inr rfl
      · exact .inl (htracked.containers container hcontainer)
    · exact .inl (htracked.containers container hcontainer)

theorem openNamespaces_tracked (count : ℕ) (htracked : decoder.Tracked) (hunlisted : decoder.Unlisted) :
    (openNamespaces decoder count).Tracked ∧ (openNamespaces decoder count).Unlisted := by
  unfold openNamespaces
  split_ifs with hsaw
  · exact ⟨htracked, hunlisted⟩
  · rw [Bool.not_eq_true] at hsaw
    obtain ⟨hnames, hmutations⟩ := htracked.unopened hsaw
    have hnothing : ∀ P, ¬decoder.Has P := by
      rintro P (⟨p, hp, -⟩ | ⟨m, hm, -⟩)
      · rw [hnames] at hp
        cases hp
      · rw [hmutations] at hm
        cases hm
    have hfresh : ∀ {β : Type} (slot : Option β), slot ∈ resizeSlots [] count → slot = none := by
      intro β slot hslot
      simp only [resizeSlots, take_nil, nil_append] at hslot
      exact eq_of_mem_replicate hslot
    refine ⟨⟨nofun, ?_, fun i p hp => ?_, fun hself => absurd (htracked.selfPack hself) (hnothing _),
      fun container hcontainer => absurd (htracked.containers container hcontainer) (hnothing _)⟩, fun slot hslot => ?_⟩
    · dsimp only
      rw [hnames, hmutations]
      simp only [resizeSlots, take_nil, nil_append, length_replicate, length_nil]
    · dsimp only at hp
      rw [hnames] at hp
      cases hfresh _ (mem_of_getElem? hp)
    · dsimp only at hslot
      rw [hmutations] at hslot
      exact hfresh slot hslot

theorem decodeNamespace_tracked (htracked : decoder.Tracked) (hunlisted : decoder.Unlisted)
    (h : (decodeNamespace limits decoder header).run input = .ok (decoder', rest)) :
    decoder'.Tracked ∧ decoder'.Unlisted := by
  simp only [decodeNamespace, Reader.bind_eq_ok] at h
  obtain ⟨_, _, -, _, _, -, _, _, -, hloop⟩ := h
  exact repeated_keeps (P := fun d => d.Tracked ∧ d.Unlisted)
    (fun s s' _ _ hs hstep => decodeNamespaceRecord_tracked hs.1 hs.2 hstep)
    (openNamespaces_tracked header.mutationCount htracked hunlisted) hloop

/-! ## Listing frames -/

theorem pairProjections_payload (h : pairProjections ordinal names listing = .ok mutation) :
    mutation.payload = names.payload := by
  cases names <;> cases listing <;> simp only [pairProjections, ok_iff, reduceCtorEq] at h <;>
    obtain ⟨-, rfl⟩ := h <;> rfl

theorem decodeListingRecord_tracked (htracked : decoder.Tracked)
    (h : (decodeListingRecord limits (decoder, path)).run input = .ok ((decoder', path'), rest)) :
    decoder'.Tracked := by
  simp only [decodeListingRecord, Reader.ok_iff, okOr_eq_ok, ensure_eq_ok, Prod.mk.injEq] at h
  obtain ⟨_, _, -, ⟨_, ordinal, _⟩, _, -, _, _, -, slot, _, ⟨hslot, -⟩, _, _, ⟨rfl, -⟩, names, _, ⟨hnames, -⟩, projection,
    _, ⟨rfl, -⟩, mutation, _, ⟨hpair, -⟩, ⟨rfl, -⟩, -⟩ := h
  dsimp only at hslot hnames hpair
  have hkept : ∀ P : IndexPayloadPointer → Prop, decoder.Has P →
      (∃ p, some p ∈ decoder.namespaces.set ordinal none ∧ P p.payload) ∨
        ∃ m, some m ∈ decoder.mutations.set ordinal (some mutation) ∧ P m.payload := by
    rintro P (⟨p, hp, hP⟩ | ⟨m, hm, hP⟩)
    · -- the half that was paired goes on as the mutation, every other one waits on
      obtain ⟨j, hj⟩ := getElem?_of_mem hp
      by_cases hordinal : ordinal = j
      · subst hordinal
        cases hj.symm.trans hnames
        exact .inr ⟨mutation, mem_set_self hslot, by rwa [pairProjections_payload hpair]⟩
      · exact .inl ⟨p, mem_of_getElem? ((getElem?_set_ne hordinal).trans hj), hP⟩
    · exact .inr ⟨m, mem_set_of_empty hslot hm, hP⟩
  refine ⟨fun hsaw => ?_, ?_, fun i p hp => ?_, fun hself => hkept IndexPayloadPointer.InSelfPack ?_,
    fun container hcontainer => hkept (IndexPayloadPointer.InContainer container) ?_⟩
  · obtain ⟨-, hnone⟩ := htracked.unopened hsaw
    rw [hnone] at hslot
    cases hslot
  · dsimp only
    rw [length_set, length_set]
    exact htracked.slots
  · dsimp only at hp ⊢
    have hordinal : ordinal ≠ i := by
      rintro rfl
      rw [getElem?_set_self (List.getElem?_eq_some_iff.mp hnames).1] at hp
      cases hp
    rw [getElem?_set_ne hordinal] at hp ⊢
    exact htracked.waiting i p hp
  · exact htracked.selfPack hself
  · exact htracked.containers container hcontainer

theorem decodeListing_tracked (htracked : decoder.Tracked)
    (h : (decodeListing limits decoder header).run input = .ok (decoder', rest)) : decoder'.Tracked := by
  simp only [decodeListing, Reader.ok_iff] at h
  obtain ⟨_, _, -, result, _, hloop, rfl, -⟩ := h
  have hkept := repeated_keeps (P := fun state : IndexRunFrameDecoder × Bytes => state.1.Tracked)
    (fun s s' _ _ hs hstep => decodeListingRecord_tracked hs hstep)
    ⟨htracked.unopened, htracked.slots, htracked.waiting, htracked.selfPack, htracked.containers⟩ hloop
  exact hkept

/-! ## The driver -/

/-- Nothing is paired before the listing frames. -/
structure FrameProgress.Tracked (progress : FrameProgress) : Prop where
  decoder : progress.decoder.Tracked
  unlisted : progress.expectedRole ≠ .listing → progress.decoder.Unlisted

theorem FrameProgress.tracked_initial : FrameProgress.Tracked {} where
  decoder := ⟨fun _ => ⟨rfl, rfl⟩, rfl, fun _ _ hp => absurd hp (by simp), Bool.noConfusion,
    fun _ hordinal => absurd hordinal not_mem_nil⟩
  unlisted _ _ hslot := absurd hslot not_mem_nil

theorem FrameProgress.enterRole_tracked (htracked : progress.Tracked) (h : progress.enterRole header = .ok entered) :
    entered.Tracked ∧ entered.expectedRole = header.role := by
  unfold FrameProgress.enterRole at h
  split_ifs at h with hsame
  · obtain rfl := Except.ok.inj h
    exact ⟨htracked, hsame.1.symm⟩
  · simp only [bind_eq_ok, ensure_eq_ok, pure_eq_ok] at h
    obtain ⟨_, ⟨htag, -⟩, _, -, _, -, rfl⟩ := h
    refine ⟨⟨htracked.decoder, fun _ => htracked.unlisted fun hlisting => ?_⟩, rfl⟩
    -- no role comes after the listing
    rw [hlisting] at htag
    cases hrole : header.role <;> rw [hrole] at htag <;> cases htag

theorem FrameProgress.acceptHeader_tracked (htracked : progress.Tracked)
    (h : progress.acceptHeader limits header = .ok accepted) :
    accepted.Tracked ∧ accepted.expectedRole = progress.expectedRole := by
  simp only [FrameProgress.acceptHeader, ok_iff] at h
  obtain ⟨_, -, _, -, _, -, _, -, _, -, _, -, rfl⟩ := h
  exact ⟨⟨htracked.decoder, htracked.unlisted⟩, rfl⟩

theorem FrameProgress.decodeRecords_tracked (htracked : progress.Tracked) (hrole : progress.expectedRole = header.role)
    (h : (progress.decodeRecords limits header).run input = .ok (progress', rest)) : progress'.Tracked := by
  unfold FrameProgress.decodeRecords at h
  cases hr : header.role with
  | metadata =>
    simp only [hr, Reader.ok_iff] at h
    obtain ⟨decoder', _, hdecode, rfl, -⟩ := h
    have hunlisted := htracked.unlisted (by rw [hrole, hr]; exact nofun)
    obtain ⟨hdecoder, hnext⟩ := decodeMetadata_tracked htracked.decoder hunlisted hdecode
    exact ⟨hdecoder, fun _ => hnext⟩
  | namespaces =>
    simp only [hr, Reader.ok_iff] at h
    obtain ⟨decoder', _, hdecode, rfl, -⟩ := h
    have hunlisted := htracked.unlisted (by rw [hrole, hr]; exact nofun)
    obtain ⟨hdecoder, hnext⟩ := decodeNamespace_tracked htracked.decoder hunlisted hdecode
    exact ⟨hdecoder, fun _ => hnext⟩
  | listing =>
    simp only [hr, Reader.ok_iff] at h
    obtain ⟨decoder', _, hdecode, rfl, -⟩ := h
    exact ⟨decodeListing_tracked htracked.decoder hdecode, fun hother => absurd (hrole.trans hr) hother⟩

theorem decodeFrame_tracked (htracked : progress.Tracked) (h : decodeFrame limits progress encoded = .ok progress') :
    progress'.Tracked := by
  simp only [decodeFrame, bind_eq_ok, Reader.whole_eq_ok, decodeFrameBody, Reader.ok_iff] at h
  obtain ⟨_, -, header, _, -, entered, _, ⟨henter, -⟩, accepted, _, ⟨haccept, -⟩, hrecords⟩ := h
  obtain ⟨hentered, hrole⟩ := FrameProgress.enterRole_tracked htracked henter
  obtain ⟨haccepted, hsame⟩ := FrameProgress.acceptHeader_tracked hentered haccept
  exact FrameProgress.decodeRecords_tracked haccepted (hsame.trans hrole) hrecords

theorem decodeFrames_tracked {frames : List Bytes} (htracked : progress.Tracked)
    (h : frames.foldlM (decodeFrame limits) progress = .ok progress') : progress'.Tracked := by
  induction frames generalizing progress with
  | nil =>
    obtain rfl := Except.ok.inj h
    exact htracked
  | cons frame frames ih =>
    rw [foldlM_cons, bind_eq_ok] at h
    obtain ⟨next, hnext, hrest⟩ := h
    exact ih (decodeFrame_tracked htracked hnext) hrest

/-- A recorded use belongs to a mutation once every slot is filled. -/
theorem mutation_of_has (htracked : decoder.Tracked) (h : decoder.mutations.zipIdx.mapM orderedMutation = .ok mutations)
    {P : IndexPayloadPointer → Prop} (hhas : decoder.Has P) : ∃ mutation ∈ mutations, P mutation.payload := by
  have hfilled : ∀ (i : ℕ) (slot : Option IndexMutation), decoder.mutations[i]? = some slot →
      ∃ m ∈ mutations, slot = some m := by
    intro i slot hslot
    have hmem : (slot, i) ∈ decoder.mutations.zipIdx := mem_zipIdx_iff_getElem?.mpr hslot
    obtain ⟨m, hm, hordered⟩ := (mem_of_mapM h).2 _ hmem
    simp only [orderedMutation, bind_eq_ok, okOr_eq_ok] at hordered
    obtain ⟨_, -, hsome⟩ := hordered
    exact ⟨m, hm, hsome⟩
  rcases hhas with ⟨p, hp, hP⟩ | ⟨m, hm, hP⟩
  · obtain ⟨i, hi⟩ := getElem?_of_mem hp
    obtain ⟨m, -, hnone⟩ := hfilled i none (htracked.waiting i p hi)
    cases hnone
  · obtain ⟨i, hi⟩ := getElem?_of_mem hm
    obtain ⟨m', hm', heq⟩ := hfilled i (some m) hi
    cases heq
    exact ⟨m, hm', hP⟩

end

/-- Every pack a run knows is named by one of its mutations. -/
structure IndexRun.PacksNamed (run : IndexRun) : Prop where
  selfPack : run.selfPack.isSome = true → ∃ u record, .upsert u ∈ run.mutations ∧ u.payload = .selfPack record
  containers : ∀ ordinal < run.containers.length, ∃ u record, .upsert u ∈ run.mutations ∧
    u.payload = .externalPack ordinal record

theorem decodeIndexRunFrames_packsNamed (h : decodeIndexRunFrames limits frames = .ok run) : run.PacksNamed := by
  simp only [decodeIndexRunFrames, bind_eq_ok, IndexRunFrameDecoder.finish, pure_eq_ok] at h
  obtain ⟨_, -, _, -, _, -, progress, hframes, _, -, _, -, _, -, _, -, _, -, _, -, _, -, _, -, _, -, _, -, _, -, _, -,
    _, huse, _, -, _, -, mutations, hmutations, _, -, _, -, rfl⟩ := h
  have htracked := (decodeFrames_tracked FrameProgress.tracked_initial hframes).decoder
  simp only [validateContainerUse, validateUsed, ok_iff, forM_eq_ok, mem_range, tryFrom_eq_some] at huse
  obtain ⟨hself, hcontainers⟩ := huse
  constructor
  · intro hsome
    have hused : progress.decoder.uses.selfPack = true := by
      by_contra hunused
      exact hself (.inl fun heq => hunused (heq.trans hsome))
    obtain ⟨m, hm, hpayload⟩ := mutation_of_has htracked hmutations (htracked.selfPack hused)
    cases m with
    | tombstone t => exact hpayload.elim
    | upsert u =>
      rcases hu : u.payload with _ | record | ⟨container, record⟩ | container <;>
        simp only [IndexMutation.payload, hu, IndexPayloadPointer.InSelfPack] at hpayload
      exact ⟨u, record, hm, hu⟩
  · intro ordinal hordinal
    obtain ⟨_, ⟨-, rfl⟩, hused⟩ := hcontainers ordinal hordinal
    obtain ⟨m, hm, hpayload⟩ := mutation_of_has htracked hmutations (htracked.containers ordinal hused)
    cases m with
    | tombstone t => exact hpayload.elim
    | upsert u =>
      rcases hu : u.payload with _ | record | ⟨container, record⟩ | container <;>
        simp only [IndexMutation.payload, hu, IndexPayloadPointer.InContainer] at hpayload
      subst hpayload
      exact ⟨u, record, hm, hu⟩

end Rs3.Index
