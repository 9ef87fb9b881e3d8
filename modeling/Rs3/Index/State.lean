/-
# Rs3.Index.State — the trusted repository state and the objects it stands for.

`state.rs`, `NamespaceIndex` of `rs3-index/src/lib.rs` (without its prefix tables, which stay empty) and
`CompletionReceipts` of `completion.rs`.  The state keeps three tables that must agree: the namespace by blind
key, the manifests by identifier and the listing by path.  `Represents` says which map from blind keys to live
objects a state stands for; every update of the state is one write to that map.
-/
import Rs3.Index.Keyring
import Rs3.Lib.KeyedLog

namespace Rs3.Index

open Function Std.ExtTreeMap

/-! ## Completion receipts -/

/-- `MAX_COMPLETION_RECEIPTS`. -/
def maxCompletionReceipts : ℕ := 1024

/-- `CompletionReceipt::validate`. -/
def CompletionReceipt.validate (receipt : CompletionReceipt) : Bool :=
  match receipt.etag.partCount with
  | none => false
  | some partCount =>
    receipt.commitSequence ≠ 0 && receipt.key.asStr.utf8ByteSize ≤ 1024 &&
      match receipt.checksum with
      | none => true
      | some checksum =>
        match checksum.algorithm, checksum.kind with
        | .sha1, .fullObject => false
        | .sha256, .fullObject => false
        | _, .composite parts => parts = partCount
        | _, .fullObject => true

/-- The newest accepted results, by upload identity. -/
structure CompletionReceipts where
  entries : Std.ExtTreeMap Digest CompletionReceipt

namespace CompletionReceipts

def default : CompletionReceipts := ⟨∅⟩

variable (receipts : CompletionReceipts)

def get (id : Digest) : Option CompletionReceipt := receipts.entries[id]?

/-- In the order of the upload identities. -/
def iter : List CompletionReceipt := receipts.entries.toList.map Prod.snd

def validateInsert (receipt : CompletionReceipt) : Bool :=
  receipt.validate && (receipts.get receipt.uploadId).all (· = receipt) &&
    receipts.iter.all fun old => old.commitSequence ≠ receipt.commitSequence || old = receipt

/-- `min_by_key`: the first entry of smallest commit sequence. -/
def oldest : List CompletionReceipt → Option CompletionReceipt
  | [] => none
  | receipt :: rest =>
    match oldest rest with
    | none => some receipt
    | some other => if other.commitSequence < receipt.commitSequence then some other else some receipt

/-- Apply one accepted result; the oldest makes room. -/
def insert (receipt : CompletionReceipt) : Option CompletionReceipts :=
  if receipts.validateInsert receipt then
    let entries := receipts.entries.insert receipt.uploadId receipt
    if maxCompletionReceipts < entries.size then
      (oldest (CompletionReceipts.mk entries).iter).map fun evicted => ⟨entries.erase evicted.uploadId⟩
    else some ⟨entries⟩
  else none

end CompletionReceipts

/-! ## Namespace index -/

structure NamespaceIndex where
  entries : Std.ExtTreeMap BlindIndexKey NamespaceEntry

namespace NamespaceIndex

def new : NamespaceIndex := ⟨∅⟩

section

variable (index : NamespaceIndex)

def upsertWithoutPrefixes (entry : NamespaceEntry) : NamespaceIndex := ⟨index.entries.insert entry.blindKey entry⟩

def head (blindKey : BlindIndexKey) : Option NamespaceEntry := index.entries[blindKey]?

/-- In blind-key order. -/
def liveEntries : List NamespaceEntry := index.entries.toList.map Prod.snd

def remove (blindKey : BlindIndexKey) : NamespaceIndex := ⟨index.entries.erase blindKey⟩

variable (blindKey : BlindIndexKey)

theorem head_upsert (entry : NamespaceEntry) : (index.upsertWithoutPrefixes entry).head blindKey =
      if entry.blindKey = blindKey then some entry else index.head blindKey := by
  unfold head upsertWithoutPrefixes
  rw [getElem?_insert]
  simp only [Std.compare_eq_iff_eq]

theorem head_remove (removed : BlindIndexKey) :
    (index.remove removed).head blindKey = if removed = blindKey then none else index.head blindKey := by
  unfold head remove
  rw [getElem?_erase]
  simp only [Std.compare_eq_iff_eq]

end

theorem mem_liveEntries {index : NamespaceIndex} {entry : NamespaceEntry} :
    entry ∈ index.liveEntries ↔ ∃ blindKey, index.head blindKey = some entry := by
  unfold liveEntries head
  rw [List.mem_map]
  constructor
  · rintro ⟨⟨blindKey, e⟩, hmem, rfl⟩
    exact ⟨blindKey, mem_toList_iff_getElem?_eq_some.mp hmem⟩
  · rintro ⟨blindKey, h⟩
    exact ⟨(blindKey, entry), mem_toList_iff_getElem?_eq_some.mpr h, rfl⟩

end NamespaceIndex

/-! ## Repository state -/

structure RepositoryListEntry where
  etag : ObjectEtag
  key : LogicalPath
  contentLen : ℕ
  modifiedAtMs : Int
  deriving DecidableEq

def TrustedManifest.listEntry (manifest : TrustedManifest) : RepositoryListEntry :=
  ⟨manifest.etag, manifest.key, manifest.contentLen, manifest.modifiedAtMs⟩

/-- The interned standalone carriers are a list; each carrier names its own object and version. -/
structure RepositoryState where
  completionReceipts : CompletionReceipts
  namespaceIndex : NamespaceIndex
  manifests : Std.ExtTreeMap ManifestId TrustedManifest
  listEntries : Std.ExtTreeMap LogicalPath RepositoryListEntry
  nextSequence : Sequence
  v3StandaloneCarriers : List V3StandaloneStreamCarrierReference

namespace RepositoryState

def default : RepositoryState := ⟨.default, .new, ∅, ∅, 0, []⟩

variable (state : RepositoryState)

def updateListEntry (affectedManifest : Option TrustedManifest) : RepositoryState :=
  match affectedManifest with
  | some manifest => { state with listEntries := state.listEntries.insert manifest.key manifest.listEntry }
  | none => state

def upsertNamespaceEntryWithoutPrefixes (entry : NamespaceEntry) : RepositoryState :=
  let affectedManifest := state.manifests[entry.manifestId]?
  { state with namespaceIndex := state.namespaceIndex.upsertWithoutPrefixes entry }.updateListEntry affectedManifest

/-- One round of the scan in `refresh_list_entry`: later entries win among equally recent ones. -/
def selectListEntry (key : LogicalPath) (selected : Option RepositoryListEntry)
    (entry : NamespaceEntry) : Option RepositoryListEntry :=
  match state.manifests[entry.manifestId]? with
  | none => selected
  | some manifest =>
    if manifest.key ≠ key then selected
    else
      match selected with
      | none => some manifest.listEntry
      | some current =>
        if current.modifiedAtMs ≤ manifest.modifiedAtMs then some manifest.listEntry else some current

def refreshListEntry (key : LogicalPath) : RepositoryState :=
  match state.namespaceIndex.liveEntries.foldl (state.selectListEntry key) none with
  | some entry => { state with listEntries := state.listEntries.insert key entry }
  | none => { state with listEntries := state.listEntries.erase key }

def removeNamespaceEntry (blindKey : BlindIndexKey) : RepositoryState :=
  let affectedKey := do
    let entry ← state.namespaceIndex.head blindKey
    let manifest ← state.manifests[entry.manifestId]?
    return manifest.key
  let removed := { state with namespaceIndex := state.namespaceIndex.remove blindKey }
  match affectedKey with
  | some key => removed.refreshListEntry key
  | none => removed

/-- Insert a manifest and the entry that names it, as installation and replay do. -/
def upsertObject (entry : NamespaceEntry) (manifest : TrustedManifest) : RepositoryState :=
  { state with manifests := state.manifests.insert entry.manifestId manifest }.upsertNamespaceEntryWithoutPrefixes entry

/-! ### What the updates leave alone -/

variable (s : RepositoryState) (e : NamespaceEntry) (m : TrustedManifest) (k : BlindIndexKey)

theorem upsertObject_eq :
    s.upsertObject e m =
      { s with
        manifests := s.manifests.insert e.manifestId m
        namespaceIndex := s.namespaceIndex.upsertWithoutPrefixes e
        listEntries := s.listEntries.insert m.key m.listEntry } := by
  have hget : (s.manifests.insert e.manifestId m)[e.manifestId]? = some m := getElem?_insert_self
  simp only [upsertObject, upsertNamespaceEntryWithoutPrefixes, hget, updateListEntry]

@[simp] theorem upsertObject_namespaceIndex :
    (s.upsertObject e m).namespaceIndex = s.namespaceIndex.upsertWithoutPrefixes e := by rw [upsertObject_eq]

theorem removeNamespaceEntry_eq :
    s.removeNamespaceEntry k =
      { s with
        namespaceIndex := s.namespaceIndex.remove k
        listEntries := (s.removeNamespaceEntry k).listEntries } := by
  simp only [removeNamespaceEntry]
  split
  · unfold refreshListEntry
    split <;> rfl
  · rfl

@[simp] theorem removeNamespaceEntry_namespaceIndex :
    (s.removeNamespaceEntry k).namespaceIndex = s.namespaceIndex.remove k := by rw [removeNamespaceEntry_eq]

end RepositoryState

/-! ## The objects a state stands for -/

/-- The object that holds a payload. -/
def PayloadReference.object : PayloadReference → Option (BackendObjectId × Option BackendVersionId)
  | .v3Pack carrier _ => some (carrier.commitKey, carrier.commitVersionId)
  | .v3StandaloneStream carrier => some (carrier.objectId, carrier.versionId)
  | .pending => none

/-- A live object as readers see it.  An empty object has no payload, and then its entry's object identifier is
only a placeholder. -/
structure LiveObject where
  namespaceKeyId : KeyId
  payloadRef : Option PayloadReference
  payloadObject : Option (BackendObjectId × Option BackendVersionId)
  contentLen : ℕ
  modifiedAtMs : Int
  generation : Sequence
  retention : Option RetentionPolicy
  legalHold : Option LegalHoldStatus
  manifest : Option TrustedManifest
  deriving DecidableEq

/-- Blind keys and their live objects. -/
abbrev Live := BlindIndexKey → Option LiveObject

def NamespaceEntry.liveObject (entry : NamespaceEntry) (manifest : Option TrustedManifest) : LiveObject :=
  ⟨entry.namespaceKeyId, entry.payloadRef, entry.payloadRef.map fun _ => (entry.objectId, entry.objectVersionId),
    entry.contentLen, entry.modifiedAtMs, entry.generation, entry.retention, entry.legalHold, manifest⟩

def RepositoryState.object (state : RepositoryState) (blindKey : BlindIndexKey) : Option LiveObject :=
  (state.namespaceIndex.head blindKey).map fun entry => entry.liveObject state.manifests[entry.manifestId]?

/-- No other live object is the version `generation` of `path`, so its manifest identifier is not in use. -/
def FreshVersion (objects : Live) (blindKey : BlindIndexKey) (path : LogicalPath) (generation : Sequence) : Prop :=
  ∀ other object manifest, objects other = some object → object.manifest = some manifest →
    manifest.key = path → object.generation = generation → other = blindKey

/-- A live object of the path with that metadata. -/
def Lists (objects : Live) (path : LogicalPath) (listing : RepositoryListEntry) : Prop :=
  ∃ blindKey object manifest, objects blindKey = some object ∧ object.manifest = some manifest ∧ manifest.key = path ∧
    manifest.listEntry = listing

/-- A listing shows a live object of the path, and nothing only when there is none. -/
def Shows (objects : Live) (path : LogicalPath) : Option RepositoryListEntry → Prop
  | some listing => Lists objects path listing
  | none => ∀ listing, ¬ Lists objects path listing

section Represents

variable (prf : Prf) (keyring : KeyRing)

/-- `state` stands for `objects`.  The identifiers in its entries are the ones its keyring derives, and a path is
listed exactly when some live object has it, with the metadata of such an object. -/
structure Represents (state : RepositoryState) (objects : Live) : Prop where
  object : ∀ blindKey, state.object blindKey = objects blindKey
  entry : ∀ {blindKey entry}, state.namespaceIndex.head blindKey = some entry → ∃ manifest,
    state.manifests[entry.manifestId]? = some manifest ∧
    entry.manifestId = keyring.manifestIdOf prf manifest.key entry.generation ∧
    prf.deriveBlindIndexKey entry.namespaceKeyId manifest.key = blindKey
  shows : ∀ path, Shows objects path state.listEntries[path]?

end Represents

section

variable {prf : Prf} {keyring : KeyRing} {state : RepositoryState} {objects : Live}

theorem represents_default : Represents prf keyring .default fun _ => none :=
  ⟨fun _ => rfl, fun h => (by cases h), by simp [RepositoryState.default, Shows, Lists]⟩

theorem Represents.path_eq (h : Represents prf keyring state objects) {object : LiveObject} {manifest : TrustedManifest}
    (hobj : objects blindKey = some object) (hman : object.manifest = some manifest)
    (hkey : prf.deriveBlindIndexKey key path = blindKey) : manifest.key = path := by
  rw [← h.object, RepositoryState.object, Option.map_eq_some_iff] at hobj
  obtain ⟨entry, hhead, rfl⟩ := hobj
  obtain ⟨manifest', hman', -, hblind⟩ := h.entry hhead
  cases hman'.symm.trans hman
  exact (prf.blindIndexKey_inj (hblind.trans hkey.symm)).2

/-- A write under a key of another path does not change what the path shows. -/
theorem shows_update {value : Option LiveObject} (hshows : Shows objects path shown)
    (h : ∀ object manifest, objects blindKey = some object ∨ value = some object → object.manifest = some manifest →
      manifest.key ≠ path) : Shows (update objects blindKey value) path shown := by
  have hlists (listing) : Lists (update objects blindKey value) path listing ↔ Lists objects path listing := by
    constructor
    · rintro ⟨k, object, manifest, hobj, hman, hkey, hentry⟩
      by_cases hk : k = blindKey
      · subst hk
        rw [update_self] at hobj
        exact absurd hkey (h object manifest (.inr hobj) hman)
      · exact ⟨k, object, manifest, by rwa [update_of_ne hk] at hobj, hman, hkey, hentry⟩
    · rintro ⟨k, object, manifest, hobj, hman, hkey, hentry⟩
      refine ⟨k, object, manifest, ?_, hman, hkey, hentry⟩
      rwa [update_of_ne]
      rintro rfl
      exact h object manifest (.inl hobj) hman hkey
  cases shown with
  | none => exact fun listing => mt (hlists listing).mp (hshows listing)
  | some listing => exact (hlists listing).mpr hshows

open NamespaceIndex

theorem Represents.upsertObject (h : Represents prf keyring state objects) (entry : NamespaceEntry)
    (manifest : TrustedManifest)
    (hid : entry.manifestId = keyring.manifestIdOf prf manifest.key entry.generation)
    (hblind : prf.deriveBlindIndexKey entry.namespaceKeyId manifest.key = entry.blindKey)
    (hfresh : FreshVersion objects entry.blindKey manifest.key entry.generation) :
    Represents prf keyring (state.upsertObject entry manifest)
      (update objects entry.blindKey (some (entry.liveObject (some manifest)))) := by
  -- a manifest of another live entry keeps its place
  have hother : ∀ {k e}, entry.blindKey ≠ k → state.namespaceIndex.head k = some e →
      (state.manifests.insert entry.manifestId manifest)[e.manifestId]? = state.manifests[e.manifestId]? := by
    intro k e hk hhead
    have hne : entry.manifestId ≠ e.manifestId := by
      intro heq
      obtain ⟨man, hman, hmid, -⟩ := h.entry hhead
      have hobj : objects k = some (e.liveObject (some man)) := by
        rw [← h.object, RepositoryState.object, hhead, ← hman]
        rfl
      rw [hid, hmid] at heq
      obtain ⟨hpath, hgen⟩ := KeyRing.manifestIdOf_inj heq
      exact hk (hfresh k _ man hobj rfl hpath.symm hgen.symm).symm
    rw [getElem?_insert, if_neg]
    rwa [Std.compare_eq_iff_eq]
  have hself : (state.manifests.insert entry.manifestId manifest)[entry.manifestId]? = some manifest :=
    getElem?_insert_self
  rw [RepositoryState.upsertObject_eq]
  refine ⟨fun k => ?_, fun {k e} hhead => ?_, fun path => ?_⟩
  · simp only [RepositoryState.object, head_upsert]
    by_cases hk : entry.blindKey = k
    · subst hk
      simp
    · rw [if_neg hk, update_of_ne (Ne.symm hk), ← h.object, RepositoryState.object]
      rcases hhead : state.namespaceIndex.head k with _ | e
      · rfl
      · rw [Option.map_some, Option.map_some, hother hk hhead]
  · simp only [head_upsert] at hhead
    split at hhead
    · rename_i hk
      cases hhead
      exact ⟨manifest, hself, hid, hblind.trans hk⟩
    · rename_i hk
      simp only [hother hk hhead]
      exact h.entry hhead
  · rw [getElem?_insert]
    by_cases hpath : manifest.key = path
    · rw [if_pos (Std.compare_eq_iff_eq.mpr hpath)]
      exact ⟨entry.blindKey, _, manifest, update_self .., rfl, hpath, rfl⟩
    · rw [if_neg (mt Std.compare_eq_iff_eq.mp hpath)]
      -- the key written now belongs to the path of the manifest
      refine shows_update (h.shows path) ?_
      rintro object man (hobj | ⟨⟨⟩⟩) hman
      · rwa [h.path_eq hobj hman hblind]
      · cases hman
        exact hpath

/-! ## Removal and the listing -/

/-- One round of the scan passes over the entry, or takes it for one of the path. -/
theorem selectListEntry_cases :
    (state.selectListEntry key selected entry = selected ∧ (selected = none → ∀ manifest,
      state.manifests[entry.manifestId]? = some manifest → manifest.key ≠ key)) ∨
    ∃ manifest, state.manifests[entry.manifestId]? = some manifest ∧ manifest.key = key ∧
      state.selectListEntry key selected entry = some manifest.listEntry := by
  unfold RepositoryState.selectListEntry
  rcases state.manifests[entry.manifestId]? with _ | manifest
  · exact .inl ⟨rfl, by simp⟩
  · by_cases hkey : manifest.key = key
    · rcases selected with _ | current
      · exact .inr ⟨manifest, rfl, hkey, by simp [hkey]⟩
      · by_cases hlater : current.modifiedAtMs ≤ manifest.modifiedAtMs
        · exact .inr ⟨manifest, rfl, hkey, by simp [hkey, hlater]⟩
        · exact .inl ⟨by simp [hkey, hlater], by simp⟩
    · exact .inl ⟨by simp [hkey], by simpa using fun _ => hkey⟩

/-- The scan keeps an entry of the path whenever it has met one. -/
theorem selectListEntry_foldl {entries : List NamespaceEntry}
    (h : entries.foldl (state.selectListEntry key) selected = result) :
    (∀ listing, result = some listing → selected = some listing ∨
      ∃ entry ∈ entries, ∃ manifest, state.manifests[entry.manifestId]? = some manifest ∧ manifest.key = key ∧
        manifest.listEntry = listing) ∧ (result = none → selected = none ∧ ∀ entry ∈ entries, ∀ manifest,
      state.manifests[entry.manifestId]? = some manifest → manifest.key ≠ key) := by
  induction entries generalizing selected with
  | nil =>
    subst h
    exact ⟨fun listing hl => .inl hl, fun hn => ⟨hn, by simp⟩⟩
  | cons entry entries ih =>
    obtain ⟨hsome, hnone⟩ := ih h
    rcases selectListEntry_cases with ⟨hsel, hother⟩ | ⟨manifest, hman, hkey, hsel⟩
    all_goals rw [hsel] at hsome hnone
    · refine ⟨fun listing hl => ?_, fun hn => ?_⟩
      · exact (hsome listing hl).imp_right fun ⟨e, he, rest⟩ => ⟨e, List.mem_cons_of_mem entry he, rest⟩
      · exact ⟨(hnone hn).1, List.forall_mem_cons.mpr ⟨hother (hnone hn).1, (hnone hn).2⟩⟩
    · refine ⟨fun listing hl => .inr ?_, fun hn => by cases (hnone hn).1⟩
      rcases hsome listing hl with hfirst | ⟨e, he, rest⟩
      · exact ⟨entry, List.mem_cons_self, manifest, hman, hkey, Option.some.inj hfirst⟩
      · exact ⟨e, List.mem_cons_of_mem entry he, rest⟩

/-- The refreshed path lists what is live under it; other paths keep their entries. -/
theorem refreshListEntry_get (state : RepositoryState) (key path : LogicalPath) :
    (path ≠ key → (state.refreshListEntry key).listEntries[path]? = state.listEntries[path]?) ∧
      Shows state.object key (state.refreshListEntry key).listEntries[key]? := by
  have hget (path) : (state.refreshListEntry key).listEntries[path]? =
      if key = path then state.namespaceIndex.liveEntries.foldl (state.selectListEntry key) none
      else state.listEntries[path]? := by
    unfold RepositoryState.refreshListEntry
    split <;> simp [*, getElem?_insert, getElem?_erase]
  refine ⟨fun hpath => by rw [hget, if_neg (Ne.symm hpath)], ?_⟩
  rw [hget, if_pos rfl]
  rcases hl : state.namespaceIndex.liveEntries.foldl (state.selectListEntry key) none with _ | listing
  all_goals obtain ⟨hsome, hnone⟩ := selectListEntry_foldl hl
  · rintro listing ⟨k, object, man, hobj, hman, hkey, -⟩
    obtain ⟨e, hhead, rfl⟩ := Option.map_eq_some_iff.mp hobj
    exact (hnone rfl).2 e (mem_liveEntries.mpr ⟨k, hhead⟩) man hman hkey
  · obtain hinit | ⟨e, he, man, hman, hkey, hentry⟩ := hsome listing rfl
    · cases hinit
    · obtain ⟨k, hhead⟩ := mem_liveEntries.mp he
      exact ⟨k, e.liveObject (some man), man, by rw [RepositoryState.object, hhead, ← hman]; rfl, rfl, hkey, hentry⟩

theorem Represents.removeNamespaceEntry (h : Represents prf keyring state objects) (blindKey : BlindIndexKey) :
    Represents prf keyring (state.removeNamespaceEntry blindKey) (update objects blindKey none) := by
  let rest : RepositoryState := { state with namespaceIndex := state.namespaceIndex.remove blindKey }
  have hrest : rest.object = update objects blindKey none := by
    funext k
    show ((state.namespaceIndex.remove blindKey).head k).map _ = _
    by_cases hk : blindKey = k
    · subst hk
      simp [head_remove]
    · rw [head_remove, if_neg hk, update_of_ne (Ne.symm hk), ← h.object]
      rfl
  have hshows (path) :
      Shows (update objects blindKey none) path (state.removeNamespaceEntry blindKey).listEntries[path]? := by
    rcases hremoved : state.namespaceIndex.head blindKey with _ | removed
    · -- nothing was live under the key: the listing is untouched
      rw [show (state.removeNamespaceEntry blindKey).listEntries = state.listEntries by
        simp [RepositoryState.removeNamespaceEntry, hremoved], show none = objects blindKey by
        rw [← h.object, RepositoryState.object, hremoved]; rfl, update_eq_self]
      exact h.shows path
    · obtain ⟨manifest, hman, -, hblind⟩ := h.entry hremoved
      rw [show (state.removeNamespaceEntry blindKey).listEntries = (rest.refreshListEntry manifest.key).listEntries by
        simp [RepositoryState.removeNamespaceEntry, hremoved, hman, rest]]
      obtain ⟨hother, hshown⟩ := refreshListEntry_get rest manifest.key path
      by_cases hpath : path = manifest.key
      · subst hpath
        rw [← hrest]
        exact hshown
      · -- an object of another path is not the removed one
        rw [hother hpath]
        refine shows_update (h.shows path) ?_
        rintro object man (hobj | ⟨⟨⟩⟩) hobjman
        rw [h.path_eq hobj hobjman hblind]
        exact Ne.symm hpath
  refine ⟨fun k => ?_, fun {k e} hhead => ?_, hshows⟩
  · rw [← hrest, RepositoryState.removeNamespaceEntry_eq]
    rfl
  · rw [RepositoryState.removeNamespaceEntry_namespaceIndex, head_remove] at hhead
    rw [RepositoryState.removeNamespaceEntry_eq]
    split at hhead
    · cases hhead
    · exact h.entry hhead

end

end Rs3.Index
