/-
# Rs3.Service.Reload — replacing the accepted state by the chain of the anchor.

`load_chain_from_anchor` of `v3/service.rs`.  The two reads of the anchor, the claim of the mutation lease, the objects of
the store and the replay of the recovery history are inputs (`ReloadReads`): the results hold whatever they answer.  The
accepted state is written before the overlay is reset, and the reset can still fail.  So a reload is all or nothing
exactly when the reset cannot fail, or the write changes nothing, or the reload does not get as far as the write.
-/
import Rs3.Index.ChainReplay
import Rs3.Index.ReplayBudget
import Rs3.Recovery.Publication
import Rs3.Service.LocalRecovery
import Rs3.Service.PendingOverlay

namespace Rs3.Service

open Repository Index
open Recovery (AcceptedRecoveryState)

/-- The accepted state with the recovery state that is kept beside it. -/
structure ReloadedState where
  recovery : Option AcceptedRecoveryState
  repository : RepositoryState
  runs : List V3IndexRootRunRef
  anchor : Option V3AnchorState

/-- The fields that a reload writes, with the poison of their locks. -/
structure ReloadService where
  accepted : ReloadedState
  acceptedPoisoned : Bool
  pending : PendingV3State
  pendingPoisoned : Bool

abbrev ReloadM := ExceptT RepositoryError (StateM ReloadService)

/-- What a reload learns from the mutation lease, the anchor and the commit store, under the keys and options of the
service. -/
structure ReloadReads where
  claimDirectMutation : Except RepositoryError Unit
  readV3 : Except V3FormatError (Option V3AnchorState)
  store : List V3ReplayCommit
  limits : V3ReplayLimits
  /-- Over the recovery sections of the chain. -/
  replayRecoveryHistory : List V3ReplayCommit → Except V3FormatError (Option AcceptedRecoveryState)
  prf : Prf
  keyring : KeyRing
  profile : V3ProviderProfile
  applyIndexRoot : RootReplay
  /-- The second read, after the replays. -/
  rereadV3 : Except V3FormatError (Option V3AnchorState)

variable (reads : ReloadReads)

/-- `replay_bounded_chain_to_state_and_runs`, from an empty state. -/
def ReloadReads.replayBoundedChainToStateAndRuns (chain : List V3ReplayCommit) :
    Except V3FormatError (RepositoryState × List V3IndexRootRunRef) :=
  replayBoundedChain reads.prf reads.keyring reads.profile reads.applyIndexRoot none .default chain.reverse

/-- Only an overlay that is already empty is synchronised. -/
def PendingV3State.resetToAcceptedSequence (pending : PendingV3State) (acceptedSequence : Sequence) :
    Except RepositoryError PendingV3State := do
  ensure pending.isEmpty (.commitFailed "cannot reset a non-empty v03 staging overlay")
  return { pending with allocationSequence := acceptedSequence }

def loadChainFromAnchor : ReloadM (Option (List V3ReplayCommit)) := do
  reads.claimDirectMutation
  match ← liftM (reads.readV3.mapError v3RepositoryError) with
  | none => return none
  | some anchorState =>
    let chain ← (loadReplayChainFromState reads.store reads.limits anchorState).mapError v3RepositoryError
    let recovery ← (reads.replayRecoveryHistory chain).mapError v3RepositoryError
    let (rebuilt, acceptedRuns) ← (reads.replayBoundedChainToStateAndRuns chain).mapError v3RepositoryError
    let current ← reads.rereadV3.mapError v3RepositoryError
    ensure (current = some anchorState) (v3RepositoryError .staleAnchor)
    let service ← get
    ensure (service.acceptedPoisoned = false) RepositoryError.statePoisoned
    set { service with accepted := ⟨recovery, rebuilt, acceptedRuns, some anchorState⟩ }
    ensure (service.pendingPoisoned = false) RepositoryError.statePoisoned
    let pending ← service.pending.resetToAcceptedSequence rebuilt.nextSequence
    modify fun s => { s with pending }
    return some chain

/-- A reload of this service gets as far as the write, with this chain and the state that it replays to. -/
structure Loads (s : ReloadService) (chain : List V3ReplayCommit) (loaded : ReloadedState) : Prop where
  claim : reads.claimDirectMutation = .ok ()
  anchor : ∃ state, reads.readV3 = .ok (some state) ∧ reads.rereadV3 = .ok (some state) ∧
    loadReplayChainFromState reads.store reads.limits state = .ok chain ∧ loaded.anchor = some state
  recovery : reads.replayRecoveryHistory chain = .ok loaded.recovery
  index : reads.replayBoundedChainToStateAndRuns chain = .ok (loaded.repository, loaded.runs)
  lock : s.acceptedPoisoned = false

/-- The overlay can be reset. -/
def ReloadService.Resettable (s : ReloadService) : Prop := s.pendingPoisoned = false ∧ s.pending.isEmpty = true

/-- An error leaves the accepted state; a success without a chain, everything; and a chain is installed with the
allocation sequence behind it. -/
def AllOrNothing (s : ReloadService) : Prop :=
  match (loadChainFromAnchor reads).run s with
  | (.error _, after) => after.accepted = s.accepted
  | (.ok none, after) => after = s ∧ reads.readV3 = .ok none
  | (.ok (some chain), after) => Loads reads s chain after.accepted ∧
      after.pending = { s.pending with allocationSequence := after.accepted.repository.nextSequence }

variable {reads} {s : ReloadService} {chain : List V3ReplayCommit} {loaded : ReloadedState}

/-- Past the write only the overlay decides. -/
theorem Loads.run_eq (h : Loads reads s chain loaded) :
    (loadChainFromAnchor reads).run s =
      if s.pendingPoisoned = false then
        match s.pending.resetToAcceptedSequence loaded.repository.nextSequence with
        | .ok pending => (.ok (some chain), { s with accepted := loaded, pending })
        | .error e => (.error e, { s with accepted := loaded })
      else (.error .statePoisoned, { s with accepted := loaded }) := by
  obtain ⟨hclaim, ⟨state, hread, hreread, hchain, hanchor⟩, hrecovery, hindex, hlock⟩ := h
  obtain ⟨recovery, repository, runs, anchor⟩ := loaded
  obtain rfl : anchor = some state := hanchor
  have hcheck {α : Type} {x : Except RepositoryError α} {a : α} (hx : x = .ok a)
      (f : α → ReloadM (Option (List V3ReplayCommit))) : (liftM x >>= f : ReloadM _).run s = (f a).run s := by
    rw [hx]
    rfl
  have hmapped {α : Type} {x : Except V3FormatError α} {a : α} (hx : x = .ok a) :
      x.mapError v3RepositoryError = .ok a := by
    rw [hx]
    rfl
  rw [loadChainFromAnchor, hcheck hclaim, hcheck (hmapped hread)]
  show ((liftM _ >>= _ : ReloadM _).run s) = _
  rw [hcheck (hmapped hchain), hcheck (hmapped hrecovery), hcheck (hmapped hindex), hcheck (hmapped hreread),
    hcheck (ensure_of rfl)]
  show ((liftM (ensure (s.acceptedPoisoned = false) RepositoryError.statePoisoned) >>= _ : ReloadM _).run s) = _
  rw [hcheck (ensure_of hlock)]
  by_cases hpoison : s.pendingPoisoned = false
  · simp only [ensure_of hpoison, if_pos hpoison]
    cases s.pending.resetToAcceptedSequence repository.nextSequence <;> rfl
  · simp only [ensure, if_neg hpoison]
    rfl

/-- The anchor and the store decide what is loaded. -/
theorem Loads.loaded_eq (h : Loads reads s chain loaded) (h' : Loads reads s chain' loaded') : loaded = loaded' := by
  obtain ⟨-, ⟨state, hread, -, hchain, hanchor⟩, hrecovery, hindex, -⟩ := h
  obtain ⟨-, ⟨state', hread', -, hchain', hanchor'⟩, hrecovery', hindex', -⟩ := h'
  cases hread.symm.trans hread'
  cases hchain.symm.trans hchain'
  obtain ⟨_, _, _, _⟩ := loaded
  obtain ⟨_, _, _, _⟩ := loaded'
  cases hrecovery.symm.trans hrecovery'
  cases hindex.symm.trans hindex'
  cases hanchor.trans hanchor'.symm
  rfl

/-- A reload that does not get to the write changes nothing. -/
theorem atomically_of_not_loads (h : ∀ chain loaded, ¬Loads reads s chain loaded) :
    Atomically (loadChainFromAnchor reads) s fun result s' => result = none ∧ s' = s ∧ reads.readV3 = .ok none := by
  refine .bind_check fun _ hclaim => .bind_check fun first hread => ?_
  rw [mapError_eq_ok] at hread
  cases first with
  | none => exact ⟨rfl, rfl, hread⟩
  | some state =>
    refine .bind_check fun chain hchain => .bind_check fun recovery hrecovery => .bind_check fun index hindex =>
      .bind_check fun current hreread => .bind_check fun _ hcurrent => .bind_get (.bind_check fun _ hlock => ?_)
    simp only [mapError_eq_ok, ensure_eq_ok] at hchain hrecovery hindex hreread hcurrent hlock
    subst hcurrent
    exact absurd ⟨hclaim, ⟨state, hread, hreread, hchain, rfl⟩, hrecovery, hindex, hlock⟩
      (h chain ⟨recovery, index.1, index.2, some state⟩)

/-- **When a reload is all or nothing**: exactly when the overlay can be reset, or every state that the reload gets to
write is the accepted one already. -/
theorem reload_all_or_nothing (reads : ReloadReads) (s : ReloadService) :
    AllOrNothing reads s ↔ s.Resettable ∨ ∀ chain loaded, Loads reads s chain loaded → loaded = s.accepted := by
  by_cases hloads : ∃ chain loaded, Loads reads s chain loaded
  · obtain ⟨chain, loaded, h⟩ := hloads
    have hsame : (∀ chain loaded, Loads reads s chain loaded → loaded = s.accepted) ↔ loaded = s.accepted :=
      ⟨fun hall => hall chain loaded h, fun heq _ _ h' => (h.loaded_eq h').symm.trans heq⟩
    rw [AllOrNothing, h.run_eq, hsame, ReloadService.Resettable]
    by_cases hlock : s.pendingPoisoned = false
    · by_cases hempty : s.pending.isEmpty = true
      · simp only [PendingV3State.resetToAcceptedSequence, ensure_of hempty, ok_bind, if_pos hlock]
        exact iff_of_true ⟨⟨h.claim, h.anchor, h.recovery, h.index, h.lock⟩, rfl⟩ (.inl ⟨hlock, hempty⟩)
      · simp [hlock, PendingV3State.resetToAcceptedSequence, ensure, hempty]
    · simp [hlock]
  · push Not at hloads
    refine iff_of_true ?_ (.inr fun chain loaded h => absurd h (hloads chain loaded))
    have hatomic := atomically_of_not_loads hloads
    unfold AllOrNothing
    rcases hrun : (loadChainFromAnchor reads).run s with ⟨_ | result, after⟩
    · exact congrArg ReloadService.accepted (hatomic.unchanged hrun)
    · obtain ⟨rfl, hsame, hread⟩ := hatomic.result hrun
      exact ⟨hsame, hread⟩

/-! ## Reloads over a staged operation -/

/-- An anchor at the genesis, whose root lists no runs. -/
def reloadReads : ReloadReads where
  claimDirectMutation := .ok ()
  readV3 := .ok (some (budgetGenesis.anchorState budgetFormatRef))
  store := [budgetGenesis]
  limits := .default
  replayRecoveryHistory _ := .ok none
  prf := textPrf
  keyring := oneKeyRing
  profile := .dev
  applyIndexRoot _ _ _ root := .ok ({ RepositoryState.default with nextSequence := root.coveredGeneration }, root.runs)
  rereadV3 := .ok (some (budgetGenesis.anchorState budgetFormatRef))

/-- What the genesis replays to. -/
def genesisState : ReloadedState :=
  ⟨none, { RepositoryState.default with nextSequence := budgetRoot.coveredGeneration }, [],
    some (budgetGenesis.anchorState budgetFormatRef)⟩

/-- A service with one staged operation. -/
def reloadService (accepted : ReloadedState) : ReloadService :=
  ⟨accepted, false, (PendingV3State.new 0).appended [overlayTombstone 1] none none, false⟩

theorem reloadReads_loads (accepted : ReloadedState) :
    Loads reloadReads (reloadService accepted) [budgetGenesis] genesisState := by
  have hstore : ∀ commit ∈ [budgetGenesis],
      readCommitFactsAt [budgetGenesis] commit.header.selfRef.commitKey commit.versionId = .ok commit := by
    rw [List.forall_mem_singleton]
    rfl
  have hfits : V3ReplayLimits.default.Fits [budgetGenesis] := by decide +kernel
  refine ⟨rfl, ⟨_, rfl, rfl, ?_, rfl⟩, rfl, rfl, rfl⟩
  exact (loadReplayChainFromState_accepted ⟨by decide, by decide⟩ (.root budgetGenesis_written rfl) hstore rfl).trans
    (if_pos hfits)

/-- A service that already shows the genesis keeps it, although the reset is refused. -/
theorem reload_of_accepted_genesis : AllOrNothing reloadReads (reloadService genesisState) :=
  (reload_all_or_nothing _ _).mpr (.inr fun _ _ h => h.loaded_eq (reloadReads_loads genesisState))

/-- Over a staged operation the refused reset reports an error after the accepted state was replaced. -/
theorem reload_error_replaces_accepted :
    let service := reloadService ⟨none, .default, [], none⟩
    let (result, after) := (loadChainFromAnchor reloadReads).run service
    result = .error (.commitFailed "cannot reset a non-empty v03 staging overlay") ∧
      service.accepted.anchor = none ∧ after.accepted.anchor = some (budgetGenesis.anchorState budgetFormatRef) := by
  intro service
  rw [(reloadReads_loads ⟨none, .default, [], none⟩).run_eq]
  exact ⟨rfl, rfl, rfl⟩

end Rs3.Service
