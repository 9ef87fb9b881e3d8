/-
# Rs3.Index.CompletionHistory — multipart completions are accepted once.

One durable history of accepted commits, and a replica that may lag behind it, lose replies and recover.  A completion
publishes only on top of the accepted anchor and only if the accepted state holds no receipt for the upload, so while the
receipt of an upload is retained no second commit for it is accepted, and a replica that is up to date answers retries
from the receipt.  A replica that lost the reply refuses retries until it has recovered.
-/
import Rs3.Index.MultipartSelection
import Rs3.Index.ReplayBudget
import Mathlib.Logic.Relation

namespace Rs3.Index

open Relation (ReflTransGen)
open V3Repository (PreparedMultipartCompletion)

/-! ## The receipt table -/

namespace CompletionReceipts

/-- Every receipt is under its own upload, and none is newer than the accepted sequence. -/
structure Accepted (receipts : CompletionReceipts) (sequence : Sequence) : Prop where
  named : ∀ {id receipt}, receipts.get id = some receipt → receipt.uploadId = id
  bounded : ∀ {id receipt}, receipts.get id = some receipt → receipt.commitSequence ≤ sequence

theorem oldest_eq_none (h : oldest receipts = none) : receipts = [] := by
  cases receipts with
  | nil => rfl
  | cons receipt rest =>
    rw [oldest] at h
    split at h
    · cases h
    · split at h <;> cases h

theorem oldest_le (h : oldest receipts = some found) :
    ∀ receipt ∈ receipts, found.commitSequence ≤ receipt.commitSequence := by
  induction receipts generalizing found with
  | nil => cases h
  | cons receipt rest ih =>
    rw [oldest] at h
    cases hrest : oldest rest with
    | none =>
      obtain rfl := oldest_eq_none hrest
      cases h
      intro other hother
      rw [List.mem_singleton.mp hother]
      exact Nat.le_refl _
    | some other =>
      rw [hrest] at h
      have hothers := ih hrest
      dsimp only at h
      split at h
      · rename_i hlt
        cases h
        exact List.forall_mem_cons.mpr ⟨Nat.le_of_lt hlt, hothers⟩
      · rename_i hge
        cases h
        refine List.forall_mem_cons.mpr ⟨Nat.le_refl _, fun entry hentry => ?_⟩
        have hle := hothers entry hentry
        rw [U64.lt_def] at hge
        rw [U64.le_def] at hle ⊢
        omega

/-- Inserting a newer receipt for an upload that has none: it is found, and another one is kept or evicted. -/
theorem Accepted.insert {receipts receipts' : CompletionReceipts} {sequence : Sequence} {receipt : CompletionReceipt}
    (h : receipts.Accepted sequence) (hnewer : sequence < receipt.commitSequence)
    (hnone : receipts.get receipt.uploadId = none) (hinsert : receipts.insert receipt = some receipts') :
    receipts'.get receipt.uploadId = some receipt ∧
      (∀ id, id ≠ receipt.uploadId → receipts'.get id = receipts.get id ∨ receipts'.get id = none) ∧
      receipts'.Accepted receipt.commitSequence := by
  have hinserted : (receipts.inserted receipt).Accepted receipt.commitSequence := by
    constructor
    · intro id found hfound
      rcases get_inserted_eq_some.mp hfound with ⟨hid, rfl⟩ | ⟨-, hold⟩
      · exact hid
      · exact h.named hold
    · intro id found hfound
      rcases get_inserted_eq_some.mp hfound with ⟨-, rfl⟩ | ⟨-, hold⟩
      · exact Nat.le_refl _
      · exact Nat.le_of_lt (Nat.lt_of_le_of_lt (h.bounded hold) hnewer)
  have hnew : (receipts.inserted receipt).get receipt.uploadId = some receipt :=
    get_inserted_eq_some.mpr (.inl ⟨rfl, rfl⟩)
  have hkept : ∀ id, id ≠ receipt.uploadId → (receipts.inserted receipt).get id = receipts.get id := fun id hid =>
    Option.ext fun found => get_inserted_eq_some.trans
      ⟨fun hfound => (hfound.resolve_left fun hsame => hid hsame.1.symm).2, fun hold => .inr ⟨Ne.symm hid, hold⟩⟩
  obtain ⟨-, ⟨-, rfl⟩ | ⟨hfull, evicted, holdest, rfl⟩⟩ := insert_cases hinsert
  · exact ⟨hnew, fun id hid => .inl (hkept id hid), hinserted⟩
  · -- the table was full, so an older receipt is there and the new one is not the oldest
    have hne : evicted.uploadId ≠ receipt.uploadId := by
      intro hsame
      have hsize : (receipts.inserted receipt).entries.size ≤ receipts.entries.size + 1 := Std.ExtTreeMap.size_insert_le
      have hlength : receipts.entries.toList.length = receipts.entries.size := Std.ExtTreeMap.length_toList
      unfold maxCompletionReceipts at hfull
      obtain ⟨⟨id, old⟩, hlisted⟩ := List.exists_mem_of_length_pos (l := receipts.entries.toList) (by omega)
      have hold : receipts.get id = some old := Std.ExtTreeMap.mem_toList_iff_getElem?_eq_some.mp hlisted
      have holdNe : receipt.uploadId ≠ id := by
        rintro rfl
        cases hnone.symm.trans hold
      have hle := oldest_le holdest old (mem_iter.mpr ⟨id, get_inserted_eq_some.mpr (.inr ⟨holdNe, hold⟩)⟩)
      obtain ⟨id', hid'⟩ := mem_iter.mp (oldest_mem holdest)
      rcases get_inserted_eq_some.mp hid' with ⟨-, rfl⟩ | ⟨hother, -⟩
      · have hbound : old.commitSequence ≤ sequence := h.bounded hold
        rw [U64.le_def] at hle hbound
        rw [U64.lt_def] at hnewer
        omega
      · exact hother (hsame.symm.trans (hinserted.named hid'))
    refine ⟨get_erased_eq_some.mpr ⟨hne, hnew⟩, fun id hid => ?_,
      fun hfound => hinserted.named (get_erased_eq_some.mp hfound).2,
      fun hfound => hinserted.bounded (get_erased_eq_some.mp hfound).2⟩
    rw [← hkept id hid]
    cases hfound : ((receipts.inserted receipt).erased evicted.uploadId).get id with
    | none => exact .inr rfl
    | some found => exact .inl (get_erased_eq_some.mp hfound).2.symm

end CompletionReceipts

/-! ## Publication of a completion -/

def V3AcceptedState.receipts (accepted : V3AcceptedState) : CompletionReceipts := accepted.repository.completionReceipts

section Publication

variable {service service' : V3Repository} {prf : Prf} {inputs : PublicationInputs} {commit : V3ReplayCommit}

/-- A batch with a receipt: it is inserted, for a commit right after the accepted one. -/
theorem publishPendingSnapshot_receipts (hreceipt : pending.completionReceipt = some receipt)
    (h : service.publishPendingSnapshot inputs pending published = .ok (service', commit)) :
    service.accepted.receipts.insert receipt = some service'.accepted.receipts ∧
      service'.accepted.anchor.sequence = receipt.commitSequence ∧
      service.accepted.anchor.sequence.checkedNext = some service'.accepted.anchor.sequence := by
  obtain ⟨sequence, packed, resolved, install, -, hwritten, -, hresolved, hinstall, hfinish⟩ :=
    V3Repository.publishPendingSnapshot_eq_ok h
  simp only [resolvePendingPackRefs, ok_iff] at hresolved
  obtain ⟨_, -, -, -, rfl⟩ := hresolved
  simp only [preparePendingInstall, ok_iff, hreceipt, installReceipts] at hinstall
  obtain ⟨-, _, -, -, _, ⟨inserted, hinserted, rfl⟩, rfl⟩ := hinstall
  obtain ⟨hsequence, rfl⟩ := V3Repository.finishPublication_eq_ok hfinish
  simp only [V3Repository.writeBatchCommit, ok_iff, Prod.mk.injEq, writeChildCommit] at hwritten
  obtain ⟨_, -, _, ⟨next, hnext, -, rfl⟩, rfl, rfl⟩ := hwritten
  exact ⟨hinserted, (hsequence _ rfl).symm, hnext⟩

theorem stagePutMetadata_accepted (h : service.stagePutMetadata prf nowMs key len options payload etag = .ok staged) :
    staged.1.accepted = service.accepted ∧ staged.2.metadata.key = key := by
  simp only [V3Repository.stagePutMetadata, ok_iff] at h
  obtain ⟨_, -, _, -, _, -, _, -, _, -, _, -, _, -, _, -, rfl⟩ := h
  exact ⟨rfl, rfl⟩

theorem publishMultipartCompletion_eq_ok
    (h : service.publishMultipartCompletion prf inputs nowMs completion = .ok (service', commit)) :
    service.accepted.receipts.get completion.id = none ∧ ∃ receipt : CompletionReceipt,
      receipt.uploadId = completion.id ∧ receipt.key = completion.key ∧
      receipt.selectionDigest = completion.selectionDigest ∧
      service.accepted.receipts.insert receipt = some service'.accepted.receipts ∧
      service'.accepted.anchor.sequence = receipt.commitSequence ∧
      service.accepted.anchor.sequence < service'.accepted.anchor.sequence := by
  simp only [V3Repository.publishMultipartCompletion, ok_iff] at h
  obtain ⟨⟨-, hnone⟩, sequence, hsequence, staged, hstaged, hpublish⟩ := h
  obtain ⟨haccepted, hkey⟩ := stagePutMetadata_accepted hstaged
  have hreceipt : (staged.1.multipartSnapshot completion sequence staged.2).completionReceipt =
      some (completion.receipt sequence staged.2) := rfl
  obtain ⟨hinsert, hcommit, hnext⟩ := publishPendingSnapshot_receipts hreceipt hpublish
  rw [haccepted] at hinsert hnext
  refine ⟨hnone, completion.receipt sequence staged.2, rfl, hkey, rfl, hinsert, hcommit, U64.lt_checkedNext hnext⟩

end Publication

/-! ## Histories -/

/-- `accepted_multipart_completion`; the local state is ready unless recovery is required. -/
def V3Repository.acceptedMultipartCompletion (service : V3Repository) (ready : Bool) (id : Digest) (key : LogicalPath)
    (selection : V3MultipartSelection) : Except RepositoryError (Option CompletionReceipt) := do
  ensure (ready = true) .acceptedRecoveryRequired
  let receipt := service.accepted.receipts.get id
  ensure ((receipt.all fun receipt => receipt.key = key ∧ receipt.selectionDigest = selection.digest) = true)
    invalidCompletion
  return receipt

/-- The durable head, with the state that the accepted commits replay to, and one replica. -/
structure CompletionSystem where
  durable : V3AcceptedState
  replica : V3Repository
  ready : Bool

/-- One step; it is labelled with the completion whose receipt the accepted commit carries, if there is one. -/
inductive CompletionStep (prf : Prf) : CompletionSystem → Option PreparedMultipartCompletion → CompletionSystem → Prop
  /-- The replica completes an upload on top of the anchor it accepted; it may not learn that the commit was accepted. -/
  | completed {s : CompletionSystem} {inputs : PublicationInputs} {nowMs : Int} {completion : PreparedMultipartCompletion}
      {service' : V3Repository} {commit : V3ReplayCommit} (learns ready : Bool) (hready : s.ready = true)
      (hanchor : s.replica.accepted.anchor = s.durable.anchor)
      (hpublish : s.replica.publishMultipartCompletion prf inputs nowMs completion = .ok (service', commit)) :
      CompletionStep prf s (some completion) ⟨service'.accepted, if learns then service' else s.replica, ready⟩
  /-- Another replica, which has replayed the durable head, completes an upload. -/
  | completedElsewhere {s : CompletionSystem} {other service' : V3Repository} {inputs : PublicationInputs} {nowMs : Int}
      {completion : PreparedMultipartCompletion} {commit : V3ReplayCommit} (hother : other.accepted = s.durable)
      (hpublish : other.publishMultipartCompletion prf inputs nowMs completion = .ok (service', commit)) :
      CompletionStep prf s (some completion) { s with durable := service'.accepted }
  /-- A commit without a receipt is accepted: a batch keeps the receipts, and a root snapshot writes them as they are. -/
  | published {s : CompletionSystem} {next : V3AcceptedState} {replica' : V3Repository} (ready : Bool)
      (hreceipts : next.receipts = s.durable.receipts) (hsequence : s.durable.anchor.sequence < next.anchor.sequence)
      (hreplica : replica'.accepted = next ∨ replica'.accepted = s.replica.accepted) :
      CompletionStep prf s none ⟨next, replica', ready⟩
  /-- Nothing is accepted: an attempt is refused or rolled back, or something is staged. -/
  | unchanged {s : CompletionSystem} {replica' : V3Repository} (ready : Bool)
      (hreplica : replica'.accepted = s.replica.accepted) :
      CompletionStep prf s none { s with replica := replica', ready := ready }
  /-- The replica replays the durable head. -/
  | recovered {s : CompletionSystem} {replica' : V3Repository} (hreplica : replica'.accepted = s.durable) :
      CompletionStep prf s none { s with replica := replica', ready := true }

/-- The durable table is that of an accepted state, and the replica is up to date or at an older anchor. -/
structure CompletionSystem.Consistent (s : CompletionSystem) : Prop where
  accepted : s.durable.receipts.Accepted s.durable.anchor.sequence
  replica : s.replica.accepted = s.durable ∨ s.replica.accepted.anchor.sequence < s.durable.anchor.sequence

def CompletionRun (prf : Prf) : CompletionSystem → CompletionSystem → Prop :=
  ReflTransGen fun s s' => ∃ label, CompletionStep prf s label s'

/-- A run during which the receipt of an upload is retained. -/
def RetainingRun (prf : Prf) (id : Digest) : CompletionSystem → CompletionSystem → Prop :=
  ReflTransGen fun s s' => (∃ label, CompletionStep prf s label s') ∧ s'.durable.receipts.get id ≠ none

section Histories

variable {prf : Prf} {s s' : CompletionSystem} {label : Option PreparedMultipartCompletion}

theorem CompletionSystem.Consistent.replica_eq (h : s.Consistent) (hanchor : s.replica.accepted.anchor = s.durable.anchor) :
    s.replica.accepted = s.durable := by
  rcases h.replica with heq | hlt
  · exact heq
  · rw [hanchor, U64.lt_def] at hlt
    exact absurd hlt (Nat.lt_irrefl _)

/-- What a step does to the receipts: a completion had none and has one now; every other receipt stays or is evicted. -/
structure ReceiptsStep (s : CompletionSystem) (label : Option PreparedMultipartCompletion)
    (s' : CompletionSystem) : Prop where
  accepted : s'.durable.receipts.Accepted s'.durable.anchor.sequence
  sequence : s.durable.anchor.sequence ≤ s'.durable.anchor.sequence
  completion : ∀ completion ∈ label, s.durable.receipts.get completion.id = none ∧ ∃ receipt,
    s'.durable.receipts.get completion.id = some receipt ∧ receipt.key = completion.key ∧
      receipt.selectionDigest = completion.selectionDigest
  others : ∀ id, (∀ completion ∈ label, completion.id ≠ id) →
    s'.durable.receipts.get id = s.durable.receipts.get id ∨ s'.durable.receipts.get id = none

/-- A step that accepts nothing, or a commit without a receipt. -/
theorem receiptsStep_none (h : s.durable.receipts.Accepted s.durable.anchor.sequence)
    (hreceipts : s'.durable.receipts = s.durable.receipts)
    (hsequence : s.durable.anchor.sequence ≤ s'.durable.anchor.sequence) : ReceiptsStep s none s' := by
  refine ⟨?_, hsequence, fun completion hnone => ?_, fun id _ => .inl (by rw [hreceipts])⟩
  · rw [hreceipts]
    exact ⟨h.named, fun hfound => Nat.le_trans (h.bounded hfound) hsequence⟩
  · cases hnone

variable {completion : PreparedMultipartCompletion}

theorem receiptsStep_completion {service service' : V3Repository}
    (h : s.durable.receipts.Accepted s.durable.anchor.sequence) (hservice : service.accepted = s.durable)
    (hdurable : s'.durable = service'.accepted)
    (hpublish : service.publishMultipartCompletion prf inputs nowMs completion = .ok (service', commit)) :
    ReceiptsStep s (some completion) s' ∧ s.durable.anchor.sequence < s'.durable.anchor.sequence := by
  obtain ⟨hnone, receipt, hid, hkey, hselection, hinsert, hcommit, hlt⟩ := publishMultipartCompletion_eq_ok hpublish
  rw [hservice] at hnone hinsert hlt
  rw [← hid] at hnone
  obtain ⟨hfound, hothers, haccepted⟩ := h.insert (hcommit ▸ hlt) hnone hinsert
  rw [← hcommit, ← hdurable] at haccepted
  rw [← hdurable] at hfound hothers hlt
  refine ⟨⟨haccepted, Nat.le_of_lt hlt, fun other hother => ?_, fun id hne => ?_⟩, hlt⟩
  · obtain rfl := Option.some.inj hother
    rw [hid] at hnone hfound
    exact ⟨hnone, receipt, hfound, hkey, hselection⟩
  · exact hothers id fun heq => hne completion rfl (hid.symm.trans heq.symm)

/-- The step lemma: every step is one of the receipts, and keeps the system consistent. -/
theorem CompletionStep.receipts (hstep : CompletionStep prf s label s') (h : s.Consistent) :
    ReceiptsStep s label s' ∧ s'.Consistent := by
  cases hstep with
  | @completed inputs nowMs completion service' commit learns ready hready hanchor hpublish =>
    have hservice := h.replica_eq hanchor
    have hcompleted : ReceiptsStep s (some completion) ⟨service'.accepted, if learns then service' else s.replica, ready⟩ ∧
        s.durable.anchor.sequence < service'.accepted.anchor.sequence :=
      receiptsStep_completion h.accepted hservice rfl hpublish
    obtain ⟨hreceipts, hlt⟩ := hcompleted
    refine ⟨hreceipts, hreceipts.accepted, ?_⟩
    cases learns with
    | true => exact .inl rfl
    | false =>
      refine .inr ?_
      show s.replica.accepted.anchor.sequence < _
      rw [hservice]
      exact hlt
  | @completedElsewhere other service' inputs nowMs completion commit hother hpublish =>
    have hcompleted : ReceiptsStep s (some completion) { s with durable := service'.accepted } ∧
        s.durable.anchor.sequence < service'.accepted.anchor.sequence :=
      receiptsStep_completion h.accepted hother rfl hpublish
    obtain ⟨hreceipts, hlt⟩ := hcompleted
    refine ⟨hreceipts, hreceipts.accepted, .inr ?_⟩
    rcases h.replica with heq | hold
    · rw [← heq] at hlt
      exact hlt
    · exact Nat.lt_trans hold hlt
  | @published next replica' ready hreceipts hsequence hreplica =>
    have hstep : ReceiptsStep s none ⟨next, replica', ready⟩ :=
      receiptsStep_none h.accepted hreceipts (Nat.le_of_lt hsequence)
    refine ⟨hstep, hstep.accepted, ?_⟩
    rcases hreplica with hnext | hsame
    · exact .inl hnext
    · refine .inr ?_
      show replica'.accepted.anchor.sequence < _
      rw [hsame]
      rcases h.replica with heq | hold
      · rw [heq]
        exact hsequence
      · exact Nat.lt_trans hold hsequence
  | @unchanged replica' ready hreplica =>
    have hstep : ReceiptsStep s none { s with replica := replica', ready := ready } :=
      receiptsStep_none h.accepted rfl (Nat.le_refl _)
    refine ⟨hstep, hstep.accepted, ?_⟩
    rw [show ({ s with replica := replica', ready := ready } : CompletionSystem).replica.accepted = _ from hreplica]
    exact h.replica
  | @recovered replica' hreplica =>
    have hstep : ReceiptsStep s none { s with replica := replica', ready := true } :=
      receiptsStep_none h.accepted rfl (Nat.le_refl _)
    exact ⟨hstep, hstep.accepted, .inl hreplica⟩

/-- The run lemma. -/
theorem CompletionRun.consistent (hrun : CompletionRun prf s s') (h : s.Consistent) : s'.Consistent := by
  induction hrun with
  | refl => exact h
  | tail _ hstep ih =>
    obtain ⟨label, hstep⟩ := hstep
    exact (hstep.receipts ih).2

/-- While a receipt is retained, it is the same one, and no other commit for its upload is accepted. -/
theorem RetainingRun.receipt {id : Digest} {receipt : CompletionReceipt} (hrun : RetainingRun prf id s s')
    (h : s.Consistent) (hreceipt : s.durable.receipts.get id = some receipt) :
    s'.Consistent ∧ s'.durable.receipts.get id = some receipt := by
  induction hrun with
  | refl => exact ⟨h, hreceipt⟩
  | tail _ hstep ih =>
    obtain ⟨⟨label, hstep⟩, hretained⟩ := hstep
    obtain ⟨hreceipts, hconsistent⟩ := hstep.receipts ih.1
    refine ⟨hconsistent, ?_⟩
    have hother : ∀ completion ∈ label, completion.id ≠ id := by
      intro completion hcompletion heq
      have hnone := (hreceipts.completion completion hcompletion).1
      rw [heq, ih.2] at hnone
      cases hnone
    rcases hreceipts.others id hother with hkept | hevicted
    · rw [hkept, ih.2]
    · exact absurd hevicted hretained

/-- How a retry is answered from a retained receipt. -/
theorem acceptedMultipartCompletion_eq {service : V3Repository} {id : Digest} {receipt : CompletionReceipt}
    (hreceipt : service.accepted.receipts.get id = some receipt) (key : LogicalPath) (selection : V3MultipartSelection) :
    service.acceptedMultipartCompletion true id key selection =
      if receipt.key = key ∧ receipt.selectionDigest = selection.digest then .ok (some receipt)
      else .error invalidCompletion := by
  rw [V3Repository.acceptedMultipartCompletion, ensure_of rfl, ok_bind]
  simp only [hreceipt, Option.all_some, decide_eq_true_eq, ensure]
  split
  · rfl
  · rfl

/-- An upload whose receipt is retained is not published again. -/
theorem publishMultipartCompletion_error {service : V3Repository}
    (hreceipt : service.accepted.receipts.get completion.id ≠ none) (inputs : PublicationInputs) (nowMs : Int) :
    ∃ e, service.publishMultipartCompletion prf inputs nowMs completion = .error e := by
  cases hpublish : service.publishMultipartCompletion prf inputs nowMs completion with
  | error e => exact ⟨e, rfl⟩
  | ok result => exact absurd (publishMultipartCompletion_eq_ok hpublish).1 hreceipt

end Histories

/-- **Multipart completion is idempotent and bound to its selection.**  In every reachable state: a commit that carries
the receipt of an upload is accepted only if none is retained, and leaves one with its key and selection; while it is
retained, in every further run, it stays the same, no second commit for the upload is accepted and a second publication
is refused.  A retry at an up-to-date replica returns it exactly for the same key and the same request, unless SHA-256
collides, and every other retry is an error; while a replica requires recovery every retry is.  The preimage of a
selection determines the request. -/
theorem completion_idempotent (prf : Prf) (sha256 : Bytes → Digest) {start s : CompletionSystem} (hstart : start.Consistent)
    (hrun : CompletionRun prf start s) :
    (∀ s' completion, CompletionStep prf s (some completion) s' →
      s.durable.receipts.get completion.id = none ∧ ∃ receipt, s'.durable.receipts.get completion.id = some receipt ∧
        receipt.key = completion.key ∧ receipt.selectionDigest = completion.selectionDigest) ∧
      (∀ id receipt s', s.durable.receipts.get id = some receipt → RetainingRun prf id s s' →
        s'.durable.receipts.get id = some receipt ∧
        (∀ s'' completion, CompletionStep prf s' (some completion) s'' → completion.id ≠ id) ∧
        (∀ key selection, s'.ready = false →
          s'.replica.acceptedMultipartCompletion s'.ready id key selection = .error .acceptedRecoveryRequired) ∧
        (s'.replica.accepted.anchor = s'.durable.anchor →
          (∀ inputs nowMs completion, completion.id = id →
            ∃ e, s'.replica.publishMultipartCompletion prf inputs nowMs completion = .error e) ∧
          ∀ original request accepted selection key,
            V3MultipartSelection.withChecksumsAndKind sha256 original = .ok accepted →
            accepted.digest = receipt.selectionDigest →
            V3MultipartSelection.withChecksumsAndKind sha256 request = .ok selection →
            (sha256 original.preimage = sha256 request.preimage → original.preimage = request.preimage) →
            s'.ready = true → s'.replica.acceptedMultipartCompletion s'.ready id key selection =
              if receipt.key = key ∧ original.preimage = request.preimage then .ok (some receipt)
              else .error invalidCompletion)) ∧
      ∀ original request accepted selection, V3MultipartSelection.withChecksumsAndKind sha256 original = .ok accepted →
        V3MultipartSelection.withChecksumsAndKind sha256 request = .ok selection →
        original.preimage = request.preimage → original = request := by
  have hconsistent := CompletionRun.consistent hrun hstart
  refine ⟨fun s' completion hstep => (hstep.receipts hconsistent).1.completion completion rfl, ?_, ?_⟩
  · intro id receipt s' hreceipt hretaining
    obtain ⟨hconsistent', hreceipt'⟩ := RetainingRun.receipt hretaining hconsistent hreceipt
    refine ⟨hreceipt', fun s'' completion hstep heq => ?_, fun key selection hready => by rw [hready]; rfl,
      fun hanchor => ⟨?_, ?_⟩⟩
    · have hnone := ((hstep.receipts hconsistent').1.completion completion rfl).1
      rw [heq, hreceipt'] at hnone
      cases hnone
    · intro inputs nowMs completion heq
      refine publishMultipartCompletion_error ?_ inputs nowMs
      rw [hconsistent'.replica_eq hanchor, heq, hreceipt']
      simp
    · intro original request accepted selection key horiginal hdigest hrequest hfree hready
      obtain ⟨rfl, -⟩ := withChecksumsAndKind_fits horiginal
      obtain ⟨rfl, -⟩ := withChecksumsAndKind_fits hrequest
      rw [hready, acceptedMultipartCompletion_eq (by rw [hconsistent'.replica_eq hanchor]; exact hreceipt'), ← hdigest]
      have hiff : sha256 original.preimage = sha256 request.preimage ↔ original.preimage = request.preimage :=
        ⟨hfree, congrArg sha256⟩
      simp only [hiff]
  · intro original request accepted selection horiginal hrequest h
    obtain ⟨-, hcount, hparts⟩ := withChecksumsAndKind_fits horiginal
    obtain ⟨-, hcount', hparts'⟩ := withChecksumsAndKind_fits hrequest
    exact SelectionRequest.preimage_inj hcount hcount' hparts hparts' h

/-! ## An upload completed after the genesis -/

/-- A digest that tells the requests below apart. -/
def requestDigest (preimage : Bytes) : Digest := Vector.replicate 32 (preimage.foldl UInt8.add 0)

def completedUpload : Digest := Vector.replicate 32 5

def completedRequest : SelectionRequest := ⟨[⟨1, "etag", none⟩, ⟨2, "last", none⟩], none, none⟩

/-- The same parts without the last one. -/
def shorterRequest : SelectionRequest := ⟨[⟨1, "etag", none⟩], none, none⟩

def completedSelection : V3MultipartSelection := ⟨completedRequest, requestDigest completedRequest.preimage⟩

def preparedCompletion : PreparedMultipartCompletion where
  id := completedUpload
  key := onePath
  options := ⟨none, none, false, none, none⟩
  protection := (none, none)
  selectionDigest := completedSelection.digest
  attemptsDigest := Vector.replicate 32 0
  etag := ⟨Vector.replicate 16 0, 2⟩
  stored := none

def completedReceipt : CompletionReceipt where
  uploadId := completedUpload
  commitSequence := 2
  selectionDigest := completedSelection.digest
  attemptsDigest := Vector.replicate 32 0
  key := onePath
  contentLen := 0
  etag := ⟨Vector.replicate 16 0, 2⟩
  checksum := none

/-- A replica right after the genesis. -/
def genesisSystem : CompletionSystem := ⟨(budgetService .default).accepted, budgetService .default, true⟩

theorem consistent_genesisSystem : genesisSystem.Consistent := by
  have hnone (id : Digest) : genesisSystem.durable.receipts.get id = none := by
    simp [genesisSystem, budgetService, V3AcceptedState.receipts, RepositoryState.default, CompletionReceipts.get,
      CompletionReceipts.default]
  refine ⟨⟨fun {id receipt} h => ?_, fun {id receipt} h => ?_⟩, .inl rfl⟩
  · cases (hnone id).symm.trans h
  · cases (hnone id).symm.trans h

theorem exists_completed : ∃ service' commit,
    (budgetService .default).publishMultipartCompletion textPrf budgetInputs 0 preparedCompletion =
      .ok (service', commit) ∧ service'.accepted.receipts.get completedUpload = some completedReceipt := by
  have heval : ((budgetService .default).publishMultipartCompletion textPrf budgetInputs 0
      preparedCompletion).toOption.any
        (fun published => published.1.accepted.receipts.get completedUpload = some completedReceipt) = true := by
    decide +kernel
  cases hpublish : (budgetService .default).publishMultipartCompletion textPrf budgetInputs 0 preparedCompletion with
  | error e =>
    rw [hpublish] at heval
    cases heval
  | ok published =>
    rw [hpublish] at heval
    exact ⟨published.1, published.2, rfl, of_decide_eq_true heval⟩

/-- The upload is completed once; the same request is answered with the receipt, the shorter one is refused, and so is a
second publication. -/
theorem completion_idempotent_sample :
    ∃ s, CompletionRun textPrf genesisSystem s ∧ s.durable.receipts.get completedUpload = some completedReceipt ∧
      s.replica.acceptedMultipartCompletion s.ready completedUpload onePath completedSelection =
        .ok (some completedReceipt) ∧
      s.replica.acceptedMultipartCompletion s.ready completedUpload onePath
        ⟨shorterRequest, requestDigest shorterRequest.preimage⟩ = .error invalidCompletion ∧
      ∃ e, s.replica.publishMultipartCompletion textPrf budgetInputs 0 preparedCompletion = .error e := by
  obtain ⟨service', commit, hpublish, hreceipt⟩ := exists_completed
  have hrun : CompletionRun textPrf genesisSystem ⟨service'.accepted, service', true⟩ :=
    .single ⟨_, .completed true true rfl rfl hpublish⟩
  obtain ⟨-, hretained, -⟩ := completion_idempotent textPrf requestDigest consistent_genesisSystem hrun
  obtain ⟨-, -, -, hretry⟩ := hretained completedUpload completedReceipt _ hreceipt .refl
  obtain ⟨hrefused, hanswer⟩ := hretry rfl
  refine ⟨_, hrun, hreceipt, ?_, ?_, hrefused budgetInputs 0 preparedCompletion rfl⟩
  · rw [hanswer completedRequest completedRequest completedSelection completedSelection onePath (by rfl) rfl (by rfl)
      (fun _ => rfl) rfl]
    exact if_pos ⟨rfl, rfl⟩
  · have hother : requestDigest completedRequest.preimage ≠ requestDigest shorterRequest.preimage := by decide +kernel
    rw [hanswer completedRequest shorterRequest completedSelection _ onePath (by rfl) rfl (by rfl)
      (fun hsame => absurd hsame hother) rfl]
    exact if_neg fun hsame => hother (congrArg requestDigest hsame.2)

/-- The reply to the completion is lost, and so is its reconciliation: the commit with the receipt is accepted, and the
retry that names the same key and selection is refused. -/
theorem lost_completion_retry_refused :
    ∃ s, CompletionStep textPrf genesisSystem (some preparedCompletion) s ∧
      s.durable.receipts.get completedUpload = some completedReceipt ∧
      s.replica.acceptedMultipartCompletion s.ready completedUpload onePath completedSelection =
        .error .acceptedRecoveryRequired := by
  obtain ⟨service', commit, hpublish, hreceipt⟩ := exists_completed
  exact ⟨⟨service'.accepted, budgetService .default, false⟩, .completed false false rfl rfl hpublish, hreceipt, rfl⟩

end Rs3.Index
