/-
# Rs3.Index.NewestReceipts — which completion results a table still holds.

`CompletionReceipts::insert` of `completion.rs` on a table that is changed in place, over any run of accepted and
rejected inserts.  What is held at the end depends on the set of accepted receipts only: it is the newest 1,024 of them.
-/
import Rs3.Index.CompletionHistory
import Rs3.Lib.Newest

namespace Rs3.Index.CompletionReceipts

open List CompletionReceipts

/-- `insert(&mut self)`: the result and the table it leaves.  The last error would come after the change. -/
def insertInPlace (receipts : CompletionReceipts) (receipt : CompletionReceipt) :
    Except CompletionReceiptError Unit × CompletionReceipts :=
  if receipts.validateInsert receipt then
    let entries := receipts.entries.insert receipt.uploadId receipt
    if maxCompletionReceipts < entries.size then
      match oldest (mk entries).iter with
      | some evicted => (.ok (), ⟨entries.erase evicted.uploadId⟩)
      | none => (.error .invalid, ⟨entries⟩)
    else (.ok (), ⟨entries⟩)
  else (.error .invalid, receipts)

/-- The table after a run of inserts, and those of the run that were accepted. -/
def insertRun : CompletionReceipts → List CompletionReceipt → CompletionReceipts × List CompletionReceipt
  | receipts, [] => (receipts, [])
  | receipts, receipt :: rest =>
    match receipts.insertInPlace receipt with
    | (.ok (), next) => ((next.insertRun rest).1, receipt :: (next.insertRun rest).2)
    | (.error _, next) => next.insertRun rest

/-- No two share an upload or a sequence. -/
def Compatible (run : List CompletionReceipt) : Prop :=
  (∀ receipt ∈ run, receipt.validate = true) ∧ ∀ a ∈ run, ∀ b ∈ run,
    a.uploadId = b.uploadId ∨ a.commitSequence = b.commitSequence → a = b

variable {receipts receipts' : CompletionReceipts} {receipt : CompletionReceipt} {run : List CompletionReceipt}

theorem exists_oldest (receipts : CompletionReceipts) (receipt : CompletionReceipt) :
    ∃ evicted, oldest (receipts.inserted receipt).iter = some evicted := by
  refine Option.ne_none_iff_exists'.mp fun hnone => ?_
  have hmem : receipt ∈ (receipts.inserted receipt).iter :=
    mem_iter.mpr ⟨receipt.uploadId, Std.ExtTreeMap.getElem?_insert_self⟩
  rw [oldest_eq_none hnone] at hmem
  cases hmem

/-- The error after the change never happens. -/
theorem insertInPlace_eq {receipts : CompletionReceipts} :
    receipts.insertInPlace receipt = match receipts.insert receipt with
      | some next => (.ok (), next)
      | none => (.error .invalid, receipts) := by
  obtain ⟨evicted, holdest⟩ := exists_oldest receipts receipt
  unfold inserted at holdest
  unfold insertInPlace insert
  simp only [holdest]
  split_ifs <;> rfl

theorem exists_insert (h : receipts.validateInsert receipt = true) : ∃ next, receipts.insert receipt = some next := by
  obtain ⟨evicted, holdest⟩ := exists_oldest receipts receipt
  unfold inserted at holdest
  unfold insert
  simp only [h, holdest, if_true]
  split_ifs
  · exact ⟨_, rfl⟩
  · exact ⟨_, rfl⟩

def held (receipts : CompletionReceipts) : Finset CompletionReceipt := receipts.iter.toFinset

theorem mem_held (h : Valid receipts.entries) :
    receipt ∈ receipts.held ↔ receipts.get receipt.uploadId = some receipt := by
  rw [held, mem_toFinset, mem_iter]
  constructor
  · rintro ⟨id, hid⟩
    rw [h.selfKeyed id receipt hid]
    exact hid
  · intro hget
    exact ⟨_, hget⟩

theorem card_held (h : Valid receipts.entries) : receipts.held.card = receipts.entries.size := by
  rw [held, toFinset_card_of_nodup (nodup_iter h), iter, length_map, Std.ExtTreeMap.length_toList]

theorem eq_of_held_eq (h : Valid receipts.entries) (h' : Valid receipts'.entries) (heq : receipts.held = receipts'.held) :
    receipts = receipts' := by
  have hsub : ∀ {s t : CompletionReceipts}, Valid s.entries → Valid t.entries → s.held = t.held →
      ∀ id receipt, s.get id = some receipt → t.get id = some receipt := by
    intro s t hs ht hst id receipt hget
    obtain rfl := hs.selfKeyed id receipt hget
    exact (mem_held ht).mp (hst ▸ (mem_held hs).mpr hget)
  obtain ⟨entries⟩ := receipts
  obtain ⟨entries'⟩ := receipts'
  congr 1
  refine Std.ExtTreeMap.ext_getElem? fun id => ?_
  exact Option.ext fun receipt => ⟨hsub h h' heq id receipt, hsub h' h heq.symm id receipt⟩

theorem held_insert (h : Valid receipts.entries) (hwf : receipt.WellFormed)
    (hcheck : receipts.validateInsert receipt = true) :
    (receipts.inserted receipt).held = Insert.insert receipt receipts.held := by
  ext other
  rw [mem_held (h.insert hwf hcheck), Finset.mem_insert, mem_held h, get_inserted_eq_some]
  simp only [validateInsert, Bool.and_eq_true] at hcheck
  by_cases hid : receipt.uploadId = other.uploadId
  · -- an entry of the same upload is the receipt itself
    have hsame : receipts.get other.uploadId = some other → other = receipt := by
      intro hold
      have hchecked := hcheck.1.2
      rw [hid, hold] at hchecked
      exact of_decide_eq_true hchecked
    grind
  · grind

theorem held_erase (h : Valid receipts.entries) (hreceipt : receipt ∈ receipts.held) :
    (receipts.erased receipt.uploadId).held = receipts.held.erase receipt := by
  ext other
  rw [mem_held (h.erase _), Finset.mem_erase, mem_held h, get_erased_eq_some]
  have hget := (mem_held h).mp hreceipt
  refine and_congr_left fun hother => not_congr ⟨fun hid => ?_, fun heq => heq ▸ rfl⟩
  rw [← hid, hget] at hother
  exact (Option.some.inj hother).symm

/-- What holds of the table and of all receipts it accepted. -/
structure Holds (accepted : Finset CompletionReceipt) (receipts : CompletionReceipts) : Prop where
  valid : Valid receipts.entries
  newest : Newest maxCompletionReceipts (fun receipt => receipt.commitSequence.get) accepted receipts.held

theorem Holds.insert (h : Holds accepted receipts) (hwf : receipt.WellFormed)
    (hinsert : receipts.insert receipt = some receipts') : Holds (Insert.insert receipt accepted) receipts' := by
  have hsize : receipts.entries.size ≤ maxCompletionReceipts := card_held h.valid ▸ h.newest.card_le
  refine ⟨(valid_insert h.valid hsize hwf hinsert).1, ?_⟩
  obtain ⟨hcheck, hcases⟩ := insert_cases hinsert
  have hinserted := h.valid.insert hwf hcheck
  have hheld := held_insert h.valid hwf hcheck
  rw [← card_held hinserted, hheld] at hcases
  obtain ⟨hroom, rfl⟩ | ⟨hfull, evicted, holdest, rfl⟩ := hcases
  · rw [hheld]
    exact h.newest.insert_of_card_le hroom
  · have hmem := mem_toFinset.mpr (oldest_mem holdest)
    rw [held_erase hinserted hmem, hheld]
    refine h.newest.insert_erase hfull (hheld ▸ hmem) ?_ ?_
    · intro other hother
      rw [← hheld] at hother
      exact oldest_le holdest other (mem_toFinset.mp hother)
    · intro a ha b hb hseq
      rw [← hheld, Finset.mem_coe, mem_held hinserted] at ha hb
      have hid := hinserted.sequences _ _ a b ha hb (U64.ext hseq)
      rw [hid] at ha
      exact Option.some.inj (ha.symm.trans hb)

theorem Holds.insertRun (h : Holds accepted receipts) (hwf : ∀ receipt ∈ run, receipt.WellFormed) :
    Holds (accepted ∪ (receipts.insertRun run).2.toFinset) (receipts.insertRun run).1 := by
  induction run generalizing receipts accepted with
  | nil =>
    rw [insertRun, toFinset_nil, Finset.union_empty]
    exact h
  | cons receipt rest ih =>
    have hrest : ∀ later ∈ rest, later.WellFormed := fun later hlater => hwf later (mem_cons_of_mem _ hlater)
    rw [insertRun, insertInPlace_eq]
    cases hinsert : receipts.insert receipt with
    | none => exact ih h hrest
    | some next =>
      have hnext := ih (h.insert (hwf receipt mem_cons_self) hinsert) hrest
      rw [Finset.insert_union, ← Finset.union_insert, ← toFinset_cons] at hnext
      exact hnext

theorem Holds.insertRun_compatible (h : Holds seen.toFinset receipts)
    (hwf : ∀ receipt ∈ run, receipt.WellFormed) (hcompatible : Compatible (seen ++ run)) :
    (receipts.insertRun run).2 = run := by
  induction run generalizing receipts seen with
  | nil => rfl
  | cons receipt rest ih =>
    have hhere : receipt ∈ seen ++ receipt :: rest := mem_append_right _ mem_cons_self
    -- whatever the table holds was seen before
    have hold : ∀ old ∈ receipts.held, old.uploadId = receipt.uploadId ∨ old.commitSequence = receipt.commitSequence →
        old = receipt := fun old hmem => hcompatible.2 old
      (mem_append_left _ (mem_toFinset.mp (h.newest.subset hmem))) receipt hhere
    have hvalidate : receipts.validateInsert receipt = true := by
      simp only [validateInsert, Bool.and_eq_true, all_eq_true, Bool.or_eq_true, decide_eq_true_eq]
      refine ⟨⟨hcompatible.1 receipt hhere, ?_⟩, fun old hmem => ?_⟩
      · rw [Option.all_eq_true]
        intro old hget
        have hid := h.valid.selfKeyed _ old hget
        exact decide_eq_true (hold old ((mem_held h.valid).mpr (hid ▸ hget)) (.inl hid))
      · by_cases hseq : old.commitSequence = receipt.commitSequence
        · exact .inr (hold old (mem_toFinset.mpr hmem) (.inr hseq))
        · exact .inl hseq
    obtain ⟨next, hinsert⟩ := exists_insert hvalidate
    have hnext : Holds (seen ++ [receipt]).toFinset next := by
      rw [toFinset_append, toFinset_cons, toFinset_nil, insert_empty_eq, Finset.union_comm]
      exact h.insert (hwf receipt mem_cons_self) hinsert
    rw [CompletionReceipts.insertRun, insertInPlace_eq, hinsert]
    show receipt :: (next.insertRun rest).2 = _
    rw [ih hnext (fun later hlater => hwf later (mem_cons_of_mem _ hlater)) (by simpa using hcompatible)]

theorem holds_default : Holds ∅ .default := ⟨Valid.empty, Newest.empty⟩

/-- A table keeps exactly the newest results.  After any run of inserts, some accepted and some not: it holds the 1,024
accepted receipts of highest commit sequence; any other run that accepted the same receipts left the same table, and
compatible receipts are all accepted in whatever order they come; a rejected insert changes nothing; a lookup finds
exactly what is held; and the table opened from its own snapshot is the same one. -/
theorem newest_receipts_retained (run : List CompletionReceipt) (hwf : ∀ receipt ∈ run, receipt.WellFormed) :
    let table := (default.insertRun run).1
    let accepted := (default.insertRun run).2
    Newest maxCompletionReceipts (fun receipt => receipt.commitSequence.get) accepted.toFinset table.held ∧
    (∀ other : List CompletionReceipt, (∀ receipt ∈ other, receipt.WellFormed) →
      (default.insertRun other).2.toFinset = accepted.toFinset → (default.insertRun other).1 = table) ∧
    (Compatible run → ∀ other, other.Perm run → (default.insertRun other).2 = other ∧ (default.insertRun other).1 = table) ∧
    (∀ receipt e next, table.insertInPlace receipt = (.error e, next) → next = table) ∧
    (∀ id receipt, table.get id = some receipt ↔ receipt ∈ table.held ∧ receipt.uploadId = id) ∧
    fromSnapshot table.iter = .ok table := by
  intro table accepted
  have hruns : ∀ other : List CompletionReceipt, (∀ receipt ∈ other, receipt.WellFormed) →
      Holds (default.insertRun other).2.toFinset (default.insertRun other).1 := by
    intro other hother
    have h := holds_default.insertRun hother
    rwa [Finset.empty_union] at h
  have hall := hruns run hwf
  have hsame : ∀ other : List CompletionReceipt, (∀ receipt ∈ other, receipt.WellFormed) →
      (default.insertRun other).2.toFinset = accepted.toFinset → (default.insertRun other).1 = table := by
    intro other hother heq
    have h := hruns other hother
    rw [heq] at h
    exact eq_of_held_eq h.valid hall.valid (h.newest.unique hall.newest)
  refine ⟨hall.newest, hsame, ?_, ?_, ?_, ?_⟩
  · intro hcompatible other hperm
    have hother : ∀ receipt ∈ other, receipt.WellFormed := fun receipt hmem => hwf receipt (hperm.mem_iff.mp hmem)
    have haccepted : (default.insertRun other).2 = other := by
      refine (show Holds ([] : List CompletionReceipt).toFinset .default from
        holds_default).insertRun_compatible hother ⟨?_, ?_⟩
      · exact fun receipt hmem => hcompatible.1 receipt (hperm.mem_iff.mp hmem)
      · exact fun a ha b hb => hcompatible.2 a (hperm.mem_iff.mp ha) b (hperm.mem_iff.mp hb)
    have hrun : accepted = run := (show Holds ([] : List CompletionReceipt).toFinset .default from
      holds_default).insertRun_compatible hwf hcompatible
    refine ⟨haccepted, hsame other hother ?_⟩
    rw [haccepted, hrun]
    exact toFinset_eq_of_perm _ _ hperm
  · intro receipt e next hinsert
    rw [insertInPlace_eq] at hinsert
    split at hinsert
    · cases hinsert
    · exact (Prod.ext_iff.mp hinsert).2.symm
  · intro id receipt
    constructor
    · intro hget
      obtain rfl := hall.valid.selfKeyed id receipt hget
      exact ⟨(mem_held hall.valid).mpr hget, rfl⟩
    · rintro ⟨hmem, rfl⟩
      exact (mem_held hall.valid).mp hmem
  · refine hall.valid.fromSnapshot_iter ?_
    rw [← card_held hall.valid]
    exact hall.newest.card_le

/-! ## One result too many -/

/-- The result of the `n`-th of a series of uploads. -/
def numberedReceipt (n : Fin 2048) : CompletionReceipt :=
  { completedReceipt with
    uploadId := Vector.ofFn fun i : Fin 32 => UInt8.ofNat (if i = 0 then n / 256 else n)
    commitSequence := ⟨n + 1, by omega⟩ }

theorem numberedReceipt_inj {n m : Fin 2048}
    (h : (numberedReceipt n).uploadId = (numberedReceipt m).uploadId ∨
      (numberedReceipt n).commitSequence = (numberedReceipt m).commitSequence) : n = m := by
  rcases h with hid | hsequence
  · have hhigh := congrArg (fun id : Digest => id[0].toNat) hid
    have hlow := congrArg (fun id : Digest => id[1].toNat) hid
    simp [numberedReceipt] at hhigh hlow
    omega
  · have := congrArg U64.get hsequence
    simp [numberedReceipt] at this
    omega

/-- The results of uploads 0 to 1,024, the newest first. -/
def numberedRun : List CompletionReceipt := ((finRange 2048).filter (· ≤ 1024)).reverse.map numberedReceipt

theorem mem_numberedRun : receipt ∈ numberedRun ↔ ∃ n ≤ (1024 : Fin 2048), numberedReceipt n = receipt := by
  simp [numberedRun]

theorem numberedRun_compatible : Compatible numberedRun := by
  constructor
  · intro receipt hmem
    obtain ⟨n, -, rfl⟩ := mem_numberedRun.mp hmem
    have hpositive : (numberedReceipt n).commitSequence ≠ 0 := fun hzero =>
      absurd (congrArg U64.get hzero) (Nat.succ_ne_zero n)
    have hkey : (numberedReceipt n).key.asStr.utf8ByteSize ≤ 1024 :=
      show onePath.asStr.utf8ByteSize ≤ 1024 by decide +kernel
    rw [CompletionReceipt.validate, show (numberedReceipt n).etag.partCount = some 2 from rfl]
    simp [hpositive, hkey, show (numberedReceipt n).checksum = none from rfl]
  · intro a ha b hb hshared
    obtain ⟨n, -, rfl⟩ := mem_numberedRun.mp ha
    obtain ⟨m, -, rfl⟩ := mem_numberedRun.mp hb
    rw [numberedReceipt_inj hshared]

theorem card_numberedRun : numberedRun.toFinset.card = 1025 := by
  have hnodup : numberedRun.Nodup :=
    ((nodup_finRange 2048).filter _ |> nodup_reverse.mpr).map fun n m h =>
      numberedReceipt_inj (.inr (congrArg CompletionReceipt.commitSequence h))
  rw [toFinset_card_of_nodup hnodup, numberedRun, length_map, length_reverse]
  decide +kernel

/-- With 1,025 results the first is gone and the last is found, in whatever order they came; another result for the
last upload is refused, and the snapshot gives the table back. -/
theorem numbered_receipts_retained :
    let table := (default.insertRun numberedRun).1
    table.held.card = 1024 ∧ numberedReceipt 0 ∉ table.held ∧
      table.get (numberedReceipt 1024).uploadId = some (numberedReceipt 1024) ∧
      (default.insertRun numberedRun.reverse).1 = table ∧
      table.insertInPlace { numberedReceipt 1024 with contentLen := 1 } = (.error .invalid, table) ∧
      fromSnapshot table.iter = .ok table := by
  have hwf : ∀ receipt ∈ numberedRun, receipt.WellFormed := by
    intro receipt hmem
    obtain ⟨n, -, rfl⟩ := mem_numberedRun.mp hmem
    exact ⟨Nat.two_pow_pos 64, Nat.le_of_ble_eq_true rfl, fun _ h => by cases h⟩
  obtain ⟨hnewest, -, hanyOrder, -, hget, hsnapshot⟩ := newest_receipts_retained numberedRun hwf
  rw [(hanyOrder numberedRun_compatible numberedRun (.refl _)).1] at hnewest
  intro table
  have hrank : ∀ receipt ∈ numberedRun.toFinset, 1 ≤ receipt.commitSequence.get ∧ receipt.commitSequence.get ≤ 1025 := by
    intro receipt hmem
    obtain ⟨n, hn, rfl⟩ := mem_numberedRun.mp (mem_toFinset.mp hmem)
    exact ⟨Nat.le_add_left 1 n, Nat.succ_le_succ hn⟩
  have hmem : ∀ n ≤ (1024 : Fin 2048), numberedReceipt n ∈ numberedRun.toFinset := fun n hn =>
    mem_toFinset.mpr (mem_numberedRun.mpr ⟨n, hn, rfl⟩)
  -- something is gone, and it is older than everything held
  obtain ⟨gone, hgone, hmissing⟩ := Finset.exists_mem_notMem_of_card_lt_card
    (show table.held.card < numberedRun.toFinset.card by
      rw [card_numberedRun]
      exact Nat.lt_succ_of_le hnewest.card_le)
  have hcard : table.held.card = 1024 := hnewest.full gone hgone hmissing
  have hfirst : numberedReceipt 0 ∉ table.held := fun hheld =>
    absurd (hnewest.below gone hgone hmissing _ hheld) (Nat.not_lt.mpr (hrank gone hgone).1)
  have hlast : numberedReceipt 1024 ∈ table.held := by
    by_contra hmissing
    obtain ⟨receipt, hheld⟩ := Finset.card_pos.mp (show 0 < table.held.card by omega)
    exact absurd (hnewest.below _ (hmem 1024 le_rfl) hmissing _ hheld) (Nat.not_lt.mpr (hrank _ (hnewest.subset hheld)).2)
  have hfound : table.get (numberedReceipt 1024).uploadId = some (numberedReceipt 1024) :=
    (hget _ _).mpr ⟨hlast, rfl⟩
  refine ⟨hcard, hfirst, hfound, (hanyOrder numberedRun_compatible _ (reverse_perm _)).2, ?_, hsnapshot⟩
  -- the table knows the upload with another length
  have hother : numberedReceipt 1024 ≠ { numberedReceipt 1024 with contentLen := 1 } := fun h =>
    absurd (congrArg CompletionReceipt.contentLen h) Nat.zero_ne_one
  rw [insertInPlace, validateInsert, hfound]
  simp [hother]

end Rs3.Index.CompletionReceipts
