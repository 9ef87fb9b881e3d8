/-
# Rs3.Maintenance.IoBudget — the metered store of maintenance planning.

A charge holds the write lock of the usage from its first read to its last write and cannot panic there, so calls that
run at the same time are some list of charges.
-/
import Rs3.Maintenance.PlanDigest

namespace Rs3.Maintenance

/-- The I/O of one plan. -/
structure V3MaintenanceIoUsage where
  requestCount : ℕ := 0
  versionListCount : ℕ := 0
  headCount : ℕ := 0
  rangeReadBytes : ℕ := 0
  listPageCount : ℕ := 0
  exhausted : Bool := false

inductive BlobListMode where
  | current
  | versions
  deriving DecidableEq

def budgetAllows (limit : Option ℕ) (value : ℕ) : Bool := limit.all (value ≤ ·)

variable (budgets : V3PlanBudgets) (usage : V3MaintenanceIoUsage)

/-- The failure that exhausts a usage: its error is `maintenance_budget_storage_error`. -/
def exhaust : Except String Unit × V3MaintenanceIoUsage :=
  (.error "maintenance I/O budget exhausted", { usage with exhausted := true })

/-- `charge_maintenance_io`: the result, and the usage that it leaves. -/
def chargeMaintenanceIo (requestCount headCount rangeReadBytes : ℕ) (listMode : Option BlobListMode) :
    Except String Unit × V3MaintenanceIoUsage :=
  -- an exhausted usage stays as it is
  if usage.exhausted then exhaust usage
  else
    let next : Option V3MaintenanceIoUsage := do
      let requestCount ← checkedAdd 64 usage.requestCount requestCount
      let headCount ← checkedAdd 64 usage.headCount headCount
      let rangeReadBytes ← checkedAdd 64 usage.rangeReadBytes rangeReadBytes
      let listPageCount ← checkedAdd 64 usage.listPageCount listMode.isSome.toNat
      let versionListCount ← checkedAdd 64 usage.versionListCount (listMode == some .versions).toNat
      return { requestCount, headCount, rangeReadBytes, listPageCount, versionListCount }
    match next with
    | none => exhaust usage
    | some next =>
      if !budgetAllows budgets.maxRequestCount next.requestCount || !budgetAllows budgets.maxHeadCount next.headCount ||
          !budgetAllows budgets.maxRangeReadBytes next.rangeReadBytes ||
          decide (next.listPageCount > budgets.maxInventoryPageCount) ||
          !budgetAllows budgets.maxVersionListCount next.versionListCount then exhaust usage
      else (.ok (), next)

/-- What the store operations do to the usage: `charge`, `charge_range_read_bytes` and a page of a listing charge it, a
range that is a whole object meets `reject_unbounded_read`. -/
inductive MeteredCall where
  | charge (requestCount headCount rangeReadBytes : ℕ) (listMode : Option BlobListMode)
  | rejectUnboundedRead

def MeteredCall.run : MeteredCall → Except String Unit × V3MaintenanceIoUsage
  | charge requestCount headCount rangeReadBytes listMode =>
    chargeMaintenanceIo budgets usage requestCount headCount rangeReadBytes listMode
  | rejectUnboundedRead => exhaust usage

def usageAfter (calls : List MeteredCall) : V3MaintenanceIoUsage :=
  calls.foldl (fun usage call => (call.run budgets usage).2) {}

/-! ## What a call leaves -/

/-- Every counter is at most its budget. -/
structure V3MaintenanceIoUsage.Within : Prop where
  requestCount : ∀ limit ∈ budgets.maxRequestCount, usage.requestCount ≤ limit
  headCount : ∀ limit ∈ budgets.maxHeadCount, usage.headCount ≤ limit
  rangeReadBytes : ∀ limit ∈ budgets.maxRangeReadBytes, usage.rangeReadBytes ≤ limit
  listPageCount : usage.listPageCount ≤ budgets.maxInventoryPageCount
  versionListCount : ∀ limit ∈ budgets.maxVersionListCount, usage.versionListCount ≤ limit

/-- The counters with a charge, whatever the budgets. -/
def MeteredCall.charged : MeteredCall → Option V3MaintenanceIoUsage
  | charge requestCount headCount rangeReadBytes listMode => some
    { requestCount := usage.requestCount + requestCount
      headCount := usage.headCount + headCount
      rangeReadBytes := usage.rangeReadBytes + rangeReadBytes
      listPageCount := usage.listPageCount + listMode.isSome.toNat
      versionListCount := usage.versionListCount + (listMode == some .versions).toNat }
  | rejectUnboundedRead => none

/-- A charge takes effect as a whole and within the budgets, or it fails and only marks the usage as exhausted. -/
theorem MeteredCall.run_cases (call : MeteredCall) :
    (usage.exhausted = false ∧ ∃ charged, call.charged usage = some charged ∧ charged.Within budgets ∧
      call.run budgets usage = (.ok (), charged)) ∨ call.run budgets usage = exhaust usage := by
  cases call with
  | rejectUnboundedRead => exact .inr rfl
  | charge requestCount headCount rangeReadBytes listMode =>
    simp only [MeteredCall.run, chargeMaintenanceIo]
    split
    · exact .inr rfl
    · rename_i hopen
      split
      · exact .inr rfl
      · rename_i next hnext
        simp only [Option.bind_eq_bind, Option.bind_eq_some_iff, checkedAdd_eq_some, Option.pure_def,
          Option.some.injEq] at hnext
        obtain ⟨_, ⟨-, rfl⟩, _, ⟨-, rfl⟩, _, ⟨-, rfl⟩, _, ⟨-, rfl⟩, _, ⟨-, rfl⟩, rfl⟩ := hnext
        split
        · exact .inr rfl
        · rename_i hwithin
          simp only [budgetAllows, Bool.or_eq_true, Bool.not_eq_true', decide_eq_true_eq, not_or, Bool.not_eq_false,
            Option.all_eq_true, Nat.not_lt] at hwithin
          obtain ⟨⟨⟨⟨hrequest, hhead⟩, hrange⟩, hpages⟩, hversions⟩ := hwithin
          exact .inl ⟨Bool.eq_false_iff.mpr hopen, _, rfl, ⟨hrequest, hhead, hrange, hpages, hversions⟩, rfl⟩

theorem MeteredCall.run_exhausted (call : MeteredCall) : call.run budgets (exhaust usage).2 = exhaust usage := by
  rcases call.run_cases budgets (exhaust usage).2 with ⟨hopen, -⟩ | h
  · cases hopen
  · exact h

/-- Maintenance budgets are never exceeded, whatever calls come in whatever order.  After any calls every counter is at
most its budget; a charge that would exceed one fails and leaves all counters; and after a failure every further call
fails and leaves the usage of that failure. -/
theorem maintenance_io_budgets_hold (budgets : V3PlanBudgets) :
    (∀ calls, (usageAfter budgets calls).Within budgets) ∧
    (∀ (call : MeteredCall) usage, (∀ charged ∈ call.charged usage, ¬charged.Within budgets) →
      call.run budgets usage = exhaust usage) ∧
    ∀ calls (call : MeteredCall), (call.run budgets (usageAfter budgets calls)).1 ≠ .ok () → ∀ more (next : MeteredCall),
      next.run budgets (usageAfter budgets (calls ++ call :: more)) = exhaust (usageAfter budgets calls) := by
  refine ⟨fun calls => ?_, fun call usage hexceeds => ?_, fun calls call hfailed more next => ?_⟩
  · refine List.foldlRecOn calls _ ?_ fun usage hwithin call _ => ?_
    · exact ⟨fun _ _ => Nat.zero_le _, fun _ _ => Nat.zero_le _, fun _ _ => Nat.zero_le _, Nat.zero_le _,
        fun _ _ => Nat.zero_le _⟩
    · rcases call.run_cases budgets usage with ⟨-, charged, -, hcharged, h⟩ | h
      · rw [h]
        exact hcharged
      · rw [h]
        exact { hwithin with }
  · rcases call.run_cases budgets usage with ⟨-, charged, hcharged, hwithin, -⟩ | h
    · exact absurd hwithin (hexceeds charged hcharged)
    · exact h
  · rcases call.run_cases budgets (usageAfter budgets calls) with ⟨-, charged, -, -, h⟩ | h
    · rw [h] at hfailed
      exact absurd rfl hfailed
    · have hafter : usageAfter budgets (calls ++ call :: more) = (exhaust (usageAfter budgets calls)).2 := by
        rw [usageAfter, List.foldl_append, List.foldl_cons]
        refine List.foldlRecOn (motive := (· = (exhaust (usageAfter budgets calls)).2)) more _ (congrArg Prod.snd h)
          fun usage husage later _ => ?_
        rw [husage, later.run_exhausted]
      rw [hafter, next.run_exhausted]

end Rs3.Maintenance
