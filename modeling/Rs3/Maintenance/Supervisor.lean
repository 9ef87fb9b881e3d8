/-
# Rs3.Maintenance.Supervisor — when the supervisor starts its next run.

`SupervisorTask::run` (rs3-server, `maintenance.rs`) in automatic mode, without the operator's runs.  A trigger waits for
the cooldown and the failure backoff, but a renewal is then brought forward to its latest safe time.
-/
import Rs3.Recovery.ExpiryDue

namespace Rs3.Maintenance.Supervisor

/-- Saturating `i64` arithmetic. -/
def saturateI64 (x : ℤ) : ℤ := max (-2 ^ 63) (min x (2 ^ 63 - 1))

/-- `duration_ms`; a `Duration` is its number of nanoseconds. -/
def durationMs (duration : ℕ) : ℤ := min (duration / 1000000 : ℕ) (2 ^ 63 - 1)

structure Config where
  retentionConfigured : Bool
  (minCooldown maxInterval renewalHorizon renewalJitter : ℕ)

/-- What the planning reads from a report; any orphan pressure may be due. -/
structure Report where
  (nearestRetainUntilMs recoveryExpiryDueMs : Option ℤ)
  orphanPressureDue : Bool

/-- How a run ended, or was aborted. -/
inductive RunEnd
  | ok | cancelled | failed

structure SupervisorTask where
  consecutiveFailures : ℕ
  (lastFinishedAtMs backoffUntilMs startedAtMs : Option ℤ)
  /-- Of the status snapshot. -/
  nearestRetainUntilMs : Option ℤ

/-- One pass of the loop: the report (`none` is an error), the clock at the planning, and the end of a run. -/
structure Pass where
  report : Option Report
  (nowMs finishedAtMs : ℤ)
  runEnd : RunEnd

namespace SupervisorTask

variable (config : Config) (self : SupervisorTask)

def failureBackoff : ℕ :=
  let backoff := max config.minCooldown 1000000000 * 2 ^ min (self.consecutiveFailures - 1) 16
  min (min backoff (2 ^ 64 * 1000000000 - 1)) config.maxInterval

/-- The failure branch of a run, and `record_planning_failure`. -/
def recordFailure (atMs : ℤ) : SupervisorTask :=
  let self := { self with consecutiveFailures := min (self.consecutiveFailures + 1) (2 ^ 32 - 1) }
  { self with backoffUntilMs := some (saturateI64 (atMs + durationMs (self.failureBackoff config))) }

def executeRun (p : Pass) : SupervisorTask :=
  let self := { self with lastFinishedAtMs := some p.finishedAtMs }
  match p.runEnd with
  | .ok => { self with consecutiveFailures := 0, backoffUntilMs := none }
  | .failed => self.recordFailure config p.finishedAtMs
  | .cancelled => self

def nearest (report : Option Report) : Option ℤ :=
  (report.bind (·.nearestRetainUntilMs)).or self.nearestRetainUntilMs

/-- The due times, with the latest safe time of a renewal. -/
def automatic (report : Option Report) (nowMs : ℤ) : List (ℤ × Option ℤ) :=
  (if config.retentionConfigured then (self.nearest report).toList.map fun nearest =>
    let latestSafeAtMs := saturateI64 (nearest - durationMs config.renewalHorizon)
    (saturateI64 (latestSafeAtMs - durationMs config.renewalJitter), some latestSafeAtMs) else []) ++
  ((report.bind (·.recoveryExpiryDueMs)).toList.map (·, none)) ++
  (if report.any (·.orphanPressureDue) then [(nowMs, none)] else []) ++
  [(saturateI64 ((self.lastFinishedAtMs.or self.startedAtMs).getD nowMs + durationMs config.maxInterval), none)]

/-- The cooldown floor, the backoff floor, and then the renewal's ceiling. -/
def floored (trigger : ℤ × Option ℤ) : ℤ :=
  let cooldown := self.lastFinishedAtMs.map fun finished => saturateI64 (finished + durationMs config.minCooldown)
  let due := cooldown.elim trigger.1 (max trigger.1)
  let due := self.backoffUntilMs.elim due (max due)
  trigger.2.elim due (min due)

def planNextTrigger (report : Option Report) (nowMs : ℤ) : Option ℤ :=
  ((self.automatic config report nowMs).map (self.floored config)).min?

def observe (p : Pass) : SupervisorTask :=
  match p.report with
  | none => self.recordFailure config p.nowMs
  | some report => { self with nearestRetainUntilMs := report.nearestRetainUntilMs }

/-- Whether the pass starts a run rather than wait. -/
def starts (p : Pass) : Bool := ((self.observe config p).planNextTrigger config p.report p.nowMs).any (· ≤ p.nowMs)

/-- The task after some passes, and the clock values at which they started runs. -/
def run : SupervisorTask → List Pass → SupervisorTask × List ℤ
  | self, [] => (self, [])
  | self, p :: passes =>
    if self.starts config p then
      let (self, later) := run ((self.observe config p).executeRun config p) passes
      (self, p.nowMs :: later)
    else run (self.observe config p) passes

/-- A backoff past `t` is in force. -/
def BackedOff (t : ℤ) : Prop := ∃ retryAt ∈ self.backoffUntilMs, t < retryAt

/-- The latest safe time of the nearest renewal has come. -/
def RenewalOverdue (report : Option Report) (nowMs : ℤ) : Prop :=
  config.retentionConfigured ∧ ∃ nearest ∈ self.nearest report,
    saturateI64 (nearest - durationMs config.renewalHorizon) ≤ nowMs

variable {config self}

/-- Under a backoff only the ceiling of a renewal makes a trigger due. -/
theorem planned_due_iff (hself : self.BackedOff nowMs) :
    (self.planNextTrigger config report nowMs).any (· ≤ nowMs) = true ↔ self.RenewalOverdue config report nowMs := by
  obtain ⟨retryAt, hretry, hlt⟩ := hself
  have hfloored (trigger : ℤ × Option ℤ) :
      self.floored config trigger ≤ nowMs ↔ ∃ safe ∈ trigger.2, safe ≤ nowMs := by
    simp only [floored, Option.mem_def.mp hretry, Option.elim_some]
    cases trigger.2 <;> simp [hlt]
  rw [planNextTrigger, Recovery.any_min?_le]
  simp only [List.mem_map, exists_exists_and_eq_and, hfloored, automatic, RenewalOverdue]
  by_cases hconfigured : config.retentionConfigured <;> simp [hconfigured, or_and_right, exists_or]

section

variable {t : ℤ} (hinterval : 1000000 ≤ config.maxInterval) (ht : t < 2 ^ 63 - 1)

include hinterval ht

theorem backedOff_recordFailure (hat : t ≤ atMs) : (self.recordFailure config atMs).BackedOff t := by
  refine ⟨_, rfl, ?_⟩
  have hbase : 1000000000 ≤ max config.minCooldown 1000000000 *
      2 ^ min (min (self.consecutiveFailures + 1) (2 ^ 32 - 1) - 1) 16 :=
    (le_max_right _ _).trans (Nat.le_mul_of_pos_right _ (Nat.two_pow_pos _))
  simp only [saturateI64, durationMs, failureBackoff]
  omega

theorem backedOff_observe (hp : t ≤ p.nowMs) (hself : self.BackedOff t) : (self.observe config p).BackedOff t := by
  unfold observe
  split
  · exact backedOff_recordFailure hinterval ht hp
  · exact hself

/-- Passes that start no run leave a backoff in force. -/
theorem backedOff_run (hclock : ∀ p ∈ passes, t ≤ p.nowMs) (hself : self.BackedOff t)
    (hidle : (self.run config passes).2 = []) : (self.run config passes).1.BackedOff t := by
  induction passes generalizing self with
  | nil => exact hself
  | cons p passes ih =>
    rw [List.forall_mem_cons] at hclock
    rw [run] at hidle ⊢
    split at hidle
    · exact absurd hidle (List.cons_ne_nil _ _)
    · rename_i hwaits
      rw [if_neg hwaits]
      exact ih hclock.2 (backedOff_observe hinterval ht hclock.1 hself) hidle

end

/-- **Failing maintenance is paced, but for overdue renewals.**  A pass at clock value `t` whose own report fails, or
that comes after a failure at `t` and passes that started nothing, starts a run exactly when a renewal is overdue; every
other run after the failure starts at a later clock value. -/
theorem failing_maintenance_paced (config : Config) (hinterval : 1000000 ≤ config.maxInterval) (t : ℤ)
    (ht : t < 2 ^ 63 - 1) (self : SupervisorTask) (p : Pass) (hp : p.nowMs = t) :
    (p.report = none → (self.starts config p = true ↔ (self.observe config p).RenewalOverdue config none t)) ∧
    ∀ passes : List Pass, (∀ q ∈ passes, t ≤ q.nowMs) → ((self.recordFailure config t).run config passes).2 = [] →
      let waiting := ((self.recordFailure config t).run config passes).1
      waiting.starts config p = true ↔ (waiting.observe config p).RenewalOverdue config p.report t := by
  constructor
  · intro hreport
    have hfailed : (self.observe config p).BackedOff t := by
      rw [observe, hreport]
      exact backedOff_recordFailure hinterval ht hp.ge
    rw [starts, hp, ← hreport]
    exact planned_due_iff hfailed
  · intro passes hclock hidle waiting
    have hwaiting := backedOff_run hinterval ht hclock (backedOff_recordFailure hinterval ht le_rfl) hidle
    rw [starts, hp]
    exact planned_due_iff (backedOff_observe hinterval ht hp.ge hwaiting)

/-- Ten seconds of cooldown, an hour between runs, a week of horizon. -/
def sampleConfig : Config := ⟨true, 10000000000, 3600000000000, 604800000000000, 0⟩

/-- A pass at clock value 0 that would end in a failed run. -/
def failingPass (report : Option Report) : Pass := ⟨report, 0, 0, .failed⟩

/-- A report with this nearest deadline and nothing else due. -/
def deadlineReport (nearest : ℤ) : Report := ⟨some nearest, none, false⟩

/-- A task that has started, with a deadline a year away. -/
def sampleTask : SupervisorTask := ⟨0, none, none, some 0, some 31536000000⟩

/-- After a failure and an idle pass, a deadline inside the horizon starts a run at once; with the distant deadline a
failed report starts nothing, neither later nor in the first pass. -/
theorem failing_maintenance_paced_sample :
    let waiting := (run sampleConfig (sampleTask.recordFailure sampleConfig 0)
      [failingPass (some (deadlineReport 31536000000))]).1
    waiting.starts sampleConfig (failingPass (some (deadlineReport 3600000))) = true ∧
      waiting.starts sampleConfig (failingPass none) = false ∧
      sampleTask.starts sampleConfig (failingPass none) = false := by
  have hpaced (report : Option Report) :=
    failing_maintenance_paced sampleConfig (by decide) 0 (by decide) sampleTask (failingPass report) rfl
  have hidle : (run sampleConfig (sampleTask.recordFailure sampleConfig 0)
      [failingPass (some (deadlineReport 31536000000))]).2 = [] := by decide
  have hlater (report : Option Report) := (hpaced report).2 _ (by simp [failingPass]) hidle
  refine ⟨(hlater _).mpr ⟨rfl, 3600000, rfl, by decide⟩, ?_, ?_⟩
  · refine Bool.eq_false_iff.mpr fun hstarts => ?_
    obtain ⟨-, nearest, ⟨⟩, hdue⟩ := (hlater none).mp hstarts
    exact absurd hdue (by decide)
  · refine Bool.eq_false_iff.mpr fun hstarts => ?_
    obtain ⟨-, nearest, ⟨⟩, hdue⟩ := ((hpaced none).1 rfl).mp hstarts
    exact absurd hdue (by decide)

/-- Three renewals fail and start again at one clock value, the last two after failed reports. -/
theorem overdue_renewal_unpaced :
    (run sampleConfig ⟨0, none, none, none, none⟩ [failingPass (some ⟨some 3600000, none, false⟩),
      failingPass none, failingPass none]).2 = [0, 0, 0] := by
  decide

end SupervisorTask
end Rs3.Maintenance.Supervisor
