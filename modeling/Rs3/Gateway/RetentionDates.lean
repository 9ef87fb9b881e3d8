/-
# Rs3.Gateway.RetentionDates — a client's retain-until date becomes a number of days, and days become a date again.

`put_object_retention_policy_at` and `retention_headers` of the gateway's `s3/mapping.rs`, with the clock of
`s3/object_lock.rs`.  Times are nanoseconds since the epoch.  The day count is rounded up from WHOLE seconds, so a
request a fraction of a second past a whole number of days loses that fraction, and nothing else is ever lost.  The
calendar type of the response is third-party code: `Timestamp::from` is a parameter that keeps the instant or panics.
-/
import Rs3.Recovery.Time
import Rs3.Payload.SegmentedRead

namespace Rs3.Gateway

open Index (RetentionMode RetentionPolicy divCeil)
open Recovery (fitsI64)

inductive S3ErrorCode where
  | invalidRequest
  | internalError
  deriving DecidableEq, Repr

structure S3Error where
  code : S3ErrorCode
  message : String
  deriving DecidableEq, Repr

def nanosPerSecond : Int := 1000000000

def secondsPerDay : ℕ := 86400

/-- The Object Lock fields of a put request. -/
structure PutObjectInput where
  objectLockMode : Option String
  objectLockRetainUntilDate : Option Int

def timestampSystemTime (timestamp : Int) : Except S3Error Int := do
  ensure (0 ≤ timestamp / nanosPerSecond) ⟨.invalidRequest, "timestamp is outside the supported range"⟩
  ensure (fitsI64 (timestamp / nanosPerSecond)) ⟨.invalidRequest, "timestamp is out of range"⟩
  return timestamp

def parseObjectLockMode (mode : String) : Except S3Error RetentionMode :=
  if mode = "COMPLIANCE" then .ok .compliance
  else if mode = "GOVERNANCE" then .ok .governance
  else .error ⟨.invalidRequest, "Object Lock mode is not supported"⟩

def putObjectRetentionPolicyAt (input : PutObjectInput) (now : Int) : Except S3Error (Option RetentionPolicy) :=
  match input.objectLockMode, input.objectLockRetainUntilDate with
  | none, none => .ok none
  | some mode, some retainUntil => do
    let mode ← parseObjectLockMode mode
    let retainUntil ← timestampSystemTime retainUntil
    ensure (now ≤ retainUntil) ⟨.invalidRequest, "Object Lock retain-until date must be in the future"⟩
    -- `Duration::as_secs` drops the fraction before the days are rounded up
    let seconds := ((retainUntil - now) / nanosPerSecond).toNat
    let retainDays := max (divCeil seconds secondsPerDay) 1
    ensure (retainDays < 2 ^ 32) ⟨.invalidRequest, "Object Lock retain-until date exceeds the supported range"⟩
    return some ⟨mode, retainDays⟩
  | _, _ => .error ⟨.invalidRequest, "Object Lock mode and retain-until date must be provided together"⟩

/-- Why a handler returns no headers. -/
inductive HeaderFailure where
  | s3 (error : S3Error)
  | panic
  deriving DecidableEq, Repr

/-- `Timestamp::from(SystemTime)`; `none` is its panic, for an instant that the calendar type does not hold. -/
abbrev TimestampFrom := Int → Option Int

/-- A calendar type shows the instant that it is given. -/
def TimestampFrom.Exact (timestampFrom : TimestampFrom) : Prop := ∀ instant shown, timestampFrom instant = some shown →
  shown = instant

section Headers

variable (timestampFrom : TimestampFrom)

/-- The date of a millisecond count, in nanoseconds. -/
def timestamp (modifiedAtMs : Int) : Except HeaderFailure Int := do
  ensure (0 ≤ modifiedAtMs) (.s3 ⟨.internalError, "object timestamp is before the supported S3 response range"⟩)
  ensure (fitsI64 (modifiedAtMs / 1000)) (.s3 ⟨.internalError, "object timestamp is out of range"⟩)
  okOr (timestampFrom (modifiedAtMs * 1000000)) .panic

/-- `modified_at_ms` plus the days of the policy, with the texts of the two overflow checks. -/
def retainUntilMs {ε : Type} (fromMs : Int) (retainDays : ℕ) (period date : ε) : Except ε Int := do
  ensure (fitsI64 (retainDays * 86400000)) period
  ensure (fitsI64 (fromMs + retainDays * 86400000)) date
  return fromMs + retainDays * 86400000

def retentionHeaders (retention : Option RetentionPolicy) (modifiedAtMs : Int) :
    Except HeaderFailure (Option String × Option Int) :=
  let dated (mode : String) (retainDays : ℕ) : Except HeaderFailure (Option String × Option Int) := do
    let untilMs ← retainUntilMs modifiedAtMs retainDays (.s3 ⟨.internalError, "retention period is out of range"⟩)
      (.s3 ⟨.internalError, "retention timestamp is out of range"⟩)
    return (some mode, some (← timestamp timestampFrom untilMs))
  match retention.filter fun policy => policy.mode ≠ .none ∧ 0 < policy.retainDays with
  | none => .ok (none, none)
  | some ⟨.compliance, retainDays⟩ => dated "COMPLIANCE" retainDays
  | some ⟨.governance, retainDays⟩ => dated "GOVERNANCE" retainDays
  | some ⟨.none, _⟩ => .ok (none, none)

end Headers

/-- The storage backend's date for the same policy, from its own clock; errors are `Provider` texts. -/
def retainUntilDate (nowMs : Int) (policy : RetentionPolicy) : Except String Int :=
  retainUntilMs nowMs policy.retainDays "retention period is out of range" "retention date is out of range"

/-! ## Days against nanoseconds -/

/-- The length of `days` days. -/
def daysNanos (days : ℕ) : Int := days * (secondsPerDay * nanosPerSecond)

/-- The requested period is a positive whole number of days and a fraction of a second. -/
def FractionLost (now requested : Int) : Prop :=
  daysNanos 1 ≤ requested - now ∧ (requested - now) % daysNanos 1 ≠ 0 ∧ (requested - now) % daysNanos 1 < nanosPerSecond

instance (now requested : Int) : Decidable (FractionLost now requested) := inferInstanceAs (Decidable (_ ∧ _))

/-- The policy's day count, with the request it was read from. -/
theorem putObjectRetentionPolicyAt_eq_ok {input : PutObjectInput} {now : Int} {policy : RetentionPolicy}
    (h : putObjectRetentionPolicyAt input now = .ok (some policy)) :
    ∃ requested, input.objectLockRetainUntilDate = some requested ∧ policy.mode ≠ .none ∧ now ≤ requested ∧
      0 ≤ requested ∧ policy.retainDays < 2 ^ 32 ∧
      policy.retainDays = max (divCeil ((requested - now) / nanosPerSecond).toNat secondsPerDay) 1 := by
  unfold putObjectRetentionPolicyAt at h
  split at h
  case h_1 => cases h
  case h_3 => cases h
  case h_2 mode requested _ hrequested =>
    simp only [ok_iff, timestampSystemTime, Option.some.injEq] at h
    obtain ⟨parsed, hmode, _, ⟨hepoch, -, rfl⟩, hnow, hdays, rfl⟩ := h
    refine ⟨_, hrequested, ?_, hnow, Int.ediv_nonneg_iff_of_pos (by decide) |>.mp hepoch, hdays, rfl⟩
    unfold parseObjectLockMode at hmode
    split_ifs at hmode <;> cases hmode <;> exact RetentionMode.noConfusion

section Rounding

variable {now requested : Int} {days : ℕ}

/-- The least positive number of days that covers the whole seconds. -/
theorem retainDays_le_iff (hnow : now ≤ requested) {other : ℕ} (hother : 0 < other) :
    max (divCeil ((requested - now) / nanosPerSecond).toNat secondsPerDay) 1 ≤ other ↔
      (requested - now) / nanosPerSecond ≤ other * secondsPerDay := by
  have hcovers := (@Payload.lt_divCeil secondsPerDay ((requested - now) / nanosPerSecond).toNat other (by decide)).not
  rw [max_le_iff, ← not_lt, hcovers]
  have hseconds : 0 ≤ (requested - now) / nanosPerSecond := Int.ediv_nonneg (by omega) (by decide)
  omega

/-- What the day count is to the request: never over it by a day, under it only by the lost fraction. -/
structure Rounded (now requested : Int) (days : ℕ) : Prop where
  pos : 0 < days
  least : ∀ other : ℕ, 0 < other → requested ≤ now + daysNanos other → days ≤ other
  short : requested < now + daysNanos days + nanosPerSecond
  lost : now + daysNanos days < requested ↔ FractionLost now requested

theorem rounded (hnow : now ≤ requested) :
    Rounded now requested (max (divCeil ((requested - now) / nanosPerSecond).toNat secondsPerDay) 1) := by
  have hiff := @retainDays_le_iff now requested hnow
  have hpos : 0 < max (divCeil ((requested - now) / nanosPerSecond).toNat secondsPerDay) 1 :=
    Nat.lt_of_lt_of_le Nat.one_pos (le_max_right _ _)
  generalize max (divCeil ((requested - now) / nanosPerSecond).toNat secondsPerDay) 1 = days at hiff hpos ⊢
  have hself := (hiff hpos).mp (Nat.le_refl _)
  simp only [nanosPerSecond, secondsPerDay] at hself hiff
  refine ⟨hpos, ?_, ?_, ?_⟩ <;> simp only [FractionLost, daysNanos, nanosPerSecond, secondsPerDay]
  · intro other hother hcovers
    apply (hiff hother).mpr
    omega
  · omega
  · constructor
    · intro hshort
      omega
    · rintro ⟨hday, hfraction, hsecond⟩
      -- the whole days of the period cover its whole seconds
      have hwhole := (@hiff ((requested - now) / 86400000000000).toNat (by omega)).mpr (by omega)
      omega

end Rounding

/-- The date of the policy is one that the response can show. -/
def Shown (timestampFrom : TimestampFrom) (policy : RetentionPolicy) (modifiedAtMs : Int) : Prop :=
  fitsI64 (modifiedAtMs + policy.retainDays * 86400000) ∧
    (timestampFrom ((modifiedAtMs + policy.retainDays * 86400000) * 1000000)).isSome = true

/-- The header of a policy that names a mode is its days after the modification time. -/
theorem retentionHeaders_date {timestampFrom : TimestampFrom} (hexact : timestampFrom.Exact) {policy : RetentionPolicy}
    {modifiedAtMs : Int} (hmode : policy.mode ≠ .none) (hdays : 0 < policy.retainDays ∧ policy.retainDays < 2 ^ 32)
    (hepoch : 0 ≤ modifiedAtMs + policy.retainDays * 86400000) (hshown : Shown timestampFrom policy modifiedAtMs) :
    ∃ mode, retentionHeaders timestampFrom (some policy) modifiedAtMs =
      .ok (some mode, some (modifiedAtMs * 1000000 + daysNanos policy.retainDays)) := by
  obtain ⟨lock, days⟩ := policy
  dsimp only at hdays hepoch
  obtain ⟨hfits, hsome⟩ := hshown
  dsimp only at hfits hsome
  obtain ⟨shown, hfrom⟩ := Option.isSome_iff_exists.mp hsome
  have hkept : (some (⟨lock, days⟩ : RetentionPolicy)).filter
      (fun policy => policy.mode ≠ .none ∧ 0 < policy.retainDays) = some ⟨lock, days⟩ :=
    Option.filter_some_pos (decide_eq_true ⟨hmode, hdays.1⟩)
  have hnanos : shown = modifiedAtMs * 1000000 + daysNanos days := by
    rw [hexact _ _ hfrom]
    simp only [daysNanos, secondsPerDay, nanosPerSecond]
    omega
  have huntil : retainUntilMs modifiedAtMs days (.s3 ⟨.internalError, "retention period is out of range"⟩)
      (HeaderFailure.s3 ⟨.internalError, "retention timestamp is out of range"⟩) = .ok (modifiedAtMs + days * 86400000) := by
    have hperiod : fitsI64 ((days : Int) * 86400000) := by
      unfold fitsI64
      omega
    rw [retainUntilMs, ensure_of hperiod, ok_bind, ensure_of hfits, ok_bind]
    rfl
  have hdate : timestamp timestampFrom (modifiedAtMs + days * 86400000) = .ok shown := by
    have hseconds : fitsI64 ((modifiedAtMs + (days : Int) * 86400000) / 1000) := by
      unfold fitsI64 at hfits ⊢
      omega
    rw [timestamp, ensure_of hepoch, ok_bind, ensure_of hseconds, ok_bind, hfrom]
    rfl
  simp only [retentionHeaders, hkept]
  cases lock with
  | none => exact absurd rfl hmode
  | governance | compliance =>
    simp only [huntil, hdate, ok_bind, hnanos]
    exact ⟨_, rfl⟩

/-- A client's date is kept by a policy: from every later instant its days cover the date, no smaller positive number of
days does from now, and every header that can show the date of a later modification time shows one that covers it. -/
structure DateKept (timestampFrom : TimestampFrom) (now requested : Int) (policy : RetentionPolicy) : Prop where
  covers : ∀ t, now ≤ t → requested ≤ t + daysNanos policy.retainDays
  pos : 0 < policy.retainDays
  least : ∀ days : ℕ, 0 < days → requested ≤ now + daysNanos days → policy.retainDays ≤ days
  header : ∀ modifiedAtMs, now ≤ modifiedAtMs * 1000000 → Shown timestampFrom policy modifiedAtMs →
    ∃ mode shown, retentionHeaders timestampFrom (some policy) modifiedAtMs = .ok (some mode, some shown) ∧
      requested ≤ shown

/-- **When a client's date is kept**: for every accepted request, exactly when the requested period is not whole days and
a fraction of a second; and what is lost is always less than a second. -/
theorem retention_days_cover_request (timestampFrom : TimestampFrom) (hexact : timestampFrom.Exact)
    (input : PutObjectInput) (now requested : Int) (policy : RetentionPolicy)
    (hrequested : input.objectLockRetainUntilDate = some requested)
    (haccepted : putObjectRetentionPolicyAt input now = .ok (some policy)) :
    (DateKept timestampFrom now requested policy ↔ ¬FractionLost now requested) ∧
      requested < now + daysNanos policy.retainDays + nanosPerSecond := by
  obtain ⟨_, hdate, hmode, hnow, hepoch, hbound, hdays⟩ := putObjectRetentionPolicyAt_eq_ok haccepted
  obtain rfl := Option.some.inj (hrequested.symm.trans hdate)
  have hrounded : Rounded now requested policy.retainDays := hdays ▸ rounded hnow
  refine ⟨⟨fun hkept hlost => ?_, fun hkept => ?_⟩, hrounded.short⟩
  · exact absurd (hrounded.lost.mpr hlost) (Int.not_lt.mpr (hkept.covers now le_rfl))
  have hcovers : requested ≤ now + daysNanos policy.retainDays := Int.not_lt.mp fun h => hkept (hrounded.lost.mp h)
  refine ⟨fun t ht => hcovers.trans (Int.add_le_add_right ht _), hrounded.pos, hrounded.least, ?_⟩
  intro modifiedAtMs hmodified hshown
  have hlater : requested ≤ modifiedAtMs * 1000000 + daysNanos policy.retainDays :=
    hcovers.trans (Int.add_le_add_right hmodified _)
  have hpositive : 0 ≤ modifiedAtMs + policy.retainDays * 86400000 := by
    simp only [daysNanos, secondsPerDay, nanosPerSecond] at hlater
    omega
  obtain ⟨mode, hheader⟩ := retentionHeaders_date hexact hmode ⟨hrounded.pos, hbound⟩ hpositive hshown
  exact ⟨mode, _, hheader, hlater⟩

/-- A calendar that ends with the year 9999. -/
def fourDigitYears : TimestampFrom := fun instant => if instant < 253402300800 * nanosPerSecond then some instant else none

theorem fourDigitYears_exact : fourDigitYears.Exact := by
  intro instant shown h
  unfold fourDigitYears at h
  split at h
  · exact (Option.some.inj h).symm
  · cases h

/-- At noon of 2026-01-01 a day and a half ahead becomes two days, and the header of a put at that instant shows them. -/
theorem day_and_half_request_covered :
    let input : PutObjectInput := ⟨some "GOVERNANCE", some 1767398400000000000⟩
    putObjectRetentionPolicyAt input 1767268800000000000 = .ok (some ⟨.governance, 2⟩) ∧
      ∃ mode shown, retentionHeaders fourDigitYears (some ⟨.governance, 2⟩) 1767268800000 = .ok (some mode, some shown) ∧
        1767398400000000000 ≤ shown := by
  have haccepted : putObjectRetentionPolicyAt ⟨some "GOVERNANCE", some 1767398400000000000⟩ 1767268800000000000 =
      .ok (some ⟨.governance, 2⟩) := by decide +kernel
  have hkept := (retention_days_cover_request fourDigitYears fourDigitYears_exact
    ⟨some "GOVERNANCE", some 1767398400000000000⟩ 1767268800000000000 1767398400000000000 ⟨.governance, 2⟩ rfl
    haccepted).1.mpr (by decide +kernel)
  exact ⟨haccepted, hkept.header 1767268800000 (by decide) ⟨by decide +kernel, by decide +kernel⟩⟩

/-- One day and a nanosecond ahead gives one day; the storage date and the header from the same instant are both a
nanosecond short. -/
theorem day_and_nanosecond_request_shortened :
    putObjectRetentionPolicyAt ⟨some "COMPLIANCE", some 86400000000001⟩ 0 = .ok (some ⟨.compliance, 1⟩) ∧
      0 + daysNanos 1 < 86400000000001 ∧
      retentionHeaders fourDigitYears (some ⟨.compliance, 1⟩) 0 = .ok (some "COMPLIANCE", some 86400000000000) ∧
      retainUntilDate 0 ⟨.compliance, 1⟩ = .ok 86400000 := by
  decide +kernel

end Rs3.Gateway
