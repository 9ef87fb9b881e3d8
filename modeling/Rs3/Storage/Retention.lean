/-
# Rs3.Storage.Retention — comparisons of retention policies.

`rs3-storage/src/retention.rs`: a policy is active when it protects for some time, and two requirements are combined
without reducing mode or duration.  The absolute dates of a provider are not looked at here.
-/
import Rs3.Index.Staging

namespace Rs3.Storage

open Rs3.Index (RetentionMode RetentionPolicy activeRetention retentionModeStrength strongerRetentionMode
  strongestRetentionPolicy)

/-- `retention_is_active`. -/
def RetentionIsActive (policy : RetentionPolicy) : Prop := policy.mode ≠ .none ∧ 0 < policy.retainDays

instance (policy : RetentionPolicy) : Decidable (RetentionIsActive policy) := inferInstanceAs (Decidable (_ ∧ _))

/-- A policy requires at least what another one requires. -/
def Covers (stronger weaker : RetentionPolicy) : Prop :=
  retentionModeStrength weaker.mode ≤ retentionModeStrength stronger.mode ∧ weaker.retainDays ≤ stronger.retainDays

instance (stronger weaker : RetentionPolicy) : Decidable (Covers stronger weaker) := inferInstanceAs (Decidable (_ ∧ _))

/-- `retention_satisfies`. -/
def RetentionSatisfies (actual : Option RetentionPolicy) (requested : RetentionPolicy) : Prop :=
  ∃ policy ∈ actual, Covers policy requested

instance (actual : Option RetentionPolicy) (requested : RetentionPolicy) :
    Decidable (RetentionSatisfies actual requested) := by
  unfold RetentionSatisfies
  infer_instance

/-! ## Combining requirements -/

theorem Covers.refl (policy : RetentionPolicy) : Covers policy policy := ⟨Nat.le_refl _, Nat.le_refl _⟩

theorem Covers.trans (hab : Covers a b) (hbc : Covers b c) : Covers a c := ⟨hbc.1.trans hab.1, hbc.2.trans hab.2⟩

theorem mem_activeRetention : active ∈ activeRetention policy ↔ active ∈ policy ∧ RetentionIsActive active := by
  simp [activeRetention, RetentionIsActive, Option.mem_def, Option.filter_eq_some_iff]

theorem strength_stronger (left right : RetentionMode) :
    retentionModeStrength left ≤ retentionModeStrength (strongerRetentionMode left right) ∧
      retentionModeStrength right ≤ retentionModeStrength (strongerRetentionMode left right) := by
  unfold strongerRetentionMode
  split <;> omega

theorem active_of_strength (h : Covers stronger weaker)
    (hactive : RetentionIsActive weaker) : RetentionIsActive stronger := by
  refine ⟨fun hnone => hactive.1 ?_, hactive.2.trans_le h.2⟩
  have hmode := h.1
  rw [hnone] at hmode
  cases hweaker : weaker.mode with
  | none => rfl
  | governance => rw [hweaker] at hmode; cases hmode
  | compliance => rw [hweaker] at hmode; cases hmode

/-- The combination covers both sides, as far as they are active. -/
theorem strongest_covers (h : strongestRetentionPolicy left right = some policy) :
    RetentionIsActive policy ∧ (∀ active ∈ activeRetention left, Covers policy active) ∧
      ∀ active ∈ activeRetention right, Covers policy active := by
  unfold strongestRetentionPolicy at h
  cases hleft : activeRetention left with
  | none =>
    cases hright : activeRetention right with
    | none => simp [hleft, hright] at h
    | some r =>
      simp only [hleft, hright, Option.some.injEq] at h
      subst h
      refine ⟨(mem_activeRetention.mp hright).2, fun active hactive => ?_, fun active hactive => ?_⟩
      · cases hactive
      · obtain rfl := Option.some.inj hactive
        exact Covers.refl _
  | some l =>
    have hactive := (mem_activeRetention.mp hleft).2
    cases hright : activeRetention right with
    | none =>
      simp only [hleft, hright, Option.some.injEq] at h
      subst h
      refine ⟨hactive, fun active hsome => ?_, fun active hnone => ?_⟩
      · obtain rfl := Option.some.inj hsome
        exact Covers.refl _
      · cases hnone
    | some r =>
      simp only [hleft, hright, Option.some.injEq] at h
      subst h
      obtain ⟨hl, hr⟩ := strength_stronger l.mode r.mode
      have hcovers : Covers ⟨strongerRetentionMode l.mode r.mode, max l.retainDays r.retainDays⟩ l :=
        ⟨hl, Nat.le_max_left _ _⟩
      refine ⟨active_of_strength hcovers hactive, ?_, ?_⟩
      · rintro _ ⟨⟩
        exact hcovers
      · rintro _ ⟨⟩
        exact ⟨hr, Nat.le_max_right _ _⟩

end Rs3.Storage
