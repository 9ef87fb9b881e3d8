/-
# Rs3.Storage.Lifecycle — lifecycle rules that leave the repository's objects alone.

`validate_rules` of `s3/lifecycle.rs`.  Of a tag, a date and a noncurrent expiration only their presence is read.  Error
texts are those that `policy_error` wraps.
-/
import Rs3.Lib.Fallible

namespace Rs3.Storage

inductive ExpirationStatus where
  | enabled
  | disabled
  | unknown

inductive TransitionStorageClass where
  | deepArchive
  | glacier
  | glacierIr
  | intelligentTiering
  | onezoneIa
  | standardIa
  | unknown
  deriving DecidableEq

/-- `LifecycleRuleFilter`; its `and` is kept as the key condition that the conjunction may have. -/
structure LifecycleRuleFilter where
  keyPrefix : Option String
  and : Option (Option String)
  tag : Bool
  objectSizeGreaterThan : Option ℤ
  objectSizeLessThan : Option ℤ

structure LifecycleExpiration where
  days : Option ℤ
  date : Bool
  expiredObjectDeleteMarker : Option Bool

structure LifecycleRule where
  status : ExpirationStatus
  /-- The legacy condition at the top of a rule. -/
  keyPrefix : Option String
  filter : Option LifecycleRuleFilter
  /-- The days after initiation, of a rule that aborts uploads. -/
  abortIncompleteMultipartUpload : Option (Option ℤ)
  noncurrentVersionExpiration : Bool
  expiration : Option LifecycleExpiration
  transitions : List (Option TransitionStorageClass)
  noncurrentVersionTransitions : List (Option TransitionStorageClass)

/-- `text.starts_with(start)`. -/
abbrev StartsWith (text start : String) : Prop := start.toList <+: text.toList

def LifecycleRuleFilter.fields (filter : LifecycleRuleFilter) : ℕ :=
  filter.keyPrefix.isSome.toNat + filter.and.isSome.toNat + filter.tag.toNat +
    filter.objectSizeGreaterThan.isSome.toNat + filter.objectSizeLessThan.isSome.toNat

/-- The key condition of a rule, in its legacy or its nested form. -/
def rulePrefix (rule : LifecycleRule) : Except String (Option String) :=
  match rule.filter with
  | none => .ok rule.keyPrefix
  | some filter => do
    ensure (¬(rule.keyPrefix ≠ none ∨ 1 < filter.fields)) "S3 lifecycle rule filter is ambiguous"
    return filter.keyPrefix.or filter.and.join

/-- Classes that are read without a restore. -/
abbrev DirectlyReadable (storageClass : Option TransitionStorageClass) : Prop :=
  storageClass ∈ [some .standardIa, some .onezoneIa, some .glacierIr]

/-- What is refused of a rule that may meet the repository. -/
def validateActions (rule : LifecycleRule) : Except String Unit := do
  ensure (∀ abort ∈ rule.abortIncompleteMultipartUpload, ¬∀ days ∈ abort, days < 2)
    "S3 incomplete-upload cleanup must allow at least two days"
  ensure (¬(rule.noncurrentVersionExpiration = true ∨ ∃ expiry ∈ rule.expiration,
      expiry.days ≠ none ∨ expiry.date = true ∨ expiry.expiredObjectDeleteMarker ≠ some true))
    "S3 lifecycle expiration overlaps repository storage"
  ensure (∀ storageClass ∈ rule.transitions ++ rule.noncurrentVersionTransitions, DirectlyReadable storageClass)
    "S3 lifecycle transition requires unavailable restore qualification"

def validateRule (repositoryPrefix : String) (rule : LifecycleRule) : Except String Unit :=
  match rule.status with
  | .disabled => .ok ()
  | .unknown => .error "S3 lifecycle rule status is unknown"
  | .enabled => do
    let keyPrefix ← rulePrefix rule
    -- tag and size conditions say nothing about future objects
    if ∃ start ∈ keyPrefix, ¬StartsWith start repositoryPrefix ∧ ¬StartsWith repositoryPrefix start then return
    validateActions rule

def validateRules (rules : List LifecycleRule) (repositoryPrefix : String) : Except String Unit := do
  ensure (rules.length ≤ 1000) "S3 lifecycle configuration exceeds the rule budget"
  rules.forM (validateRule repositoryPrefix)

/-! ## What a rule can do to a key -/

/-- The key conditions of a rule hold, whatever its other conditions are. -/
structure LifecycleRule.CanApply (rule : LifecycleRule) (key : String) : Prop where
  enabled : rule.status = .enabled
  legacy : ∀ start ∈ rule.keyPrefix, StartsWith key start
  filtered : ∀ filter ∈ rule.filter, (∀ start ∈ filter.keyPrefix, StartsWith key start) ∧
    ∀ conjunction ∈ filter.and, ∀ start ∈ conjunction, StartsWith key start

/-- A rule that removes no version, keeps all directly readable and leaves uploads two days. -/
structure LifecycleRule.Harmless (rule : LifecycleRule) : Prop where
  current : ∀ expiry ∈ rule.expiration, expiry.days = none ∧ expiry.date = false
  noncurrent : rule.noncurrentVersionExpiration = false
  transitions : ∀ storageClass ∈ rule.transitions ++ rule.noncurrentVersionTransitions, DirectlyReadable storageClass
  uploads : ∀ abort ∈ rule.abortIncompleteMultipartUpload, ∃ days, abort = some days ∧ 2 ≤ days

variable {rule : LifecycleRule} {repositoryPrefix key : String}

theorem harmless_of_validateActions (h : validateActions rule = .ok ()) : rule.Harmless := by
  simp only [validateActions, ok_iff, not_or, not_exists, not_and, not_not, Bool.not_eq_true] at h
  obtain ⟨habort, ⟨hnoncurrent, hexpiry⟩, htransitions⟩ := h
  refine ⟨fun expiry hmem => ?_, hnoncurrent, htransitions, fun abort hmem => ?_⟩
  · obtain ⟨hdays, hdate, -⟩ := hexpiry expiry hmem
    exact ⟨hdays, hdate⟩
  · obtain ⟨days, hsome, hle⟩ := not_forall₂.mp (habort abort hmem)
    exact ⟨days, hsome, not_lt.mp hle⟩

/-- The condition that is compared with the repository holds of every key that the rule applies to. -/
theorem startsWith_of_canApply (hfilter : rulePrefix rule = .ok (some start)) (h : rule.CanApply key) :
    StartsWith key start := by
  unfold rulePrefix at hfilter
  split at hfilter
  · exact h.legacy start (Except.ok.inj hfilter)
  · rename_i filter hfilter
    simp only [ok_iff, Option.or_eq_some_iff] at hfilter
    obtain ⟨-, hstart | ⟨-, hstart⟩⟩ := hfilter
    · exact (h.filtered filter hfilter).1 start hstart
    · exact (h.filtered filter hfilter).2 _ (Option.join_eq_some_iff.mp hstart) start rfl

theorem comparable_of_canApply (hfilter : rulePrefix rule = .ok (some start)) (h : rule.CanApply key)
    (hkey : StartsWith key repositoryPrefix) : StartsWith start repositoryPrefix ∨ StartsWith repositoryPrefix start :=
  (List.prefix_or_prefix_of_prefix (startsWith_of_canApply hfilter h) hkey).symm

/-- **Accepted rules leave the repository alone.** -/
theorem lifecycle_validation_sound (repositoryPrefix key : String) (rule : LifecycleRule) :
    (∀ rules, validateRules rules repositoryPrefix = .ok () → StartsWith key repositoryPrefix → rule ∈ rules →
      rule.CanApply key → rule.Harmless) ∧
    ∀ start, rulePrefix rule = .ok (some start) → ¬StartsWith start repositoryPrefix →
      ¬StartsWith repositoryPrefix start → StartsWith key repositoryPrefix → ¬rule.CanApply key := by
  refine ⟨fun rules h hkey hmem happly => ?_, fun start hfilter hleft hright hkey happly => ?_⟩
  · simp only [validateRules, ok_iff, forM_eq_ok] at h
    have hrule := h.2 rule hmem
    simp only [validateRule, happly.enabled, bind_eq_ok] at hrule
    obtain ⟨keyPrefix, hfilter, hactions⟩ := hrule
    split at hactions
    · rename_i hapart
      obtain ⟨start, rfl, hleft, hright⟩ := hapart
      exact absurd (comparable_of_canApply hfilter happly hkey) (not_or.mpr ⟨hleft, hright⟩)
    · exact harmless_of_validateActions hactions
  · exact absurd (comparable_of_canApply hfilter happly hkey) (not_or.mpr ⟨hleft, hright⟩)

end Rs3.Storage
