/-
# Rs3.Lib.KeyedLog — logs of keyed writes, where the last write to a key wins.

A log is a list of records; each names a key and the value it leaves there, `none` when it removes the key.
Replaying a log keeps, for every key, what the last record with that key wrote.  Two operations on logs are
studied: dropping records that a later one overwrites (`coalesce`), and replacing a window in the middle of a log
by the last writes of the window, some of which may be left out (`replay_compact`).  This is a library: it names
no program.
-/
import Mathlib.Logic.Function.Basic
import Mathlib.Data.List.Basic
import Mathlib.Algebra.Order.Ring.Int

namespace Rs3.KeyedLog

variable {α β K V : Type} [DecidableEq K]

/-! ## Replay -/

/-- The last record of a log with key `k`. -/
def lastFor (key : α → K) (k : K) : List α → Option α
  | [] => none
  | a :: log => (lastFor key k log).or (if key a = k then some a else none)

/-- The map that the writes of a log leave when they start from `m`. -/
def replay (key : α → K) (val : α → Option V) (m : K → Option V) : List α → K → Option V
  | [] => m
  | a :: log => replay key val (Function.update m (key a) (val a)) log

variable {key : α → K} {val : α → Option V} {m : K → Option V} {k : K} {log : List α}

theorem replay_append (log₁ log₂ : List α) :
    replay key val m (log₁ ++ log₂) = replay key val (replay key val m log₁) log₂ := by
  induction log₁ generalizing m with
  | nil => rfl
  | cons a log₁ ih => exact ih

theorem lastFor_eq_none : lastFor key k log = none ↔ ∀ a ∈ log, key a ≠ k := by
  induction log with
  | nil => simp [lastFor]
  | cons a log ih =>
    simp only [lastFor, Option.or_eq_none_iff, ih, List.forall_mem_cons]
    constructor
    · rintro ⟨hlog, ha⟩
      exact ⟨fun h => by simp [h] at ha, hlog⟩
    · rintro ⟨ha, hlog⟩
      exact ⟨hlog, if_neg ha⟩

theorem mem_of_lastFor (h : lastFor key k log = some a) : a ∈ log ∧ key a = k := by
  induction log with
  | nil => cases h
  | cons b log ih =>
    simp only [lastFor, Option.or_eq_some_iff] at h
    rcases h with h | ⟨-, h⟩
    · exact ⟨List.mem_cons_of_mem b (ih h).1, (ih h).2⟩
    · split at h
      · cases h
        exact ⟨List.mem_cons_self, by assumption⟩
      · cases h

/-- **A replayed map holds what the last record of each key wrote.** -/
theorem replay_eq (k : K) : replay key val m log k = ((lastFor key k log).map val).getD (m k) := by
  induction log generalizing m with
  | nil => rfl
  | cons a log ih =>
    rw [replay, ih, lastFor]
    rcases lastFor key k log with _ | b
    · by_cases hk : key a = k
      · subst hk
        simp
      · simp [hk, Function.update_of_ne (Ne.symm hk)]
    · rfl

theorem replay_of_lastFor (h : lastFor key k log = some a) : replay key val m log k = val a := by
  rw [replay_eq, h]
  rfl

theorem replay_of_not_mem (h : ∀ a ∈ log, key a ≠ k) : replay key val m log k = m k := by
  rw [replay_eq, lastFor_eq_none.mpr h]
  rfl

/-- A value in a replayed map was written by some record, or it was there before. -/
theorem replay_some (h : replay key val m log k = some v) :
    (∃ a ∈ log, key a = k ∧ val a = some v) ∨ ((∀ a ∈ log, key a ≠ k) ∧ m k = some v) := by
  rcases hlast : lastFor key k log with _ | a
  · have hnot := lastFor_eq_none.mp hlast
    rw [replay_of_not_mem hnot] at h
    exact .inr ⟨hnot, h⟩
  · rw [replay_of_lastFor hlast] at h
    exact .inl ⟨a, (mem_of_lastFor hlast).1, (mem_of_lastFor hlast).2, h⟩

/-! ## Coalescing -/

/-- Keep a record when no later record has its key. -/
def coalesce (key : α → K) : List α → List α
  | [] => []
  | a :: log => if log.any (fun b => key b = key a) = true then coalesce key log else a :: coalesce key log

/-! ## Compacting a window -/

/-- **Compaction keeps the replayed map.**  A window in the middle of a log may be replaced by last writes of the
window, in any order; a last write may be left out when the map of the whole log does not hold what it wrote. -/
theorem replay_compact {before window after out : List α}
    (hwin : ∀ a ∈ out, lastFor key (key a) window = some a)
    (hkeep : ∀ k a, lastFor key k window = some a → a ∈ out ∨ replay key val m (before ++ window ++ after) k ≠ val a) :
    replay key val m (before ++ out ++ after) = replay key val m (before ++ window ++ after) := by
  funext k
  have hout : ∀ {b}, lastFor key k out = some b → lastFor key k window = some b := by
    intro b hb
    obtain ⟨hmem, rfl⟩ := mem_of_lastFor hb
    exact hwin b hmem
  have hsplit (middle) : replay key val m (before ++ middle ++ after) k =
      ((lastFor key k after).map val).getD (replay key val (replay key val m before) middle k) := by
    rw [replay_append, replay_append, replay_eq]
  rw [hsplit, hsplit]
  -- a later write hides the window
  rcases hafter : lastFor key k after with _ | c
  · show replay key val _ out k = replay key val _ window k
    rcases hb : lastFor key k out with _ | b
    · rcases ha : lastFor key k window with _ | a
      · rw [replay_of_not_mem (lastFor_eq_none.mp hb), replay_of_not_mem (lastFor_eq_none.mp ha)]
      · obtain hmem | hne := hkeep k a ha
        · exact absurd (mem_of_lastFor ha).2 (lastFor_eq_none.mp hb a hmem)
        · rw [hsplit, hafter] at hne
          exact absurd (replay_of_lastFor ha) hne
    · rw [replay_of_lastFor hb, replay_of_lastFor (hout hb)]
  · rfl

end Rs3.KeyedLog
