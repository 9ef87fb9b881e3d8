/-
# Rs3.Lib.Checked — checked machine arithmetic and byte ranges.

Lengths and offsets are naturals; an operation of the source that checks for overflow is a partial one here, with
the width of the machine type.  The second half is about ranges of a list: reading one, overwriting one, and
spans that tile an interval.
-/
import Rs3.Lib.Fallible

namespace Rs3

open List

/-! ## Arithmetic -/

/-- `checked_add` of a `w`-bit type. -/
def checkedAdd (w a b : ℕ) : Option ℕ := if a + b < 2 ^ w then some (a + b) else none

/-- `checked_mul` of a `w`-bit type. -/
def checkedMul (w a b : ℕ) : Option ℕ := if a * b < 2 ^ w then some (a * b) else none

def checkedSub (a b : ℕ) : Option ℕ := if b ≤ a then some (a - b) else none

/-- `try_from` into a `w`-bit type. -/
def tryFrom (w a : ℕ) : Option ℕ := if a < 2 ^ w then some a else none

variable {w a b c start stop : ℕ} {spans : List (ℕ × ℕ)}

@[simp]
theorem checkedAdd_eq_some : checkedAdd w a b = some c ↔ a + b < 2 ^ w ∧ a + b = c := by
  simp [checkedAdd]

@[simp]
theorem checkedMul_eq_some : checkedMul w a b = some c ↔ a * b < 2 ^ w ∧ a * b = c := by
  simp [checkedMul]

@[simp]
theorem checkedSub_eq_some : checkedSub a b = some c ↔ b ≤ a ∧ a - b = c := by
  simp [checkedSub]

@[simp]
theorem tryFrom_eq_some : tryFrom w a = some c ↔ a < 2 ^ w ∧ a = c := by
  simp [tryFrom]

/-! ## Ranges of a list -/

section Ranges

variable {α : Type}

/-- The elements from `start` up to `stop`. -/
def slice (xs : List α) (start stop : ℕ) : List α := (xs.take stop).drop start

/-- `get(start..stop)`. -/
def getRange (xs : List α) (start stop : ℕ) : Option (List α) :=
  if start ≤ stop ∧ stop ≤ xs.length then some (slice xs start stop) else none

/-- `ys` in place of the elements from `start` on. -/
def overwrite (xs : List α) (start : ℕ) (ys : List α) : List α := xs.take start ++ ys ++ xs.drop (start + ys.length)

variable {xs ys : List α} {start stop a b : ℕ}

@[simp]
theorem getRange_eq_some :
    getRange xs start stop = some ys ↔ (start ≤ stop ∧ stop ≤ xs.length) ∧ slice xs start stop = ys := by
  simp [getRange]

@[simp]
theorem length_slice (xs : List α) (start stop : ℕ) : (slice xs start stop).length = min stop xs.length - start := by
  simp [slice]

theorem length_slice_of_le (h : stop ≤ xs.length) (start : ℕ) : (slice xs start stop).length = stop - start := by
  rw [length_slice, Nat.min_eq_left h]

theorem getElem?_slice : (slice xs start stop)[i]? = if start + i < stop then xs[start + i]? else none := by
  rw [slice, List.getElem?_drop, List.getElem?_take]

theorem slice_slice (h : start + b ≤ stop) : slice (slice xs start stop) a b = slice xs (start + a) (start + b) := by
  apply ext_getElem?
  intro i
  simp only [getElem?_slice, Nat.add_assoc]
  by_cases hi : a + i < b
  · rw [if_pos hi, if_pos (by omega), if_pos (by omega)]
  · rw [if_neg hi, if_neg (by omega)]

theorem slice_append_slice (xs : List α) (hab : a ≤ b) (hbc : b ≤ c) : slice xs a b ++ slice xs b c = slice xs a c := by
  rcases Nat.le_total b xs.length with hlen | hlen
  · apply ext_getElem?
    intro i
    rw [List.getElem?_append, length_slice, Nat.min_eq_left hlen]
    simp only [getElem?_slice]
    by_cases hi : i < b - a
    · rw [if_pos hi, if_pos (by omega), if_pos (by omega)]
    · rw [if_neg hi, show b + (i - (b - a)) = a + i by omega]
  · rw [slice, slice, slice, take_of_length_le hlen, take_of_length_le (hlen.trans hbc),
      drop_eq_nil_of_le hlen, append_nil]

@[simp]
theorem slice_self : slice xs a a = [] := by
  rw [slice, drop_eq_nil_of_le (length_take_le a xs)]

theorem slice_append_middle (xs ys zs : List α) (hstart : xs.length = start)
    (hstop : xs.length + ys.length = stop) : slice (xs ++ (ys ++ zs)) start stop = ys := by
  subst hstart hstop
  simp [slice, take_append]

theorem slice_append_right (hstart : xs.length = start)
    (hstop : start + ys.length = stop) : slice (xs ++ ys) start stop = ys := by
  have h := slice_append_middle xs ys [] hstart (by rw [hstart, hstop])
  rwa [append_nil] at h

theorem slice_flatten {xss : List (List α)} {i : ℕ} (h : xss[i]? = some xs) :
    slice xss.flatten ((xss.take i).map List.length).sum ((xss.take (i + 1)).map List.length).sum = xs := by
  obtain ⟨hi, rfl⟩ := List.getElem?_eq_some_iff.mp h
  have hsplit : xss.flatten = (xss.take i).flatten ++ (xss[i] ++ (xss.drop (i + 1)).flatten) := by
    rw [← flatten_cons, ← drop_eq_getElem_cons hi, ← flatten_append, take_append_drop]
  rw [hsplit]
  refine slice_append_middle _ _ _ length_flatten ?_
  rw [take_add_one, h, map_append, sum_append, length_flatten]
  simp

theorem slice_zero_append_drop (xs : List α) (stop : ℕ) : slice xs 0 stop ++ xs.drop stop = xs := by
  simp [slice]

theorem length_overwrite (h : start + ys.length ≤ xs.length) : (overwrite xs start ys).length = xs.length := by
  simp only [overwrite, length_append, length_take, length_drop]
  omega

theorem getElem?_overwrite (h : start + ys.length ≤ xs.length) (i : ℕ) :
    (overwrite xs start ys)[i]? =
      if i < start then xs[i]? else if i < start + ys.length then ys[i - start]? else xs[i]? := by
  have hstart : (xs.take start).length = start := by
    rw [length_take]
    omega
  rw [overwrite, append_assoc, List.getElem?_append, hstart]
  by_cases h1 : i < start
  · rw [if_pos h1, if_pos h1, List.getElem?_take_of_lt h1]
  · rw [if_neg h1, if_neg h1, List.getElem?_append]
    by_cases h2 : i < start + ys.length
    · rw [if_pos (by omega), if_pos h2]
    · rw [if_neg (by omega), if_neg h2, List.getElem?_drop]
      congr 1
      omega

theorem slice_overwrite_self (h : start + ys.length ≤ xs.length) :
    slice (overwrite xs start ys) start (start + ys.length) = ys := by
  apply ext_getElem?
  intro i
  rw [getElem?_slice, getElem?_overwrite h]
  by_cases hi : i < ys.length
  · rw [if_pos (by omega), if_neg (by omega), if_pos (by omega), Nat.add_sub_cancel_left]
  · rw [if_neg (by omega), List.getElem?_eq_none (by omega)]

/-- Everything outside the written range is unchanged. -/
theorem slice_overwrite_of_disjoint (h : start + ys.length ≤ xs.length)
    (hdisjoint : b ≤ start ∨ start + ys.length ≤ a) : slice (overwrite xs start ys) a b = slice xs a b := by
  apply ext_getElem?
  intro i
  rw [getElem?_slice, getElem?_slice, getElem?_overwrite h]
  by_cases hi : a + i < b
  · rw [if_pos hi, if_pos hi]
    rcases hdisjoint with hd | hd
    · rw [if_pos (by omega)]
    · rw [if_neg (by omega), if_neg (by omega)]
  · rw [if_neg hi, if_neg hi]

end Ranges

/-! ## Spans that tile an interval -/

/-- Non-empty spans, each starting where the one before it ends, from `start` exactly to `stop`. -/
def Tiles : ℕ → List (ℕ × ℕ) → ℕ → Prop
  | start, [], stop => start = stop
  | start, span :: rest, stop => span.1 = start ∧ span.1 < span.2 ∧ Tiles span.2 rest stop

/-- Two spans have no position in common. -/
def Apart (a b : ℕ × ℕ) : Prop := a.2 ≤ b.1 ∨ b.2 ≤ a.1

theorem Apart.symm {a b : ℕ × ℕ} (h : Apart a b) : Apart b a := Or.symm h

theorem Tiles.le (h : Tiles start spans stop) : start ≤ stop := by
  induction spans generalizing start with
  | nil => exact Nat.le_of_eq h
  | cons span rest ih =>
    obtain ⟨rfl, hlt, hrest⟩ := h
    exact hlt.le.trans (ih hrest)

theorem Tiles.bounds (h : Tiles start spans stop) :
    ∀ span ∈ spans, start ≤ span.1 ∧ span.1 < span.2 ∧ span.2 ≤ stop := by
  induction spans generalizing start with
  | nil => exact fun _ hmem => absurd hmem not_mem_nil
  | cons span rest ih =>
    obtain ⟨rfl, hlt, hrest⟩ := h
    refine forall_mem_cons.mpr ⟨⟨le_rfl, hlt, hrest.le⟩, fun other hmem => ?_⟩
    obtain ⟨hstart, hpos, hstop⟩ := ih hrest other hmem
    exact ⟨hlt.le.trans hstart, hpos, hstop⟩

theorem Tiles.apart (h : Tiles start spans stop) : spans.Pairwise Apart := by
  induction spans generalizing start with
  | nil => exact List.Pairwise.nil
  | cons span rest ih =>
    obtain ⟨rfl, -, hrest⟩ := h
    exact List.Pairwise.cons (fun other hmem => Or.inl (hrest.bounds other hmem).1) (ih hrest)

/-- Spans, possibly empty, each starting where the one before it ends, from `start` exactly to `stop`. -/
def Consecutive : ℕ → List (ℕ × ℕ) → ℕ → Prop
  | start, [], stop => start = stop
  | start, span :: rest, stop => span.1 = start ∧ span.1 ≤ span.2 ∧ Consecutive span.2 rest stop

theorem Consecutive.le (h : Consecutive start spans stop) : start ≤ stop := by
  induction spans generalizing start with
  | nil => exact Nat.le_of_eq h
  | cons span rest ih =>
    obtain ⟨rfl, hle, hrest⟩ := h
    exact hle.trans (ih hrest)

/-- Consecutive spans cut a list into pieces without gap or overlap. -/
theorem Consecutive.flatten_slices {α : Type} (xs : List α)
    (h : Consecutive start spans stop) : (spans.map fun span => slice xs span.1 span.2).flatten = slice xs start stop := by
  induction spans generalizing start with
  | nil =>
    obtain rfl : start = stop := h
    rw [slice_self]
    rfl
  | cons span rest ih =>
    obtain ⟨rfl, hle, hrest⟩ := h
    rw [map_cons, flatten_cons, ih hrest, slice_append_slice xs hle hrest.le]

/-! ## Loops that write into a buffer -/

/-- `f` writes into one span of a buffer: what it leaves there is `Q`, and nothing outside the span changes. -/
structure WritesSpan {α ε : Type} (f : List α → Except ε (List α)) (span : ℕ × ℕ) (Q : List α → Prop) : Prop where
  of_ok : ∀ {buffer buffer'}, f buffer = .ok buffer' → buffer'.length = buffer.length ∧
    Q (slice buffer' span.1 span.2) ∧ ∀ other, Apart other span →
      slice buffer' other.1 other.2 = slice buffer other.1 other.2

/-- Replacing a range that lies in the buffer. -/
theorem writesSpan_overwrite {α ε : Type} {f : List α → Except ε (List α)} {Q : List α → Prop}
    (h : ∀ buffer buffer', f buffer = .ok buffer' → ∃ ys, Q ys ∧ start + ys.length = stop ∧ stop ≤ buffer.length ∧
      overwrite buffer start ys = buffer') : WritesSpan f (start, stop) Q := by
  refine ⟨fun {buffer buffer'} hok => ?_⟩
  obtain ⟨ys, hQ, rfl, hfits, rfl⟩ := h buffer buffer' hok
  refine ⟨length_overwrite hfits, ?_, fun other hapart => slice_overwrite_of_disjoint hfits hapart⟩
  rwa [slice_overwrite_self hfits]

/-- A loop whose rounds write into spans apart from each other leaves the result of every round in place. -/
theorem foldlM_writesSpan {α β ε : Type} {f : List α → β → Except ε (List α)} {span : β → ℕ × ℕ}
    {Q : β → List α → Prop} {xs : List β} (hf : ∀ x ∈ xs, WritesSpan (f · x) (span x) (Q x))
    (hapart : xs.Pairwise fun x y => Apart (span x) (span y)) {buffer buffer' : List α}
    (h : xs.foldlM f buffer = .ok buffer') :
    buffer'.length = buffer.length ∧ (∀ x ∈ xs, Q x (slice buffer' (span x).1 (span x).2)) ∧
      ∀ other, (∀ x ∈ xs, Apart other (span x)) → slice buffer' other.1 other.2 = slice buffer other.1 other.2 := by
  induction xs generalizing buffer with
  | nil =>
    rw [foldlM_nil, pure_eq_ok] at h
    subst h
    exact ⟨rfl, fun _ hx => absurd hx not_mem_nil, fun _ _ => rfl⟩
  | cons x xs ih =>
    rw [foldlM_cons, bind_eq_ok] at h
    obtain ⟨middle, hfirst, hrest⟩ := h
    obtain ⟨hlen, hx, hframe⟩ := (hf x mem_cons_self).of_ok hfirst
    rw [pairwise_cons] at hapart
    obtain ⟨hlen', hxs, hframe'⟩ := ih (fun y hy => hf y (mem_cons_of_mem x hy)) hapart.2 hrest
    refine ⟨hlen'.trans hlen, forall_mem_cons.mpr ⟨?_, hxs⟩, fun other hother => ?_⟩
    -- the later writes are apart from the first span
    · rwa [hframe' (span x) hapart.1]
    · rw [forall_mem_cons] at hother
      rw [hframe' other hother.2, hframe other hother.1]

end Rs3
