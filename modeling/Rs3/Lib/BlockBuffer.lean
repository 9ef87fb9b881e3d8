/-
# Rs3.Lib.BlockBuffer — input of any chunking, output in blocks of one size.

A buffer holds less than a block.  Absorbing an input fills the buffer, hands every full block to a consumer that may
fail, and keeps the rest.  Whatever the chunks, the consumer sees the full blocks of the whole input in order.
-/
import Rs3.Lib.Checked

namespace Rs3

open List

section Blocks

variable {α : Type}

def fullBlocks (size : ℕ) (xs : List α) : List (List α) :=
  (List.range (xs.length / size)).map fun j => slice xs (j * size) ((j + 1) * size)

def blockRest (size : ℕ) (xs : List α) : List α := xs.drop (xs.length / size * size)

variable {size : ℕ}

theorem length_blockRest (hsize : 0 < size) (xs : List α) : (blockRest size xs).length < size := by
  have hdiv := Nat.div_add_mod xs.length size
  have hmod := Nat.mod_lt xs.length hsize
  rw [blockRest, length_drop]
  rw [Nat.mul_comm] at hdiv
  omega

variable {xs block : List α}

theorem length_of_mem_fullBlocks (h : block ∈ fullBlocks size xs) : block.length = size := by
  obtain ⟨j, hj, rfl⟩ := mem_map.mp h
  have hle := Nat.mul_le_mul_right size (Nat.succ_le_of_lt (mem_range.mp hj))
  have hdiv := Nat.div_mul_le_self xs.length size
  rw [length_slice_of_le (hle.trans hdiv), Nat.succ_mul, Nat.add_sub_cancel_left]

theorem fullBlocks_of_lt (h : xs.length < size) : fullBlocks size xs = [] := by
  rw [fullBlocks, Nat.div_eq_of_lt h]
  rfl

theorem blockRest_of_lt (h : xs.length < size) : blockRest size xs = xs := by
  rw [blockRest, Nat.div_eq_of_lt h, Nat.zero_mul, drop_zero]

theorem fullBlocks_cons (hsize : 0 < size) (hblock : block.length = size) (xs : List α) :
    fullBlocks size (block ++ xs) = block :: fullBlocks size xs := by
  have hdiv : (block ++ xs).length / size = xs.length / size + 1 := by
    rw [length_append, hblock, Nat.add_div_left _ hsize]
  rw [fullBlocks, hdiv, range_succ_eq_map, map_cons, map_map, fullBlocks]
  congr 1
  · rw [Nat.zero_mul, slice, drop_zero, Nat.zero_add, Nat.one_mul, ← hblock, take_left]
  · refine map_congr_left fun j _ => ?_
    have hstart : (j + 1) * size = block.length + j * size := by rw [hblock, Nat.succ_mul, Nat.add_comm]
    have hstop : (j + 1 + 1) * size = block.length + (j + 1) * size := by rw [hblock, Nat.succ_mul (j + 1), Nat.add_comm]
    rw [Function.comp_apply, Nat.succ_eq_add_one, hstop, hstart, slice, slice, take_length_add_append,
      drop_length_add_append]

theorem blockRest_cons (hsize : 0 < size) (hblock : block.length = size) (xs : List α) :
    blockRest size (block ++ xs) = blockRest size xs := by
  have hdiv : (block ++ xs).length / size * size = block.length + xs.length / size * size := by
    rw [length_append, hblock, Nat.add_div_left _ hsize, Nat.succ_mul, Nat.add_comm]
  rw [blockRest, hdiv, drop_length_add_append, blockRest]

/-- A list is blocks, and then less than one. -/
theorem blocks_induction {P : List α → Prop} (hsize : 0 < size) (short : ∀ xs, xs.length < size → P xs)
    (cons : ∀ block xs, block.length = size → P xs → P (block ++ xs)) (xs : List α) : P xs := by
  induction hn : xs.length using Nat.strong_induction_on generalizing xs with
  | _ n ih =>
    rcases Nat.lt_or_ge xs.length size with hshort | hlong
    · exact short xs hshort
    · rw [← take_append_drop size xs]
      exact cons _ _ (length_take_of_le hlong) (ih _ (by rw [length_drop]; omega) _ rfl)

/-- The full blocks of a longer list: those of the shorter one, then those that its rest begins. -/
theorem blocks_append (hsize : 0 < size) (xs ys : List α) :
    fullBlocks size (xs ++ ys) = fullBlocks size xs ++ fullBlocks size (blockRest size xs ++ ys) ∧
      blockRest size (xs ++ ys) = blockRest size (blockRest size xs ++ ys) := by
  induction xs using blocks_induction hsize with
  | short xs hshort =>
    rw [fullBlocks_of_lt hshort, blockRest_of_lt hshort]
    exact ⟨rfl, rfl⟩
  | cons block xs hblock ih =>
    rw [append_assoc]
    simp only [fullBlocks_cons hsize hblock, blockRest_cons hsize hblock, ih, cons_append, true_and]

theorem flatten_fullBlocks_append (hsize : 0 < size) (xs : List α) :
    (fullBlocks size xs).flatten ++ blockRest size xs = xs := by
  induction xs using blocks_induction hsize with
  | short xs hshort =>
    rw [fullBlocks_of_lt hshort, blockRest_of_lt hshort]
    rfl
  | cons block xs hblock ih =>
    rw [fullBlocks_cons hsize hblock, blockRest_cons hsize hblock, flatten_cons, append_assoc, ih]

end Blocks

/-! ## The buffer -/

/-- Less than one block. -/
structure BlockBuffer (α : Type) (size : ℕ) where
  held : List α
  room : held.length < size

namespace BlockBuffer

variable {α σ ε : Type} {size : ℕ}

theorem size_pos (buffer : BlockBuffer α size) : 0 < size := Nat.lt_of_le_of_lt (Nat.zero_le _) buffer.room

/-- Fill the buffer from an input, handing on each full block. -/
def absorb (emit : σ → List α → Except ε σ) (buffer : BlockBuffer α size) (state : σ) (input : List α) :
    Except ε (σ × BlockBuffer α size) :=
  if hinput : input = [] then .ok (state, buffer)
  else
    let take := min (size - buffer.held.length) input.length
    if hfull : (buffer.held ++ input.take take).length = size then do
      let state ← emit state (buffer.held ++ input.take take)
      absorb emit ⟨[], buffer.size_pos⟩ state (input.drop take)
    else
      absorb emit ⟨buffer.held ++ input.take take, by
        have hroom := buffer.room
        rw [length_append, length_take] at hfull ⊢
        omega⟩ state (input.drop take)
termination_by input.length
decreasing_by
  all_goals
    have hroom := buffer.room
    have hpos := length_pos_iff.mpr hinput
    rw [length_drop]
    omega

/-- The rest of an input that continues a buffer. -/
def after (buffer : BlockBuffer α size) (input : List α) : BlockBuffer α size :=
  ⟨blockRest size (buffer.held ++ input), length_blockRest buffer.size_pos _⟩

section

variable (emit : σ → List α → Except ε σ) (buffer : BlockBuffer α size) (state : σ)

/-- Absorbing hands on the full blocks of buffer and input, in order, and keeps their rest. -/
theorem absorb_eq (input : List α) : buffer.absorb emit state input = (do
      let state ← (fullBlocks size (buffer.held ++ input)).foldlM emit state
      return (state, buffer.after input)) := by
  fun_induction absorb emit buffer state input with
  | case1 buffer state =>
    have hroom : (buffer.held ++ []).length < size := by
      rw [append_nil]
      exact buffer.room
    rw [fullBlocks_of_lt hroom, foldlM_nil, pure_bind, after]
    simp only [append_nil, blockRest_of_lt buffer.room]
    rfl
  | case2 buffer state input hinput take hfull ih =>
    have hsplit : buffer.held ++ input = (buffer.held ++ input.take take) ++ input.drop take := by
      rw [append_assoc, take_append_drop]
    -- the block that fills up is the first block of what was held and given
    rw [hsplit, fullBlocks_cons buffer.size_pos hfull, foldlM_cons, bind_assoc]
    refine bind_congr fun state' => ?_
    rw [ih state', nil_append, after, after]
    simp only [hsplit, blockRest_cons buffer.size_pos hfull, nil_append]
  | case3 buffer state input hinput take hshort ih =>
    have hsplit : buffer.held ++ input = (buffer.held ++ input.take take) ++ input.drop take := by
      rw [append_assoc, take_append_drop]
    rw [ih, ← hsplit, after, after]
    simp only [← hsplit]

theorem absorb_append (xs ys : List α) : buffer.absorb emit state (xs ++ ys) = (do
      let (state, buffer) ← buffer.absorb emit state xs
      buffer.absorb emit state ys) := by
  obtain ⟨hfull, hrest⟩ := blocks_append buffer.size_pos (buffer.held ++ xs) ys
  simp only [absorb_eq, bind_assoc, pure_bind]
  rw [← append_assoc, hfull, foldlM_append, bind_assoc]
  simp only [after, ← append_assoc, hrest]

theorem absorb_nil : buffer.absorb emit state [] = .ok (state, buffer) := by
  rw [absorb, dif_pos rfl]

end

end BlockBuffer

end Rs3
