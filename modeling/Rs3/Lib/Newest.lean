/-
# Rs3.Lib.Newest — the elements of highest rank, of a set that grows.

A bounded table that evicts its lowest element when it overflows.  `Newest n rank all kept` says that `kept` is what
such a table holds of everything ever put in: at most `n` elements, all above every one that is gone, and nothing gone
while there is room.  There is at most one such set, so the order of insertion does not show.
-/
import Mathlib.Data.Finset.Card
import Mathlib.Order.Lattice

namespace Rs3

open Finset

variable {α ρ : Type} [LinearOrder ρ] {n : ℕ} {rank : α → ρ} {all kept kept' : Finset α} {x : α}

structure Newest (n : ℕ) (rank : α → ρ) (all kept : Finset α) : Prop where
  subset : kept ⊆ all
  card_le : kept.card ≤ n
  below : ∀ a ∈ all, a ∉ kept → ∀ b ∈ kept, rank a < rank b
  full : ∀ a ∈ all, a ∉ kept → kept.card = n

namespace Newest

theorem empty : Newest n rank ∅ ∅ := ⟨subset_rfl, Nat.zero_le n, by simp, by simp⟩

theorem subset_of (h : Newest n rank all kept) (h' : Newest n rank all kept') : kept ⊆ kept' := by
  intro a ha
  by_contra hgone
  have hfull := h'.full a (h.subset ha) hgone
  -- the other set is as large and lacks `a`, so it holds something this one lacks
  obtain ⟨b, hb, hmissing⟩ : ∃ b ∈ kept', b ∉ kept := by
    by_contra hnone
    push Not at hnone
    have hcard := card_lt_card (ssubset_iff_of_subset hnone |>.mpr ⟨a, ha, hgone⟩)
    have := h.card_le
    omega
  exact lt_asymm (h'.below a (h.subset ha) hgone b hb) (h.below b (h'.subset hb) hmissing a ha)

theorem unique (h : Newest n rank all kept) (h' : Newest n rank all kept') : kept = kept' :=
  (h.subset_of h').antisymm (h'.subset_of h)

variable [DecidableEq α]

/-- There is room for the new element. -/
theorem insert_of_card_le (h : Newest n rank all kept) (hroom : (insert x kept).card ≤ n) :
    Newest n rank (insert x all) (insert x kept) := by
  -- if something is gone the table is full, and the new element is an old one
  have hold : ∀ a ∈ insert x all, a ∉ insert x kept → a ∈ all ∧ a ∉ kept ∧ insert x kept = kept := by
    intro a ha hgone
    obtain ⟨hne, hgone'⟩ := not_or.mp (mem_insert.not.mp hgone)
    have hall := (mem_insert.mp ha).resolve_left hne
    refine ⟨hall, hgone', insert_eq_of_mem ?_⟩
    by_contra hnew
    rw [card_insert_of_notMem hnew, h.full a hall hgone'] at hroom
    omega
  refine ⟨insert_subset_insert x h.subset, hroom, ?_, ?_⟩
  · intro a ha hgone
    obtain ⟨hall, hgone', hsame⟩ := hold a ha hgone
    rw [hsame]
    exact h.below a hall hgone'
  · intro a ha hgone
    obtain ⟨hall, hgone', hsame⟩ := hold a ha hgone
    rw [hsame]
    exact h.full a hall hgone'

/-- The lowest element makes room. -/
theorem insert_erase (h : Newest n rank all kept) (hover : n < (insert x kept).card) (hlow : low ∈ insert x kept)
    (hmin : ∀ a ∈ insert x kept, rank low ≤ rank a) (hinj : Set.InjOn rank (insert x kept : Finset α)) :
    Newest n rank (insert x all) ((insert x kept).erase low) := by
  have hcard : ((insert x kept).erase low).card = n := by
    have hgrow := card_insert_le x kept
    have := h.card_le
    rw [card_erase_of_mem hlow]
    omega
  refine ⟨(erase_subset _ _).trans (insert_subset_insert x h.subset), hcard.le, ?_, fun _ _ _ => hcard⟩
  intro a ha hgone b hb
  obtain ⟨hne, hmem⟩ := mem_erase.mp hb
  have hlt : rank low < rank b := lt_of_le_of_ne (hmin b hmem) fun heq => hne (hinj hmem hlow heq.symm)
  by_cases hheld : a ∈ insert x kept
  · -- what was held and is gone is the lowest itself
    obtain rfl : a = low := by
      by_contra hother
      exact hgone (mem_erase.mpr ⟨hother, hheld⟩)
    exact hlt
  · obtain ⟨hax, hagone⟩ := not_or.mp (mem_insert.not.mp hheld)
    have hbelow := h.below a ((mem_insert.mp ha).resolve_left hax) hagone
    rcases mem_insert.mp hmem with rfl | hkept
    · exact (hbelow low ((mem_insert.mp hlow).resolve_left (Ne.symm hne))).trans hlt
    · exact hbelow b hkept

end Newest

end Rs3
