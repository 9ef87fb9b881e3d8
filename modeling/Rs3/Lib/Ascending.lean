/-
# Rs3.Lib.Ascending — lists with strictly ascending keys, and the ordered maps they enumerate.

An ordered map written out entry by entry is a list with strictly ascending keys, and such a list is determined by its
members.  So a snapshot of a map, read back in order, is the map again.  This is a library: it names no program.
-/
import Mathlib.Data.List.Basic
import Mathlib.Data.List.Chain
import Mathlib.Data.List.Pairwise
import Mathlib.Data.List.Sort
import Mathlib.Data.List.Nodup
import Mathlib.Algebra.Order.Ring.Int

namespace Rs3

open List

variable {K α : Type} [Ord K]

/-- The keys strictly ascend. -/
def Ascending (key : α → K) (xs : List α) : Prop := xs.Pairwise fun a b => compare (key a) (key b) = .lt

variable [Std.TransOrd K] {key : α → K} {xs ys : List α}

theorem compare_self_eq (k : K) : compare k k = .eq := Std.ReflCmp.compare_self

theorem Ascending.nodup (h : Ascending key xs) : xs.Nodup := by
  refine List.Pairwise.imp (fun {a b} hlt hab => ?_) h
  subst hab
  rw [compare_self_eq] at hlt
  cases hlt

theorem Ascending.eq_of_mem_iff (hx : Ascending key xs) (hy : Ascending key ys) (h : ∀ a, a ∈ xs ↔ a ∈ ys) :
    xs = ys := by
  refine List.Perm.eq_of_pairwise (fun a b _ _ hab hba => ?_) hx hy
    ((perm_ext_iff_of_nodup hx.nodup hy.nodup).mpr h)
  rw [Std.OrientedCmp.gt_of_lt hab] at hba
  cases hba

omit [Std.TransOrd K] in
theorem ascending_concat : Ascending key (xs ++ [a]) ↔ Ascending key xs ∧ ∀ x ∈ xs, compare (key x) (key a) = .lt := by
  unfold Ascending
  rw [pairwise_append]
  constructor
  · rintro ⟨hxs, -, hlast⟩
    exact ⟨hxs, fun x hx => hlast x hx a mem_cons_self⟩
  · rintro ⟨hxs, hlast⟩
    refine ⟨hxs, pairwise_singleton _ _, fun x hx y hy => ?_⟩
    rw [mem_singleton.mp hy]
    exact hlast x hx

/-- To be above all keys it is enough to be above the last one. -/
theorem Ascending.lt_of_getLast? (h : Ascending key xs)
    (hlast : ∀ last, xs.getLast? = some last → compare (key last) k = .lt) : ∀ x ∈ xs, compare (key x) k = .lt := by
  rcases eq_nil_or_concat xs with rfl | ⟨init, last, rfl⟩
  · exact fun _ hx => absurd hx not_mem_nil
  · rw [concat_eq_append, ascending_concat] at h
    have hk := hlast last (by simp)
    intro x hx
    rw [concat_eq_append, mem_append, mem_singleton] at hx
    rcases hx with hx | rfl
    · exact Std.TransCmp.lt_trans (h.2 x hx) hk
    · exact hk

/-! ## Maps -/

section Maps

variable {V : Type}

theorem ascending_toList (map : Std.ExtTreeMap K V) : Ascending Prod.fst map.toList :=
  Std.ExtTreeMap.ordered_keys_toList

/-- An entry above all others comes last. -/
theorem toList_insert_last [Std.LawfulEqOrd K] {map : Std.ExtTreeMap K V}
    (h : ∀ entry ∈ map.toList, compare entry.1 k = .lt) (v : V) : (map.insert k v).toList = map.toList ++ [(k, v)] := by
  refine (ascending_toList _).eq_of_mem_iff (ascending_concat.mpr ⟨ascending_toList map, h⟩) fun entry => ?_
  obtain ⟨k', v'⟩ := entry
  rw [Std.ExtTreeMap.mem_toList_iff_getElem?_eq_some, Std.ExtTreeMap.getElem?_insert, mem_append,
    mem_singleton, Std.ExtTreeMap.mem_toList_iff_getElem?_eq_some, Prod.mk.injEq]
  by_cases hk : k = k'
  · subst hk
    have hfresh : map[k]? ≠ some v' := by
      intro hmem
      have hlt := h (k, v') (Std.ExtTreeMap.mem_toList_iff_getElem?_eq_some.mpr hmem)
      rw [compare_self_eq] at hlt
      cases hlt
    rw [if_pos (compare_self_eq k), Option.some.injEq]
    exact ⟨fun hv => .inr ⟨rfl, hv.symm⟩, fun hor => hor.elim (absurd · hfresh) fun hv => hv.2.symm⟩
  · rw [if_neg (fun heq => hk (Std.LawfulEqOrd.eq_of_compare heq))]
    exact ⟨.inl, fun hor => hor.elim id fun hv => absurd hv.1.symm hk⟩

end Maps

/-! ## Sorting -/

section Sorting

omit [Std.TransOrd K]

/-- `sort_by` on a key. -/
def sortOn (key : α → K) (xs : List α) : List α := xs.insertionSort fun a b => (compare (key a) (key b)).isLE = true

@[simp] theorem mem_sortOn : a ∈ sortOn key xs ↔ a ∈ xs := mem_insertionSort _

@[simp]
theorem length_sortOn (key : α → K) (xs : List α) : (sortOn key xs).length = xs.length := length_insertionSort _ xs

variable [Std.TransOrd K]

theorem pairwise_sortOn (key : α → K) (xs : List α) :
    (sortOn key xs).Pairwise fun a b => (compare (key a) (key b)).isLE = true := by
  have htotal : Std.Total fun a b : α => (compare (key a) (key b)).isLE = true := by
    refine ⟨fun a b => ?_⟩
    rcases h : compare (key a) (key b) with _ | _ | _
    · exact .inl rfl
    · exact .inl rfl
    · rw [Std.OrientedCmp.lt_of_gt h]
      exact .inr rfl
  have htrans : IsTrans α fun a b : α => (compare (key a) (key b)).isLE = true :=
    ⟨fun _ _ _ hab hbc => Std.TransCmp.isLE_trans hab hbc⟩
  exact pairwise_insertionSort _ xs

omit [Std.TransOrd K] in
theorem perm_of_sortOn_eq (h : sortOn key xs = sortOn key ys) : xs.Perm ys := by
  have hxs : (sortOn key xs).Perm xs := perm_insertionSort _ xs
  have hys : (sortOn key ys).Perm ys := perm_insertionSort _ ys
  exact hxs.symm.trans (h ▸ hys)

/-- Sorting whole elements forgets their order. -/
theorem sortOn_id_eq_of_perm [Std.LawfulEqOrd K] {xs ys : List K} (h : xs.Perm ys) : sortOn id xs = sortOn id ys := by
  have hxs : (sortOn id xs).Perm xs := perm_insertionSort _ xs
  have hys : (sortOn id ys).Perm ys := perm_insertionSort _ ys
  refine List.Perm.eq_of_pairwise (fun a b _ _ hab hba => ?_) (pairwise_sortOn id xs) (pairwise_sortOn id ys)
    ((hxs.trans h).trans hys.symm)
  exact Std.LawfulEqOrd.eq_of_compare (Std.OrientedCmp.isLE_antisymm hab hba)

/-- Sorting forgets the order of elements whose keys differ. -/
theorem sortOn_eq_of_perm (h : xs.Perm ys) (hxs : Ascending key (sortOn key xs)) : sortOn key xs = sortOn key ys := by
  have hperm : (sortOn key xs).Perm (sortOn key ys) :=
    ((perm_insertionSort _ xs).trans h).trans (perm_insertionSort _ ys).symm
  have hdiffer : (sortOn key xs).Pairwise fun a b => compare (key a) (key b) ≠ .eq :=
    hxs.imp fun hlt heq => by
      rw [heq] at hlt
      cases hlt
  refine List.Perm.eq_of_pairwise (fun a b ha hb hab hba => ?_) (pairwise_sortOn key xs) (pairwise_sortOn key ys) hperm
  by_contra hne
  have hsymm : Std.Symm fun a b : α => compare (key a) (key b) ≠ .eq :=
    ⟨fun _ _ hab heq => hab (Std.OrientedCmp.eq_symm heq)⟩
  exact hdiffer.forall ha (hperm.mem_iff.mpr hb) hne (Std.OrientedCmp.isLE_antisymm hab hba)

end Sorting

/-- Neighbours that are related make all pairs related, when the relation passes through every member. -/
theorem pairwise_of_isChain {R : α → α → Prop} (htrans : ∀ a, ∀ b ∈ xs, ∀ c, R a b → R b c → R a c)
    (h : xs.IsChain R) : xs.Pairwise R := by
  induction xs with
  | nil => exact .nil
  | cons a rest ih =>
    have hrest := ih (fun a b hb => htrans a b (mem_cons_of_mem _ hb)) h.tail
    refine .cons (fun c hc => ?_) hrest
    cases rest with
    | nil => exact absurd hc not_mem_nil
    | cons b rest =>
      have hab := (isChain_cons_cons.mp h).1
      rcases mem_cons.mp hc with rfl | hc
      · exact hab
      · exact htrans a b (mem_cons_of_mem _ mem_cons_self) c hab ((pairwise_cons.mp hrest).1 c hc)

/-- A permutation of images, of a function that is injective between the two lists. -/
theorem perm_of_map_perm {α β : Type} {f : α → β} {xs ys : List α} (hinj : ∀ a ∈ xs, ∀ b ∈ ys, f a = f b → a = b)
    (h : (xs.map f).Perm (ys.map f)) : xs.Perm ys := by
  induction xs generalizing ys with
  | nil =>
    have hnil : ys.map f = [] := nil_perm.mp h
    rw [map_eq_nil_iff.mp hnil]
  | cons x xs ih =>
    have hmem : f x ∈ ys.map f := h.mem_iff.mp mem_cons_self
    obtain ⟨y, hy, hfy⟩ := mem_map.mp hmem
    obtain rfl := hinj x mem_cons_self y hy hfy.symm
    -- take the partner of the head out of the other list
    obtain ⟨before, after, rfl⟩ := append_of_mem hy
    have hmove : (before ++ x :: after).Perm (x :: (before ++ after)) := perm_middle
    have hrest : (xs.map f).Perm ((before ++ after).map f) := List.Perm.cons_inv (h.trans (hmove.map f))
    have hsub : ∀ b ∈ before ++ after, b ∈ before ++ x :: after := by
      intro b hb
      rcases mem_append.mp hb with hb | hb
      · exact mem_append_left _ hb
      · exact mem_append_right _ (mem_cons_of_mem _ hb)
    exact ((ih (fun a ha b hb => hinj a (mem_cons_of_mem _ ha) b (hsub b hb)) hrest).cons x).trans
      hmove.symm

end Rs3
