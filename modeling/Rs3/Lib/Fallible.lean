/-
# Rs3.Lib.Fallible — taking successful fallible computations apart.

The early returns of the modelled functions become checks in `Except`.  `ensure` is one such check; the
lemmas here say what is known after a sequence of checks succeeded, so that no proof has to split a
`do` block by hand.
-/
import Mathlib.Algebra.Order.Ring.Int
import Mathlib.Data.List.Forall2

namespace Rs3

open List

variable {ε α β : Type}

/-- Continue when `c` holds, fail with `e` otherwise. -/
def ensure (c : Prop) [Decidable c] (e : ε) : Except ε Unit := if c then .ok () else .error e

@[simp] theorem ensure_eq_ok {c : Prop} [Decidable c] : ensure c e = .ok u ↔ c := by
  unfold ensure
  by_cases hc : c <;> simp [hc]

theorem ensure_of {c : Prop} [Decidable c] (h : c) : ensure c e = .ok () := if_pos h

variable {f : α → Except ε β} {xs : List α}

@[simp] theorem bind_eq_ok : (x >>= f) = .ok b ↔ ∃ a, x = .ok a ∧ f a = .ok b := by
  cases x <;> simp [bind, Except.bind]

@[simp]
theorem ok_bind (a : α) (f : α → Except ε β) : (Except.ok a >>= f) = f a := rfl

@[simp]
theorem error_bind (e : ε) (f : α → Except ε β) : (Except.error e >>= f) = .error e := rfl

@[simp] theorem pure_eq_ok : (pure a : Except ε α) = .ok b ↔ a = b := by
  simp [pure, Except.pure]

/-- `Option::ok_or`. -/
def okOr (x : Option α) (e : ε) : Except ε α :=
  match x with
  | some a => .ok a
  | none => .error e

@[simp] theorem okOr_eq_ok : okOr x e = .ok a ↔ x = some a := by
  cases x <;> simp [okOr]

@[simp] theorem mapError_eq_ok {ε' : Type} {x : Except ε α} {f : ε → ε'} : x.mapError f = .ok a ↔ x = .ok a := by
  cases x <;> simp [Except.mapError]

/-- How a computation comes to succeed, as one set of rewriting rules. -/
theorem ok_iff :
    (∀ {ε α β : Type} {x : Except ε α} {f : α → Except ε β} {b : β}, (x >>= f) = .ok b ↔ ∃ a, x = .ok a ∧ f a = .ok b) ∧
    (∀ {ε α : Type} {a b : α}, (pure a : Except ε α) = .ok b ↔ a = b) ∧
    (∀ {ε : Type} {c : Prop} [Decidable c] {e : ε} {u : Unit}, ensure c e = .ok u ↔ c) ∧
    (∀ {ε α : Type} {x : Option α} {e : ε} {a : α}, okOr x e = .ok a ↔ x = some a) ∧
    (∀ {ε ε' α : Type} {x : Except ε α} {f : ε → ε'} {a : α}, x.mapError f = .ok a ↔ x = .ok a) ∧
    ∀ {p : Prop}, (∃ _ : Unit, p) ↔ p :=
  ⟨bind_eq_ok, pure_eq_ok, ensure_eq_ok, okOr_eq_ok, mapError_eq_ok, exists_const _⟩

/-! ## Lists -/

theorem forM_eq_ok {f : α → Except ε Unit} : xs.forM f = .ok u ↔ ∀ x ∈ xs, f x = .ok () := by
  induction xs with
  | nil => simp [List.forM, pure, Except.pure]
  | cons x xs ih =>
    rw [forall_mem_cons, ← ih]
    show (f x >>= fun _ => xs.forM f) = .ok u ↔ _
    simp only [bind_eq_ok, exists_and_right]
    exact ⟨fun ⟨⟨_, hx⟩, hxs⟩ => ⟨hx, hxs⟩, fun ⟨hx, hxs⟩ => ⟨⟨(), hx⟩, hxs⟩⟩

/-- Members of a list of results come from members of the list. -/
theorem mem_of_mapM (h : xs.mapM f = .ok ys) : (∀ y ∈ ys, ∃ x ∈ xs, f x = .ok y) ∧ ∀ x ∈ xs, ∃ y ∈ ys, f x = .ok y := by
  induction xs generalizing ys with
  | nil =>
    cases h
    simp
  | cons x xs ih =>
    simp only [mapM_cons, bind_eq_ok, pure_eq_ok] at h
    obtain ⟨y, hy, rest, hrest, rfl⟩ := h
    obtain ⟨hback, hforth⟩ := ih hrest
    constructor
    · refine forall_mem_cons.mpr ⟨⟨x, mem_cons_self, hy⟩, fun z hz => ?_⟩
      obtain ⟨w, hw, hwz⟩ := hback z hz
      exact ⟨w, mem_cons_of_mem x hw, hwz⟩
    · refine forall_mem_cons.mpr ⟨⟨y, mem_cons_self, hy⟩, fun z hz => ?_⟩
      obtain ⟨w, hw, hwz⟩ := hforth z hz
      exact ⟨w, mem_cons_of_mem y hw, hwz⟩

/-- A list of results, element by element. -/
theorem mapM_eq_ok : xs.mapM f = .ok ys ↔ List.Forall₂ (fun x y => f x = .ok y) xs ys := by
  induction xs generalizing ys with
  | nil =>
    rw [mapM_nil, pure_eq_ok, List.forall₂_nil_left_iff]
    exact eq_comm
  | cons x xs ih =>
    simp only [mapM_cons, bind_eq_ok, pure_eq_ok, List.forall₂_cons_left_iff, ih]
    constructor
    · rintro ⟨y, hy, ys', hys, rfl⟩
      exact ⟨y, ys', hy, hys, rfl⟩
    · rintro ⟨y, ys', hy, hys, rfl⟩
      exact ⟨y, hy, ys', hys, rfl⟩

theorem mapM_of_forall {g : α → β} (h : ∀ x ∈ xs, f x = .ok (g x)) : xs.mapM f = .ok (xs.map g) := by
  rw [mapM_eq_ok, List.forall₂_map_right_iff, List.forall₂_same]
  exact h

theorem exists_mapM_of_forall (h : ∀ x ∈ xs, ∃ y, f x = .ok y) : ∃ ys, xs.mapM f = .ok ys := by
  simp only [mapM_eq_ok]
  induction xs with
  | nil => exact ⟨[], .nil⟩
  | cons x xs ih =>
    obtain ⟨y, hy⟩ := h x mem_cons_self
    obtain ⟨ys, hys⟩ := ih fun x hx => h x (mem_cons_of_mem _ hx)
    exact ⟨y :: ys, .cons hy hys⟩

/-! ## Loops over consecutive ordinals -/

theorem foldlM_range' {σ : Type} {f : σ → ℕ → Except ε σ} {state : ℕ → σ} (first count : ℕ)
    (hround : ∀ o, first ≤ o → o < first + count → f (state o) o = .ok (state (o + 1))) :
    (List.range' first count).foldlM f (state first) = .ok (state (first + count)) := by
  induction count generalizing first with
  | zero => rfl
  | succ count ih =>
    rw [List.range'_succ, foldlM_cons, hround first (Nat.le_refl _) (by omega), ok_bind,
      ih (first + 1) fun o hfirst hlt => hround o (by omega) (by omega)]
    congr 2
    omega

/-- A loop that succeeds went through the states its rounds can only lead to. -/
theorem of_foldlM_range' {σ : Type} {f : σ → ℕ → Except ε σ} {state : ℕ → σ} {P : ℕ → Prop} {first count : ℕ}
    (hround : ∀ o s, first ≤ o → o < first + count → f (state o) o = .ok s → s = state (o + 1) ∧ P o) {result : σ}
    (h : (List.range' first count).foldlM f (state first) = .ok result) :
    result = state (first + count) ∧ ∀ o, first ≤ o → o < first + count → P o := by
  induction count generalizing first with
  | zero => exact ⟨(Except.ok.inj h).symm, fun o hfirst hlt => absurd hlt (Nat.not_lt.mpr hfirst)⟩
  | succ count ih =>
    rw [List.range'_succ, foldlM_cons, bind_eq_ok] at h
    obtain ⟨s, hs, hrest⟩ := h
    obtain ⟨rfl, hfirst⟩ := hround first s (Nat.le_refl _) (by omega) hs
    obtain ⟨hresult, hothers⟩ := ih (fun o s hle hlt => hround o s (by omega) (by omega)) hrest
    refine ⟨by rw [hresult]; congr 1; omega, fun o hle hlt => ?_⟩
    rcases Nat.eq_or_lt_of_le hle with rfl | hlt'
    · exact hfirst
    · exact hothers o hlt' (by omega)

/-! ## Loops whose failures are all alike -/

section Alike

variable {σ : Type}

/-- A computation that fails with one error only. -/
def FailsOnly (e : ε) (x : Except ε α) : Prop := ∀ e', x = .error e' → e' = e

theorem FailsOnly.foldlM {f : σ → α → Except ε σ} (h : ∀ s x, FailsOnly e (f s x)) (xs : List α) (s : σ) :
    FailsOnly e (xs.foldlM f s) := by
  induction xs generalizing s with
  | nil => exact fun _ herror => nomatch herror
  | cons x xs ih =>
    intro e' herror
    rw [foldlM_cons] at herror
    cases hx : f s x with
    | error e'' =>
      rw [hx, error_bind] at herror
      cases herror
      exact h s x _ hx
    | ok s' =>
      rw [hx, ok_bind] at herror
      exact ih s' e' herror

theorem FailsOnly.mapM {f : α → Except ε β} (h : ∀ x, FailsOnly e (f x)) (xs : List α) : FailsOnly e (xs.mapM f) := by
  induction xs with
  | nil => exact fun _ herror => nomatch herror
  | cons x xs ih =>
    intro e' herror
    rw [mapM_cons] at herror
    cases hx : f x with
    | error e'' =>
      rw [hx, error_bind] at herror
      cases herror
      exact h x _ hx
    | ok y =>
      rw [hx, ok_bind] at herror
      cases hxs : xs.mapM f with
      | error e'' =>
        rw [hxs, error_bind] at herror
        cases herror
        exact ih _ hxs
      | ok ys =>
        rw [hxs, ok_bind] at herror
        cases herror

/-- A loop that makes and uses one value a round can make all the values first. -/
theorem foldlM_make_use {make : α → Except ε β} {use : σ → β → Except ε σ}
    (hmake : ∀ x, FailsOnly e (make x)) (huse : ∀ s y, FailsOnly e (use s y)) (xs : List α) (s : σ) :
    xs.foldlM (fun s x => make x >>= use s) s = (do
      let ys ← xs.mapM make
      ys.foldlM use s) := by
  induction xs generalizing s with
  | nil => rfl
  | cons x xs ih =>
    rw [foldlM_cons, mapM_cons]
    cases hx : make x with
    | error e' => simp only [error_bind]
    | ok y =>
      simp only [ok_bind]
      cases hs : use s y with
      | ok s' =>
        rw [ok_bind, ih]
        cases xs.mapM make with
        | error e' => simp only [error_bind]
        | ok ys => simp only [ok_bind, pure_bind, foldlM_cons, hs]
      | error e' =>
        obtain rfl := huse s y _ hs
        rw [error_bind]
        cases hys : xs.mapM make with
        | ok ys => simp only [ok_bind, pure_bind, foldlM_cons, hs, error_bind]
        | error e'' =>
          simp only [error_bind]
          rw [FailsOnly.mapM hmake xs _ hys]

theorem foldlM_congr_mem {f g : σ → α → Except ε σ} (h : ∀ s, ∀ x ∈ xs, f s x = g s x) (s : σ) :
    xs.foldlM f s = xs.foldlM g s := by
  induction xs generalizing s with
  | nil => rfl
  | cons x xs ih =>
    rw [foldlM_cons, foldlM_cons, h s x mem_cons_self]
    exact bind_congr fun s' => ih (fun s x hx => h s x (mem_cons_of_mem _ hx)) s'

end Alike

section Stateful

variable {σ : Type}

theorem run_bind_state (m : ExceptT ε (StateM σ) α) (f : α → ExceptT ε (StateM σ) β) (s : σ) :
    (m >>= f).run s = match m.run s with
      | (.ok a, s') => (f a).run s'
      | (.error e, s') => (.error e, s') := by
  show (match m.run s with | (r, s') => ExceptT.bindCont f r s') = _
  rcases m.run s with ⟨_ | _, _⟩ <;> rfl

theorem run_tryCatch_state (m : ExceptT ε (StateM σ) α) (f : ε → ExceptT ε (StateM σ) α) (s : σ) :
    (tryCatch m f).run s = match m.run s with
      | (.ok a, s') => (.ok a, s')
      | (.error e, s') => (f e).run s' := by
  show (match m.run s with | (r, s') => (match r with
    | Except.ok a => (Pure.pure (Except.ok a) : StateM σ (Except ε α))
    | Except.error e => f e) s') = _
  rcases m.run s with ⟨_ | _, _⟩ <;> rfl

/-- However the computation ends, its states before and after are related. -/
def Steps (R : σ → σ → Prop) (m : ExceptT ε (StateM σ) α) : Prop := ∀ s, R s (m.run s).2

namespace Steps

variable {R : σ → σ → Prop} [IsPreorder σ R] {m : ExceptT ε (StateM σ) α}

theorem bind {f : α → ExceptT ε (StateM σ) β} (hm : Steps R m) (hf : ∀ a, Steps R (f a)) : Steps R (m >>= f) := by
  intro s
  have hfirst := hm s
  rw [run_bind_state]
  rcases hrun : m.run s with ⟨_ | a, s'⟩ <;> rw [hrun] at hfirst
  · exact hfirst
  · exact trans_of R hfirst (hf a s')

theorem tryCatch {f : ε → ExceptT ε (StateM σ) α} (hm : Steps R m) (hf : ∀ e, Steps R (f e)) :
    Steps R (tryCatch m f) := by
  intro s
  have hfirst := hm s
  rw [run_tryCatch_state]
  rcases hrun : m.run s with ⟨e | _, s'⟩ <;> rw [hrun] at hfirst
  · exact trans_of R hfirst (hf e s')
  · exact hfirst

theorem pure (a : α) : Steps R (Pure.pure a : ExceptT ε (StateM σ) α) := fun s => refl_of R s

theorem throw (e : ε) : Steps R (throw e : ExceptT ε (StateM σ) α) := fun s => refl_of R s

theorem get : Steps R (MonadState.get : ExceptT ε (StateM σ) σ) := fun s => refl_of R s

theorem ofExcept (x : Except ε α) : Steps R (ExceptT.mk (Pure.pure x) : ExceptT ε (StateM σ) α) := fun s => refl_of R s

omit [IsPreorder σ R] in
theorem ite {c : Prop} [Decidable c] (hm : Steps R m) (hm' : Steps R m') : Steps R (if c then m else m') := by
  split
  · exact hm
  · exact hm'

end Steps

end Stateful

end Rs3
