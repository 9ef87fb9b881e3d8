/-
# Rs3.Lib.CasLogic — a rely-guarantee logic for the clients of `Rs3.Lib.CasRegister`.

`wp` is the weakest precondition of a client program under interference.  Before each of its steps the
other calls may have extended the history (`Rely`), so every assertion it manipulates is about the
history and is stable by construction.  Its guarantee is a state invariant `Inv`: each own step, and each
request of the program whenever it is applied (also long after its reply was lost), must keep `Inv`.

`Sys.Sound.run` is the rule: when every kind of call meets its specification from any state satisfying
`Inv`, then every state of every run satisfies `Inv` and every finished call meets its postcondition.
-/
import Rs3.Lib.CasRegister

namespace Rs3.Cas

open List Function

variable {V G L W A K ρ ρ' : Type}

/-! ## History facts -/

namespace Shared

/-- `s'` is a later state than `s`: more requests applied, more time passed. -/
structure Extends (s s' : Shared V G L W) : Prop where
  init : s'.init = s.init
  log : s.log <+: s'.log
  clock : s.clock ≤ s'.clock

theorem Extends.refl (s : Shared V G L W) : Extends s s := ⟨rfl, prefix_rfl, le_rfl⟩

variable {s s' : Shared V G L W}

theorem Extends.trans (h : Extends s s') (h' : Extends s' s'') : Extends s s'' :=
  ⟨h'.init.trans h.init, h.log.trans h'.log, Nat.le_trans h.clock h'.clock⟩

theorem extends_push (s : Shared V G L W) (q : Request V W) : Extends s (s.push q) := ⟨rfl, prefix_append _ _, le_rfl⟩

theorem extends_lose (s : Shared V G L W) (q : Request V W) : Extends s (s.lose q) := ⟨rfl, prefix_rfl, le_rfl⟩

theorem extends_tick (s : Shared V G L W) (d : ℕ) : Extends s (s.tick d) := ⟨rfl, prefix_rfl, Nat.le_add_right _ _⟩

theorem extends_setLocal [DecidableEq G] (s : Shared V G L W) (g : G) (l : L) : Extends s (s.setLocal g l) :=
  ⟨rfl, prefix_rfl, le_rfl⟩

theorem Extends.rev_le (h : Extends s s') : s.rev ≤ s'.rev := h.log.length_le

variable {i r : ℕ} {v : V}

theorem Extends.log_getElem? (h : Extends s s') (hi : i < s.rev) : s'.log[i]? = s.log[i]? := by
  obtain ⟨t, ht⟩ := h.log
  rw [← ht]
  exact List.getElem?_append_left hi

/-- The content of a revision that was reached never changes. -/
theorem Extends.valAt (h : Extends s s') (hr : r ≤ s.rev) : s'.valAt r = s.valAt r := by
  cases r with
  | zero => exact h.init
  | succ r => simp only [Shared.valAt, h.log_getElem? (Nat.lt_of_succ_le hr)]

/-- Only revisions that were reached have a content. -/
theorem le_rev_of_valAt (hv : s.valAt r = some v) : r ≤ s.rev := by
  cases r with
  | zero => exact Nat.zero_le _
  | succ r =>
    by_contra hge
    have hnone : s.log[r]? = none := List.getElem?_eq_none (Nat.le_of_lt_succ (not_le.mp hge))
    simp [Shared.valAt, hnone] at hv

theorem Extends.valAt_some (h : Extends s s') (hv : s.valAt r = some v) : s'.valAt r = some v := by
  rw [h.valAt (le_rev_of_valAt hv), hv]

/-- A read returns the content of the current revision. -/
theorem read_eq_some (h : s.read = some w) : s.valAt w.rev = some w.val ∧ w.rev = s.rev := by
  unfold Shared.read at h
  cases hreg : s.reg with
  | none => simp [hreg] at h
  | some v =>
    rw [hreg] at h
    cases h
    exact ⟨hreg, rfl⟩

/-- The only entry a push adds is its own. -/
theorem push_log_new (hw : (s.push q).log[i]? = some w) (hi : s.rev ≤ i) :
    i = s.rev ∧ w = ⟨q.call, q.label, q.val⟩ := by
  obtain ⟨hlt, heq⟩ := List.getElem?_eq_some_iff.mp hw
  have hieq : i = s.rev := by
    simp only [push_log, length_append, length_singleton] at hlt
    simp only [Shared.rev] at hi ⊢
    omega
  subst hieq
  exact ⟨rfl, by simpa [Shared.rev] using heq.symm⟩

theorem push_log_last (s : Shared V G L W) (q : Request V W) :
    (s.push q).log[s.rev]? = some ⟨q.call, q.label, q.val⟩ := by
  simp [Shared.rev]

theorem valAt_push_rev (s : Shared V G L W) (q : Request V W) : (s.push q).valAt (s.rev + 1) = some q.val := by
  simp [Shared.valAt, Shared.rev]

end Shared

open Shared

variable {c : ℕ} {s s' : Shared V G L W}

theorem Prog.Step.extends [DecidableEq G] {allowed : Shared V G L W → A → Prop} (h : Prog.Step allowed c s p s' p') :
    Extends s s' := by
  cases h with
  | get => exact .refl s
  | getFailed => exact .refl s
  | createOk => exact extends_push s _
  | createConflict => exact .refl s
  | createLost => exact extends_lose s _
  | replaceOk => exact extends_push s _
  | replaceConflict => exact .refl s
  | replaceLost => exact extends_lose s _
  | act => exact extends_setLocal s _ _

variable {P : Protocol V G L W A K ρ} {σ σ' : Sys V G L W A K ρ}

theorem Sys.Step.extends [DecidableEq G] (h : σ.Step P σ') : Extends σ.shared σ'.shared := by
  cases h with
  | tick d => exact extends_tick _ d
  | deliver q => exact extends_push _ q
  | start => exact .refl _
  | call c kind p p' s' hc hs => exact hs.extends

/-- A step that applies a request takes no time. -/
theorem Sys.Step.clock_eq [DecidableEq G]
    (h : σ.Step P σ') (hlog : σ'.shared.log ≠ σ.shared.log) : σ'.shared.clock = σ.shared.clock := by
  cases h with
  | tick d => exact absurd rfl hlog
  | deliver q => rfl
  | start => rfl
  | call c kind p p' s' hc hs => cases hs <;> rfl

/-- A finished call stays finished with the same result. -/
theorem Sys.Run.finished [DecidableEq G] (h : σ.Run P σ') (hc : σ.calls c = some (kind, .done r)) :
    σ'.calls c = some (kind, .done r) := by
  induction h with
  | refl => exact hc
  | tail _ hs ih =>
    cases hs with
    | tick d => exact ih
    | deliver q => exact ih
    | start d kind' hd =>
      have hne : c ≠ d := by
        rintro rfl
        rw [hd] at ih
        cases ih
      exact (update_of_ne hne _ _).trans ih
    | call d kind' p p' s' hd hs =>
      have hne : c ≠ d := by
        rintro rfl
        rw [ih] at hd
        cases hd
        cases hs
      exact (update_of_ne hne _ _).trans ih

/-- A replacement applies exactly on top of the value its revision was read at. -/
theorem Request.Applies.reg_eq {q : Request V W}
    (ha : q.Applies s') (hq : q.rev = some r) (h : Extends s s') (hv : s.valAt r = some v) :
    s'.reg = some v ∧ s'.rev = r := by
  rw [Request.Applies, hq] at ha
  obtain ⟨-, hrev⟩ := ha
  refine ⟨?_, hrev⟩
  rw [Shared.reg, hrev]
  exact h.valAt_some hv

/-! ## Interference -/

section Logic

variable (Inv : Shared V G L W → Prop) (allowed : Shared V G L W → A → Prop)

/-- What the rest of the system may do to the shared state between two steps of call `c`.  New history
entries of `c` itself can only come from requests `c` has in flight. -/
structure Rely (c : ℕ) (s s' : Shared V G L W) : Prop where
  ext : Extends s s'
  inv : Inv s'
  pool : ∀ q ∈ s'.pool, q.call = c → q ∈ s.pool
  log : ∀ i w, s'.log[i]? = some w → s.rev ≤ i → w.call = c →
    ∃ q ∈ s.pool, q.call = c ∧ q.label = w.label ∧ (q.rev = none ∧ s'.valAt i = none ∨ q.rev = some i)

/-- Whenever the request is applied later, the invariant survives. -/
def Deliverable (q : Request V W) (s : Shared V G L W) : Prop :=
  ∀ s', Extends s s' → Inv s' → q.Applies s' → Inv (s'.push q)

variable {Inv allowed}

theorem Rely.refl (h : Inv s) : Rely Inv c s s where
  ext := .refl s
  inv := h
  pool := fun _ hq _ => hq
  log := by
    intro i w hw hi _
    have hnone : s.log[i]? = none := List.getElem?_eq_none hi
    rw [hnone] at hw
    cases hw

theorem Rely.trans (h : Rely Inv c s s') (h' : Rely Inv c s' s'') : Rely Inv c s s'' where
  ext := h.ext.trans h'.ext
  inv := h'.inv
  pool := fun q hq hc => h.pool q (h'.pool q hq hc) hc
  log := by
    intro i w hw hi hc
    by_cases hlt : i < s'.rev
    · -- the entry was already there at `s'`
      rw [h'.ext.log_getElem? hlt] at hw
      rw [h'.ext.valAt (Nat.le_of_lt hlt)]
      exact h.log i w hw hi hc
    · obtain ⟨q, hq, hqc, hrest⟩ := h'.log i w hw (not_lt.mp hlt) hc
      exact ⟨q, h.pool q hq hqc, hqc, hrest⟩

theorem Deliverable.mono (h : Deliverable Inv q s) (he : Extends s s') : Deliverable Inv q s' :=
  fun s'' he' => h s'' (he.trans he')

/-! ## Weakest preconditions -/

variable (Inv) in
/-- The four things that can become of a submitted request. -/
def Submit (q : Request V W) (post : Reply V → Shared V G L W → Prop) (s : Shared V G L W) : Prop :=
  Deliverable Inv q s ∧ Inv (s.lose q) ∧
  (q.Applies s → post (.ok ⟨s.rev + 1, q.val⟩) (s.push q)) ∧
  (¬ q.Applies s → post .conflict s) ∧
  post .unavailable (s.lose q)

theorem Submit.mono {post post' : Reply V → Shared V G L W → Prop}
    (h : Submit Inv q post s) (hp : ∀ x s', post x s' → post' x s') :
    Submit Inv q post' s := by
  obtain ⟨hd, hl, hok, hconf, hun⟩ := h
  exact ⟨hd, hl, fun ha => hp _ _ (hok ha), fun ha => hp _ _ (hconf ha), hp _ _ hun⟩

section Wp

variable [DecidableEq G]

variable (Inv allowed)

/-- **Weakest precondition under interference.** -/
def wp (c : ℕ) : Prog V G L W A ρ → (ρ → Shared V G L W → Prop) → Shared V G L W → Prop
  | .done r, Q, s => ∀ s', Rely Inv c s s' → Q r s'
  | .get k, Q, s => ∀ s', Rely Inv c s s' → wp c (k none) Q s' ∧ wp c (k (some s'.read)) Q s'
  | .create w v k, Q, s => ∀ s', Rely Inv c s s' → Submit Inv ⟨c, w, none, v⟩ (fun x => wp c (k x) Q) s'
  | .replace w b k, Q, s => ∀ s', Rely Inv c s s' → Submit Inv ⟨c, w, some b.rev, b.val⟩ (fun x => wp c (k x) Q) s'
  | .act g a upd k, Q, s => ∀ s', Rely Inv c s s' → allowed s' a →
      Inv (s'.setLocal g (upd s'.clock (s'.locals g))) ∧
      wp c (k s'.clock (s'.locals g)) Q (s'.setLocal g (upd s'.clock (s'.locals g)))

variable {Inv allowed}

variable {p : Prog V G L W A ρ}

variable {c : ℕ} {Q : ρ → Shared V G L W → Prop} {s : Shared V G L W}

/-- Every weakest precondition is stable under interference. -/
theorem wp_rely (h : wp Inv allowed c p Q s) (hr : Rely Inv c s s') : wp Inv allowed c p Q s' := by
  cases p with
  | done | get | create | replace | act => exact fun s'' hr' => h s'' (hr.trans hr')

theorem wp_mono {Q' : ρ → Shared V G L W → Prop}
    (h : wp Inv allowed c p Q s) (hQ : ∀ r s', Inv s' → Q r s' → Q' r s') :
    wp Inv allowed c p Q' s := by
  induction p generalizing s with
  | done r => exact fun s' hr => hQ r s' hr.inv (h s' hr)
  | get k ih => exact fun s' hr => ⟨ih none (h s' hr).1, ih _ (h s' hr).2⟩
  | create w v k ih | replace w b k ih => exact fun s' hr => (h s' hr).mono fun x _ hx => ih x hx
  | act g a upd k ih => exact fun s' hr ha => ⟨(h s' hr ha).1, ih _ _ (h s' hr ha).2⟩

/-- **Sequencing.** -/
theorem wp_bind {f : ρ → Prog V G L W A ρ'} {Q : ρ' → Shared V G L W → Prop} (hs : Inv s)
    (h : wp Inv allowed c p (fun r s' => wp Inv allowed c (f r) Q s') s) :
    wp Inv allowed c (p.bind f) Q s := by
  induction p generalizing s with
  | done r => exact h s (.refl hs)
  | get k ih =>
    exact fun s' hr => ⟨ih none hr.inv (h s' hr).1, ih _ hr.inv (h s' hr).2⟩
  | create w v k ih | replace w b k ih =>
    intro s' hr
    obtain ⟨hd, hl, hok, hconf, hun⟩ := h s' hr
    exact ⟨hd, hl, fun ha => ih _ (hd s' (.refl s') hr.inv ha) (hok ha), fun ha => ih _ hr.inv (hconf ha), ih _ hl hun⟩
  | act g a upd k ih =>
    intro s' hr ha
    obtain ⟨hi, hw⟩ := h s' hr ha
    exact ⟨hi, ih _ _ hi hw⟩

theorem wp_map {f : ρ → ρ'} {Q : ρ' → Shared V G L W → Prop} (h : wp Inv allowed c p (fun r => Q (f r)) s) :
    wp Inv allowed c (p.bind fun r => .done (f r)) Q s := by
  induction p generalizing s with
  | done r => exact h
  | get k ih => exact fun s' hr => ⟨ih none (h s' hr).1, ih _ (h s' hr).2⟩
  | create w v k ih | replace w b k ih => exact fun s' hr => (h s' hr).mono fun x _ hx => ih x hx
  | act g a upd k ih => exact fun s' hr ha => ⟨(h s' hr ha).1, ih _ _ (h s' hr ha).2⟩

variable (Inv) in
/-- What a step of call `c` guarantees: the invariant and what the other calls rely on, and that whatever it put in
flight is deliverable. -/
structure Guarantees (c : ℕ) (s s' : Shared V G L W) : Prop where
  inv : Inv s'
  rely : ∀ d, d ≠ c → Rely Inv d s s'
  ext : Extends s s'
  pool : ∀ q ∈ s'.pool, q ∈ s.pool ∨ q.call = c ∧ Deliverable Inv q s'
  log : ∀ w ∈ s'.log, w ∈ s.log ∨ w.call = c

section Guarantees

omit [DecidableEq G]

variable {q : Request V W}

theorem Guarantees.refl (hs : Inv s) : Guarantees Inv c s s :=
  ⟨hs, fun _ _ => .refl hs, .refl s, fun _ hq => .inl hq, fun _ hw => .inl hw⟩

-- a request of `c` that is applied or lost adds nothing under another call's name
theorem Guarantees.push (hq : q.call = c) (hi : Inv (s.push q)) : Guarantees Inv c s (s.push q) := by
  refine ⟨hi, fun d hd => ⟨extends_push s q, hi, fun q' hq' _ => hq', fun i w hw hlen hcall => ?_⟩, extends_push s q,
    fun _ hq' => .inl hq', forall_mem_append.mpr ⟨fun _ hw => .inl hw, forall_mem_singleton.mpr (.inr hq)⟩⟩
  obtain ⟨-, rfl⟩ := push_log_new hw hlen
  exact absurd (hq.symm.trans hcall).symm hd

theorem Guarantees.lose (hs : Inv s) (hq : q.call = c) (hd : Deliverable Inv q s) (hi : Inv (s.lose q)) :
    Guarantees Inv c s (s.lose q) := by
  refine ⟨hi, fun d hne => ⟨extends_lose s q, hi, fun q' hq' hcall => ?_, (Rely.refl (c := d) hs).log⟩,
    extends_lose s q, forall_mem_cons.mpr ⟨.inr ⟨hq, hd.mono (extends_lose s q)⟩, fun _ hq' => .inl hq'⟩,
    fun _ hw => .inl hw⟩
  rcases mem_cons.mp hq' with rfl | hq'
  · exact absurd (hq.symm.trans hcall).symm hne
  · exact hq'

end Guarantees

/-- One step of a call keeps its guarantees and leaves the call meeting its specification. -/
theorem wp_step {p' : Prog V G L W A ρ}
    {s' : Shared V G L W} (hs : Inv s) (h : wp Inv allowed c p Q s) (hstep : Prog.Step allowed c s p s' p') :
    wp Inv allowed c p' Q s' ∧ Guarantees Inv c s s' := by
  have here : Rely Inv c s s := .refl hs
  cases hstep with
  | get k => exact ⟨(h s here).2, .refl hs⟩
  | getFailed k => exact ⟨(h s here).1, .refl hs⟩
  | createOk w v k ha | replaceOk w b k ha =>
    obtain ⟨hd, -, hok, -, -⟩ := h s here
    exact ⟨hok ha, .push rfl (hd s (.refl s) hs ha)⟩
  | createConflict w v k ha | replaceConflict w b k ha =>
    obtain ⟨-, -, -, hconf, -⟩ := h s here
    exact ⟨hconf ha, .refl hs⟩
  | createLost w v k | replaceLost w b k =>
    obtain ⟨hd, hl, -, -, hun⟩ := h s here
    exact ⟨hun, .lose hs rfl hd hl⟩
  | act g a upd k ha =>
    obtain ⟨hi, hw⟩ := h s here ha
    have hext := extends_setLocal s g (upd s.clock (s.locals g))
    exact ⟨hw, hi, fun d _ => ⟨hext, hi, fun q hq _ => hq, (Rely.refl (c := d) hs).log⟩, hext,
      fun q hq => .inl hq, fun w hw => .inl hw⟩

end Wp

end Logic

/-! ## Soundness over whole runs -/

section Soundness

variable [DecidableEq G]

/-- No request of call `c` was ever submitted. -/
structure Quiet (c : ℕ) (s : Shared V G L W) : Prop where
  log : ∀ w ∈ s.log, w.call ≠ c
  pool : ∀ q ∈ s.pool, q.call ≠ c

omit [DecidableEq G] in
theorem Quiet.rely {Inv : Shared V G L W → Prop} (h : Quiet c s) (hr : Rely Inv c s s') : Quiet c s' := by
  constructor
  · intro w hw hc
    obtain ⟨i, hi⟩ := List.getElem?_of_mem hw
    rcases Nat.lt_or_ge i s.rev with hlt | hge
    · rw [hr.ext.log_getElem? hlt] at hi
      exact h.log w (mem_of_getElem? hi) hc
    · obtain ⟨q, hq, hqc, -⟩ := hr.log i w hi hge hc
      exact h.pool q hq hqc
  · intro q hq hc
    exact h.pool q (hr.pool q hq hc) hc

/-- Specifications for every kind of call of a protocol, with one invariant. -/
structure Spec (P : Protocol V G L W A K ρ) where
  Inv : Shared V G L W → Prop
  post : K → ℕ → ρ → Shared V G L W → Prop
  tick : ∀ s d, Inv s → Inv (s.tick d)
  call : ∀ kind c s, Inv s → P.startable s kind → Quiet c s → wp Inv P.allowed c (P.prog kind) (post kind c) s

/-- The system invariant behind a specification. -/
structure Spec.Sound {P : Protocol V G L W A K ρ} (S : Spec P) (σ : Sys V G L W A K ρ) : Prop where
  inv : S.Inv σ.shared
  pool : ∀ q ∈ σ.shared.pool, Deliverable S.Inv q σ.shared ∧ σ.calls q.call ≠ none
  log : ∀ w ∈ σ.shared.log, σ.calls w.call ≠ none
  calls : ∀ c kind p, σ.calls c = some (kind, p) → wp S.Inv P.allowed c p (S.post kind c) σ.shared

namespace Spec

variable {P : Protocol V G L W A K ρ} {S : Spec P} {σ σ' : Sys V G L W A K ρ}

theorem sound_initial (hi : σ.Initial) (hinv : S.Inv σ.shared) : S.Sound σ where
  inv := hinv
  pool := by
    intro q hq
    rw [hi.pool] at hq
    cases hq
  log := by
    intro w hw
    rw [hi.log] at hw
    cases hw
  calls := by
    intro c kind p hc
    rw [hi.calls c] at hc
    cases hc

/-- A step of the environment: every call only sees interference. -/
theorem Sound.env (h : S.Sound σ) (hinv : S.Inv s')
    (hrely : ∀ c, Rely S.Inv c σ.shared s') (hpool : s'.pool = σ.shared.pool)
    (hlog : ∀ w ∈ s'.log, σ.calls w.call ≠ none) : S.Sound ⟨s', σ.calls⟩ where
  inv := hinv
  pool := by
    intro q hq
    rw [show (Sys.mk s' σ.calls).shared = s' from rfl, hpool] at hq
    exact ⟨(h.pool q hq).1.mono (hrely 0).ext, (h.pool q hq).2⟩
  log := hlog
  calls := fun c kind p hc => wp_rely (h.calls c kind p hc) (hrely c)

/-- A call that was started stays so. -/
theorem update_ne_none {α β : Type*} [DecidableEq α] {f : α → Option β} {a b : α} {x : β} (h : f b ≠ none) :
    update f a (some x) b ≠ none := by
  by_cases hb : b = a
  · rw [hb, update_self]
    exact Option.some_ne_none x
  · rwa [update_of_ne hb]

theorem Sound.step (h : S.Sound σ) (hs : σ.Step P σ') : S.Sound σ' := by
  cases hs with
  | tick d =>
    refine h.env (S.tick _ d h.inv) ?_ rfl h.log
    intro c
    exact ⟨extends_tick _ d, S.tick _ d h.inv, fun q hq _ => hq, (Rely.refl (c := c) h.inv).log⟩
  | deliver q hq ha =>
    have hi := (h.pool q hq).1 _ (.refl _) h.inv ha
    refine h.env hi ?_ rfl ?_
    · intro c
      refine ⟨extends_push _ q, hi, fun q' hq' _ => hq', ?_⟩
      intro i w hw hlen hcall
      -- the only new entry is the delivered request itself
      obtain ⟨hieq, rfl⟩ := push_log_new hw hlen
      refine ⟨q, hq, hcall, rfl, ?_⟩
      cases hrev : q.rev with
      | none =>
        rw [Request.Applies, hrev] at ha
        refine Or.inl ⟨rfl, ?_⟩
        rw [hieq, (extends_push _ q).valAt le_rfl]
        exact ha
      | some r =>
        rw [Request.Applies, hrev] at ha
        rw [hieq, ha.2]
        exact Or.inr rfl
    · intro w hw
      rcases mem_append.mp hw with hw | hw
      · exact h.log w hw
      · rw [mem_singleton.mp hw]
        exact (h.pool q hq).2
  | start c kind hc hstart =>
    refine ⟨h.inv, fun q hq => ⟨(h.pool q hq).1, update_ne_none (h.pool q hq).2⟩,
      fun w hw => update_ne_none (h.log w hw), ?_⟩
    intro d kind' p hd
    by_cases hdc : d = c
    · subst hdc
      simp only [update_self, Option.some.injEq, Prod.mk.injEq] at hd
      obtain ⟨rfl, rfl⟩ := hd
      refine S.call _ _ _ h.inv hstart ⟨?_, ?_⟩
      · rintro w hw rfl
        exact h.log w hw hc
      · rintro q hq rfl
        exact (h.pool q hq).2 hc
    · simp only [update_of_ne hdc] at hd
      exact h.calls d kind' p hd
  | call c kind p p' s' hc hstep =>
    obtain ⟨hwp, hi, hrely, hext, hpool, hlog⟩ := wp_step h.inv (h.calls c kind p hc) hstep
    have self : update σ.calls c (some (kind, p')) c ≠ none := by simp
    refine ⟨hi, ?_, ?_, ?_⟩
    · intro q hq
      rcases hpool q hq with hq | ⟨hqc, hd⟩
      · exact ⟨(h.pool q hq).1.mono hext, update_ne_none (h.pool q hq).2⟩
      · exact ⟨hd, hqc ▸ self⟩
    · intro w hw
      rcases hlog w hw with hw | hwc
      · exact update_ne_none (h.log w hw)
      · exact hwc ▸ self
    · intro d kind' p'' hd
      by_cases hdc : d = c
      · subst hdc
        simp only [update_self, Option.some.injEq, Prod.mk.injEq] at hd
        obtain ⟨rfl, rfl⟩ := hd
        exact hwp
      · simp only [update_of_ne hdc] at hd
        exact wp_rely (h.calls d kind' p'' hd) (hrely d hdc)

/-- **The rule.**  A specification carries over to every state of every run. -/
theorem Sound.run (h : S.Sound σ) (hr : σ.Run P σ') : S.Sound σ' := by
  induction hr with
  | refl => exact h
  | tail _ hs ih => exact ih.step hs

/-- A finished call meets its postcondition. -/
theorem Sound.result (h : S.Sound σ) (hc : σ.calls c = some (kind, .done r)) : S.post kind c r σ.shared :=
  h.calls c kind _ hc σ.shared (.refl h.inv)

end Spec

end Soundness

end Rs3.Cas
