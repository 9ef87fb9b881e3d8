/-
# Rs3.Lib.CasSchedule — executing one interleaving of `Rs3.Lib.CasRegister`.

A schedule is a list of choices: let time pass, start a call, let a call take its next step (or lose the
reply of that step), deliver a request in flight.  `Sys.exec` runs a schedule, and every system it
returns is reached by a run (`Sys.run_of_exec`), so a concrete interleaving is checked by evaluation.
-/
import Rs3.Lib.CasRegister

namespace Rs3.Cas

variable {V G L W A K ρ : Type} [DecidableEq G]

/-- The executable form of `Request.Applies`. -/
def Request.applies (q : Request V W) (s : Shared V G L W) : Bool :=
  match q.rev with
  | none => s.reg.isNone
  | some r => s.reg.isSome && s.rev == r

omit [DecidableEq G] in
theorem Request.applies_iff (q : Request V W) (s : Shared V G L W) : q.applies s = true ↔ q.Applies s := by
  unfold Request.applies Request.Applies
  cases q.rev with
  | none => simp
  | some r => simp [Option.ne_none_iff_isSome]

instance (q : Request V W) (s : Shared V G L W) : Decidable (q.Applies s) := decidable_of_iff _ (q.applies_iff s)

inductive Choice (K : Type) where
  | tick (d : ℕ)
  | deliver (n : ℕ)
  | start (c : ℕ) (kind : K)
  /-- Call `c` takes its next step; with `lost` a read fails and the reply of a request is lost. -/
  | step (c : ℕ) (lost : Bool)

section

variable (allowed : Shared V G L W → A → Prop) [∀ s a, Decidable (allowed s a)]

def Shared.submit (s : Shared V G L W) (q : Request V W) : Shared V G L W × Reply V :=
  if q.Applies s then (s.push q, .ok ⟨s.rev + 1, q.val⟩) else (s, .conflict)

def Prog.exec (c : ℕ) (lost : Bool) (s : Shared V G L W) : Prog V G L W A ρ → Option (Shared V G L W × Prog V G L W A ρ)
  | .done _ => none
  | .get k => some (s, k (if lost then none else some s.read))
  | .create w v k =>
    if lost then some (s.lose ⟨c, w, none, v⟩, k .unavailable)
    else some ((s.submit ⟨c, w, none, v⟩).1, k (s.submit ⟨c, w, none, v⟩).2)
  | .replace w b k =>
    if lost then some (s.lose ⟨c, w, some b.rev, b.val⟩, k .unavailable)
    else some ((s.submit ⟨c, w, some b.rev, b.val⟩).1, k (s.submit ⟨c, w, some b.rev, b.val⟩).2)
  | .act g a upd k =>
    if allowed s a then
      some (s.setLocal g (upd s.clock (s.locals g)), k s.clock (s.locals g))
    else none

theorem Prog.step_of_exec {p p' : Prog V G L W A ρ}
    (h : p.exec allowed c lost s = some (s', p')) : Prog.Step allowed c s p s' p' := by
  cases p with
  | done r => cases h
  | get k =>
    cases lost with
    | true =>
      cases h
      exact .getFailed s k
    | false =>
      cases h
      exact .get s k
  | create w v k =>
    cases lost with
    | true =>
      cases h
      exact .createLost s w v k
    | false =>
      simp only [exec, Shared.submit, Bool.false_eq_true, if_false] at h
      split at h
      · rename_i ha
        cases h
        exact .createOk s w v k ha
      · rename_i ha
        cases h
        exact .createConflict s w v k ha
  | replace w b k =>
    cases lost with
    | true =>
      cases h
      exact .replaceLost s w b k
    | false =>
      simp only [exec, Shared.submit, Bool.false_eq_true, if_false] at h
      split at h
      · rename_i ha
        cases h
        exact .replaceOk s w b k ha
      · rename_i ha
        cases h
        exact .replaceConflict s w b k ha
  | act g a upd k =>
    simp only [exec] at h
    split at h
    · rename_i ha
      cases h
      exact .act s g a upd k ha
    · cases h

end

section

variable (P : Protocol V G L W A K ρ) [∀ s k, Decidable (P.startable s k)]
  [∀ s a, Decidable (P.allowed s a)]

/-- One scheduled step; `none` when the choice is not possible. -/
def Sys.execStep (σ : Sys V G L W A K ρ) : Choice K → Option (Sys V G L W A K ρ)
  | .tick d => some ⟨σ.shared.tick d, σ.calls⟩
  | .deliver n =>
    (σ.shared.pool[n]?).bind fun q =>
      if q.Applies σ.shared then some ⟨σ.shared.push q, σ.calls⟩ else none
  | .start c kind =>
    if (σ.calls c).isNone ∧ P.startable σ.shared kind then
      some ⟨σ.shared, Function.update σ.calls c (some (kind, P.prog kind))⟩
    else none
  | .step c lost =>
    (σ.calls c).bind fun call =>
      (call.2.exec P.allowed c lost σ.shared).map fun next =>
        ⟨next.1, Function.update σ.calls c (some (call.1, next.2))⟩

def Sys.exec (σ : Sys V G L W A K ρ) : List (Choice K) → Option (Sys V G L W A K ρ)
  | [] => some σ
  | choice :: rest => (σ.execStep P choice).bind fun σ' => σ'.exec rest

theorem Sys.step_of_execStep {σ σ' : Sys V G L W A K ρ} (h : σ.execStep P choice = some σ') : σ.Step P σ' := by
  cases choice with
  | tick d =>
    cases h
    exact .tick σ d
  | deliver n =>
    simp only [execStep, Option.bind_eq_some_iff] at h
    obtain ⟨q, hq, h⟩ := h
    split at h
    · rename_i ha
      cases h
      exact .deliver σ q (List.mem_of_getElem? hq) ha
    · cases h
  | start c kind =>
    simp only [execStep] at h
    split at h
    · rename_i hc
      cases h
      exact .start σ c kind (Option.isNone_iff_eq_none.mp hc.1) hc.2
    · cases h
  | step c lost =>
    simp only [execStep, Option.bind_eq_some_iff, Option.map_eq_some_iff] at h
    obtain ⟨⟨kind, p⟩, hc, ⟨s', p'⟩, hexec, rfl⟩ := h
    exact .call σ c kind p p' s' hc (Prog.step_of_exec P.allowed hexec)

/-- **A schedule that executes is a run.** -/
theorem Sys.run_of_exec {σ σ' : Sys V G L W A K ρ} (h : σ.exec P schedule = some σ') : σ.Run P σ' := by
  induction schedule generalizing σ with
  | nil =>
    cases h
    exact .refl
  | cons choice rest ih =>
    simp only [exec, Option.bind_eq_some_iff] at h
    obtain ⟨σ₁, hstep, hrest⟩ := h
    exact .head (Sys.step_of_execStep P hstep) (ih hrest)

end

end Rs3.Cas
