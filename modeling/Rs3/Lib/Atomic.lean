/-
# Rs3.Lib.Atomic — methods that fail without effect.

A method on shared state that makes all its checks before its first write either does all its work or leaves the
state alone.  `Atomically` says so together with a postcondition, and its rules follow the shape of such a method:
read the state, check, then write.
-/
import Rs3.Lib.Fallible

namespace Rs3

variable {ε σ α β : Type}

/-- From `s` the computation fails and leaves `s`, or succeeds with `Q`. -/
def Atomically (m : ExceptT ε (StateM σ) α) (s : σ) (Q : α → σ → Prop) : Prop :=
  match m.run s with
  | (.ok a, s') => Q a s'
  | (.error _, s') => s' = s

namespace Atomically

variable {m : ExceptT ε (StateM σ) α} {s s' : σ} {Q : α → σ → Prop}

theorem of_run (hrun : m.run s = (.ok a, s')) (hQ : Q a s') : Atomically m s Q := by
  unfold Atomically
  rw [hrun]
  exact hQ

theorem bind_get {f : σ → ExceptT ε (StateM σ) α} (h : Atomically (f s) s Q) : Atomically (get >>= f) s Q := h

theorem bind_check {x : Except ε β} {f : β → ExceptT ε (StateM σ) α}
    (h : ∀ b, x = .ok b → Atomically (f b) s Q) : Atomically ((liftM x : ExceptT ε (StateM σ) β) >>= f) s Q := by
  cases x with
  | error e => exact (rfl : s = s)
  | ok b => exact h b rfl

theorem unchanged (h : Atomically m s Q) {e : ε} (hrun : m.run s = (.error e, s')) : s' = s := by
  unfold Atomically at h
  rw [hrun] at h
  exact h

theorem result (h : Atomically m s Q) (hrun : m.run s = (.ok a, s')) : Q a s' := by
  unfold Atomically at h
  rw [hrun] at h
  exact h

/-- However the computation ends, the state is the old one or satisfies the postcondition. -/
theorem state_cases (h : Atomically m s Q) : (m.run s).2 = s ∨ ∃ a, Q a (m.run s).2 := by
  rcases hrun : m.run s with ⟨_ | a, s'⟩
  · exact Or.inl (h.unchanged hrun)
  · exact Or.inr ⟨a, h.result hrun⟩

end Atomically

end Rs3
