/-
# Rs3.Lib.Writer — a byte writer with a limit on everything written.

The counterpart of `Rs3.Lib.Wire` for encoders that check the room before each item.  `Writes` says that a piece of
an encoder emits fixed bytes under a condition, and fails exactly when the condition does or the bytes no longer fit;
its rules follow the shape of an encoder.
-/
import Rs3.Lib.Checked
import Rs3.Lib.Cbor

namespace Rs3

open List

/-- An encoder that has written some bytes. -/
abbrev Writer (ε α : Type) := StateT Bytes (Except ε) α

namespace Writer

variable {ε α : Type}

/-- The next item has `additional` bytes; their total must stay within the limit. -/
def room (limit : ℕ) (e : ε) (additional : ℕ) : Writer ε Unit := do
  let written ← get
  let total ← okOr (checkedAdd 64 written.length additional) e
  ensure (total ≤ limit) e

/-- One item of a known length. -/
def emit (limit : ℕ) (e : ε) (additional : ℕ) (bytes : Bytes) : Writer ε Unit := do
  room limit e additional
  modify fun written => written ++ bytes

/-- From any content within the limit the writer appends `wire`, provided that `valid` and that it fits. -/
def Writes (limit : ℕ) (w : Writer ε Unit) (valid : Prop) (wire : Bytes) : Prop :=
  ∀ written out, written.length ≤ limit →
    (w.run written = .ok ((), out) ↔ valid ∧ out = written ++ wire ∧ out.length ≤ limit)

namespace Writes

variable {limit : ℕ} {e : ε} {valid valid' : Prop} {wire : Bytes}

theorem emit (hlimit : limit < 2 ^ 64) (h : additional = bytes.length) :
    Writes limit (Writer.emit limit e additional bytes) True bytes := by
  subst h
  intro written out _
  have hget : ∀ {s a s' : Bytes}, (get : Writer ε Bytes).run s = .ok (a, s') ↔ s = a ∧ s = s' := by
    intro s a s'
    exact Reader.pure_eq_ok (a := s)
  have hmodify : ∀ s : Bytes, (modify fun written => written ++ bytes : Writer ε Unit).run s = .ok ((), s ++ bytes) :=
    fun _ => rfl
  simp only [Writer.emit, Writer.room, Reader.ok_iff, hmodify, hget, okOr_eq_ok, checkedAdd_eq_some, ensure_eq_ok,
    Except.ok.injEq, Prod.mk.injEq]
  constructor
  · intro h
    obtain ⟨_, _, ⟨_, _, ⟨rfl, rfl⟩, _, _, ⟨⟨_, rfl⟩, rfl⟩, hfits, rfl⟩, _, rfl⟩ := h
    rw [length_append]
    exact ⟨trivial, rfl, hfits⟩
  · intro h
    obtain ⟨_, rfl, hfits⟩ := h
    rw [length_append] at hfits
    exact ⟨(), written, ⟨written, written, ⟨rfl, rfl⟩, _, written, ⟨⟨by omega, rfl⟩, rfl⟩, hfits, rfl⟩, trivial, rfl⟩

theorem seq (h : Writes limit w valid wire) (h' : Writes limit w' valid' wire') :
    Writes limit (w >>= fun _ => w') (valid ∧ valid') (wire ++ wire') := by
  intro written out hwritten
  rw [Reader.bind_eq_ok]
  constructor
  · intro hrun
    obtain ⟨_, mid, hfirst, hsecond⟩ := hrun
    obtain ⟨hvalid, rfl, hmid⟩ := (h written mid hwritten).mp hfirst
    obtain ⟨hvalid', rfl, hout⟩ := (h' _ out hmid).mp hsecond
    rw [append_assoc] at hout ⊢
    exact ⟨⟨hvalid, hvalid'⟩, rfl, hout⟩
  · intro hrun
    obtain ⟨⟨hvalid, hvalid'⟩, rfl, hout⟩ := hrun
    have hmid : (written ++ wire).length ≤ limit := by
      simp only [length_append] at hout ⊢
      omega
    refine ⟨(), _, (h written _ hwritten).mpr ⟨hvalid, rfl, hmid⟩, (h' _ _ hmid).mpr ⟨hvalid', ?_, hout⟩⟩
    rw [append_assoc]

/-- A value that the rest of the encoder needs. -/
theorem bind_some {f : α → Writer ε Unit} (h : ∀ a, x = some a → Writes limit (f a) valid wire) :
    Writes limit ((liftM (okOr x e) : Writer ε α) >>= f) (x.isSome = true ∧ valid) wire := by
  intro written out hwritten
  simp only [Reader.ok_iff, okOr_eq_ok]
  constructor
  · intro hrun
    obtain ⟨a, mid, ⟨hsome, rfl⟩, hrun⟩ := hrun
    obtain ⟨hvalid, hout⟩ := (h a hsome written out hwritten).mp hrun
    exact ⟨⟨by rw [hsome]; rfl, hvalid⟩, hout⟩
  · intro hrun
    obtain ⟨⟨hsome, hvalid⟩, hout⟩ := hrun
    obtain ⟨a, ha⟩ := Option.isSome_iff_exists.mp hsome
    exact ⟨a, written, ⟨ha, rfl⟩, (h a ha written out hwritten).mpr ⟨hvalid, hout⟩⟩

theorem nil : Writes limit (pure () : Writer ε Unit) True [] := by
  intro written out hwritten
  rw [Reader.pure_eq_ok, append_nil]
  constructor
  · intro h
    obtain ⟨_, rfl⟩ := h
    exact ⟨trivial, rfl, hwritten⟩
  · intro h
    exact ⟨rfl, h.2.1.symm⟩

theorem forM {xs : List α} {f : α → Writer ε Unit} {p : α → Prop} {wires : α → Bytes}
    (h : ∀ x, Writes limit (f x) (p x) (wires x)) :
    Writes limit (forM xs f) (∀ x ∈ xs, p x) (xs.flatMap wires) := by
  induction xs with
  | nil =>
    intro written out hwritten
    have hnil := (nil : Writes limit (pure () : Writer ε Unit) True []) written out hwritten
    simpa using hnil
  | cons x xs ih =>
    intro written out hwritten
    have hcons := (h x).seq ih written out hwritten
    rw [forall_mem_cons, flatMap_cons, forM_cons]
    exact hcons

end Writes

end Writer

namespace Cbor

/-- `cbor_head_len`. -/
def headLen (value : ℕ) : ℕ :=
  if value ≤ 23 then 1
  else if value ≤ 0xff then 2
  else if value ≤ 0xffff then 3
  else if value ≤ 0xffffffff then 5
  else 9

theorem headLen_eq (major : UInt8) (value : ℕ) : headLen value = (writeTypeLen major value).length := by
  unfold headLen writeTypeLen
  split_ifs <;> simp only [length_cons, length_nil, length_toBe]

end Cbor

end Rs3
