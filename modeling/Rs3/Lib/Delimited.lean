/-
# Rs3.Lib.Delimited — encodings that say where they end.

Two streams that begin with such an encoding and are equal begin with the same value; so a sequence of fields, each of
which says where it ends, determines every field.  No reader is needed for that.
-/
import Rs3.Lib.Wire

namespace Rs3

open List hiding Vector

/-- An encoding that determines its value and where it ends. -/
def Delimited {α : Type} (valid : α → Prop) (encode : α → Bytes) : Prop :=
  ∀ {a b : α} {rest rest' : Bytes}, valid a → valid b → encode a ++ rest = encode b ++ rest' → a = b ∧ rest = rest'

variable {α : Type} {rest rest' : Bytes}

theorem Delimited.of_le {size : α → ℕ} {encode : α → Bytes}
    (h : Delimited (fun a => size a < limit) encode) (hbound : bound < limit) (ha : size a ≤ bound) (hb : size b ≤ bound)
    (heq : encode a ++ rest = encode b ++ rest') : a = b ∧ rest = rest' :=
  h (Nat.lt_of_le_of_lt ha hbound) (Nat.lt_of_le_of_lt hb hbound) heq

theorem Delimited.eq {valid : α → Prop} (h : Delimited valid encode) (ha : valid a) (hb : valid b)
    (heq : encode a = encode b) : a = b :=
  (h ha hb (congrArg (· ++ []) heq)).1

theorem delimited_toBe (k : ℕ) : Delimited (· < 256 ^ k) (toBe k) := by
  intro a b rest rest' ha hb h
  obtain ⟨hhead, hrest⟩ := append_inj h (by rw [length_toBe, length_toBe])
  refine ⟨?_, hrest⟩
  rw [← ofBe_toBe ha, hhead, ofBe_toBe hb]

/-- Bytes after their length. -/
def lengthFramed (k : ℕ) (bytes : Bytes) : Bytes := toBe k bytes.length ++ bytes

theorem delimited_lengthFramed (k : ℕ) : Delimited (fun bytes : Bytes => bytes.length < 256 ^ k) (lengthFramed k) := by
  intro a b rest rest' ha hb h
  rw [lengthFramed, lengthFramed, append_assoc, append_assoc] at h
  obtain ⟨hlen, hbytes⟩ := delimited_toBe k ha hb h
  exact append_inj hbytes hlen

/-- A list of delimited encodings, when its length is known. -/
theorem Delimited.flatMap {valid : α → Prop} {encode : α → Bytes} (h : Delimited valid encode)
    {xs ys : List α} (hlen : xs.length = ys.length) (hxs : ∀ x ∈ xs, valid x)
    (hys : ∀ y ∈ ys, valid y) (heq : xs.flatMap encode ++ rest = ys.flatMap encode ++ rest') :
    xs = ys ∧ rest = rest' := by
  induction xs generalizing ys with
  | nil =>
    cases ys with
    | nil => exact ⟨rfl, heq⟩
    | cons y ys => cases hlen
  | cons x xs ih =>
    cases ys with
    | nil => cases hlen
    | cons y ys =>
      rw [forall_mem_cons] at hxs hys
      rw [flatMap_cons, flatMap_cons, append_assoc, append_assoc] at heq
      obtain ⟨rfl, hothers⟩ := h hxs.1 hys.1 heq
      obtain ⟨rfl, hrest⟩ := ih (Nat.succ.inj hlen) hxs.2 hys.2 hothers
      exact ⟨rfl, hrest⟩

theorem delimited_vector (n : ℕ) : Delimited (fun _ : Vector UInt8 n => True) fun v => v.toList := by
  intro a b rest rest' _ _ h
  obtain ⟨hhead, hrest⟩ := append_inj h (by rw [Vector.length_toList, Vector.length_toList])
  exact ⟨Vector.toList_inj.mp hhead, hrest⟩

/-- A text after its length in bytes. -/
def textFramed (k : ℕ) (text : String) : Bytes := toBe k text.utf8ByteSize ++ utf8 text

theorem delimited_textFramed (k : ℕ) : Delimited (fun text : String => text.utf8ByteSize < 256 ^ k) (textFramed k) := by
  intro a b rest rest' ha hb h
  rw [textFramed, textFramed, ← length_utf8, ← length_utf8] at h
  rw [← length_utf8] at ha hb
  obtain ⟨htext, hrest⟩ := delimited_lengthFramed k ha hb h
  exact ⟨utf8_inj htext, hrest⟩

/-- Two labels that differ within the shorter one start no common stream. -/
theorem append_ne_of_take_ne
    (h : a.take (min a.length b.length) ≠ b.take (min a.length b.length)) : a ++ rest ≠ b ++ rest' := by
  intro heq
  have htake := congrArg (List.take (min a.length b.length)) heq
  rw [take_append_of_le_length (Nat.min_le_left _ _), take_append_of_le_length (Nat.min_le_right _ _)]
    at htake
  exact h htake

/-- A tag, and the value when there is one. -/
def optionFramed {α : Type} (encode : α → Bytes) : Option α → Bytes
  | none => [0]
  | some a => 1 :: encode a

theorem Delimited.option {valid : α → Prop} {encode : α → Bytes} (h : Delimited valid encode) :
    Delimited (fun value : Option α => ∀ a ∈ value, valid a) (optionFramed encode) := by
  intro a b rest rest' ha hb heq
  rcases a with _ | a <;> rcases b with _ | b
  · exact ⟨rfl, (List.cons.inj heq).2⟩
  · exact absurd (List.cons.inj heq).1 (by decide)
  · exact absurd (List.cons.inj heq).1 (by decide)
  · obtain ⟨rfl, hrest⟩ := h (ha a rfl) (hb b rfl) (List.cons.inj heq).2
    exact ⟨rfl, hrest⟩

/-- One byte for a truth value. -/
def flagByte (value : Bool) : UInt8 := if value then 1 else 0

theorem flagByte_inj (h : flagByte a = flagByte b) : a = b := by
  revert h
  cases a <;> cases b <;> decide

/-- An encoding that is delimited stays so under a renaming of its values. -/
theorem Delimited.comap {β : Type} {valid : α → Prop} {encode : α → Bytes} (h : Delimited valid encode)
    (f : β → α) (hf : ∀ {a b}, f a = f b → a = b) : Delimited (fun b => valid (f b)) fun b => encode (f b) := by
  intro a b rest rest' ha hb heq
  obtain ⟨hvalue, hrest⟩ := h ha hb heq
  exact ⟨hf hvalue, hrest⟩

end Rs3
