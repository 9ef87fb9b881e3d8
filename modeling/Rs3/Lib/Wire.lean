/-
# Rs3.Lib.Wire — byte strings, and readers that are exact inverses of writers.

A reader is a cursor over bytes: it fails, or returns a value and the bytes after it.  What is proved about a reader
is one equivalence: it returns `a` on an input exactly when the input starts with the wire form of `a` and `a` is in
the reader's range.  From left to right this is canonicity (an accepted input is what the writer emits), from right
to left it is the round trip, with any bytes after the value.  The equivalences compose along `do` blocks by
rewriting.
-/
import Rs3.Lib.Fallible
import Mathlib.Data.List.Basic
import Mathlib.Data.List.Induction
import Mathlib.Data.Vector.Defs

namespace Rs3

open List hiding Vector

abbrev Bytes := List UInt8

/-! ## Big-endian integers -/

/-- The `k` low bytes of a number, the most significant one first. -/
def toBe : ℕ → ℕ → Bytes
  | 0, _ => []
  | k + 1, n => toBe k (n / 256) ++ [UInt8.ofNat n]

@[simp]
theorem length_toBe (k n : ℕ) : (toBe k n).length = k := by
  induction k generalizing n with
  | zero => rfl
  | succ k ih => rw [toBe, length_append, ih, length_singleton]

/-- The number that some bytes spell, the most significant one first. -/
def ofBe (bytes : Bytes) : ℕ := bytes.foldl (fun n byte => 256 * n + byte.toNat) 0

theorem ofBe_concat (bytes : Bytes) (byte : UInt8) : ofBe (bytes ++ [byte]) = 256 * ofBe bytes + byte.toNat := by
  simp [ofBe]

theorem ofBe_toBe (h : n < 256 ^ k) : ofBe (toBe k n) = n := by
  induction k generalizing n with
  | zero =>
    rw [pow_zero, Nat.lt_one_iff] at h
    subst h
    rfl
  | succ k ih =>
    have hdiv : n / 256 < 256 ^ k := by
      rw [pow_succ] at h
      omega
    rw [toBe, ofBe_concat, ih hdiv, UInt8.toNat_ofNat']
    omega

theorem ofBe_lt (bytes : Bytes) : ofBe bytes < 256 ^ bytes.length := by
  induction bytes using List.reverseRecOn with
  | nil => simp [ofBe]
  | append_singleton bytes byte ih =>
    rw [ofBe_concat, length_append, length_singleton, pow_succ]
    have := byte.toNat_lt
    omega

theorem toBe_ofBe (bytes : Bytes) : toBe bytes.length (ofBe bytes) = bytes := by
  induction bytes using List.reverseRecOn with
  | nil => rfl
  | append_singleton bytes byte ih =>
    have hbyte := byte.toNat_lt
    have hlow : UInt8.ofNat (256 * ofBe bytes + byte.toNat) = byte := by
      apply UInt8.toNat_inj.mp
      rw [UInt8.toNat_ofNat']
      omega
    rw [length_append, length_singleton, toBe, ofBe_concat, hlow,
      show (256 * ofBe bytes + byte.toNat) / 256 = ofBe bytes by omega, ih]

/-! ## Texts -/

def utf8 (text : String) : Bytes := text.toByteArray.data.toList

theorem length_utf8 (text : String) : (utf8 text).length = text.utf8ByteSize := by
  rw [utf8, Array.length_toList]
  rfl

/-- `from_utf8`. -/
def fromUtf8 (bytes : Bytes) : Option String := String.fromUTF8? ⟨bytes.toArray⟩

@[simp] theorem fromUtf8_eq_some : fromUtf8 bytes = some text ↔ bytes = utf8 text := by
  unfold fromUtf8 String.fromUTF8? utf8
  constructor
  · intro h
    split at h
    · cases h
      rfl
    · cases h
  · rintro rfl
    have hvalid := text.isValidUTF8
    rw [dif_pos hvalid]
    rfl

theorem utf8_inj (h : utf8 a = utf8 b) : a = b := by
  have : fromUtf8 (utf8 a) = some a := fromUtf8_eq_some.mpr rfl
  rw [h, fromUtf8_eq_some.mpr rfl] at this
  exact (Option.some.inj this).symm

/-! ## Concatenations -/

theorem length_flatMap_le {α : Type} {wire : α → Bytes} {xs : List α} (h : ∀ x ∈ xs, (wire x).length ≤ c) :
    (xs.flatMap wire).length ≤ xs.length * c := by
  induction xs with
  | nil => simp
  | cons x xs ih =>
    rw [forall_mem_cons] at h
    have hrest := ih h.2
    rw [flatMap_cons, length_append, length_cons, Nat.succ_mul]
    omega

/-! ## Arrays -/

/-- `try_into` an array of `n` bytes. -/
def exactly (n : ℕ) (bytes : Bytes) : Option (Vector UInt8 n) :=
  if h : bytes.length = n then some ⟨bytes.toArray, by simpa using h⟩ else none

@[simp] theorem exactly_eq_some : exactly n bytes = some array ↔ bytes = array.toList := by
  unfold exactly
  constructor
  · intro h
    split at h
    · cases h
      simp [Vector.toList]
    · cases h
  · rintro rfl
    rw [dif_pos (by simp)]
    congr 1

/-! ## Readers -/

/-- A cursor over bytes. -/
abbrev Reader (ε α : Type) := StateT Bytes (Except ε) α

namespace Reader

variable {ε ε' α β : Type} {input rest : Bytes}

variable {p : Reader ε α}

theorem bind_eq_ok {f : α → Reader ε β} :
    (p >>= f).run input = .ok (b, rest) ↔ ∃ a mid, p.run input = .ok (a, mid) ∧ (f a).run mid = .ok (b, rest) := by
  rw [StateT.run_bind, Rs3.bind_eq_ok, Prod.exists]

theorem pure_eq_ok : (pure a : Reader ε α).run input = .ok (b, rest) ↔ a = b ∧ input = rest := by
  rw [StateT.run_pure, Rs3.pure_eq_ok, Prod.mk.injEq]

theorem lift_eq_ok {x : Except ε α} {b : α} :
    (liftM x : Reader ε α).run input = .ok (b, rest) ↔ x = .ok b ∧ input = rest := by
  cases x <;> simp [liftM, monadLift, MonadLift.monadLift, StateT.run, StateT.lift, bind, Except.bind, pure,
    Except.pure]

/-- How a reader comes to succeed, as one set of rewriting rules. -/
theorem ok_iff :
    (∀ {ε α β : Type} {p : Reader ε α} {input rest : Bytes} {f : α → Reader ε β} {b : β},
      (p >>= f).run input = .ok (b, rest) ↔ ∃ a mid, p.run input = .ok (a, mid) ∧ (f a).run mid = .ok (b, rest)) ∧
    (∀ {ε α : Type} {input rest : Bytes} {a b : α},
      (pure a : Reader ε α).run input = .ok (b, rest) ↔ a = b ∧ input = rest) ∧
    ∀ {ε α : Type} {input rest : Bytes} {x : Except ε α} {b : α},
      (liftM x : Reader ε α).run input = .ok (b, rest) ↔ x = .ok b ∧ input = rest :=
  ⟨bind_eq_ok, pure_eq_ok, lift_eq_ok⟩

/-- A field that is read and then converted: the converted value says what was read. -/
theorem exists_converted {valid : α → Prop} {wire : α → Bytes} :
    (∃ raw mid, (valid raw ∧ input = wire raw ++ mid) ∧ raw = a ∧ mid = rest) ↔ valid a ∧ input = wire a ++ rest := by
  constructor
  · rintro ⟨_, _, h, rfl, rfl⟩
    exact h
  · intro h
    exact ⟨a, rest, h, rfl, rfl⟩

/-- `map_err`. -/
def mapError (p : Reader ε α) (f : ε → ε') : Reader ε' α := fun input => (p.run input).mapError f

theorem mapError_eq_ok {f : ε → ε'} : (p.mapError f).run input = .ok (a, rest) ↔ p.run input = .ok (a, rest) :=
  Rs3.mapError_eq_ok

/-- The reader accepts exactly the wire forms of the values in its range. -/
def Reads (p : Reader ε α) (valid : α → Prop) (wire : α → Bytes) : Prop :=
  ∀ input a rest, p.run input = .ok (a, rest) ↔ valid a ∧ input = wire a ++ rest

variable {e : ε}

def byte (e : ε) : Reader ε UInt8
  | [] => .error e
  | b :: rest => .ok (b, rest)

theorem byte_eq_ok : (byte e).run input = .ok (b, rest) ↔ input = b :: rest := by
  cases input <;> simp [byte, StateT.run]

/-- The next `n` bytes. -/
def take (e : ε) (n : ℕ) : Reader ε Bytes := fun input =>
  if n ≤ input.length then .ok (input.take n, input.drop n) else .error e

theorem take_eq_ok : (take e n).run input = .ok (bytes, rest) ↔ bytes.length = n ∧ input = bytes ++ rest := by
  simp only [take, StateT.run]
  constructor
  · intro h
    split at h
    · rename_i hle
      cases h
      exact ⟨length_take_of_le hle, (take_append_drop n input).symm⟩
    · cases h
  · rintro ⟨rfl, rfl⟩
    simp

/-- A big-endian integer of `k` bytes. -/
def be (e : ε) (k : ℕ) : Reader ε ℕ := do
  let bytes ← take e k
  return ofBe bytes

theorem be_eq_ok : (be e k).run input = .ok (n, rest) ↔ n < 256 ^ k ∧ input = toBe k n ++ rest := by
  simp only [be, bind_eq_ok, take_eq_ok, pure_eq_ok]
  constructor
  · rintro ⟨bytes, mid, ⟨rfl, rfl⟩, rfl, rfl⟩
    exact ⟨ofBe_lt bytes, by rw [toBe_ofBe]⟩
  · rintro ⟨hlt, rfl⟩
    exact ⟨toBe k n, rest, ⟨length_toBe k n, rfl⟩, ofBe_toBe hlt, rfl⟩

/-! ### Repetition -/

/-- The same value `n` times. -/
def many (p : Reader ε α) : ℕ → Reader ε (List α)
  | 0 => pure []
  | n + 1 => do
    let a ← p
    let others ← many p n
    return a :: others

theorem many_eq_ok {valid : α → Prop} {wire : α → Bytes} (hp : Reads p valid wire)
    : (many p n).run input = .ok (xs, rest) ↔
      xs.length = n ∧ (∀ x ∈ xs, valid x) ∧ input = xs.flatMap wire ++ rest := by
  induction n generalizing input rest xs with
  | zero =>
    simp only [many, pure_eq_ok]
    constructor
    · rintro ⟨rfl, rfl⟩
      simp
    · rintro ⟨hlen, -, rfl⟩
      obtain rfl := length_eq_zero_iff.mp hlen
      simp
  | succ n ih =>
    simp only [many, bind_eq_ok, pure_eq_ok, hp _ _ _, ih]
    constructor
    · rintro ⟨a, mid, ⟨ha, rfl⟩, others, mid', ⟨rfl, hothers, rfl⟩, rfl, rfl⟩
      exact ⟨rfl, forall_mem_cons.mpr ⟨ha, hothers⟩, by simp⟩
    · rintro ⟨hlen, hvalid, rfl⟩
      rcases xs with _ | ⟨x, xs⟩
      · simp at hlen
      · rw [forall_mem_cons] at hvalid
        exact ⟨x, xs.flatMap wire ++ rest, ⟨hvalid.1, by simp⟩, xs, rest, ⟨by simpa using hlen, hvalid.2, rfl⟩,
          rfl, rfl⟩

/-! ### Records with their length -/

/-- A length of `k` bytes that `accept`s, then a record of that length for `decode`. -/
def framed (e limit : ε) (k : ℕ) (accept : ℕ → Bool) (decode : Bytes → Except ε α) : Reader ε α := do
  let len ← be e k
  ensure (accept len = true) limit
  let record ← take e len
  decode record

theorem framed_eq_ok {accept : ℕ → Bool} {decode : Bytes → Except ε α} {valid : α → Prop}
    {wire : α → Bytes} (hdecode : ∀ bytes a, decode bytes = .ok a ↔ valid a ∧ bytes = wire a) :
    Reads (framed e limit k accept decode)
      (fun a => valid a ∧ accept (wire a).length = true ∧ (wire a).length < 256 ^ k)
      (fun a => toBe k (wire a).length ++ wire a) := by
  intro input a rest
  simp only [framed, bind_eq_ok, be_eq_ok, lift_eq_ok, ensure_eq_ok, take_eq_ok, hdecode]
  constructor
  · rintro ⟨_, mid, ⟨hlt, rfl⟩, _, mid', ⟨haccept, rfl⟩, record, mid'', ⟨rfl, rfl⟩, ⟨hvalid, rfl⟩, rfl⟩
    exact ⟨⟨hvalid, haccept, hlt⟩, (append_assoc ..).symm⟩
  · rintro ⟨⟨hvalid, haccept, hlt⟩, rfl⟩
    exact ⟨_, _, ⟨hlt, append_assoc ..⟩, (), _, ⟨haccept, rfl⟩, _, rest, ⟨rfl, rfl⟩, ⟨hvalid, rfl⟩, rfl⟩

/-! ### The whole input -/

/-- A value with nothing after it. -/
def whole (p : Reader ε α) (e : ε) (input : Bytes) : Except ε α := do
  let result ← p.run input
  ensure (result.2 = []) e
  return result.1

theorem whole_eq_ok : whole p e input = .ok a ↔ p.run input = .ok (a, []) := by
  simp only [whole, Rs3.bind_eq_ok, ensure_eq_ok, exists_const, Rs3.pure_eq_ok]
  constructor
  · rintro ⟨⟨a, rest⟩, h, rfl, rfl⟩
    exact h
  · intro h
    exact ⟨(a, []), h, rfl, rfl⟩

end Reader

end Rs3
