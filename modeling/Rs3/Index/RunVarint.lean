/-
# Rs3.Index.RunVarint — the varint loops of `run.rs`.

`Rs3.Index.RunRecords` reads and writes varints through `Rs3.Lib.Varint`, whose numbers have no width.  Here are the
loops of the source on 64-bit words.  No group is ever shifted out of a word, and so the loops are those of the library
and every value has one form.  The room that the writer checks before each byte is `finishWriter` there.
-/
import Rs3.Index.RunRecords

namespace Rs3.Index.RunVarint

theorem shiftRight_lt (h : ¬value < 128) : value >>> 7 < value := by
  rw [Nat.shiftRight_eq_div_pow]
  omega

/-- `varint_len`; the groups are counted from the last one. -/
def varintLen (value : ℕ) : ℕ := if 0x80 ≤ value then varintLen (value >>> 7) + 1 else 1
termination_by value
decreasing_by exact shiftRight_lt (not_lt.mpr ‹_›)

theorem shiftRight_eq_zero_iff : value >>> 7 = 0 ↔ value < 128 := by
  rw [Nat.shiftRight_eq_div_pow]
  omega

/-- The bytes that `Writer::varint` pushes. -/
def writeVarint (value : ℕ) : Bytes :=
  let low := UInt8.ofNat (value &&& 0x7f)
  if value >>> 7 = 0 then [low] else (low ||| 0x80) :: writeVarint (value >>> 7)
termination_by value
decreasing_by exact shiftRight_lt (shiftRight_eq_zero_iff.not.mp ‹_›)

/-- `Reader::varint` with `left` rounds to go. -/
def readVarintFrom : ℕ → ℕ → RunReader ℕ
  | 0, _ => throw .integerOverflow
  | left + 1, value => do
    let index := 9 - left
    let byte ← readByte
    let low := (byte &&& 0x7f).toNat
    ensure (¬(index = 9 ∧ 1 < low)) IndexRunError.integerOverflow
    let value := value ||| low <<< (index * 7) % 2 ^ 64
    if byte &&& 0x80 = 0 then do
      ensure (¬(0 < index ∧ low = 0)) IndexRunError.nonCanonicalVarint
      return value
    else readVarintFrom left value

def readVarint : RunReader ℕ := readVarintFrom 10 0

/-! ## The loops are those of the library -/

theorem writeVarint_eq (h : value < 128 ^ (k + 1)) : writeVarint value = varintGroups (k + 1) value := by
  have hmore : ∀ n < 128, UInt8.ofNat n ||| 0x80 = UInt8.ofNat (n + 128) := by decide +kernel
  have hlow (n : ℕ) : n &&& 0x7f = n % 128 := Nat.and_two_pow_sub_one_eq_mod n 7
  induction k generalizing value with
  | zero =>
    have hsmall : value < 128 := h
    rw [writeVarint, varintGroups, if_pos hsmall, if_pos (shiftRight_eq_zero_iff.mpr hsmall), hlow,
      Nat.mod_eq_of_lt hsmall]
  | succ k ih =>
    rw [writeVarint, varintGroups, hlow]
    by_cases hsmall : value < 128
    · rw [if_pos hsmall, if_pos (shiftRight_eq_zero_iff.mpr hsmall), Nat.mod_eq_of_lt hsmall]
    · rw [if_neg hsmall, if_neg (shiftRight_eq_zero_iff.not.mpr hsmall), hmore _ (Nat.mod_lt _ (by decide)),
        Nat.shiftRight_eq_div_pow, ih (by omega)]

theorem length_writeVarint (value : ℕ) : (writeVarint value).length = varintLen value := by
  fun_induction writeVarint value with
  | case1 value low hlast => rw [varintLen, if_neg (not_le.mpr (shiftRight_eq_zero_iff.mp hlast)), List.length_singleton]
  | case2 value low hmore ih =>
    rw [varintLen, if_pos (not_lt.mp (shiftRight_eq_zero_iff.not.mp hmore)), List.length_cons, ih]

theorem byte_groups (b : UInt8) : (b &&& 0x7f).toNat = b.toNat % 128 ∧ (b &&& 0x80 = 0 ↔ b.toNat < 128) := by
  have h : ∀ n < 256, (UInt8.ofNat n &&& 0x7f).toNat = n % 128 ∧ (UInt8.ofNat n &&& 0x80 = 0 ↔ n < 128) := by
    decide +kernel
  simpa using h _ b.toNat_lt

/-- The groups read so far lie below the next one, so that `|=` adds it. -/
theorem or_shiftLeft (hs : s < 64) (hvalue : value < 2 ^ s) (low : ℕ) :
    value ||| low <<< s % 2 ^ 64 = (value + low * 2 ^ s) % 2 ^ 64 := by
  have hword : value % 2 ^ 64 = value := Nat.mod_eq_of_lt (hvalue.trans (Nat.pow_lt_pow_right (by decide) hs))
  nth_rewrite 1 [← hword]
  rw [← Nat.or_mod_two_pow, Nat.or_comm, Nat.shiftLeft_eq, mul_comm, ← Nat.two_pow_add_eq_or_of_lt hvalue, add_comm]

theorem ensure_congr {c : Prop} (d : Prop) [Decidable c] [Decidable d] (h : c ↔ d) (e : IndexRunError) :
    ensure c e = ensure d e := by
  simp only [ensure, h]

theorem readVarintFrom_eq (hleft : left ≤ 10) (hvalue : value < 2 ^ ((10 - left) * 7)) :
    readVarintFrom left value = do
      let high ← Reader.varintFrom IndexRunError.unexpectedEof .integerOverflow .nonCanonicalVarint left (left = 10)
      return (value + high * 2 ^ ((10 - left) * 7)) % 2 ^ 64 := by
  -- on the rounds left: what was read fills the low bits, and the library's rest of the number goes above them
  induction left generalizing value with
  | zero => rfl
  | succ left ih =>
    rw [Nat.succ_sub_succ] at hvalue ⊢
    rw [readVarintFrom, Reader.varintFrom, bind_assoc]
    refine congrArg _ (funext fun b => ?_)
    obtain ⟨hlow, hlast⟩ := byte_groups b
    have hmod := Nat.mod_lt b.toNat (show 0 < 128 by decide)
    simp only [hlow, hlast, or_shiftLeft (show (9 - left) * 7 < 64 by omega) hvalue, bind_assoc]
    rw [ensure_congr (¬(left = 0 ∧ 1 < b.toNat % 128)) (by omega)]
    refine congrArg _ (funext fun _ => ?_)
    split_ifs
    · rw [ensure_congr (¬(decide (left + 1 = 10) = false ∧ b.toNat % 128 = 0)) (by simp; omega)]
      simp
    · have hnext : 2 ^ ((10 - left) * 7) = 2 ^ ((9 - left) * 7) * 128 := by
        rw [show (10 - left) * 7 = (9 - left) * 7 + 7 by omega, pow_add, show 2 ^ 7 = 128 from rfl]
      rw [ih (by omega), hnext, show decide (left = 10) = false by simp; omega]
      · simp only [bind_assoc, pure_bind, Nat.mod_add_mod]
        refine congrArg _ (funext fun high => ?_)
        rw [← mul_assoc, add_mul, mul_assoc 128]
        congr 2
        omega
      · have hle := Nat.mul_le_mul_right (2 ^ ((9 - left) * 7)) (Nat.le_of_lt_succ hmod)
        exact (Nat.mod_le _ _).trans_lt (by omega)

variable {input rest rest' : Bytes}

/-- What the library reads fits in a word. -/
theorem readVarint_iff : readVarint.run input = .ok (n, rest) ↔ Index.readVarint.run input = .ok (n, rest) := by
  have hword {n : ℕ} {rest : Bytes} (h : Index.readVarint.run input = .ok (n, rest)) :
      (0 + n * 2 ^ ((10 - 10) * 7)) % 2 ^ 64 = n := by
    have hlt := (Index.readVarint_eq_ok.mp h).1
    omega
  rw [readVarint, readVarintFrom_eq le_rfl (by decide), Reader.bind_eq_ok]
  constructor
  · rintro ⟨m, _, h, hvalue⟩
    obtain ⟨rfl, rfl⟩ := Reader.pure_eq_ok.mp hvalue
    rw [hword h]
    exact h
  · intro h
    exact ⟨n, rest, h, Reader.pure_eq_ok.mpr ⟨hword h, rfl⟩⟩

theorem readVarint_eq_ok : readVarint.run input = .ok (n, rest) ↔ n < 2 ^ 64 ∧ input = writeVarint n ++ rest := by
  rw [readVarint_iff, Index.readVarint_eq_ok]
  refine and_congr_right fun hn => ?_
  rw [writeVarint_eq (k := 9) (by omega)]
  rfl

/-! ## Forms that are not canonical -/

/-- The bytes of one number in base 128, however large and however many zero groups end it. -/
def IsForm : Bytes → Prop
  | [] => False
  | b :: form => if b.toNat < 128 then form = [] else IsForm form

/-- The number that the bytes stand for, without a bound. -/
def formValue : Bytes → ℕ
  | [] => 0
  | b :: form => b.toNat % 128 + 128 * formValue form

/-- A reader that succeeds has read one whole form, for its value. -/
theorem varintFrom_form {ε : Type} {eof overflow noncanonical : ε} {form : Bytes} (hform : IsForm form)
    (h : (Reader.varintFrom eof overflow noncanonical k first).run (form ++ rest) = .ok (n, rest')) :
    n = formValue form ∧ rest' = rest := by
  induction k generalizing form first n with
  | zero => cases h
  | succ k ih =>
    rcases form with _ | ⟨b, form⟩
    · exact hform.elim
    · simp only [Reader.varintFrom, Reader.ok_iff, Reader.byte_eq_ok, Reader.ite_eq_ok, List.cons_append] at h
      rw [IsForm] at hform
      obtain ⟨_, _, hb, _, _, ⟨-, rfl⟩, ⟨hlast, _, _, ⟨-, rfl⟩, rfl, rfl⟩ | ⟨hmore, high, _, hhigh, rfl, rfl⟩⟩ := h
      all_goals obtain ⟨rfl, rfl⟩ := List.cons.inj hb
      · rw [if_pos hlast] at hform
        subst hform
        exact ⟨rfl, rfl⟩
      · rw [if_neg hmore] at hform
        obtain ⟨rfl, rfl⟩ := ih hform hhigh
        exact ⟨rfl, rfl⟩

/-- **Varints are canonical.**  The reader inverts the writer, whatever follows; it accepts nothing but what the writer
writes, of which no form starts another; and of all the forms of a number it accepts the shortest one, for the number
itself, so that neither an over-long form nor a number beyond 64 bits is read as something else. -/
theorem run_varints_canonical :
    (∀ n < 2 ^ 64, (writeVarint n).length = varintLen n ∧
      ∀ rest, readVarint.run (writeVarint n ++ rest) = .ok (n, rest)) ∧
    (∀ input n rest, readVarint.run input = .ok (n, rest) → n < 2 ^ 64 ∧ input = writeVarint n ++ rest) ∧
    (∀ m n, m < 2 ^ 64 → n < 2 ^ 64 → writeVarint m <+: writeVarint n → m = n) ∧
    ∀ form rest n rest', IsForm form → readVarint.run (form ++ rest) = .ok (n, rest') →
      n = formValue form ∧ form.length = varintLen n ∧ rest' = rest := by
  refine ⟨fun n hn => ⟨length_writeVarint n, fun rest => readVarint_eq_ok.mpr ⟨hn, rfl⟩⟩,
    fun _ _ _ => readVarint_eq_ok.mp, ?_, ?_⟩
  · rintro m n hm hn ⟨tail, heq⟩
    have hread := readVarint_eq_ok.mpr ⟨hm, heq.symm⟩
    rw [readVarint_eq_ok.mpr ⟨hn, (List.append_nil _).symm⟩] at hread
    cases hread
    rfl
  · intro form rest n rest' hform hread
    obtain ⟨hvalue, rfl⟩ := varintFrom_form hform (readVarint_iff.mp hread)
    obtain ⟨-, heq⟩ := readVarint_eq_ok.mp hread
    exact ⟨hvalue, List.append_cancel_right heq ▸ length_writeVarint n, rfl⟩

end Rs3.Index.RunVarint
