/-
# Rs3.Lib.Varint — canonical little-endian base-128 integers.

Seven bits a byte, the lowest group first, the high bit on every byte but the last.  A 64-bit value takes at most ten
groups, the last of them at most one; the reader refuses anything longer, and refuses a final group of zero, so every
value has exactly one form.  This is a library: it names no program.
-/
import Rs3.Lib.Wire

namespace Rs3

/-! ## The writer -/

/-- At most `k` groups of a number. -/
def varintGroups : ℕ → ℕ → Bytes
  | 0, _ => []
  | k + 1, n =>
    if n < 128 then [UInt8.ofNat n] else UInt8.ofNat (n % 128 + 128) :: varintGroups k (n / 128)

/-- The groups of a 64-bit value. -/
def varint (n : ℕ) : Bytes := varintGroups 10 n

def varintLenGroups : ℕ → ℕ → ℕ
  | 0, _ => 0
  | k + 1, n => if n < 128 then 1 else varintLenGroups k (n / 128) + 1

/-- The number of groups, without writing them. -/
def varintLen (n : ℕ) : ℕ := varintLenGroups 10 n

/-! ## The reader -/

namespace Reader

variable {ε α : Type} {eof overflow noncanonical : ε} {input rest : Bytes}

/-- At most `k` further groups; `first` is set before any group was read. -/
def varintFrom (eof overflow noncanonical : ε) : ℕ → Bool → Reader ε ℕ
  | 0, _ => throw overflow
  | k + 1, first => do
    let b ← byte eof
    let low := b.toNat % 128
    ensure (¬(k = 0 ∧ 1 < low)) overflow
    if b.toNat < 128 then do
      ensure (¬(first = false ∧ low = 0)) noncanonical
      return low
    else do
      let high ← varintFrom eof overflow noncanonical k false
      return low + 128 * high

/-- A canonical 64-bit integer. -/
def varint (eof overflow noncanonical : ε) : Reader ε ℕ := varintFrom eof overflow noncanonical 10 true

theorem throw_eq_ok : (throw e : Reader ε α).run input = .ok (a, rest) ↔ False := by
  constructor
  · intro h
    cases h
  · exact False.elim

theorem ite_eq_ok {c : Prop} [Decidable c] {p q : Reader ε α} :
    (if c then p else q).run input = .ok (a, rest) ↔
      c ∧ p.run input = .ok (a, rest) ∨ ¬c ∧ q.run input = .ok (a, rest) := by
  split_ifs with hc <;> simp [hc]

theorem byte_ofNat_lt (h : n < 256) : (UInt8.ofNat n).toNat = n := by
  rw [UInt8.toNat_ofNat']
  omega

/-- The last group that fits is at most one; the bound of no group is zero. -/
theorem varintFrom_eq_ok : (varintFrom eof overflow noncanonical k first).run input = .ok (n, rest) ↔
    (n < 2 * 128 ^ k / 128 ∧ (first = false → n ≠ 0)) ∧ input = varintGroups k n ++ rest := by
  -- on the bytes left; only the first byte may stand alone for zero
  induction k generalizing first n input rest with
  | zero => exact throw_eq_ok.trans (iff_of_false id fun h => absurd h.1.1 (Nat.not_lt_zero n))
  | succ k ih =>
    have hpow : 2 * 128 ^ (k + 1) / 128 = 2 * 128 ^ k := by
      rw [pow_succ, ← mul_assoc, Nat.mul_div_cancel _ (by decide)]
    have hone : k = 0 ∧ 128 ^ k = 1 ∨ k ≠ 0 ∧ 128 ≤ 128 ^ k ∧ 128 ∣ 128 ^ k := by
      rcases eq_or_ne k 0 with rfl | hk
      · exact .inl ⟨rfl, rfl⟩
      · exact .inr ⟨hk, Nat.le_self_pow hk 128, dvd_pow_self 128 hk⟩
    rw [varintFrom, varintGroups, hpow]
    simp only [bind_eq_ok, byte_eq_ok, lift_eq_ok, ensure_eq_ok, ite_eq_ok, pure_eq_ok, ih]
    constructor
    · rintro ⟨b, _, rfl, _, _, ⟨hlow, rfl⟩, ⟨hb, _, _, ⟨hfirst, rfl⟩, rfl, rfl⟩ |
        ⟨hb, high, _, ⟨⟨hhigh, hne⟩, rfl⟩, rfl, rfl⟩⟩
      · rw [Nat.mod_eq_of_lt hb] at hlow hfirst ⊢
        rw [if_pos hb, UInt8.ofNat_toNat]
        exact ⟨⟨by omega, fun hf hz => hfirst ⟨hf, hz⟩⟩, rfl⟩
      · have hlt := b.toNat_lt
        have hpos : high ≠ 0 := hne trivial
        rw [if_neg (by omega), show (b.toNat % 128 + 128 * high) / 128 = high by omega,
          show (b.toNat % 128 + 128 * high) % 128 + 128 = b.toNat by omega, UInt8.ofNat_toNat]
        exact ⟨⟨by omega, by omega⟩, rfl⟩
    · rintro ⟨⟨hn, hfirst⟩, rfl⟩
      split_ifs with hsmall
      · have hval : (UInt8.ofNat n).toNat = n := byte_ofNat_lt (by omega)
        refine ⟨UInt8.ofNat n, rest, rfl, (), rest, ⟨?_, rfl⟩, .inl ⟨?_, (), rest, ⟨?_, rfl⟩, ?_, rfl⟩⟩
        all_goals rw [hval]
        · omega
        · exact hsmall
        · rw [Nat.mod_eq_of_lt hsmall]
          exact fun h => hfirst h.1 h.2
        · exact Nat.mod_eq_of_lt hsmall
      · have hval : (UInt8.ofNat (n % 128 + 128)).toNat = n % 128 + 128 := byte_ofNat_lt (by omega)
        refine ⟨UInt8.ofNat (n % 128 + 128), _, rfl, (), _, ⟨?_, rfl⟩, .inr ⟨?_, n / 128, rest, ⟨⟨?_, ?_⟩, rfl⟩, ?_, rfl⟩⟩
        · rw [hval]
          omega
        · rw [hval]
          omega
        · omega
        · exact fun _ => by omega
        · rw [hval]
          omega

theorem varint_eq_ok :
    (varint eof overflow noncanonical).run input = .ok (n, rest) ↔ n < 2 ^ 64 ∧ input = Rs3.varint n ++ rest := by
  rw [varint, varintFrom_eq_ok, show 2 * 128 ^ 10 / 128 = 2 ^ 64 from rfl]
  exact ⟨fun h => ⟨h.1.1, h.2⟩, fun h => ⟨⟨h.1, fun hfirst => by cases hfirst⟩, h.2⟩⟩

end Reader

end Rs3
