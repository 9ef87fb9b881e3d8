/-
# Rs3.Lib.Text — decimal, hexadecimal and Base64 texts of machine values.

The texts a 64-bit counter and a byte string are written as, the readers that take them back, and
their round trips.  The readers follow the standard ones: a decimal text may carry a leading `+`,
must have at least one digit and must fit in 64 bits; a hexadecimal text has an even number of digits
of either case.
-/
import Mathlib.Data.List.Basic
import Mathlib.Algebra.Order.Ring.Int

namespace Rs3.Text

/-! ## Decimal counters -/

/-- The digits of a decimal text, after an optional leading plus sign. -/
def stripPlus : List Char → List Char
  | '+' :: cs => cs
  | cs => cs

/-- Read an unsigned 64-bit decimal text. -/
def parseU64 (s : String) : Option ℕ :=
  let cs := stripPlus s.toList
  if cs ≠ [] ∧ cs.all Char.isDigit = true ∧ Nat.ofDigitChars 10 cs 0 < 2 ^ 64 then
    some (Nat.ofDigitChars 10 cs 0)
  else none

theorem stripPlus_of_isDigit (h : ∀ c ∈ cs, c.isDigit = true) : stripPlus cs = cs := by
  unfold stripPlus
  split
  · exact absurd (h '+' (by simp)) (by decide)
  · rfl

theorem toList_toString (n : ℕ) : (toString n).toList = Nat.toDigits 10 n := by
  rw [Nat.toString_eq_ofList_toDigits, String.toList_ofList]

/-- A 64-bit counter survives its decimal text. -/
@[simp] theorem parseU64_toString (h : n < 2 ^ 64) : parseU64 (toString n) = some n := by
  have hdigit : ∀ c ∈ Nat.toDigits 10 n, c.isDigit = true := by
    intro c hc
    exact Nat.isDigit_of_mem_toDigits (by decide) (by decide) hc
  have hne : Nat.toDigits 10 n ≠ [] := Nat.toDigits_ne_nil
  have hall : (Nat.toDigits 10 n).all Char.isDigit = true := List.all_eq_true.mpr hdigit
  simp only [parseU64, toList_toString, stripPlus_of_isDigit hdigit, Nat.ofDigitChars_ten_toDigits]
  rw [if_pos ⟨hne, hall, h⟩]

theorem parseU64_lt (h : parseU64 s = some n) : n < 2 ^ 64 := by
  simp only [parseU64] at h
  split at h
  · rename_i hc
    cases h
    exact hc.2.2
  · cases h

/-! ## Hexadecimal byte strings -/

def hexDigit (n : ℕ) : Char := Nat.digitChar n

/-- The value of a hexadecimal digit of either case. -/
def hexVal (c : Char) : Option ℕ :=
  if '0' ≤ c ∧ c ≤ '9' then some (c.toNat - '0'.toNat)
  else if 'a' ≤ c ∧ c ≤ 'f' then some (c.toNat - 'a'.toNat + 10)
  else if 'A' ≤ c ∧ c ≤ 'F' then some (c.toNat - 'A'.toNat + 10)
  else none

/-- Two digits a byte, high half first. -/
def hexChars : List UInt8 → List Char
  | [] => []
  | b :: bs => hexDigit (b.toNat / 16) :: hexDigit (b.toNat % 16) :: hexChars bs

def hexEncode (bs : List UInt8) : String := String.ofList (hexChars bs)

/-- Read pairs of digits; an odd digit or a foreign character is an error. -/
def hexBytes : List Char → Option (List UInt8)
  | [] => some []
  | [_] => none
  | hi :: lo :: cs => do
    let h ← hexVal hi
    let l ← hexVal lo
    let bs ← hexBytes cs
    return UInt8.ofNat (16 * h + l) :: bs

def hexDecode (s : String) : Option (List UInt8) := hexBytes s.toList

theorem hexVal_hexDigit (h : n < 16) : hexVal (hexDigit n) = some n := by
  have all : ∀ m : Fin 16, hexVal (hexDigit m) = some m.val := by decide
  exact all ⟨n, h⟩

theorem hexBytes_hexChars (bs : List UInt8) : hexBytes (hexChars bs) = some bs := by
  induction bs with
  | nil => rfl
  | cons b bs ih =>
    have hb : b.toNat < 256 := b.toNat_lt
    have hhi : hexVal (hexDigit (b.toNat / 16)) = some (b.toNat / 16) := hexVal_hexDigit (by omega)
    have hlo : hexVal (hexDigit (b.toNat % 16)) = some (b.toNat % 16) := hexVal_hexDigit (by omega)
    have hsum : 16 * (b.toNat / 16) + b.toNat % 16 = b.toNat := Nat.div_add_mod _ _
    simp only [hexChars, hexBytes, hhi, hlo, ih, hsum, Option.bind_eq_bind, Option.bind_some,
      UInt8.ofNat_toNat, Option.pure_def]

/-- A byte string survives its hexadecimal text. -/
@[simp]
theorem hexDecode_hexEncode (bs : List UInt8) : hexDecode (hexEncode bs) = some bs := by
  rw [hexDecode, hexEncode, String.toList_ofList]
  exact hexBytes_hexChars bs

/-! ## Unpadded URL-safe Base64 -/

def base64UrlVal (c : Char) : Option ℕ :=
  if 'A' ≤ c ∧ c ≤ 'Z' then some (c.toNat - 'A'.toNat)
  else if 'a' ≤ c ∧ c ≤ 'z' then some (c.toNat - 'a'.toNat + 26)
  else if '0' ≤ c ∧ c ≤ '9' then some (c.toNat - '0'.toNat + 52)
  else if c = '-' then some 62
  else if c = '_' then some 63
  else none

def base64UrlChar (n : ℕ) : Char :=
  if n < 26 then Char.ofNat ('A'.toNat + n)
  else if n < 52 then Char.ofNat ('a'.toNat + (n - 26))
  else if n < 62 then Char.ofNat ('0'.toNat + (n - 52))
  else if n = 62 then '-'
  else '_'

/-- Three bytes become four characters; one or two last bytes become two or three. -/
def base64UrlEncode : List UInt8 → List Char
  | [] => []
  | [a] => [base64UrlChar (a.toNat / 4), base64UrlChar (a.toNat % 4 * 16)]
  | [a, b] =>
    [base64UrlChar (a.toNat / 4), base64UrlChar (a.toNat % 4 * 16 + b.toNat / 16), base64UrlChar (b.toNat % 16 * 4)]
  | a :: b :: c :: rest =>
    base64UrlChar (a.toNat / 4) :: base64UrlChar (a.toNat % 4 * 16 + b.toNat / 16) ::
      base64UrlChar (b.toNat % 16 * 4 + c.toNat / 64) :: base64UrlChar (c.toNat % 64) :: base64UrlEncode rest

/-- Unused bits of the last character must be zero. -/
def base64UrlDecode : List Char → Option (List UInt8)
  | [] => some []
  | [_] => none
  | [a, b] => do
    let a ← base64UrlVal a
    let b ← base64UrlVal b
    if b % 16 = 0 then some [UInt8.ofNat (a * 4 + b / 16)] else none
  | [a, b, c] => do
    let a ← base64UrlVal a
    let b ← base64UrlVal b
    let c ← base64UrlVal c
    if c % 4 = 0 then some [UInt8.ofNat (a * 4 + b / 16), UInt8.ofNat (b % 16 * 16 + c / 4)] else none
  | a :: b :: c :: d :: rest => do
    let a ← base64UrlVal a
    let b ← base64UrlVal b
    let c ← base64UrlVal c
    let d ← base64UrlVal d
    let bytes ← base64UrlDecode rest
    return UInt8.ofNat (a * 4 + b / 16) :: UInt8.ofNat (b % 16 * 16 + c / 4) :: UInt8.ofNat (c % 4 * 64 + d) :: bytes

theorem base64UrlVal_char (h : n < 64) : base64UrlVal (base64UrlChar n) = some n := by
  have all : ∀ m : Fin 64, base64UrlVal (base64UrlChar m) = some m.val := by decide
  exact all ⟨n, h⟩

/-- A byte string survives its Base64 text. -/
theorem base64UrlDecode_encode (bytes : List UInt8) : base64UrlDecode (base64UrlEncode bytes) = some bytes := by
  fun_induction base64UrlEncode bytes with
  | case1 => rfl
  | case2 a =>
    have ha := a.toNat_lt
    simp (disch := omega) [base64UrlDecode, base64UrlVal_char, ← UInt8.toNat_inj]
    omega
  | case3 a b =>
    have ha := a.toNat_lt
    have hb := b.toNat_lt
    simp (disch := omega) [base64UrlDecode, base64UrlVal_char, ← UInt8.toNat_inj]
    omega
  | case4 a b c rest ih =>
    have ha := a.toNat_lt
    have hb := b.toNat_lt
    have hc := c.toNat_lt
    simp (disch := omega) [base64UrlDecode, base64UrlVal_char, ← UInt8.toNat_inj, ih]
    omega

theorem length_base64UrlEncode (bytes : List UInt8) : (base64UrlEncode bytes).length = (4 * bytes.length + 2) / 3 := by
  fun_induction base64UrlEncode bytes <;> simp only [List.length_cons, List.length_nil, *]
  omega

theorem base64UrlChar_clean (n : ℕ) : base64UrlChar n ∉ ['=', '/', '+'] := by
  rcases lt_or_ge n 64 with h | h
  · have all : ∀ m : Fin 64, base64UrlChar m ∉ ['=', '/', '+'] := by decide
    exact all ⟨n, h⟩
  · simp (disch := omega) only [base64UrlChar, if_neg]
    decide

theorem base64UrlEncode_clean (h : c ∈ base64UrlEncode bytes) : c ∉ ['=', '/', '+'] := by
  fun_induction base64UrlEncode bytes <;> grind [base64UrlChar_clean]

end Rs3.Text
