/-
# Rs3.Lib.Cbor — bounded canonical CBOR primitives.

`rs3-types/src/cbor.rs`: writers that emit the shortest form and a reader that accepts no other.  Every reader here
has its equivalence (see `Rs3.Lib.Wire`), so a schema decoder that reads fields one after the other gets its own by
rewriting.  `orderedFields` is the loop of the schema decoders over a map with ascending integer keys.
-/
import Rs3.Lib.Wire

namespace Rs3.Cbor

open UInt8

/-- Malformed, noncanonical or out-of-bounds CBOR. -/
inductive CborError where
  | invalid
  deriving DecidableEq, Repr

/-! ## Writers -/

def writeTypeLen (major : UInt8) (value : ℕ) : Bytes :=
  let lead := major <<< 5
  if value ≤ 23 then [lead ||| ofNat value]
  else if value ≤ 0xff then [lead ||| 24, ofNat value]
  else if value ≤ 0xffff then (lead ||| 25) :: toBe 2 value
  else if value ≤ 0xffffffff then (lead ||| 26) :: toBe 4 value
  else (lead ||| 27) :: toBe 8 value

def writeU64 (value : ℕ) : Bytes := writeTypeLen 0 value

def writeI64 (value : Int) : Bytes :=
  if 0 ≤ value then writeTypeLen 0 value.toNat else writeTypeLen 1 (-1 - value).toNat

def writeBytes (bytes : Bytes) : Bytes := writeTypeLen 2 bytes.length ++ bytes

def writeText (text : String) : Bytes := writeTypeLen 3 (utf8 text).length ++ utf8 text

def writeArrayLen (len : ℕ) : Bytes := writeTypeLen 4 len

def writeMapLen (len : ℕ) : Bytes := writeTypeLen 5 len

def writeNull : Bytes := [0xf6]

theorem length_le_writeBytes (bytes : Bytes) : bytes.length ≤ (writeBytes bytes).length := by
  rw [writeBytes, List.length_append]
  exact Nat.le_add_left _ _

theorem length_le_writeText (text : String) : (utf8 text).length ≤ (writeText text).length := by
  rw [writeText, List.length_append]
  exact Nat.le_add_left _ _

/-! ## Readers -/

def readInitial : Reader CborError (UInt8 × UInt8) := do
  let byte ← Reader.byte .invalid
  return (byte >>> 5, byte &&& 0x1f)

/-- The value that follows an initial byte; a longer form than necessary is refused. -/
def readLen (additional : UInt8) : Reader CborError ℕ :=
  if additional ≤ 23 then return additional.toNat
  else if additional = 24 then do
    let value ← Reader.be .invalid 1
    ensure (23 < value) CborError.invalid
    return value
  else if additional = 25 then do
    let value ← Reader.be CborError.invalid 2
    ensure (0xff < value) CborError.invalid
    return value
  else if additional = 26 then do
    let value ← Reader.be CborError.invalid 4
    ensure (0xffff < value) CborError.invalid
    return value
  else if additional = 27 then do
    let value ← Reader.be CborError.invalid 8
    ensure (0xffffffff < value) CborError.invalid
    return value
  else throw .invalid

def readLenForMajor (expectedMajor : UInt8) : Reader CborError ℕ := do
  let initial ← readInitial
  ensure (initial.1 = expectedMajor) CborError.invalid
  readLen initial.2

def readLenForMajorBounded (expectedMajor : UInt8) (maxLen : ℕ) : Reader CborError ℕ := do
  let len ← readLenForMajor expectedMajor
  ensure (len ≤ maxLen) CborError.invalid
  return len

def readU64 : Reader CborError ℕ := readLenForMajor 0

def readI64 : Reader CborError Int := do
  let initial ← readInitial
  let value ← readLen initial.2
  if initial.1 = 0 then do
    ensure (value < 2 ^ 63) CborError.invalid
    return (value : Int)
  else if initial.1 = 1 then do
    ensure (value < 2 ^ 63) CborError.invalid
    return -1 - (value : Int)
  else throw .invalid

def readBytesBounded (maxLen : ℕ) : Reader CborError Bytes := do
  let len ← readLenForMajorBounded 2 maxLen
  Reader.take .invalid len

/-- `usize::MAX`. -/
def usizeMax : ℕ := 2 ^ 64 - 1

def readBytes : Reader CborError Bytes := readBytesBounded usizeMax

def readTextBounded (maxLen : ℕ) : Reader CborError String := do
  let len ← readLenForMajorBounded 3 maxLen
  let bytes ← Reader.take .invalid len
  okOr (fromUtf8 bytes) CborError.invalid

def readText : Reader CborError String := readTextBounded usizeMax

def readArrayLen : Reader CborError ℕ := readLenForMajor 4

def readMapLen : Reader CborError ℕ := readLenForMajor 5

def readNull : Reader CborError Unit := do
  let byte ← Reader.byte .invalid
  ensure (byte = 0xf6) CborError.invalid

def nextIsNull (input : Bytes) : Bool := input.head? = some 0xf6

/-! ## Initial bytes -/

/-- The low five bits of the initial byte of a value. -/
def lenTag (value : ℕ) : UInt8 :=
  if value ≤ 23 then ofNat value
  else if value ≤ 0xff then 24
  else if value ≤ 0xffff then 25
  else if value ≤ 0xffffffff then 26
  else 27

/-- The bytes of a value after the initial one. -/
def lenBytes (value : ℕ) : Bytes :=
  if value ≤ 23 then []
  else if value ≤ 0xff then toBe 1 value
  else if value ≤ 0xffff then toBe 2 value
  else if value ≤ 0xffffffff then toBe 4 value
  else toBe 8 value

variable (major : UInt8) (value : ℕ)

theorem writeTypeLen_eq : writeTypeLen major value = (major <<< 5 ||| lenTag value) :: lenBytes value := by
  unfold writeTypeLen lenTag lenBytes
  split_ifs <;> rfl

theorem length_writeTypeLen_le : (writeTypeLen major value).length ≤ 9 := by
  unfold writeTypeLen
  split_ifs <;> simp

/-- A length below `2 ^ 16` takes at most three bytes. -/
theorem length_writeTypeLen_le_three (h : value ≤ 0xffff) : (writeTypeLen major value).length ≤ 3 := by
  unfold writeTypeLen
  split_ifs <;> simp

theorem initial_join {major additional : UInt8} (hm : major < 8) (ha : additional < 32) :
    (major <<< 5 ||| additional) >>> 5 = major ∧ (major <<< 5 ||| additional) &&& 0x1f = additional := by
  have hall : ∀ m : Fin 8, ∀ a : Fin 32, (ofNat m <<< 5 ||| ofNat a) >>> 5 = ofNat m ∧
        (ofNat m <<< 5 ||| ofNat a) &&& 0x1f = ofNat a := by decide +kernel
  have := hall ⟨major.toNat, lt_iff_toNat_lt.mp hm⟩ ⟨additional.toNat, lt_iff_toNat_lt.mp ha⟩
  simpa using this

theorem initial_split (byte : UInt8) :
    byte >>> 5 < 8 ∧ byte &&& 0x1f < 32 ∧ (byte >>> 5) <<< 5 ||| (byte &&& 0x1f) = byte := by
  have hall : ∀ n : Fin 256, ofNat n >>> 5 < 8 ∧ ofNat n &&& 0x1f < 32 ∧
      (ofNat n >>> 5) <<< 5 ||| (ofNat n &&& 0x1f) = ofNat n := by decide +kernel
  have := hall ⟨byte.toNat, byte.toNat_lt⟩
  simpa using this

section

variable {input rest : Bytes}

variable {major : UInt8} {value len maxLen : ℕ}

variable {additional : UInt8}

theorem readInitial_eq_ok : readInitial.run input = .ok ((major, additional), rest) ↔
      major < 8 ∧ additional < 32 ∧ input = (major <<< 5 ||| additional) :: rest := by
  simp only [readInitial, Reader.ok_iff, Reader.byte_eq_ok, Prod.mk.injEq]
  constructor
  · rintro ⟨byte, mid, rfl, ⟨rfl, rfl⟩, rfl⟩
    obtain ⟨hm, ha, hjoin⟩ := initial_split byte
    exact ⟨hm, ha, by rw [hjoin]⟩
  · rintro ⟨hm, ha, rfl⟩
    exact ⟨_, rest, rfl, initial_join hm ha, rfl⟩

theorem lenTag_lt (value : ℕ) : lenTag value < 32 := by
  unfold lenTag
  split_ifs with h
  · rw [lt_iff_toNat_lt, toNat_ofNat']
    show value % 2 ^ 8 < 32
    omega
  all_goals decide

/-- A value of `k` bytes that needs them all. -/
theorem beMinimal_eq_ok :
    (do
      let value ← Reader.be CborError.invalid k
      ensure (floor < value) CborError.invalid
      return value : Reader CborError ℕ).run input = .ok (value, rest) ↔
      floor < value ∧ value < 256 ^ k ∧ input = toBe k value ++ rest := by
  simp only [Reader.ok_iff, Reader.be_eq_ok, ensure_eq_ok]
  constructor
  · rintro ⟨_, mid, ⟨hlt, rfl⟩, _, mid', ⟨hfloor, rfl⟩, rfl, rfl⟩
    exact ⟨hfloor, hlt, rfl⟩
  · rintro ⟨hfloor, hlt, rfl⟩
    exact ⟨value, rest, ⟨hlt, rfl⟩, (), rest, ⟨hfloor, rfl⟩, rfl, rfl⟩

theorem lenTag_cases (value : ℕ) :
    (value ≤ 23 ∧ lenTag value = ofNat value ∧ lenBytes value = []) ∨
    (23 < value ∧ value ≤ 0xff ∧ lenTag value = 24 ∧ lenBytes value = toBe 1 value) ∨
    (0xff < value ∧ value ≤ 0xffff ∧ lenTag value = 25 ∧ lenBytes value = toBe 2 value) ∨
    (0xffff < value ∧ value ≤ 0xffffffff ∧ lenTag value = 26 ∧ lenBytes value = toBe 4 value) ∨
    (0xffffffff < value ∧ lenTag value = 27 ∧ lenBytes value = toBe 8 value) := by
  unfold lenTag lenBytes
  split_ifs with h1 h2 h3 h4
  · exact .inl ⟨h1, rfl, rfl⟩
  · exact .inr (.inl ⟨by omega, h2, rfl, rfl⟩)
  · exact .inr (.inr (.inl ⟨by omega, h3, rfl, rfl⟩))
  · exact .inr (.inr (.inr (.inl ⟨by omega, h4, rfl, rfl⟩)))
  · exact .inr (.inr (.inr (.inr ⟨by omega, rfl, rfl⟩)))

theorem readLen_eq_ok : (readLen additional).run input = .ok (value, rest) ↔
      value < 2 ^ 64 ∧ additional = lenTag value ∧ input = lenBytes value ++ rest := by
  constructor
  · intro h
    unfold readLen at h
    split_ifs at h with h23 h24 h25 h26 h27
    · obtain ⟨rfl, rfl⟩ := Reader.pure_eq_ok.mp h
      have hle : additional.toNat ≤ 23 := le_iff_toNat_le.mp h23
      refine ⟨by omega, ?_, ?_⟩
      · rw [lenTag, if_pos hle, UInt8.ofNat_toNat]
      · rw [lenBytes, if_pos hle, List.nil_append]
    all_goals
      first
      | (rw [beMinimal_eq_ok] at h
         obtain ⟨hfloor, hlt, rfl⟩ := h
         rcases lenTag_cases value with hc | hc | hc | hc | hc <;>
           first
           | (exact absurd hc.1 (by omega))
           | (refine ⟨by omega, ?_, ?_⟩ <;> simp only [*]))
      | cases h
  · rintro ⟨hlt, rfl, rfl⟩
    rcases lenTag_cases value with hc | hc | hc | hc | hc
    · have htag : ofNat value ≤ 23 := by
        rw [le_iff_toNat_le, toNat_ofNat']
        exact (Nat.mod_le _ _).trans hc.1
      rw [hc.2.1, hc.2.2, readLen, if_pos htag, Reader.pure_eq_ok, toNat_ofNat']
      exact ⟨Nat.mod_eq_of_lt (by omega), rfl⟩
    iterate 3
      · rw [hc.2.2.1, hc.2.2.2]
        exact beMinimal_eq_ok.mpr ⟨hc.1, by omega, rfl⟩
    · rw [hc.2.1, hc.2.2]
      exact beMinimal_eq_ok.mpr ⟨hc.1, by omega, rfl⟩

/-! ## What each reader accepts -/

theorem readLenForMajor_eq_ok (hmajor : major < 8) :
    (readLenForMajor major).run input = .ok (len, rest) ↔ len < 2 ^ 64 ∧ input = writeTypeLen major len ++ rest := by
  simp only [readLenForMajor, Reader.ok_iff, ensure_eq_ok, readLen_eq_ok, writeTypeLen_eq]
  constructor
  · rintro ⟨⟨m, a⟩, mid, hinitial, _, mid', ⟨rfl, rfl⟩, hlt, rfl, rfl⟩
    obtain ⟨-, -, rfl⟩ := readInitial_eq_ok.mp hinitial
    exact ⟨hlt, rfl⟩
  · rintro ⟨hlt, rfl⟩
    exact ⟨(major, lenTag len), lenBytes len ++ rest, readInitial_eq_ok.mpr ⟨hmajor, lenTag_lt len, rfl⟩, (), _,
      ⟨rfl, rfl⟩, hlt, rfl, rfl⟩

theorem readLenForMajorBounded_eq_ok (hmajor : major < 8) :
    (readLenForMajorBounded major maxLen).run input = .ok (len, rest) ↔
      len ≤ maxLen ∧ len < 2 ^ 64 ∧ input = writeTypeLen major len ++ rest := by
  simp only [readLenForMajorBounded, Reader.ok_iff, ensure_eq_ok, readLenForMajor_eq_ok hmajor]
  constructor
  · rintro ⟨_, mid, ⟨hlt, rfl⟩, _, mid', ⟨hle, rfl⟩, rfl, rfl⟩
    exact ⟨hle, hlt, rfl⟩
  · rintro ⟨hle, hlt, rfl⟩
    exact ⟨len, rest, ⟨hlt, rfl⟩, (), rest, ⟨hle, rfl⟩, rfl, rfl⟩

theorem readU64_eq_ok : readU64.run input = .ok (value, rest) ↔ value < 2 ^ 64 ∧ input = writeU64 value ++ rest :=
  readLenForMajor_eq_ok (by decide)

theorem readArrayLen_eq_ok :
    readArrayLen.run input = .ok (len, rest) ↔ len < 2 ^ 64 ∧ input = writeArrayLen len ++ rest :=
  readLenForMajor_eq_ok (by decide)

theorem readMapLen_eq_ok : readMapLen.run input = .ok (len, rest) ↔ len < 2 ^ 64 ∧ input = writeMapLen len ++ rest :=
  readLenForMajor_eq_ok (by decide)

theorem readI64_eq_ok {value : Int} :
    readI64.run input = .ok (value, rest) ↔ (-2 ^ 63 ≤ value ∧ value < 2 ^ 63) ∧ input = writeI64 value ++ rest := by
  simp only [readI64, Reader.bind_eq_ok, readLen_eq_ok]
  constructor
  · rintro ⟨⟨m, a⟩, mid, hinitial, n, mid', ⟨hlt, rfl, rfl⟩, h⟩
    obtain ⟨-, -, rfl⟩ := readInitial_eq_ok.mp hinitial
    split_ifs at h with h0 h1
    · subst h0
      simp only [Reader.ok_iff, ensure_eq_ok] at h
      obtain ⟨_, mid, ⟨hsmall, rfl⟩, rfl, rfl⟩ := h
      refine ⟨by omega, ?_⟩
      rw [writeI64, if_pos (by omega), writeTypeLen_eq, Int.toNat_natCast]
      rfl
    · subst h1
      simp only [Reader.ok_iff, ensure_eq_ok] at h
      obtain ⟨_, mid, ⟨hsmall, rfl⟩, rfl, rfl⟩ := h
      refine ⟨by omega, ?_⟩
      rw [writeI64, if_neg (by omega), writeTypeLen_eq, show (-1 - (-1 - (n : Int))).toNat = n by omega]
      rfl
    · cases h
  · rintro ⟨⟨hlow, hhigh⟩, rfl⟩
    unfold writeI64
    split_ifs with hsign
    · refine ⟨(0, lenTag value.toNat), lenBytes value.toNat ++ rest, ?_, value.toNat, rest, ⟨by omega, rfl, rfl⟩, ?_⟩
      · exact readInitial_eq_ok.mpr ⟨by decide, lenTag_lt _, by rw [writeTypeLen_eq]; rfl⟩
      · simp only [if_true, Reader.ok_iff, ensure_eq_ok]
        exact ⟨(), rest, ⟨by omega, rfl⟩, by omega, rfl⟩
    · refine ⟨(1, lenTag (-1 - value).toNat), lenBytes (-1 - value).toNat ++ rest, ?_, (-1 - value).toNat, rest,
        ⟨by omega, rfl, rfl⟩, ?_⟩
      · exact readInitial_eq_ok.mpr ⟨by decide, lenTag_lt _, by rw [writeTypeLen_eq]; rfl⟩
      · rw [if_neg (show (1 : UInt8) ≠ 0 by decide), if_pos rfl]
        simp only [Reader.ok_iff, ensure_eq_ok]
        exact ⟨(), rest, ⟨by omega, rfl⟩, by omega, rfl⟩

theorem readBytesBounded_eq_ok : (readBytesBounded maxLen).run input = .ok (bytes, rest) ↔
      (bytes.length ≤ maxLen ∧ bytes.length < 2 ^ 64) ∧ input = writeBytes bytes ++ rest := by
  simp only [readBytesBounded, Reader.bind_eq_ok, readLenForMajorBounded_eq_ok (show (2 : UInt8) < 8 by decide),
    Reader.take_eq_ok, writeBytes, List.append_assoc]
  constructor
  · rintro ⟨_, mid, ⟨hle, hlt, rfl⟩, rfl, rfl⟩
    exact ⟨⟨hle, hlt⟩, rfl⟩
  · rintro ⟨⟨hle, hlt⟩, rfl⟩
    exact ⟨bytes.length, bytes ++ rest, ⟨hle, hlt, rfl⟩, rfl, rfl⟩

theorem readBytes_eq_ok :
    readBytes.run input = .ok (bytes, rest) ↔ bytes.length < 2 ^ 64 ∧ input = writeBytes bytes ++ rest := by
  rw [readBytes, readBytesBounded_eq_ok, usizeMax]
  constructor
  · rintro ⟨⟨-, hlt⟩, h⟩
    exact ⟨hlt, h⟩
  · rintro ⟨hlt, h⟩
    exact ⟨⟨by omega, hlt⟩, h⟩

theorem readTextBounded_eq_ok : (readTextBounded maxLen).run input = .ok (text, rest) ↔
      ((utf8 text).length ≤ maxLen ∧ (utf8 text).length < 2 ^ 64) ∧ input = writeText text ++ rest := by
  simp only [readTextBounded, Reader.ok_iff, readLenForMajorBounded_eq_ok (show (3 : UInt8) < 8 by decide),
    Reader.take_eq_ok, okOr_eq_ok, fromUtf8_eq_some, writeText, List.append_assoc]
  constructor
  · rintro ⟨_, mid, ⟨hle, hlt, rfl⟩, _, mid', ⟨rfl, rfl⟩, rfl, rfl⟩
    exact ⟨⟨hle, hlt⟩, rfl⟩
  · rintro ⟨⟨hle, hlt⟩, rfl⟩
    exact ⟨(utf8 text).length, _, ⟨hle, hlt, rfl⟩, utf8 text, rest, ⟨rfl, rfl⟩, rfl, rfl⟩

theorem readText_eq_ok :
    readText.run input = .ok (text, rest) ↔ (utf8 text).length < 2 ^ 64 ∧ input = writeText text ++ rest := by
  rw [readText, readTextBounded_eq_ok, usizeMax]
  constructor
  · rintro ⟨⟨-, hlt⟩, h⟩
    exact ⟨hlt, h⟩
  · rintro ⟨hlt, h⟩
    exact ⟨⟨by omega, hlt⟩, h⟩

theorem readNull_eq_ok : readNull.run input = .ok (u, rest) ↔ input = writeNull ++ rest := by
  simp only [readNull, Reader.ok_iff, Reader.byte_eq_ok, ensure_eq_ok, writeNull]
  constructor
  · rintro ⟨_, mid, rfl, rfl, rfl⟩
    rfl
  · rintro rfl
    exact ⟨0xf6, rest, rfl, rfl, rfl⟩

theorem nextIsNull_writeTypeLen (hmajor : major < 7) (len : ℕ) :
    nextIsNull (writeTypeLen major len ++ rest) = false := by
  have htag : lenTag len < 32 := lenTag_lt len
  have hmajor' : major < 8 := UInt8.lt_trans hmajor (by decide)
  rw [writeTypeLen_eq, nextIsNull, List.cons_append, List.head?_cons]
  apply decide_eq_false
  intro h
  -- the three high bits of null are not those of a type below seven
  have hhigh := (initial_join hmajor' htag).1
  rw [Option.some.inj h] at hhigh
  subst hhigh
  revert hmajor
  decide

end

/-! ## Optional values -/

section Nullable

variable {ε α : Type} {input rest : Bytes}

/-- Null for `none`. -/
def writeNullable (wire : α → Bytes) : Option α → Bytes
  | none => writeNull
  | some a => wire a

def readNullable (e : ε) (p : Reader ε α) : Reader ε (Option α) := fun input =>
  if nextIsNull input then
    (do
      readNull.mapError fun _ => e
      return none : Reader ε (Option α)).run input
  else
    (do
      let a ← p
      return some a : Reader ε (Option α)).run input

theorem readNullable_eq_ok {valid : α → Prop} {wire : α → Bytes}
    (hp : Reader.Reads p valid wire) (hwire : ∀ a rest, nextIsNull (wire a ++ rest) = false) :
    (readNullable e p).run input = .ok (x, rest) ↔
      (∀ a, x = some a → valid a) ∧ input = writeNullable wire x ++ rest := by
  simp only [readNullable, StateT.run]
  constructor
  · intro h
    split at h
    · obtain ⟨_, mid, hnull, hpure⟩ := Reader.bind_eq_ok.mp h
      obtain ⟨rfl, rfl⟩ := Reader.pure_eq_ok.mp hpure
      exact ⟨by simp, readNull_eq_ok.mp (Reader.mapError_eq_ok.mp hnull)⟩
    · obtain ⟨a, mid, ha, hpure⟩ := Reader.bind_eq_ok.mp h
      obtain ⟨rfl, rfl⟩ := Reader.pure_eq_ok.mp hpure
      obtain ⟨hvalid, rfl⟩ := (hp _ _ _).mp ha
      exact ⟨fun b hb => by cases hb; exact hvalid, rfl⟩
  · rintro ⟨hvalid, rfl⟩
    rcases x with _ | a
    · have hnull : nextIsNull (writeNullable wire none ++ rest) = true := by
        simp [writeNullable, writeNull, nextIsNull]
      rw [if_pos hnull]
      exact Reader.bind_eq_ok.mpr ⟨(), rest, Reader.mapError_eq_ok.mpr (readNull_eq_ok.mpr rfl),
        Reader.pure_eq_ok.mpr ⟨rfl, rfl⟩⟩
    · rw [writeNullable, hwire, if_neg (by decide)]
      exact Reader.bind_eq_ok.mpr ⟨a, rest, (hp _ _ _).mpr ⟨hvalid a rfl, rfl⟩, Reader.pure_eq_ok.mpr ⟨rfl, rfl⟩⟩

end Nullable

/-! ## Maps with ascending keys -/

section Ordered

variable {ε σ : Type} {input rest : Bytes} {e : ε}

/-- The next key of a map, above the last one. -/
def readOrderedKey (e : ε) (lastKey : ℕ) : Reader ε ℕ := do
  let key ← readU64.mapError fun _ => e
  ensure (lastKey < key) e
  return key

/-- `len` fields with ascending keys, each read by `field` into what has been read so far. -/
def orderedFields (e : ε) (field : ℕ → σ → Reader ε σ) : ℕ → ℕ → σ → Reader ε σ
  | 0, _, s => pure s
  | len + 1, lastKey, s => do
    let key ← readOrderedKey e lastKey
    let s' ← field key s
    orderedFields e field len key s'

theorem readOrderedKey_eq_ok : (readOrderedKey e lastKey).run input = .ok (key, rest) ↔
    (lastKey < key ∧ key < 2 ^ 64) ∧ input = writeU64 key ++ rest := by
  simp only [readOrderedKey, Reader.ok_iff, Reader.mapError_eq_ok, readU64_eq_ok, ensure_eq_ok]
  constructor
  · rintro ⟨_, mid, ⟨hlt, rfl⟩, _, mid', ⟨hkey, rfl⟩, rfl, rfl⟩
    exact ⟨⟨hkey, hlt⟩, rfl⟩
  · rintro ⟨⟨hkey, hlt⟩, rfl⟩
    exact ⟨key, rest, ⟨hlt, rfl⟩, (), rest, ⟨hkey, rfl⟩, rfl, rfl⟩

/-- The schema has no field above `n`. -/
def FieldsUpTo (n : ℕ) (field : ℕ → σ → Reader ε σ) : Prop := ∀ key s input r, (field key s).run input = .ok r → key ≤ n

variable {field : ℕ → σ → Reader ε σ}

theorem orderedFields_le (hfield : FieldsUpTo n field) (hlast : lastKey ≤ n)
    (h : (orderedFields e field len lastKey s).run input = .ok (s', rest)) : lastKey + len ≤ n := by
  induction len generalizing lastKey s input with
  | zero => exact hlast
  | succ len ih =>
    simp only [orderedFields, Reader.bind_eq_ok, readOrderedKey_eq_ok] at h
    obtain ⟨key, mid, ⟨⟨hkey, -⟩, -⟩, s₁, mid₁, hstep, hrest⟩ := h
    have := ih (hfield key s mid _ hstep) hrest
    omega

/-- The fields `keys`, one after the other. -/
def InOrder (field : ℕ → σ → Reader ε σ) : List ℕ → σ → Bytes → σ → Bytes → Prop
  | [], s, input, s', rest => s = s' ∧ input = rest
  | key :: keys, s, input, s', rest => ∃ mid s₁ mid₁, input = writeU64 key ++ mid ∧
      (field key s).run mid = .ok (s₁, mid₁) ∧ InOrder field keys s₁ mid₁ s' rest

theorem inOrder_append {keys keys' : List ℕ} {s s' : σ} :
    InOrder field (keys ++ keys') s input s' rest ↔
      ∃ s₁ mid₁, InOrder field keys s input s₁ mid₁ ∧ InOrder field keys' s₁ mid₁ s' rest := by
  induction keys generalizing s input with
  | nil =>
    constructor
    · exact fun h => ⟨s, input, ⟨rfl, rfl⟩, h⟩
    · rintro ⟨_, _, ⟨rfl, rfl⟩, h⟩
      exact h
  | cons key keys ih =>
    simp only [List.cons_append, InOrder, ih]
    constructor
    · rintro ⟨mid, s₁, mid₁, hinput, hstep, s₂, mid₂, hkeys, hrest⟩
      exact ⟨s₂, mid₂, ⟨mid, s₁, mid₁, hinput, hstep, hkeys⟩, hrest⟩
    · rintro ⟨s₂, mid₂, ⟨mid, s₁, mid₁, hinput, hstep, hkeys⟩, hrest⟩
      exact ⟨mid, s₁, mid₁, hinput, hstep, s₂, mid₂, hkeys, hrest⟩

/-- When as many fields are left as keys, every key is the successor of the last. -/
theorem orderedFields_eq_ok (hfield : FieldsUpTo n field) (hsmall : n < 2 ^ 64)
    (hn : lastKey + len = n) : (orderedFields e field len lastKey s).run input = .ok (s', rest) ↔
      InOrder field (List.range' (lastKey + 1) len) s input s' rest := by
  induction len generalizing lastKey s input with
  | zero => exact Reader.pure_eq_ok
  | succ len ih =>
    simp only [orderedFields, Reader.bind_eq_ok, readOrderedKey_eq_ok, List.range'_succ, InOrder]
    constructor
    · rintro ⟨key, mid, ⟨⟨hkey, -⟩, rfl⟩, s₁, mid₁, hstep, hrest⟩
      have := orderedFields_le hfield (hfield key s mid _ hstep) hrest
      obtain rfl : key = lastKey + 1 := by omega
      exact ⟨mid, s₁, mid₁, rfl, hstep, (ih (by omega)).mp hrest⟩
    · rintro ⟨mid, s₁, mid₁, rfl, hstep, hrest⟩
      exact ⟨lastKey + 1, mid, ⟨⟨by omega, by omega⟩, rfl⟩, s₁, mid₁, hstep, (ih (by omega)).mpr hrest⟩

end Ordered

-- From here on lengths are compared as terms; without this, unification would compute the bytes of every constant.
attribute [irreducible] writeTypeLen

end Rs3.Cbor
