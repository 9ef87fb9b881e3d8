/-
# Rs3.Repository.CborItems — sequences of canonical CBOR items.

A record is written and read one item at a time.  A sequence of reads succeeds exactly on what the matching sequence of
writes appends: it returns the values written and leaves what follows them, and writing what it returned gives back what
it consumed.
-/
import Rs3.Lib.Cbor

namespace Rs3.Repository

open Cbor

/-- A write with the read that matches it; `read_bytes` and `read_text` are the bounded reads at `usizeMax`. -/
inductive CborItem where
  | u64
  | i64
  | bytes (maxLen : ℕ)
  | text (maxLen : ℕ)
  | arrayLen
  | mapLen
  | null

namespace CborItem

abbrev Value : CborItem → Type
  | u64 | arrayLen | mapLen => ℕ
  | i64 => ℤ
  | bytes _ => Bytes
  | text _ => String
  | null => Unit

def write : (item : CborItem) → item.Value → Bytes
  | u64 => writeU64
  | i64 => writeI64
  | bytes _ => writeBytes
  | text _ => writeText
  | arrayLen => writeArrayLen
  | mapLen => writeMapLen
  | null => fun _ => writeNull

def read : (item : CborItem) → Reader CborError item.Value
  | u64 => readU64
  | i64 => readI64
  | bytes maxLen => readBytesBounded maxLen
  | text maxLen => readTextBounded maxLen
  | arrayLen => readArrayLen
  | mapLen => readMapLen
  | null => readNull

/-- A value of the machine type, within the bound of the read. -/
def Fits : (item : CborItem) → item.Value → Prop
  | u64 | arrayLen | mapLen => fun n => n < 2 ^ 64
  | i64 => fun value => -2 ^ 63 ≤ value ∧ value < 2 ^ 63
  | bytes maxLen => fun bytes => bytes.length ≤ maxLen ∧ bytes.length < 2 ^ 64
  | text maxLen => fun text => (utf8 text).length ≤ maxLen ∧ (utf8 text).length < 2 ^ 64
  | null => fun _ => True

theorem read_reads : (item : CborItem) → item.read.Reads item.Fits item.write
  | u64 => fun _ _ _ => readU64_eq_ok
  | i64 => fun _ _ _ => readI64_eq_ok
  | bytes _ => fun _ _ _ => readBytesBounded_eq_ok
  | text _ => fun _ _ _ => readTextBounded_eq_ok
  | arrayLen => fun _ _ _ => readArrayLen_eq_ok
  | mapLen => fun _ _ _ => readMapLen_eq_ok
  | null => fun _ _ _ => readNull_eq_ok.trans (iff_of_eq (true_and _)).symm

/-- One value for each item. -/
abbrev Values : List CborItem → Type
  | [] => Unit
  | item :: items => item.Value × Values items

def writeAll : (items : List CborItem) → Values items → Bytes
  | [], _ => []
  | item :: items, (value, values) => item.write value ++ writeAll items values

def readAll : (items : List CborItem) → Reader CborError (Values items)
  | [] => pure ()
  | item :: items => do
    let value ← item.read
    let values ← readAll items
    return (value, values)

def AllFit : (items : List CborItem) → Values items → Prop
  | [], _ => True
  | item :: items, (value, values) => item.Fits value ∧ AllFit items values

/-- **The reader and the writer are inverse.**  Whatever the items, the reads succeed exactly on the writes of values
that fit: they return those values and leave the rest, and no other bytes are read as the same values. -/
theorem cbor_reads_invert_writes (items : List CborItem) (input : Bytes) (values : Values items) (rest : Bytes) :
    (readAll items).run input = .ok (values, rest) ↔ AllFit items values ∧ input = writeAll items values ++ rest := by
  -- one item at a time: what the first read leaves is what the others start from
  induction items generalizing input rest with
  | nil => simp [readAll, AllFit, writeAll]
  | cons item items ih =>
    simp only [readAll, Reader.ok_iff, item.read_reads _ _ _, ih]
    constructor
    · rintro ⟨value, _, ⟨hvalue, rfl⟩, values, _, ⟨hvalues, rfl⟩, rfl, rfl⟩
      exact ⟨⟨hvalue, hvalues⟩, (List.append_assoc ..).symm⟩
    · rintro ⟨⟨hvalue, hvalues⟩, rfl⟩
      exact ⟨_, _, ⟨hvalue, List.append_assoc ..⟩, _, _, ⟨hvalues, rfl⟩, rfl, rfl⟩

end CborItem

end Rs3.Repository
