/-
# Rs3.Repository.CommitKey — the object key of a commit names its sequence.

`V3CommitKey::parse` and `from_parts` of `v3/commit.rs`.  A commit key is the prefix, twenty decimal
digits, a slash and the canonical Base64 text of 32 random bytes.
-/
import Mathlib.Data.List.TakeDrop
import Rs3.Types
import Rs3.Lib.Text
import Rs3.Lib.Wire

namespace Rs3.Repository

open List hiding Vector
open Text

/-- Strict v3 commit object key. -/
structure V3CommitKey where
  sequence : Sequence
  randomId : Digest
  objectId : BackendObjectId
  deriving DecidableEq

def commitPrefixText : String := "commits/v03/"

/-- `split_once('/')`. -/
def splitSlash (chars : List Char) : Option (List Char × List Char) :=
  match chars.span (· ≠ '/') with
  | (before, _ :: after) => some (before, after)
  | (_, []) => none

/-- The sequence segment: exactly the zero-padded decimal text of a 64-bit counter. -/
def parseSequenceSegment (segment : List Char) : Option Sequence :=
  if segment.length = 20 ∧ segment.all Char.isDigit = true then
    match Text.parseU64 (String.ofList segment) with
    | some n =>
      if h : n < 2 ^ 64 then
        if (toString n).toList.leftpad 20 '0' = segment then some ⟨n, h⟩ else none
      else none
    | none => none
  else none

/-- The random segment: the canonical text of 32 bytes. -/
def parseRandomSegment (encoded : List Char) : Option Digest :=
  if encoded.length = 43 ∧ '=' ∉ encoded ∧ '/' ∉ encoded ∧ '+' ∉ encoded then do
    let bytes ← Text.base64UrlDecode encoded
    let randomId ← Digest.ofBytes? bytes
    if Text.base64UrlEncode randomId.toList = encoded then some randomId else none
  else none

def V3CommitKey.parse (objectId : BackendObjectId) : Except V3FormatError V3CommitKey := do
  let rest ← okOr (commitPrefixText.toList.isPrefixOf? objectId.asStr.toList) .invalidCommitKey
  let (segment, encoded) ← okOr (splitSlash rest) .invalidCommitKey
  let randomId ← okOr (parseRandomSegment encoded) .invalidCommitKey
  let sequence ← okOr (parseSequenceSegment segment) .invalidCommitKey
  return ⟨sequence, randomId, objectId⟩

/-- `format!("{:020}")` of a sequence. -/
def sequenceSegment (sequence : Sequence) : List Char := (toString sequence.get).toList.leftpad 20 '0'

def commitKeyText (sequence : Sequence) (randomId : Digest) : List Char :=
  commitPrefixText.toList ++ (sequenceSegment sequence ++ '/' :: base64UrlEncode randomId.toList)

/-- Builds a strict v3 commit key from a sequence and 32 random bytes. -/
def V3CommitKey.fromParts (sequence : Sequence) (randomId : Digest) : Except V3FormatError V3CommitKey := do
  let objectId ← okOr (BackendObjectId.new? (String.ofList (commitKeyText sequence randomId))) .typeValidation
  return ⟨sequence, randomId, objectId⟩

/-! ## Segments -/

variable {sequence : Sequence} {randomId : Digest} {before after : List Char}

theorem length_sequenceSegment : (sequenceSegment sequence).length = 20 := by
  have hlen : (Nat.toDigits 10 sequence.get).length ≤ 20 :=
    (Nat.length_toDigits_le_iff (by decide) (by decide)).mpr (sequence.isLt.trans (by decide))
  rw [sequenceSegment, length_leftpad, toList_toString]
  exact max_eq_left hlen

theorem isDigit_sequenceSegment : ∀ c ∈ sequenceSegment sequence, c.isDigit = true := by
  intro c h
  rw [sequenceSegment, leftpad, mem_append, toList_toString] at h
  rcases h with h | h
  · exact eq_of_mem_replicate h ▸ by decide
  · exact Nat.isDigit_of_mem_toDigits (by decide) (by decide) h

theorem ofDigitChars_sequenceSegment : Nat.ofDigitChars 10 (sequenceSegment sequence) 0 = sequence.get := by
  rw [sequenceSegment, leftpad, Nat.ofDigitChars_append, Nat.ofDigitChars_replicate_zero, toList_toString]
  exact Nat.ofDigitChars_ten_toDigits

theorem parseSequenceSegment_eq_some {segment : List Char} :
    parseSequenceSegment segment = some sequence ↔ segment = sequenceSegment sequence := by
  constructor
  · grind [parseSequenceSegment, sequenceSegment]
  · rintro rfl
    have hall := all_eq_true.mpr (@isDigit_sequenceSegment sequence)
    have hparse : parseU64 (String.ofList (sequenceSegment sequence)) = some sequence.get := by
      simp only [parseU64, String.toList_ofList, stripPlus_of_isDigit isDigit_sequenceSegment,
        ofDigitChars_sequenceSegment]
      exact if_pos ⟨ne_nil_of_length_eq_add_one length_sequenceSegment, hall, sequence.isLt⟩
    rw [parseSequenceSegment, if_pos ⟨length_sequenceSegment, hall⟩, hparse]
    simp only [dif_pos sequence.isLt]
    exact if_pos rfl

theorem parseRandomSegment_eq_some :
    parseRandomSegment encoded = some randomId ↔ encoded = base64UrlEncode randomId.toList := by
  simp only [parseRandomSegment, Option.bind_eq_bind, Option.ite_none_right_eq_some, Option.bind_eq_some_iff,
    Option.some.injEq]
  constructor
  · rintro ⟨-, _, -, _, -, henc, rfl⟩
    exact henc.symm
  · rintro rfl
    refine ⟨⟨by rw [length_base64UrlEncode, Vector.length_toList], fun h => base64UrlEncode_clean h (by decide),
      fun h => base64UrlEncode_clean h (by decide), fun h => base64UrlEncode_clean h (by decide)⟩,
      _, base64UrlDecode_encode _, randomId, ?_, rfl, rfl⟩
    simp [Digest.ofBytes?, Vector.toList]

theorem splitSlash_append (h : '/' ∉ before) : splitSlash (before ++ '/' :: after) = some (before, after) := by
  have hne : ∀ c ∈ before, decide (c ≠ '/') = true := fun c hc => decide_eq_true fun heq => h (heq ▸ hc)
  simp only [splitSlash, span_eq_takeWhile_dropWhile, takeWhile_append_of_pos hne, dropWhile_append_of_pos hne]
  simp

theorem eq_of_splitSlash (h : splitSlash chars = some (before, after)) : chars = before ++ '/' :: after := by
  simp only [splitSlash, span_eq_takeWhile_dropWhile] at h
  split at h
  · rename_i c rest hspan
    cases h
    obtain ⟨rfl, hdrop⟩ := Prod.mk.inj hspan
    have hc := head?_dropWhile_not (fun c => decide (c ≠ '/')) chars
    simp only [hdrop, head?_cons] at hc
    obtain rfl : c = '/' := by simpa using hc
    rw [← hdrop, takeWhile_append_dropWhile]
  · cases h

/-! ## Order -/

theorem utf8_ofList (cs : List Char) : utf8 (String.ofList cs) = cs.flatMap String.utf8EncodeChar := by
  simp [utf8, String.toByteArray_ofList, utf8Encode]

theorem utf8EncodeChar_digit (h : c.isDigit = true) : String.utf8EncodeChar c = [c.val.toUInt8] := by
  refine String.utf8EncodeChar_eq_singleton (Char.utf8Size_eq_one_iff.mpr ?_)
  exact UInt32.le_iff_toNat_le.mpr ((Char.isDigit_iff_toNat.mp h).2.trans (by decide))

/-- Digit strings of one length whose texts do not ascend, whatever follows them, do not ascend in value. -/
theorem ofDigitChars_le (hlen : cs.length = cs'.length)
    (hdigits : ∀ c ∈ cs, c.isDigit = true) (hdigits' : ∀ c ∈ cs', c.isDigit = true) (h : acc' < acc ∨ acc' = acc ∧
      ¬(cs ++ rest).flatMap String.utf8EncodeChar < (cs' ++ rest').flatMap String.utf8EncodeChar) :
    Nat.ofDigitChars 10 cs' acc' ≤ Nat.ofDigitChars 10 cs acc := by
  induction cs generalizing cs' acc acc' with
  | nil =>
    obtain rfl := length_eq_zero_iff.mp hlen.symm
    exact h.elim le_of_lt fun h => h.1.le
  | cons c cs ih =>
    obtain ⟨c', cs', rfl⟩ := exists_cons_of_length_eq_add_one hlen.symm
    obtain ⟨hc, hcs⟩ := forall_mem_cons.mp hdigits
    obtain ⟨hc', hcs'⟩ := forall_mem_cons.mp hdigits'
    simp only [cons_append, flatMap_cons, utf8EncodeChar_digit, hc, hc', cons_lt_cons_iff, not_or, not_and,
      UInt8.lt_iff_toNat_lt, UInt32.toNat_toUInt8] at h
    rw [Char.isDigit_iff_toNat] at hc hc'
    have h9 : '0'.toNat = 48 ∧ '9'.toNat = 57 := ⟨rfl, rfl⟩
    simp only [Nat.ofDigitChars_cons]
    refine ih (Nat.succ.inj hlen) hcs hcs' ?_
    -- a digit decides the order unless both are equal
    rcases h with h | ⟨rfl, hbyte, htail⟩
    · exact Or.inl (by omega)
    · have hle : c'.toNat ≤ c.toNat := by
        change ¬c.toNat % 256 < c'.toNat % 256 at hbyte
        omega
      rcases hle.lt_or_eq with hlt | heq
      · exact Or.inl (by omega)
      · obtain rfl := Char.toNat_inj.mp heq
        exact Or.inr ⟨rfl, htail rfl⟩

theorem commitKeyText_lt (h : a < b) :
    utf8 (String.ofList (commitKeyText a randomId)) < utf8 (String.ofList (commitKeyText b randomId')) := by
  rw [utf8_ofList, utf8_ofList, commitKeyText, commitKeyText, flatMap_append, @flatMap_append _ _ commitPrefixText.toList]
  refine append_left_lt (by_contra fun hge => ?_)
  have hle := ofDigitChars_le (length_sequenceSegment.trans length_sequenceSegment.symm) isDigit_sequenceSegment
    isDigit_sequenceSegment (Or.inr ⟨@rfl ℕ 0, hge⟩)
  rw [ofDigitChars_sequenceSegment, ofDigitChars_sequenceSegment] at hle
  exact absurd h (not_lt.mpr hle)

/-! ## Whole keys -/

namespace V3CommitKey

variable {key : V3CommitKey}

theorem parse_eq_ok {objectId : BackendObjectId} : parse objectId = .ok key ↔
    String.ofList (commitKeyText key.sequence key.randomId) = objectId.asStr ∧ key.objectId = objectId := by
  simp only [parse, ok_iff, isPrefixOf?_eq_some_iff_append_eq, Prod.exists, parseRandomSegment_eq_some,
    parseSequenceSegment_eq_some]
  constructor
  · rintro ⟨rest, hrest, segment, encoded, hsplit, _, rfl, _, rfl, rfl⟩
    rw [eq_of_splitSlash hsplit] at hrest
    exact ⟨String.toList_inj.mp (String.toList_ofList.trans hrest), rfl⟩
  · rintro ⟨htext, rfl⟩
    have hslash : '/' ∉ sequenceSegment key.sequence := fun h => absurd (isDigit_sequenceSegment _ h) (by decide)
    exact ⟨_, by rw [← htext, String.toList_ofList, commitKeyText], _, _, splitSlash_append hslash, _, rfl, _, rfl, rfl⟩

/-- **Commit keys**: parsing inverts building, what parses is canonical, and keys sort like their sequences. -/
theorem commit_keys_ordered :
    (∀ sequence randomId, ∃ key, fromParts sequence randomId = .ok key ∧ key.sequence = sequence ∧
      key.randomId = randomId ∧ parse key.objectId = .ok key) ∧
    (∀ objectId key, parse objectId = .ok key → key.objectId = objectId ∧
      fromParts key.sequence key.randomId = .ok key) ∧
    ∀ key key', parse key.objectId = .ok key → parse key'.objectId = .ok key' → key.sequence ≠ key'.sequence →
      (utf8 key.objectId.asStr < utf8 key'.objectId.asStr ↔ key.sequence < key'.sequence) := by
  refine ⟨fun sequence randomId => ?_, fun objectId key h => ?_, fun key key' h h' hne => ?_⟩
  · have hvalid : validateNonEmpty (String.ofList (commitKeyText sequence randomId)) = true := by
      rw [validateNonEmpty, String.toList_ofList, commitKeyText, any_append,
        show (commitPrefixText.toList.any fun c => !isWhitespace c) = true by decide, Bool.true_or]
    refine ⟨⟨sequence, randomId, ⟨_, hvalid⟩⟩, ?_, rfl, rfl, parse_eq_ok.mpr ⟨rfl, rfl⟩⟩
    rw [fromParts, BackendObjectId.new?, dif_pos hvalid]
    rfl
  · obtain ⟨htext, rfl⟩ := parse_eq_ok.mp h
    rw [fromParts, BackendObjectId.new?_eq_some.mpr htext]
    exact ⟨rfl, rfl⟩
  · rw [← (parse_eq_ok.mp h).1, ← (parse_eq_ok.mp h').1]
    refine ⟨fun hlt => by_contra fun hge => ?_, commitKeyText_lt⟩
    have hget : key.sequence.get ≠ key'.sequence.get := fun heq => hne (U64.ext heq)
    exact List.lt_asymm hlt (commitKeyText_lt (lt_of_le_of_ne (Nat.le_of_not_lt hge) hget.symm))

end V3CommitKey

end Rs3.Repository
