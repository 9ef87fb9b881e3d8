/-
# Rs3.Index.MultipartSelection — the identity of a completion request.

`V3MultipartSelection` of `v3/service/multipart.rs`: the selected part numbers, their ETags and checksums, the expected
checksum and the declared kind are written into one preimage, whose digest binds a retry to the accepted request.
-/
import Rs3.Index.RunValidate
import Rs3.Index.Staging
import Rs3.Lib.Delimited

namespace Rs3.Index

open List

inductive MultipartChecksumKind where
  | fullObject
  | composite
  deriving DecidableEq, Repr

/-- A checksum as its constructor builds it. -/
abbrev ValidChecksum := { checksum : ObjectChecksum // checksum.WellFormed }

@[ext]
structure SelectedPart where
  number : ℕ
  etag : String
  checksum : Option ValidChecksum

/-- What a client asks to complete. -/
@[ext]
structure SelectionRequest where
  parts : List SelectedPart
  expectedChecksum : Option ValidChecksum
  declaredKind : Option MultipartChecksumKind

structure V3MultipartSelection where
  request : SelectionRequest
  digest : Digest

namespace SelectionRequest

def partBytes (part : SelectedPart) : Bytes := toBe 4 part.number ++ lengthFramed 2 (utf8 part.etag)

def checksumBytes (checksum : Option ValidChecksum) : Bytes :=
  lengthFramed 8 ((checksum.map fun checksum => checksum.val.encode).getD [])

def kindByte : Option MultipartChecksumKind → UInt8
  | none => 0
  | some .fullObject => 1
  | some .composite => 2

/-- What is hashed. -/
def preimage (request : SelectionRequest) : Bytes :=
  utf8 "rs3:v3-multipart-client-selection:v2\x00" ++ toBe 8 request.parts.length ++ request.parts.flatMap partBytes ++
    (request.parts.map SelectedPart.checksum ++ [request.expectedChecksum]).flatMap checksumBytes ++
    [kindByte request.declaredKind]

end SelectionRequest

/-- A part that the loop refuses, after the number of the part before it. -/
def SelectedPart.Refused (previous : ℕ) (part : SelectedPart) : Prop :=
  part.number ≤ previous ∨ 10000 < part.number ∨ utf8 part.etag = [] ∨ 128 < (utf8 part.etag).length ∨
    ((utf8 part.etag).any fun byte => !(0x21 ≤ byte && byte ≤ 0x7e)) = true

instance (previous : ℕ) (part : SelectedPart) : Decidable (part.Refused previous) := by
  unfold SelectedPart.Refused
  infer_instance

/-- `invalid_completion`. -/
def invalidCompletion : RepositoryError := .v3 .invalidHeaderField

/-- `V3MultipartSelection::with_checksums_and_kind`. -/
def V3MultipartSelection.withChecksumsAndKind (sha256 : Bytes → Digest) (request : SelectionRequest) :
    Except RepositoryError V3MultipartSelection := do
  ensure (¬(request.parts = [] ∨ maxPayloadParts < request.parts.length)) invalidCompletion
  let _ ← request.parts.foldlM (fun previous part => do
    ensure (¬ part.Refused previous) invalidCompletion
    return part.number) 0
  return ⟨request, sha256 request.preimage⟩

/-! ## The preimage determines the request -/

namespace SelectionRequest

/-- The bounds that the encoding needs. -/
def PartFits (part : SelectedPart) : Prop := part.number < 256 ^ 4 ∧ (utf8 part.etag).length < 256 ^ 2

theorem checksum_encode_inj {a b : ValidChecksum} (h : a.val.encode = b.val.encode) : a = b := by
  have ha := ObjectChecksum.decode_eq_ok.mpr ⟨a.property, rfl⟩
  have hb := ObjectChecksum.decode_eq_ok.mpr ⟨b.property, rfl⟩
  rw [h] at ha
  exact Subtype.ext (Except.ok.inj (ha.symm.trans hb))

theorem checksum_encode_ne_nil (checksum : ValidChecksum) : checksum.val.encode ≠ [] := by
  have hhead : Cbor.writeArrayLen 3 ≠ [] := by decide +kernel
  simp [ObjectChecksum.encode, hhead]

theorem delimited_checksumBytes : Delimited (fun _ => True) checksumBytes := by
  intro a b rest rest' _ _ h
  have hfits : ∀ checksum : Option ValidChecksum,
      ((checksum.map fun checksum => checksum.val.encode).getD []).length < 256 ^ 8 := by
    intro checksum
    cases checksum with
    | none => exact Nat.lt_of_lt_of_le Nat.zero_lt_one (Nat.one_le_two_pow (n := 64))
    | some checksum =>
      have hle := ObjectChecksum.length_encode_le checksum.property
      exact Nat.lt_of_le_of_lt hle (by decide)
  obtain ⟨hbytes, hrest⟩ := delimited_lengthFramed 8 (hfits a) (hfits b) h
  refine ⟨?_, hrest⟩
  cases a with
  | none =>
    cases b with
    | none => rfl
    | some b => exact absurd hbytes.symm (checksum_encode_ne_nil b)
  | some a =>
    cases b with
    | none => exact absurd hbytes (checksum_encode_ne_nil a)
    | some b => exact congrArg some (checksum_encode_inj hbytes)

theorem partBytes_inj (ha : PartFits a) (hb : PartFits b)
    (h : partBytes a ++ rest = partBytes b ++ rest') : (a.number = b.number ∧ a.etag = b.etag) ∧ rest = rest' := by
  rw [partBytes, partBytes, append_assoc, append_assoc] at h
  obtain ⟨hnumber, hetag⟩ := delimited_toBe 4 ha.1 hb.1 h
  obtain ⟨hbytes, hrest⟩ := delimited_lengthFramed 2 ha.2 hb.2 hetag
  exact ⟨⟨hnumber, utf8_inj hbytes⟩, hrest⟩

/-- A part without its checksum. -/
def bare (part : SelectedPart) : ℕ × String := (part.number, part.etag)

theorem delimited_bare : Delimited (fun part : ℕ × String => part.1 < 256 ^ 4 ∧ (utf8 part.2).length < 256 ^ 2)
    fun part => toBe 4 part.1 ++ lengthFramed 2 (utf8 part.2) := by
  intro a b rest rest' ha hb h
  obtain ⟨⟨hnumber, hetag⟩, hrest⟩ := partBytes_inj (a := ⟨a.1, a.2, none⟩) (b := ⟨b.1, b.2, none⟩) ha hb h
  exact ⟨Prod.ext hnumber hetag, hrest⟩

theorem kindByte_inj (h : kindByte a = kindByte b) : a = b := by
  revert h
  rcases a with - | - | - <;> rcases b with - | - | - <;> decide

/-- **The preimage determines the request**: part numbers, ETags, checksums and the kind. -/
theorem preimage_inj {a b : SelectionRequest} (hacount : a.parts.length < 256 ^ 8) (hbcount : b.parts.length < 256 ^ 8)
    (ha : ∀ part ∈ a.parts, PartFits part) (hb : ∀ part ∈ b.parts, PartFits part) (h : a.preimage = b.preimage) : a = b := by
  simp only [preimage, append_assoc, append_cancel_left_eq] at h
  obtain ⟨hcount, h⟩ := delimited_toBe 8 hacount hbcount h
  have hbare : ∀ parts : List SelectedPart, parts.flatMap partBytes =
      (parts.map bare).flatMap fun part => toBe 4 part.1 ++ lengthFramed 2 (utf8 part.2) := by
    intro parts
    rw [flatMap_map]
    rfl
  rw [hbare, hbare] at h
  -- the numbers and tags of all parts come first, then all checksums
  obtain ⟨hparts, h⟩ := delimited_bare.flatMap (by rw [length_map, length_map, hcount])
    (fun part hpart => by
      obtain ⟨part, hmem, rfl⟩ := mem_map.mp hpart
      exact ha part hmem)
    (fun part hpart => by
      obtain ⟨part, hmem, rfl⟩ := mem_map.mp hpart
      exact hb part hmem) h
  obtain ⟨hchecksums, hkind⟩ := delimited_checksumBytes.flatMap (by simp [hcount]) (fun _ _ => trivial)
    (fun _ _ => trivial) h
  obtain ⟨hdeclared, hexpected⟩ := append_inj hchecksums (by simp [hcount])
  have hall : a.parts = b.parts := by
    refine ext_getElem hcount fun i hi hi' => ?_
    have hbareAt := congrArg (fun parts => parts[i]?) hparts
    have hchecksumAt := congrArg (fun checksums => checksums[i]?) hdeclared
    simp only [List.getElem?_map, List.getElem?_eq_getElem hi, List.getElem?_eq_getElem hi', Option.map_some,
      Option.some.injEq, bare, Prod.mk.injEq] at hbareAt hchecksumAt
    exact SelectedPart.ext hbareAt.1 hbareAt.2 hchecksumAt
  exact SelectionRequest.ext hall (singleton_inj.mp hexpected) (kindByte_inj (singleton_inj.mp hkind))

end SelectionRequest

theorem withChecksumsAndKind_fits {sha256 : Bytes → Digest}
    (h : V3MultipartSelection.withChecksumsAndKind sha256 request = .ok selection) :
    selection = ⟨request, sha256 request.preimage⟩ ∧ request.parts.length < 256 ^ 8 ∧
      ∀ part ∈ request.parts, SelectionRequest.PartFits part := by
  simp only [V3MultipartSelection.withChecksumsAndKind, ok_iff, not_or] at h
  obtain ⟨⟨-, hcount⟩, _, hloop, rfl⟩ := h
  have hparts : ∀ {parts : List SelectedPart} {previous last : ℕ}, parts.foldlM (fun previous part => do
      ensure (¬ part.Refused previous) invalidCompletion
      return part.number) previous = .ok last → ∀ part ∈ parts, SelectionRequest.PartFits part := by
    intro parts
    induction parts with
    | nil => simp
    | cons part parts ih =>
      intro previous last hfold
      simp only [foldlM_cons, ok_iff] at hfold
      obtain ⟨_, ⟨haccepted, rfl⟩, hrest⟩ := hfold
      unfold SelectedPart.Refused at haccepted
      exact forall_mem_cons.mpr ⟨⟨by omega, by omega⟩, ih hrest⟩
  unfold maxPayloadParts at hcount
  exact ⟨rfl, by omega, hparts hloop⟩

end Rs3.Index
