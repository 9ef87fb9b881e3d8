/-
# Rs3.Index.Keyring — blind keys and manifest identifiers.

`rs3-crypto/src/derive.rs` and `object_material` of `state.rs`.  The keyed digests are a parameter: two paths, or
one path under two keys, have different blind keys, and two materials have different manifest identifiers.
-/
import Rs3.Index.Types
import Rs3.Lib.Text

namespace Rs3.Index

open List

/-- The keyed digests, without collisions. -/
structure Prf where
  deriveBlindIndexKey : KeyId → LogicalPath → BlindIndexKey
  deriveManifestId : KeyId → String → ManifestId
  blindIndexKey_inj : ∀ {key key' path path'},
    deriveBlindIndexKey key path = deriveBlindIndexKey key' path' → key = key' ∧ path = path'
  manifestId_inj : ∀ {key material material'},
    deriveManifestId key material = deriveManifestId key material' → material = material'

/-- The namespace keys of a keyring. -/
structure KeyRing where
  primary : KeyId
  enabled : List KeyId
  primary_mem : primary ∈ enabled

/-- A blind key with the key that produced it. -/
structure NamespaceBlindKey where
  keyId : KeyId
  blindKey : BlindIndexKey
  deriving DecidableEq

namespace KeyRing

variable (keyring : KeyRing) (prf : Prf)

def derivePrimaryBlindIndexKey (path : LogicalPath) : NamespaceBlindKey :=
  ⟨keyring.primary, prf.deriveBlindIndexKey keyring.primary path⟩

def deriveBlindIndexKeysForLookup (path : LogicalPath) : List NamespaceBlindKey :=
  keyring.enabled.map fun key => ⟨key, prf.deriveBlindIndexKey key path⟩

def deriveManifestId (material : String) : ManifestId := prf.deriveManifestId keyring.primary material

end KeyRing

/-- The text from which a manifest identifier is derived. -/
def objectMaterial (key : LogicalPath) (sequence : Sequence) : String := key.asStr ++ "\x00" ++ toString sequence.get

/-- The last separator of two equal texts is at the same place. -/
theorem append_separator_inj {α : Type} {a : α} {x₁ x₂ z₁ z₂ : List α} (h₁ : a ∉ z₁) (h₂ : a ∉ z₂)
    (h : x₁ ++ a :: z₁ = x₂ ++ a :: z₂) : x₁ = x₂ ∧ z₁ = z₂ := by
  -- where the texts before the separators differ, a separator ends up behind the last one
  rcases append_eq_append_iff.mp h with ⟨_ | ⟨b, c⟩, hx, hz⟩ | ⟨_ | ⟨b, c⟩, hx, hz⟩ <;> simp_all

theorem nul_notMem_toString (n : ℕ) : '\x00' ∉ (toString n).toList := by
  intro h
  rw [Nat.toString_eq_ofList_toDigits, String.toList_ofList] at h
  have hdigit := Nat.isDigit_of_mem_toDigits (by decide) (by decide) h
  exact absurd hdigit (by decide)

/-- A path may contain the separator; the sequence cannot, so the material still names both. -/
theorem objectMaterial_inj {key key' : LogicalPath} {sequence sequence' : Sequence}
    (h : objectMaterial key sequence = objectMaterial key' sequence') : key = key' ∧ sequence = sequence' := by
  have hchars := congrArg String.toList h
  simp only [objectMaterial, String.toList_append] at hchars
  rw [show "\x00".toList = ['\x00'] from rfl, append_assoc, append_assoc, singleton_append, singleton_append] at hchars
  obtain ⟨hkey, hseq⟩ := append_separator_inj (nul_notMem_toString _) (nul_notMem_toString _) hchars
  have htext : toString sequence.get = toString sequence'.get := String.ext hseq
  have hparsed := Text.parseU64_toString sequence.isLt
  rw [htext, Text.parseU64_toString sequence'.isLt] at hparsed
  exact ⟨LogicalPath.ext (String.ext hkey), U64.ext (Option.some.inj hparsed).symm⟩

/-- The manifest identifier of one object version. -/
def KeyRing.manifestIdOf (keyring : KeyRing) (prf : Prf) (path : LogicalPath) (generation : Sequence) : ManifestId :=
  keyring.deriveManifestId prf (objectMaterial path generation)

variable {keyring : KeyRing} {prf : Prf} {path : LogicalPath}

theorem KeyRing.manifestIdOf_inj
    (h : keyring.manifestIdOf prf path generation = keyring.manifestIdOf prf path' generation') :
    path = path' ∧ generation = generation' :=
  objectMaterial_inj (prf.manifestId_inj h)

/-- `verify_blind_key`: some enabled key derives exactly this blind key. -/
def verifyBlindKey (keyring : KeyRing) (prf : Prf) (namespaceKeyId : KeyId) (path : LogicalPath)
    (expected : BlindIndexKey) : Except V3FormatError Unit :=
  ensure ((keyring.deriveBlindIndexKeysForLookup prf path).any fun derived =>
    derived.keyId = namespaceKeyId ∧ derived.blindKey = expected) .cryptoOperation

theorem verifyBlindKey_eq_ok :
    verifyBlindKey keyring prf key path expected = .ok u ↔
      key ∈ keyring.enabled ∧ prf.deriveBlindIndexKey key path = expected := by
  unfold verifyBlindKey KeyRing.deriveBlindIndexKeysForLookup
  rw [ensure_eq_ok]
  simp only [any_map, any_eq_true, Function.comp_apply, decide_eq_true_eq]
  constructor
  · rintro ⟨k, hk, rfl, rfl⟩
    exact ⟨hk, rfl⟩
  · rintro ⟨hk, rfl⟩
    exact ⟨key, hk, rfl, rfl⟩

end Rs3.Index
