/-
# Rs3.Payload.SegmentedRead — reads of detached payloads are exact.

Whatever the parts and the chunk size, the segments of a valid layout follow each other without gap, in plaintext and
in ciphertext; the prefix sums find the segment of a byte and the facts of an ordinal; and a selected span opens to
exactly the requested plaintext.
-/
import Rs3.Payload.Segmented
import Rs3.Payload.PackRead

namespace Rs3.Payload

open List SegmentedPayloadLayout

open Crypto
open Rs3.Index (PayloadLayout PayloadPart divCeil)

/-! ## The segments of a layout -/

section Lists

variable {c : ℕ}

section

variable (c : ℕ) (start : PartStart) (part : PayloadPart)

/-- The sums after a part. -/
def nextStart : PartStart where
  plaintext := start.plaintext + part.plaintextLen
  ciphertext := start.ciphertext + part.plaintextLen + divCeil part.plaintextLen c * tagLen
  «segment» := start.segment + divCeil part.plaintextLen c

theorem nextStart_plaintext : (nextStart c start part).plaintext = start.plaintext + part.plaintextLen := rfl

theorem nextStart_ciphertext : (nextStart c start part).ciphertext =
      start.ciphertext + part.plaintextLen + divCeil part.plaintextLen c * tagLen := rfl

theorem nextStart_segment : (nextStart c start part).segment = start.segment + divCeil part.plaintextLen c := rfl

end

def startsOf (c : ℕ) : PartStart → List PayloadPart → List PartStart
  | _, [] => []
  | start, part :: rest => start :: startsOf c (nextStart c start part) rest

def partSegments (c : ℕ) (start : PartStart) (part : PayloadPart) : List SegmentFacts :=
  (range (divCeil part.plaintextLen c)).map (segmentFacts c start part)

def segmentsOf (c : ℕ) : PartStart → List PayloadPart → List SegmentFacts
  | _, [] => []
  | start, part :: rest => partSegments c start part ++ segmentsOf c (nextStart c start part) rest

theorem lt_divCeil {len j : ℕ} (hc : 0 < c) : j < divCeil len c ↔ j * c < len := by
  have hdiv := Nat.div_add_mod len c
  have hmod := Nat.mod_lt len hc
  have hmul : c * (len / c) = len / c * c := Nat.mul_comm _ _
  unfold divCeil
  constructor
  · intro h
    split at h
    · have := Nat.mul_le_mul_right c (show j + 1 ≤ len / c by omega)
      rw [Nat.succ_mul] at this
      omega
    · have := Nat.mul_le_mul_right c (show j ≤ len / c by omega)
      omega
  · intro h
    by_contra hge
    split at hge
    · have := Nat.mul_le_mul_right c (show len / c ≤ j by omega)
      omega
    · have := Nat.mul_le_mul_right c (show len / c + 1 ≤ j by omega)
      rw [Nat.succ_mul] at this
      omega

theorem le_divCeil_mul (hc : 0 < c) : len ≤ divCeil len c * c := by
  by_contra h
  exact absurd ((lt_divCeil hc).mpr (Nat.lt_of_not_le h)) (Nat.lt_irrefl _)

theorem length_partSegments {part : PayloadPart} :
    (partSegments c start part).length = divCeil part.plaintextLen c := by
  rw [partSegments, length_map, length_range]

variable {start : PartStart} {part : PayloadPart} {parts : List PayloadPart}

theorem getElem?_partSegments :
    (partSegments c start part)[j]? = some facts ↔
      j < divCeil part.plaintextLen c ∧ segmentFacts c start part j = facts := by
  rw [partSegments, getElem?_map, Option.map_eq_some_iff]
  simp only [getElem?_eq_some_iff, length_range, getElem_range]
  constructor
  · rintro ⟨_, ⟨hj, rfl⟩, hfacts⟩
    exact ⟨hj, hfacts⟩
  · rintro ⟨hj, hfacts⟩
    exact ⟨j, ⟨hj, rfl⟩, hfacts⟩

/-- The prefix sums find the part of a coordinate. -/
theorem locate (key : PartStart → ℕ) (size : PayloadPart → ℕ)
    (hnext : ∀ start part, key (nextStart c start part) = key start + size part) {x : ℕ}
    (hstart : key start ≤ x) (hstop : x < key start + (parts.map size).sum) :
    ∃ i s part, partitionPoint (fun s => key s ≤ x) (startsOf c start parts) = i + 1 ∧
      (startsOf c start parts)[i]? = some s ∧ parts[i]? = some part ∧ key s ≤ x ∧ x < key s + size part := by
  induction parts generalizing start with
  | nil => exact absurd hstop (Nat.not_lt.mpr hstart)
  | cons part rest ih =>
    rw [map_cons, sum_cons] at hstop
    by_cases hhere : x < key start + size part
    · refine ⟨0, start, part, ?_, rfl, rfl, hstart, hhere⟩
      cases rest with
      | nil => simp [partitionPoint, startsOf, hstart]
      | cons next rest => simp [partitionPoint, startsOf, hstart, hnext, Nat.not_le.mpr hhere]
    · obtain ⟨i, s, p, hpoint, hs, hp, hle, hlt⟩ :=
        @ih (nextStart c start part) (by rw [hnext]; omega) (by rw [hnext]; omega)
      refine ⟨i + 1, s, p, ?_, hs, hp, hle, hlt⟩
      rw [partitionPoint] at hpoint ⊢
      rw [startsOf, takeWhile_cons_of_pos (by simpa using hstart), length_cons, hpoint]

/-- Segment `j` of part `i`, in the list of all segments. -/
theorem segmentsOf_at {s : PartStart} {i j : ℕ}
    (hs : (startsOf c start parts)[i]? = some s) (hpart : parts[i]? = some part)
    (hj : j < divCeil part.plaintextLen c) :
    start.segment ≤ s.segment ∧
      (segmentsOf c start parts)[s.segment - start.segment + j]? = some (segmentFacts c s part j) := by
  induction parts generalizing start i with
  | nil => cases hpart
  | cons first rest ih =>
    cases i with
    | zero =>
      cases hs
      cases hpart
      refine ⟨Nat.le_refl _, ?_⟩
      rw [Nat.sub_self, Nat.zero_add, segmentsOf, getElem?_append_left (by rwa [length_partSegments])]
      exact getElem?_partSegments.mpr ⟨hj, rfl⟩
    | succ i =>
      obtain ⟨hle, hat⟩ := @ih (nextStart c start first) _ hs hpart
      have hnext := nextStart_segment c start first
      refine ⟨by omega, ?_⟩
      rw [segmentsOf, getElem?_append_right (by rw [length_partSegments]; omega), length_partSegments, ← hat]
      congr 1
      omega

/-! ## Where segments lie -/

/-- The plaintext before segment `o`. -/
def plainBefore (segments : List SegmentFacts) (o : ℕ) : ℕ := ((segments.take o).map SegmentFacts.plaintextLen).sum

/-- The ciphertext before segment `o`. -/
def cipherBefore (segments : List SegmentFacts) (o : ℕ) : ℕ :=
  ((segments.take o).map fun facts => facts.plaintextLen + tagLen).sum

section Before

variable {segments : List SegmentFacts} {o : ℕ} {facts : SegmentFacts}

theorem take_succ_of_getElem? (h : segments[o]? = some facts) : segments.take (o + 1) = segments.take o ++ [facts] := by
  rw [take_add_one, h]
  rfl

theorem plainBefore_succ (h : segments[o]? = some facts) :
    plainBefore segments (o + 1) = plainBefore segments o + facts.plaintextLen := by
  simp [plainBefore, take_succ_of_getElem? h]

theorem cipherBefore_succ (h : segments[o]? = some facts) :
    cipherBefore segments (o + 1) = cipherBefore segments o + facts.plaintextLen + tagLen := by
  simp [cipherBefore, take_succ_of_getElem? h, Nat.add_assoc]

theorem plainBefore_mono (segments : List SegmentFacts) : Monotone (plainBefore segments) := by
  refine monotone_nat_of_le_succ fun o => ?_
  cases h : segments[o]? with
  | none =>
    have hlen := getElem?_eq_none_iff.mp h
    rw [plainBefore, plainBefore, take_of_length_le hlen, take_of_length_le (hlen.trans (Nat.le_succ o))]
  | some facts =>
    rw [plainBefore_succ h]
    exact Nat.le_add_right _ _

theorem cipherBefore_mono (segments : List SegmentFacts) : Monotone (cipherBefore segments) := by
  refine monotone_nat_of_le_succ fun o => ?_
  cases h : segments[o]? with
  | none =>
    have hlen := getElem?_eq_none_iff.mp h
    rw [cipherBefore, cipherBefore, take_of_length_le hlen, take_of_length_le (hlen.trans (Nat.le_succ o))]
  | some facts =>
    rw [cipherBefore_succ h, Nat.add_assoc]
    exact Nat.le_add_right _ _

theorem plainBefore_append : plainBefore (xs ++ ys) o = plainBefore xs o + plainBefore ys (o - xs.length) := by
  simp [plainBefore, take_append]

end Before

theorem plainBefore_partSegments (hj : j ≤ divCeil part.plaintextLen c) :
    plainBefore (partSegments c start part) j = min (j * c) part.plaintextLen := by
  induction j with
  | zero => simp [plainBefore]
  | succ j ih =>
    rw [plainBefore_succ (getElem?_partSegments.mpr ⟨hj, rfl⟩), ih (Nat.le_of_succ_le hj), Nat.succ_mul]
    simp only [segmentFacts]
    omega

theorem cipherBefore_eq (segments : List SegmentFacts) (h : o ≤ segments.length) :
    cipherBefore segments o = plainBefore segments o + o * tagLen := by
  induction o with
  | zero => simp [cipherBefore, plainBefore]
  | succ o ih =>
    have hat := getElem?_eq_getElem (Nat.lt_of_succ_le h)
    rw [cipherBefore_succ hat, plainBefore_succ hat, ih (Nat.le_of_succ_le h), Nat.succ_mul]
    omega

theorem plainBefore_part (start : PartStart) (part : PayloadPart) (hc : 0 < c) :
    plainBefore (partSegments c start part) (divCeil part.plaintextLen c) = part.plaintextLen := by
  rw [plainBefore_partSegments (Nat.le_refl _)]
  exact Nat.min_eq_right (le_divCeil_mul hc)

theorem plainBefore_part_of_le (hc : 0 < c)
    (hj : divCeil part.plaintextLen c ≤ j) : plainBefore (partSegments c start part) j = part.plaintextLen := by
  have htake : (partSegments c start part).take j = (partSegments c start part).take (divCeil part.plaintextLen c) := by
    rw [take_of_length_le (by rwa [length_partSegments]), take_of_length_le (by rw [length_partSegments])]
  rw [plainBefore, htake]
  exact plainBefore_part start part hc

/-- Every segment lies where the segments before it end, and is not empty. -/
theorem segmentsOf_offsets (hc : 0 < c) (h : (segmentsOf c start parts)[o]? = some facts) :
    facts.plaintextOffset = start.plaintext + plainBefore (segmentsOf c start parts) o ∧
      facts.ciphertextOffset = start.ciphertext + (plainBefore (segmentsOf c start parts) o + o * tagLen) ∧
      0 < facts.plaintextLen ∧ facts.plaintextLen ≤ c := by
  induction parts generalizing start o with
  | nil => cases h
  | cons part rest ih =>
    rw [segmentsOf] at h ⊢
    rw [plainBefore_append, length_partSegments]
    by_cases ho : o < divCeil part.plaintextLen c
    · rw [getElem?_append_left (by rwa [length_partSegments])] at h
      obtain ⟨-, rfl⟩ := getElem?_partSegments.mp h
      have hlt := (lt_divCeil hc).mp ho
      rw [plainBefore_partSegments ho.le, Nat.min_eq_left hlt.le, Nat.sub_eq_zero_of_le ho.le]
      simp only [plainBefore, take_zero, map_nil, sum_nil, segmentFacts]
      omega
    · rw [getElem?_append_right (by rw [length_partSegments]; omega), length_partSegments] at h
      obtain ⟨hplain, hcipher, hpos⟩ := ih h
      have ho' := Nat.le_of_not_lt ho
      have htags : o * tagLen = divCeil part.plaintextLen c * tagLen + (o - divCeil part.plaintextLen c) * tagLen := by
        rw [← Nat.add_mul, Nat.add_sub_cancel' ho']
      rw [plainBefore_part_of_le hc ho']
      rw [nextStart_plaintext] at hplain
      rw [nextStart_ciphertext] at hcipher
      exact ⟨by omega, by omega, hpos⟩

/-- The sums after all parts. -/
def endOf (c : ℕ) (start : PartStart) (parts : List PayloadPart) : PartStart := parts.foldl (nextStart c) start

theorem endOf_eq (hc : 0 < c) (start : PartStart) (parts : List PayloadPart) :
    (endOf c start parts).segment = start.segment + (segmentsOf c start parts).length ∧
      (endOf c start parts).plaintext =
        start.plaintext + plainBefore (segmentsOf c start parts) (segmentsOf c start parts).length ∧
      (endOf c start parts).ciphertext =
        start.ciphertext + cipherBefore (segmentsOf c start parts) (segmentsOf c start parts).length := by
  induction parts generalizing start with
  | nil => simp [endOf, segmentsOf, plainBefore, cipherBefore]
  | cons part rest ih =>
    obtain ⟨hsegment, hplain, hcipher⟩ := ih (nextStart c start part)
    rw [show endOf c start (part :: rest) = endOf c (nextStart c start part) rest from rfl, hsegment, hplain, hcipher]
    rw [cipherBefore_eq _ (Nat.le_refl _), cipherBefore_eq _ (Nat.le_refl _), segmentsOf, plainBefore_append,
      length_append, length_partSegments, Nat.add_sub_cancel_left,
      plainBefore_part_of_le hc (Nat.le_add_right _ _), Nat.add_mul, nextStart_plaintext,
      nextStart_ciphertext, nextStart_segment]
    omega

theorem endOf_sums (start : PartStart) (parts : List PayloadPart) :
    (endOf c start parts).plaintext = start.plaintext + (parts.map PayloadPart.plaintextLen).sum ∧
      (endOf c start parts).segment = start.segment + (parts.map fun part => divCeil part.plaintextLen c).sum := by
  induction parts generalizing start with
  | nil => exact ⟨rfl, rfl⟩
  | cons part rest ih =>
    obtain ⟨hplain, hsegment⟩ := ih (nextStart c start part)
    rw [show endOf c start (part :: rest) = endOf c (nextStart c start part) rest from rfl, hplain, hsegment]
    simp only [nextStart, map_cons, sum_cons]
    omega

end Lists

/-! ## Valid layouts -/

namespace SegmentedPayloadLayout

theorem addParts_eq_ok (h : parts.foldlM (addPart c) state = .ok result) :
    result = (state.1 ++ startsOf c state.2 parts, endOf c state.2 parts) := by
  induction parts generalizing state with
  | nil =>
    rw [foldlM_nil, pure_eq_ok] at h
    simp [← h, startsOf, endOf]
  | cons part rest ih =>
    rw [foldlM_cons, bind_eq_ok] at h
    obtain ⟨middle, hpart, hrest⟩ := h
    simp only [addPart, ok_iff, checkedAdd_eq_some, checkedMul_eq_some] at hpart
    obtain ⟨_, ⟨-, rfl⟩, _, ⟨-, rfl⟩, _, ⟨-, rfl⟩, _, ⟨-, rfl⟩, _, ⟨-, rfl⟩, rfl⟩ := hpart
    rw [ih hrest]
    simp [startsOf, endOf, nextStart]

end SegmentedPayloadLayout

/-- What `stored_len` sums: the numbers, plaintext and ciphertext of the parts. -/
theorem addParts_eq_some (h : parts.foldlM (PayloadLayout.addPart c) totals = some result) (start : PartStart)
    (hplain : totals.plaintext = start.plaintext) (hstored : totals.stored = start.ciphertext)
    (hbound : totals.stored < 2 ^ 64) :
    result.plaintext = (endOf c start parts).plaintext ∧ result.stored = (endOf c start parts).ciphertext ∧
      result.stored < 2 ^ 64 := by
  induction parts generalizing totals start with
  | nil =>
    rw [foldlM_nil, Option.pure_def, Option.some.injEq] at h
    subst h
    exact ⟨hplain, hstored, hbound⟩
  | cons part rest ih =>
    rw [foldlM_cons, Option.bind_eq_bind, Option.bind_eq_some_iff] at h
    obtain ⟨middle, hpart, hrest⟩ := h
    unfold PayloadLayout.addPart at hpart
    split at hpart
    · cases hpart
    · simp only [Option.bind_eq_bind, Option.bind_eq_some_iff, checkedAdd_eq_some, checkedMul_eq_some, Option.pure_def,
        Option.some.injEq] at hpart
      obtain ⟨_, ⟨-, rfl⟩, _, ⟨-, rfl⟩, _, ⟨-, rfl⟩, _, ⟨hlt, rfl⟩, rfl⟩ := hpart
      refine ih hrest (nextStart c start part) ?_ ?_ hlt
      · simp only [nextStart, hplain]
      · simp only [nextStart, hstored, tagLen]
        omega

def SegmentedPayloadLayout.segments (layout : SegmentedPayloadLayout) : List SegmentFacts :=
  segmentsOf layout.reference.chunkSize ⟨0, 0, 0⟩ layout.reference.parts

/-- What a validated layout knows of its segments. -/
structure Located (layout : SegmentedPayloadLayout) : Prop where
  chunk : 0 < layout.reference.chunkSize
  count : layout.segmentCount = layout.segments.length
  plain : plainBefore layout.segments layout.segments.length = layout.reference.plaintextLen
  stored : cipherBefore layout.segments layout.segments.length = layout.storedLen
  bounded : layout.storedLen < 2 ^ 64
  nonempty : 0 < layout.reference.plaintextLen
  starts : layout.starts = startsOf layout.reference.chunkSize ⟨0, 0, 0⟩ layout.reference.parts

theorem SegmentedPayloadLayout.new_located {reference : PayloadLayout} {repositoryContext : Bytes}
    {layout : SegmentedPayloadLayout} (h : SegmentedPayloadLayout.new reference repositoryContext = .ok layout) :
    Located layout ∧ layout.reference = reference ∧ layout.repositoryContext = repositoryContext ∧
      reference.storedLen = some layout.storedLen := by
  simp only [SegmentedPayloadLayout.new, ok_iff] at h
  obtain ⟨storedLen, hstored, -, sums, hsums, rfl⟩ := h
  have hlen := hstored
  unfold PayloadLayout.storedLen at hlen
  split at hlen
  · cases hlen
  · rename_i hbounds
    push Not at hbounds
    have hchunk : 0 < reference.chunkSize := Nat.pos_of_ne_zero hbounds.1
    simp only [Option.bind_eq_bind, Option.bind_eq_some_iff, Option.ite_none_right_eq_some, Option.some.injEq] at hlen
    obtain ⟨totals, htotals, hplain, rfl⟩ := hlen
    obtain ⟨hplain', hstored', hlt⟩ := addParts_eq_some htotals ⟨0, 0, 0⟩ rfl rfl (Nat.two_pow_pos 64)
    obtain ⟨hsegment, hends⟩ := endOf_eq hchunk ⟨0, 0, 0⟩ reference.parts
    obtain rfl := addParts_eq_ok hsums
    simp only [Nat.zero_add] at hsegment hends
    refine ⟨⟨hchunk, ?_, ?_, ?_, hlt, Nat.pos_of_ne_zero hbounds.2.2.1, rfl⟩, rfl, rfl, hstored⟩
    · simpa [segments] using hsegment
    · exact hends.1.symm.trans (hplain'.symm.trans hplain)
    · exact hends.2.symm.trans hstored'.symm

namespace Located

variable {layout : SegmentedPayloadLayout} (h : Located layout)
include h

variable {o : ℕ} {facts : SegmentFacts}

theorem at_offsets (hat : layout.segments[o]? = some facts) : facts.plaintextOffset = plainBefore layout.segments o ∧
      facts.ciphertextOffset = cipherBefore layout.segments o ∧ 0 < facts.plaintextLen ∧
      facts.plaintextLen ≤ layout.reference.chunkSize := by
  obtain ⟨hplain, hcipher, hpos⟩ := segmentsOf_offsets h.chunk hat
  simp only [Nat.zero_add] at hplain hcipher
  have ho : o < layout.segments.length := (List.getElem?_eq_some_iff.mp hat).1
  rw [cipherBefore_eq _ ho.le]
  exact ⟨hplain, hcipher, hpos⟩

theorem plainBefore_le (o : ℕ) : plainBefore layout.segments o ≤ layout.reference.plaintextLen := by
  rcases Nat.le_total o layout.segments.length with ho | ho
  · exact h.plain ▸ plainBefore_mono _ ho
  · rw [← h.plain, plainBefore, plainBefore, take_of_length_le ho, take_of_length_le (Nat.le_refl _)]

theorem cipherBefore_le (ho : o ≤ layout.segments.length) : cipherBefore layout.segments o ≤ layout.storedLen :=
  h.stored ▸ cipherBefore_mono _ ho

theorem plaintextLen_le : layout.reference.plaintextLen ≤ layout.storedLen := by
  rw [← h.plain, ← h.stored, cipherBefore_eq _ (Nat.le_refl _)]
  exact Nat.le_add_right _ _

theorem segment_eq (ho : o < layout.segments.length) :
    ∃ facts, layout.segments[o]? = some facts ∧ layout.segment o = .ok facts := by
  obtain ⟨hsegment, -⟩ := endOf_eq h.chunk ⟨0, 0, 0⟩ layout.reference.parts
  obtain ⟨-, hsums⟩ := endOf_sums (c := layout.reference.chunkSize) ⟨0, 0, 0⟩ layout.reference.parts
  have hlength : layout.segments.length =
      (layout.reference.parts.map fun part => divCeil part.plaintextLen layout.reference.chunkSize).sum := by
    simp only [Nat.zero_add] at hsegment hsums
    exact hsegment.symm.trans hsums
  obtain ⟨i, s, part, hpoint, hs, hpart, hle, hlt⟩ := @locate layout.reference.chunkSize
    ⟨0, 0, 0⟩ layout.reference.parts PartStart.segment
    (fun part => divCeil part.plaintextLen layout.reference.chunkSize) (fun _ _ => rfl) o (Nat.zero_le _)
    (by simpa [← hlength] using ho)
  obtain ⟨-, hat⟩ := segmentsOf_at hs hpart (j := o - s.segment) (by omega)
  rw [Nat.sub_zero, Nat.add_sub_cancel' hle] at hat
  refine ⟨_, hat, ?_⟩
  have hoffset := h.at_offsets hat
  have hbefore := h.plainBefore_le o
  have hplain := h.plaintextLen_le
  have hbounded := h.bounded
  have hmul : (o - s.segment) * layout.reference.chunkSize < 2 ^ 64 := by
    simp only [segmentFacts] at hoffset
    omega
  simp only [SegmentedPayloadLayout.segment, h.starts, hpoint, ok_iff, Nat.add_sub_cancel, checkedMul_eq_some]
  exact ⟨h.count ▸ ho, s, hs, part, hpart, _, ⟨hmul, rfl⟩, rfl⟩

theorem segment_of_getElem? (hat : layout.segments[o]? = some facts) : layout.segment o = .ok facts := by
  obtain ⟨facts', hat', hsegment⟩ := h.segment_eq (List.getElem?_eq_some_iff.mp hat).1
  rw [hat] at hat'
  cases hat'
  exact hsegment

theorem segmentAtByte_eq {offset : ℕ} (hoffset : offset < layout.reference.plaintextLen) :
    ∃ o, layout.segmentAtByte offset = .ok o ∧ o < layout.segments.length ∧
      plainBefore layout.segments o ≤ offset ∧ offset < plainBefore layout.segments (o + 1) := by
  obtain ⟨-, hplain, -⟩ := endOf_eq h.chunk ⟨0, 0, 0⟩ layout.reference.parts
  obtain ⟨hsums, -⟩ := endOf_sums (c := layout.reference.chunkSize) ⟨0, 0, 0⟩ layout.reference.parts
  have htotal := h.plain
  have hlength : layout.reference.plaintextLen = (layout.reference.parts.map PayloadPart.plaintextLen).sum := by
    simp only [Nat.zero_add] at hplain hsums
    exact htotal.symm.trans (hplain.symm.trans hsums)
  obtain ⟨i, s, part, hpoint, hs, hpart, hle, hlt⟩ := @locate layout.reference.chunkSize
    ⟨0, 0, 0⟩ layout.reference.parts PartStart.plaintext PayloadPart.plaintextLen (fun _ _ => rfl) offset
    (Nat.zero_le _) (by simpa [← hlength] using hoffset)
  have hdiv := Nat.div_mul_le_self (offset - s.plaintext) layout.reference.chunkSize
  have hmod := Nat.lt_div_mul_add h.chunk (a := offset - s.plaintext)
  have hj : (offset - s.plaintext) / layout.reference.chunkSize <
      divCeil part.plaintextLen layout.reference.chunkSize := (lt_divCeil h.chunk).mpr (by omega)
  obtain ⟨-, hat⟩ := segmentsOf_at hs hpart hj
  rw [Nat.sub_zero] at hat
  have hat' : layout.segments[s.segment + (offset - s.plaintext) / layout.reference.chunkSize]? = some _ := hat
  have ho := (List.getElem?_eq_some_iff.mp hat').1
  obtain ⟨hat1, -⟩ := h.at_offsets hat'
  have hsucc := plainBefore_succ hat'
  have hcipher := cipherBefore_eq layout.segments (Nat.le_refl _)
  have hstored := h.stored
  have hbounded := h.bounded
  simp only [segmentFacts] at hat1 hsucc
  refine ⟨s.segment + (offset - s.plaintext) / layout.reference.chunkSize, ?_, ho, by omega, by omega⟩
  simp only [segmentAtByte, h.starts, hpoint, Nat.add_sub_cancel, ok_iff, checkedAdd_eq_some, tagLen] at hcipher ⊢
  exact ⟨hoffset, s, hs, by omega, rfl⟩

end Located

/-! ## Selections -/

def ByteRange.bounds (len : ℕ) : ByteRange → ℕ × ℕ
  | .full => (0, len)
  | .slice offset count => (offset, offset + count)

/-- A range that asks for at least one byte. -/
def ByteRange.Nonempty : ByteRange → Prop
  | .full => True
  | .slice _ count => 0 < count

theorem ByteRange.of_eq_slice (range : ByteRange) (plaintext : Bytes) :
    range.of plaintext = Rs3.slice plaintext (range.bounds plaintext.length).1 (range.bounds plaintext.length).2 := by
  cases range with
  | full => simp [ByteRange.of, ByteRange.bounds, Rs3.slice]
  | slice offset count => rfl

/-- A selection that covers its bytes: they start in its first segment and end in its last one. -/
structure Selects (layout : SegmentedPayloadLayout) (selection : SegmentSelection) : Prop where
  lt : selection.start < selection.stop
  stop_le : selection.stop ≤ layout.reference.plaintextLen
  segments_le : selection.endSegment ≤ layout.segments.length
  segments_lt : selection.startSegment < selection.endSegment
  start_ge : plainBefore layout.segments selection.startSegment ≤ selection.start
  start_lt : selection.start < plainBefore layout.segments (selection.startSegment + 1)
  last_lt : plainBefore layout.segments (selection.endSegment - 1) < selection.stop
  stop_le_end : selection.stop ≤ plainBefore layout.segments selection.endSegment

namespace Located

variable {layout : SegmentedPayloadLayout} (h : Located layout)
include h

theorem selection_of_bounds {start stop : ℕ} (hlt : start < stop) (hle : stop ≤ layout.reference.plaintextLen) :
    ∃ first last, layout.segmentAtByte start = .ok first ∧ layout.segmentAtByte (stop - 1) = .ok last ∧
      Selects layout ⟨start, stop, first, last + 1⟩ := by
  obtain ⟨first, hfirst, hfirstLt, hfirstLe, hfirstEnd⟩ := h.segmentAtByte_eq (hlt.trans_le hle)
  obtain ⟨last, hlast, hlastLt, hlastLe, hlastEnd⟩ := @Located.segmentAtByte_eq _ h (stop - 1) (by omega)
  -- the first segment is not after the last: otherwise the last byte would lie before the first one
  have horder : first ≤ last := by
    by_contra hgt
    have hmono : plainBefore layout.segments (last + 1) ≤ plainBefore layout.segments first :=
      plainBefore_mono _ (by omega)
    omega
  exact ⟨first, last, hfirst, hlast, hlt, hle, hlastLt, Nat.lt_succ_of_le horder, hfirstLe, hfirstEnd,
    by simp only [Nat.add_sub_cancel]; omega, by simp only; omega⟩

theorem selection_eq {range : ByteRange} (hrange : range.InBounds layout.reference.plaintextLen)
    (hne : range.Nonempty) : ∃ selection, SegmentSelection.new layout range = .ok selection ∧
      Selects layout selection ∧ (selection.start, selection.stop) = range.bounds layout.reference.plaintextLen := by
  have hbounded := h.bounded
  have hlen := h.plaintextLen_le
  cases range with
  | full =>
    obtain ⟨first, last, hfirst, hlast, hsel⟩ := h.selection_of_bounds h.nonempty (Nat.le_refl _)
    refine ⟨_, ?_, hsel, rfl⟩
    simp only [SegmentSelection.new, pure_bind, hfirst, hlast, ok_bind]
    rfl
  | slice offset count =>
    simp only [ByteRange.Nonempty, ByteRange.InBounds] at hrange hne
    obtain ⟨first, last, hfirst, hlast, hsel⟩ := @Located.selection_of_bounds _ h offset _ (by omega) hrange
    refine ⟨_, ?_, hsel, rfl⟩
    simp only [SegmentSelection.new, ok_iff, checkedAdd_eq_some]
    exact ⟨_, ⟨by omega, rfl⟩, by omega, _, rfl, first, hfirst, last, hlast, rfl⟩

omit h in
/-- Ranges outside the plaintext, and slices of no bytes, are refused. -/
theorem selection_error {range : ByteRange}
    (hrange : ¬(range.InBounds layout.reference.plaintextLen ∧ range.Nonempty)) :
    SegmentSelection.new layout range = .error .invalidRange := by
  cases range with
  | full => exact absurd ⟨trivial, trivial⟩ hrange
  | slice offset count =>
    simp only [ByteRange.Nonempty, ByteRange.InBounds] at hrange
    simp only [SegmentSelection.new, checkedAdd]
    split
    · have hbad : ¬¬(count = 0 ∨ layout.reference.plaintextLen < offset + count) := by omega
      simp only [okOr, ok_bind, ensure, if_neg hbad, error_bind]
    · simp only [okOr, error_bind]

end Located

section

variable (layout : SegmentedPayloadLayout)

def selectedSpan (selection : SegmentSelection) : SegmentCiphertextSpan where
  offset := cipherBefore layout.segments selection.startSegment
  len := cipherBefore layout.segments selection.endSegment - cipherBefore layout.segments selection.startSegment
  startSegment := selection.startSegment
  segmentCount := selection.endSegment - selection.startSegment

def segmentPlaintext (plaintext : Bytes) (o : ℕ) : Bytes :=
  slice plaintext (plainBefore layout.segments o) (plainBefore layout.segments (o + 1))

def segmentCiphertext (body : Bytes) (o : ℕ) : Bytes :=
  slice body (cipherBefore layout.segments o) (cipherBefore layout.segments (o + 1))

def selectedBytes (selection : SegmentSelection) (body : Bytes) : Bytes :=
  let span := selectedSpan layout selection
  slice body span.offset (span.offset + span.len)

end

section Opening

variable {layout : SegmentedPayloadLayout} {selection : SegmentSelection} {range : ByteRange} {facts : SegmentFacts}

theorem segmentedCiphertextSpan_eq (h : Located layout)
    (hnew : SegmentSelection.new layout range = .ok selection) (hsel : Selects layout selection) :
    segmentedCiphertextSpan layout range = .ok (selectedSpan layout selection) := by
  have hlt := hsel.segments_lt
  have hle := hsel.segments_le
  obtain ⟨first, hfirst, hfirstEq⟩ := h.segment_eq (o := selection.startSegment) (by omega)
  obtain ⟨last, hlast, hlastEq⟩ := h.segment_eq (o := selection.endSegment - 1) (by omega)
  have hsucc := cipherBefore_succ hlast
  rw [Nat.sub_add_cancel (by omega)] at hsucc
  simp only [segmentedCiphertextSpan, hnew, hfirstEq, hlastEq, ok_bind, selectedSpan, (h.at_offsets hfirst).2.1,
    (h.at_offsets hlast).2.1, hsucc]
  rfl

/-- The output after the segments before `o`. -/
def outputBefore (layout : SegmentedPayloadLayout) (selection : SegmentSelection) (plaintext : Bytes) (o : ℕ) : Bytes :=
  slice plaintext selection.start (max selection.start (min selection.stop (plainBefore layout.segments o)))

theorem outputBefore_start (hsel : Selects layout selection) (plaintext : Bytes) :
    outputBefore layout selection plaintext selection.startSegment = [] := by
  have hstart := hsel.start_ge
  rw [outputBefore, Nat.max_eq_left (by omega), slice_self]

theorem outputBefore_end (hsel : Selects layout selection) (plaintext : Bytes) :
    outputBefore layout selection plaintext selection.endSegment = slice plaintext selection.start selection.stop := by
  have hstop := hsel.stop_le_end
  have hlt := hsel.lt
  rw [outputBefore, Nat.min_eq_left hstop, Nat.max_eq_right hlt.le]

variable {K : Type} {aead : Aead K} {keyring : KeyRing K} {objectId : BackendObjectId} {plaintext body : Bytes}

/-- A stored object whose segments open to those of a plaintext. -/
structure OpensTo (aead : Aead K) (keyring : KeyRing K) (objectId : BackendObjectId) (layout : SegmentedPayloadLayout)
    (plaintext body : Bytes) : Prop where
  plaintext_length : plaintext.length = layout.reference.plaintextLen
  body_length : body.length = layout.storedLen
  «segment» : ∀ {o facts}, layout.segments[o]? = some facts →
    openPayloadSegment aead keyring (facts.context layout objectId) layout.reference.keyId
      (segmentCiphertext layout body o) = .ok (segmentPlaintext layout plaintext o)

/-- What is opened after the segments before `o`. -/
def openedBefore (layout : SegmentedPayloadLayout) (selection : SegmentSelection) (plaintext : Bytes) (o : ℕ) :
    OpenedSegmentedPayloadSpan where
  plaintext := outputBefore layout selection plaintext o
  segments := (range' selection.startSegment (o - selection.startSegment)).map fun o =>
    (o, segmentPlaintext layout plaintext o)

section Rounds

variable (h : Located layout) (hsel : Selects layout selection)

theorem selectedBytes_eq (hsel : Selects layout selection) (body : Bytes) : selectedBytes layout selection body =
    slice body (cipherBefore layout.segments selection.startSegment)
      (cipherBefore layout.segments selection.endSegment) := by
  have hmono := cipherBefore_mono layout.segments hsel.segments_lt.le
  rw [selectedBytes, selectedSpan, Nat.add_sub_cancel' hmono]

include h hsel in
/-- What opening a selected span does: the loop, which starts with nothing opened. -/
theorem openSegmentedPayloadSpanWithSegments_loop (hnew : SegmentSelection.new layout range = .ok selection)
    (hbody : cipherBefore layout.segments selection.endSegment ≤ body.length) (plaintext : Bytes) :
    openSegmentedPayloadSpanWithSegments aead keyring objectId layout range (selectedSpan layout selection)
        (selectedBytes layout selection body) =
      (range' selection.startSegment (selection.endSegment - selection.startSegment)).foldlM
        (openSelectedSegment aead keyring objectId layout selection (selectedSpan layout selection)
          (selectedBytes layout selection body))
        (openedBefore layout selection plaintext selection.startSegment) := by
  have hlength : (selectedBytes layout selection body).length = (selectedSpan layout selection).len := by
    rw [selectedBytes_eq hsel, length_slice_of_le hbody, selectedSpan]
  have hzero : openedBefore layout selection plaintext selection.startSegment = ⟨[], []⟩ := by
    rw [openedBefore, outputBefore_start hsel, Nat.sub_self]
    rfl
  rw [openSegmentedPayloadSpanWithSegments, segmentedCiphertextSpan_eq h hnew hsel, hnew, hzero, ok_bind, ok_bind,
    ensure_of ⟨rfl, hlength⟩, ok_bind]

variable {o : ℕ} (hat : layout.segments[o]? = some facts) (hstart : selection.startSegment ≤ o)
  (hstop : o < selection.endSegment)

include h hsel hat hstart hstop

theorem appendSegmentOverlap_eq (hlen : plaintext.length = layout.reference.plaintextLen) :
    appendSegmentOverlap (outputBefore layout selection plaintext o) selection facts
      (segmentPlaintext layout plaintext o) = .ok (outputBefore layout selection plaintext (o + 1)) := by
  have hoffset := (h.at_offsets hat).1
  have hpos := (h.at_offsets hat).2.2.1
  have hsucc := plainBefore_succ hat
  have htotal := h.plainBefore_le (o + 1)
  have hfirst : plainBefore layout.segments (selection.startSegment + 1) ≤ plainBefore layout.segments (o + 1) :=
    plainBefore_mono _ (Nat.succ_le_succ hstart)
  have hlast : plainBefore layout.segments o ≤ plainBefore layout.segments (selection.endSegment - 1) :=
    plainBefore_mono _ (by omega)
  have hsel1 := hsel.start_lt
  have hsel2 := hsel.last_lt
  have hsel3 := hsel.lt
  simp only [appendSegmentOverlap, ok_iff, getRange_eq_some, hoffset, ← hsucc]
  refine ⟨_, ⟨⟨by omega, ?_⟩, rfl⟩, ?_⟩
  · rw [segmentPlaintext, length_slice_of_le (by omega)]
    omega
  · rw [segmentPlaintext, slice_slice (by omega), outputBefore, outputBefore,
      show plainBefore layout.segments o + (max selection.start (plainBefore layout.segments o) -
          plainBefore layout.segments o) =
        max selection.start (min selection.stop (plainBefore layout.segments o)) by omega,
      show plainBefore layout.segments o + (min selection.stop (plainBefore layout.segments (o + 1)) -
          plainBefore layout.segments o) =
        max selection.start (min selection.stop (plainBefore layout.segments (o + 1))) by omega]
    exact slice_append_slice _ (by omega) (by omega)

/-- One round on a span of a body: only opening the segment and cutting its overlap can fail. -/
theorem openSelectedSegment_of_span (hbody : cipherBefore layout.segments selection.endSegment ≤ body.length)
    (aead : Aead K) (keyring : KeyRing K) (objectId : BackendObjectId) (opened : OpenedSegmentedPayloadSpan) :
    openSelectedSegment aead keyring objectId layout selection (selectedSpan layout selection)
        (selectedBytes layout selection body) opened o =
      (do
        let plaintext ← (openPayloadSegment aead keyring (facts.context layout objectId) layout.reference.keyId
          (segmentCiphertext layout body o)).mapError .crypto
        let output ← appendSegmentOverlap opened.plaintext selection facts plaintext
        return ⟨output, opened.segments ++ [(o, plaintext)]⟩) := by
  have hcipher := (h.at_offsets hat).2.1
  have hsucc := cipherBefore_succ hat
  have hend : cipherBefore layout.segments (o + 1) ≤ cipherBefore layout.segments selection.endSegment :=
    cipherBefore_mono _ (Nat.succ_le_of_lt hstop)
  have hfirst : cipherBefore layout.segments selection.startSegment ≤ cipherBefore layout.segments o :=
    cipherBefore_mono _ hstart
  have hstored := h.cipherBefore_le hsel.segments_le
  have hbounded := h.bounded
  have hoffset : (selectedSpan layout selection).offset = cipherBefore layout.segments selection.startSegment := rfl
  have hadd : checkedAdd 64 (cipherBefore layout.segments o - cipherBefore layout.segments selection.startSegment)
      (facts.plaintextLen + tagLen) =
        some (cipherBefore layout.segments (o + 1) - cipherBefore layout.segments selection.startSegment) :=
    checkedAdd_eq_some.mpr ⟨by omega, by omega⟩
  have hget : getRange (selectedBytes layout selection body)
      (cipherBefore layout.segments o - cipherBefore layout.segments selection.startSegment)
      (cipherBefore layout.segments (o + 1) - cipherBefore layout.segments selection.startSegment) =
        some (segmentCiphertext layout body o) := by
    rw [selectedBytes_eq hsel]
    refine getRange_eq_some.mpr ⟨⟨by omega, ?_⟩, ?_⟩
    · rw [length_slice_of_le hbody]
      omega
    · rw [slice_slice (by omega), segmentCiphertext]
      congr 1 <;> omega
  simp only [openSelectedSegment, h.segment_of_getElem? hat, ok_bind, hcipher, hoffset, hadd, okOr, hget]

theorem openSelectedSegment_eq (hbody : cipherBefore layout.segments selection.endSegment ≤ body.length)
    (hlen : plaintext.length = layout.reference.plaintextLen)
    (hopen : openPayloadSegment aead keyring (facts.context layout objectId) layout.reference.keyId
      (segmentCiphertext layout body o) = .ok (segmentPlaintext layout plaintext o)) :
    openSelectedSegment aead keyring objectId layout selection (selectedSpan layout selection)
        (selectedBytes layout selection body) (openedBefore layout selection plaintext o) o =
      .ok (openedBefore layout selection plaintext (o + 1)) := by
  rw [openSelectedSegment_of_span h hsel hat hstart hstop hbody, hopen]
  have happend : appendSegmentOverlap (openedBefore layout selection plaintext o).plaintext selection facts
      (segmentPlaintext layout plaintext o) = _ := appendSegmentOverlap_eq h hsel hat hstart hstop hlen
  simp only [Except.mapError, ok_bind, happend]
  rw [openedBefore, openedBefore, Nat.sub_add_comm hstart, range'_concat, map_append]
  simp [Nat.add_sub_cancel' hstart]

end Rounds

def selectedSegments (layout : SegmentedPayloadLayout) (plaintext : Bytes) (span : SegmentCiphertextSpan) :
    List (ℕ × Bytes) :=
  (range' span.startSegment span.segmentCount).map fun o => (o, segmentPlaintext layout plaintext o)

/-- **A selected span opens to the requested bytes.** -/
theorem openSegmentedPayloadSpanWithSegments_eq (h : Located layout)
    (hopens : OpensTo aead keyring objectId layout plaintext body)
    (hrange : range.InBounds layout.reference.plaintextLen) (hne : range.Nonempty) :
    ∃ span, segmentedCiphertextSpan layout range = .ok span ∧ span.offset + span.len ≤ body.length ∧
      openSegmentedPayloadSpanWithSegments aead keyring objectId layout range span
          (slice body span.offset (span.offset + span.len)) =
        .ok ⟨range.of plaintext, selectedSegments layout plaintext span⟩ ∧
      openSegmentedPayloadCachedSegments objectId layout range span.startSegment
        ((selectedSegments layout plaintext span).map Prod.snd) = .ok (range.of plaintext) := by
  obtain ⟨selection, hnew, hsel, hbounds⟩ := h.selection_eq hrange hne
  have hlt := hsel.segments_lt
  have hle := hsel.segments_le
  have hmono := cipherBefore_mono layout.segments hlt.le
  have hstored := hopens.body_length ▸ h.cipherBefore_le hle
  have hplain := hopens.plaintext_length
  have hend : selection.startSegment + (selection.endSegment - selection.startSegment) = selection.endSegment := by omega
  have hof : range.of plaintext = outputBefore layout selection plaintext selection.endSegment := by
    rw [outputBefore_end hsel, ByteRange.of_eq_slice, hplain, ← hbounds]
  refine ⟨_, segmentedCiphertextSpan_eq h hnew hsel, (Nat.add_sub_cancel' hmono).trans_le hstored, ?_, ?_⟩
  · have hloop := @foldlM_range' _ _ _ (openedBefore layout selection plaintext) selection.startSegment
      (selection.endSegment - selection.startSegment)
      fun o hfirst hlast => by
        have hat := getElem?_eq_getElem (l := layout.segments) (i := o) (by omega)
        exact openSelectedSegment_eq h hsel hat hfirst (by omega) hstored hplain (hopens.segment hat)
    rw [hend] at hloop
    refine (openSegmentedPayloadSpanWithSegments_loop h hsel hnew hstored plaintext).trans ?_
    rw [hloop, openedBefore, ← hof]
    rfl
  · have hloop := @foldlM_range' _ _ (fun output o => appendCachedSegment objectId layout selection
        selection.startSegment output (segmentPlaintext layout plaintext o, o - selection.startSegment))
      (outputBefore layout selection plaintext) selection.startSegment
      (selection.endSegment - selection.startSegment) fun o hfirst hlast => by
        obtain ⟨facts, hat, hsegment⟩ := h.segment_eq (o := o) (by omega)
        have htotal := h.plainBefore_le (o + 1)
        have hsucc := plainBefore_succ hat
        simp only [appendCachedSegment, Nat.add_sub_cancel' hfirst, hsegment, ok_bind, ok_iff]
        refine ⟨?_, appendSegmentOverlap_eq h hsel hat hfirst (by omega) hplain⟩
        rw [segmentPlaintext, length_slice_of_le (by omega)]
        omega
    rw [outputBefore_start hsel, hend, ← hof] at hloop
    have hzip : ((selectedSegments layout plaintext (selectedSpan layout selection)).map Prod.snd).zipIdx =
        (range' selection.startSegment (selection.endSegment - selection.startSegment)).map fun o =>
          (segmentPlaintext layout plaintext o, o - selection.startSegment) := by
      apply ext_getElem <;> simp [selectedSegments, selectedSpan]
    simp only [openSegmentedPayloadCachedSegments, hnew, ok_bind, ok_iff, hzip, foldlM_map]
    refine ⟨⟨rfl, ?_⟩, hloop⟩
    rw [length_map, selectedSegments, length_map, length_range']
    rfl

theorem openPayloadObject_eq (h : Located layout) (hopens : OpensTo aead keyring objectId layout plaintext body)
    (hrange : range.InBounds layout.reference.plaintextLen) (hne : range.Nonempty) :
    openPayloadObject aead keyring objectId layout body range = .ok (range.of plaintext) := by
  obtain ⟨span, hspan, -, hopen, -⟩ := openSegmentedPayloadSpanWithSegments_eq h hopens hrange hne
  simp only [openPayloadObject, openSegmentedPayloadSpan, ok_iff]
  exact ⟨hopens.body_length, span, hspan, _, hopen, rfl⟩

/-- Every read path refuses a range that is out of bounds or asks for no bytes. -/
theorem reads_invalidRange
    (hrange : ¬(range.InBounds layout.reference.plaintextLen ∧ range.Nonempty)) (aead : Aead K) (keyring : KeyRing K)
    (objectId : BackendObjectId) {body : Bytes} (hbody : body.length = layout.storedLen) :
    segmentedCiphertextSpan layout range = .error .invalidRange ∧
      openPayloadObject aead keyring objectId layout body range = .error .invalidRange ∧
      ∀ startSegment segments, openSegmentedPayloadCachedSegments objectId layout range startSegment segments =
        .error .invalidRange := by
  have hnew := Located.selection_error hrange
  have hspan : segmentedCiphertextSpan layout range = .error .invalidRange := by
    rw [segmentedCiphertextSpan, hnew, error_bind]
  refine ⟨hspan, ?_, fun startSegment segments => ?_⟩
  · rw [openPayloadObject, ensure_of hbody, ok_bind, hspan, error_bind]
  · rw [openSegmentedPayloadCachedSegments, hnew, error_bind]

end Opening

/-! ## Sealed parts -/

section Sealing

open SegmentedPayloadSealer

variable {c : ℕ} {plaintext : Bytes}

theorem length_chunk (c : ℕ) (plaintext : Bytes) (j : ℕ) :
    (chunk c plaintext j).length = min (plaintext.length - j * c) c := by
  rw [chunk, length_slice, Nat.succ_mul]
  omega

theorem flatten_chunks (hc : 0 < c) (plaintext : Bytes) :
    ((range (divCeil plaintext.length c)).map (chunk c plaintext)).flatten = plaintext := by
  have hchunks : ∀ n, ((range n).map (chunk c plaintext)).flatten = slice plaintext 0 (n * c) := by
    intro n
    induction n with
    | zero => rw [Nat.zero_mul, slice_self]; rfl
    | succ n ih =>
      rw [range_succ, map_append, flatten_append, ih, map_singleton, flatten_singleton, chunk]
      exact slice_append_slice plaintext (Nat.zero_le _) (Nat.mul_le_mul_right c (Nat.le_succ n))
  rw [hchunks, slice, drop_zero, take_of_length_le (le_divCeil_mul hc)]

/-- The segment that is sealed as final is the one that ends its part. -/
theorem isFinal_iff (hc : 0 < c) (hj : j < divCeil len c) :
    j + 1 = divCeil len c ↔ j * c + min (len - j * c) c = len := by
  have hlt := (lt_divCeil hc).mp hj
  have hnext := @lt_divCeil _ len (j + 1) hc
  rw [Nat.succ_mul] at hnext
  omega

variable {K : Type} {aead : TaggedAead K} {keyring : KeyRing K} {objectId : BackendObjectId}
  {layout : SegmentedPayloadLayout}

def SegmentedPayloadLayout.sealer (layout : SegmentedPayloadLayout) (part : PayloadPart) : SegmentedPayloadSealer where
  chunkSize := layout.reference.chunkSize
  keyId := layout.reference.keyId
  repositoryContext := layout.repositoryContext
  carrierId := layout.reference.carrierId
  attemptId := part.attemptId
  partNumber := part.partNumber

/-- One segment with its plaintext and its ciphertext: what opens in the segment's context. -/
def SegmentOpens (aead : Aead K) (keyring : KeyRing K) (objectId : BackendObjectId) (layout : SegmentedPayloadLayout)
    (entry : SegmentFacts × Bytes × Bytes) : Prop :=
  entry.2.1.length = entry.1.plaintextLen ∧ entry.2.2.length = entry.1.plaintextLen + tagLen ∧
    openPayloadSegment aead keyring (entry.1.context layout objectId) layout.reference.keyId entry.2.2 = .ok entry.2.1

theorem sealSegment_opens (hc : 0 < layout.reference.chunkSize)
    (hlen : plaintext.length = part.plaintextLen) (hj : j < divCeil part.plaintextLen layout.reference.chunkSize)
    (h : (layout.sealer part).sealSegment aead.toAead keyring objectId j
      (chunk layout.reference.chunkSize plaintext j)
      (j + 1 = divCeil part.plaintextLen layout.reference.chunkSize) = .ok ciphertext) :
    SegmentOpens aead.toAead keyring objectId layout
      (segmentFacts layout.reference.chunkSize start part j, chunk layout.reference.chunkSize plaintext j, ciphertext) := by
  have hchunk := length_chunk layout.reference.chunkSize plaintext j
  rw [hlen] at hchunk
  simp only [SegmentedPayloadSealer.sealSegment, ok_iff] at h
  obtain ⟨-, sealed, hsealed, hkey, rfl⟩ := h
  have hcontext : detachedSegmentContext (layout.sealer part).repositoryContext objectId (layout.sealer part).carrierId
      (layout.sealer part).attemptId (layout.sealer part).partNumber j
      (chunk layout.reference.chunkSize plaintext j).length (layout.sealer part).chunkSize
      (decide (j + 1 = divCeil part.plaintextLen layout.reference.chunkSize)) =
        (segmentFacts layout.reference.chunkSize start part j).context layout objectId := by
    simp only [SegmentFacts.context, segmentFacts, sealer, hchunk, isFinal_iff hc hj]
  rw [hcontext] at hsealed
  have hlength := length_sealPayloadSegment hsealed
  refine ⟨hchunk, hlength, ?_⟩
  have hopen := openPayloadSegment_sealed hsealed hlength
  rwa [hkey] at hopen

/-- The contents of the parts of a layout: each plaintext and its sealed segments. -/
def PartsSealed (aead : Aead K) (keyring : KeyRing K) (objectId : BackendObjectId) (layout : SegmentedPayloadLayout)
    (contents : List (Bytes × List Bytes)) : Prop :=
  List.Forall₂ (fun part content => content.1.length = part.plaintextLen ∧
    (layout.sealer part).sealPart aead keyring objectId content.1 = .ok content.2) layout.reference.parts contents

theorem sealPart_opens (hc : 0 < layout.reference.chunkSize) (start : PartStart)
    (hlen : plaintext.length = part.plaintextLen)
    (h : (layout.sealer part).sealPart aead.toAead keyring objectId plaintext = .ok sealed) :
    ∃ entries : List (SegmentFacts × Bytes × Bytes),
      entries.map Prod.fst = partSegments layout.reference.chunkSize start part ∧
      (entries.map fun entry => entry.2.1).flatten = plaintext ∧ (entries.map fun entry => entry.2.2) = sealed ∧
      ∀ entry ∈ entries, SegmentOpens aead.toAead keyring objectId layout entry := by
  have hforall := mapM_eq_ok.mp h
  have hlength : divCeil plaintext.length layout.reference.chunkSize = sealed.length := by
    simpa [sealer] using hforall.length_eq
  refine ⟨(range (divCeil plaintext.length layout.reference.chunkSize)).map fun j =>
    (segmentFacts layout.reference.chunkSize start part j, chunk layout.reference.chunkSize plaintext j,
      sealed.getD j []), ?_, ?_, ?_, ?_⟩
  · rw [map_map, partSegments, hlen]
    rfl
  · rw [map_map]
    exact flatten_chunks hc plaintext
  · rw [map_map, hlength]
    refine ext_getElem (by simp) fun j hj hj' => ?_
    simp [getElem?_eq_getElem hj']
  · simp only [mem_map, mem_range, forall_exists_index, and_imp]
    rintro _ j hj rfl
    have hj' : j < sealed.length := hlength ▸ hj
    have hsealed := (forall₂_iff_get.mp hforall).2 j (by simpa [sealer] using hj) hj'
    simp only [get_eq_getElem, getElem_range] at hsealed
    rw [getD_eq_getElem?_getD, getElem?_eq_getElem hj', Option.getD_some]
    refine sealSegment_opens hc hlen (hlen ▸ hj) ?_
    rw [← hlen]
    exact hsealed

theorem parts_open (hc : 0 < layout.reference.chunkSize) {start : PartStart} {parts : List PayloadPart}
    {contents : List (Bytes × List Bytes)}
    (h : List.Forall₂ (fun part content => content.1.length = part.plaintextLen ∧
      (layout.sealer part).sealPart aead.toAead keyring objectId content.1 = .ok content.2) parts contents) :
    ∃ entries : List (SegmentFacts × Bytes × Bytes),
      entries.map Prod.fst = segmentsOf layout.reference.chunkSize start parts ∧
      (entries.map fun entry => entry.2.1).flatten = (contents.map Prod.fst).flatten ∧
      (entries.map fun entry => entry.2.2) = (contents.map Prod.snd).flatten ∧
      ∀ entry ∈ entries, SegmentOpens aead.toAead keyring objectId layout entry := by
  induction h generalizing start with
  | nil => exact ⟨[], rfl, rfl, rfl, by simp⟩
  | @cons part content parts contents hpart _ ih =>
    obtain ⟨first, hfirst, hfirstPlain, hfirstSealed, hfirstOpens⟩ := sealPart_opens hc start hpart.1 hpart.2
    obtain ⟨rest, hrest, hrestPlain, hrestSealed, hrestOpens⟩ := @ih (nextStart layout.reference.chunkSize start part)
    refine ⟨first ++ rest, ?_, ?_, ?_, ?_⟩
    · rw [map_append, hfirst, hrest, segmentsOf]
    · rw [map_append, flatten_append, hfirstPlain, hrestPlain, map_cons, flatten_cons]
    · rw [map_append, hfirstSealed, hrestSealed, map_cons, flatten_cons]
    · simp only [mem_append]
      rintro entry (hentry | hentry)
      · exact hfirstOpens entry hentry
      · exact hrestOpens entry hentry

/-- The concatenation of the sealed parts opens, segment by segment, to the concatenation of the plaintexts. -/
theorem PartsSealed.opensTo (hlayout : Located layout) (h : PartsSealed aead.toAead keyring objectId layout contents) :
    OpensTo aead.toAead keyring objectId layout (contents.map Prod.fst).flatten (contents.map Prod.snd).flatten.flatten := by
  obtain ⟨entries, hfacts, hplain, hsealed, hopens⟩ := @parts_open _ _ _ _ _ hlayout.chunk ⟨0, 0, 0⟩ _ _ h
  have hsegments : layout.segments = entries.map Prod.fst := hfacts.symm
  have hplains : ∀ o, ((((entries.map fun entry => entry.2.1)).take o).map length).sum =
      plainBefore layout.segments o := by
    intro o
    rw [plainBefore, hsegments, ← map_take, ← map_take, map_map, map_map]
    congr 1
    exact map_congr_left fun entry hentry => (hopens entry (mem_of_mem_take hentry)).1
  have hciphers : ∀ o, ((((entries.map fun entry => entry.2.2)).take o).map length).sum =
      cipherBefore layout.segments o := by
    intro o
    rw [cipherBefore, hsegments, ← map_take, ← map_take, map_map, map_map]
    congr 1
    exact map_congr_left fun entry hentry => (hopens entry (mem_of_mem_take hentry)).2.1
  have hcount : layout.segments.length = entries.length := by rw [hsegments, length_map]
  refine ⟨?_, ?_, fun {o facts} hat => ?_⟩
  · rw [← hplain, ← hlayout.plain, ← hplains, hcount, length_flatten, take_of_length_le (by simp)]
  · rw [← hsealed, ← hlayout.stored, ← hciphers, hcount, length_flatten, take_of_length_le (by simp)]
  · rw [hsegments, getElem?_map, Option.map_eq_some_iff] at hat
    obtain ⟨entry, hentry, rfl⟩ := hat
    rw [segmentCiphertext, segmentPlaintext, ← hciphers, ← hciphers, ← hplains, ← hplains, ← hsealed, ← hplain,
      @slice_flatten _ entry.2.2 _ _ (by rw [getElem?_map, hentry]; rfl),
      @slice_flatten _ entry.2.1 _ _ (by rw [getElem?_map, hentry]; rfl)]
    exact (hopens entry (mem_of_getElem? hentry)).2.2

/-- **Reads of a detached payload are exact.**  Over the concatenation of the sealed parts of any valid layout, a range
that asks for at least one byte and lies inside the plaintext selects a span that opens to exactly those bytes, from the
backend, from a whole cached body and from cached segments; every other range is refused; and the stored length is the
length of the ciphertext. -/
theorem detached_reads_exact {reference : PayloadLayout} {repositoryContext : Bytes}
    (hlayout : SegmentedPayloadLayout.new reference repositoryContext = .ok layout)
    {contents : List (Bytes × List Bytes)} (hsealed : PartsSealed aead.toAead keyring objectId layout contents) :
    let plaintext := (contents.map Prod.fst).flatten
    let body := (contents.map fun content => content.2.flatten).flatten
    (reference.storedLen = some body.length ∧ body.length < 2 ^ 64) ∧
      (∀ range : ByteRange, range.InBounds plaintext.length → range.Nonempty →
        ∃ span, segmentedCiphertextSpan layout range = .ok span ∧ span.offset + span.len ≤ body.length ∧
          openSegmentedPayloadSpan aead.toAead keyring objectId layout range span
            (slice body span.offset (span.offset + span.len)) = .ok (range.of plaintext) ∧
          openPayloadObject aead.toAead keyring objectId layout body range = .ok (range.of plaintext) ∧
          openSegmentedPayloadCachedSegments objectId layout range span.startSegment
            ((range' span.startSegment span.segmentCount).map (segmentPlaintext layout plaintext)) =
              .ok (range.of plaintext)) ∧
      ∀ range : ByteRange, ¬(range.InBounds plaintext.length ∧ range.Nonempty) →
        segmentedCiphertextSpan layout range = .error .invalidRange ∧
          openPayloadObject aead.toAead keyring objectId layout body range = .error .invalidRange ∧
          ∀ startSegment segments, openSegmentedPayloadCachedSegments objectId layout range startSegment segments =
            .error .invalidRange := by
  obtain ⟨hlocated, rfl, rfl, hstored⟩ := new_located hlayout
  have hopens := hsealed.opensTo hlocated
  have hbody : (contents.map fun content => content.2.flatten).flatten = (contents.map Prod.snd).flatten.flatten := by
    rw [flatten_flatten, map_map]
    rfl
  intro plaintext body
  simp only [body, hbody]
  rw [hopens.body_length, hopens.plaintext_length]
  refine ⟨⟨hstored, hlocated.bounded⟩, fun range hrange hne => ?_, fun range hrange =>
    reads_invalidRange hrange aead.toAead keyring objectId hopens.body_length⟩
  obtain ⟨span, hspan, hinside, hopen, hcached⟩ := openSegmentedPayloadSpanWithSegments_eq hlocated hopens hrange hne
  refine ⟨span, hspan, hopens.body_length ▸ hinside, ?_, openPayloadObject_eq hlocated hopens hrange hne, ?_⟩
  · rw [openSegmentedPayloadSpan, hopen, ok_bind]
    rfl
  · rw [← hcached, selectedSegments, map_map]
    rfl

end Sealing

/-! ## A layout of two parts -/

def plainTaggedAead : TaggedAead Unit where
  toAead := plainAead
  length_encrypt := by
    rintro _ _ _ plaintext _ ⟨⟩
    simp

def sampleStreamId : BackendObjectId := ⟨"objects/v03/AAAAAAAAAAAAAAAAAAAAAAAAAAAAAAAAAAAAAAAAAAA", by decide⟩

/-- Parts of three bytes and of one, in segments of two. -/
def sampleReference : PayloadLayout where
  chunkSize := 2
  plaintextLen := 4
  keyId := sampleContentKey
  carrierId := Vector.replicate 32 0
  parts := [⟨1, Vector.replicate 32 2, 3⟩, ⟨3, Vector.replicate 32 3, 1⟩]

def sampleLayout : SegmentedPayloadLayout := ⟨sampleReference, [1], [⟨0, 0, 0⟩, ⟨3, 35, 2⟩], 52, 3⟩

theorem sampleLayout_new : SegmentedPayloadLayout.new sampleReference [1] = .ok sampleLayout := by decide +kernel

def sampleContents : List (Bytes × List Bytes) :=
  [([1, 2, 3], [[1, 2] ++ replicate 16 0, [3] ++ replicate 16 0]), ([4], [[4] ++ replicate 16 0])]

theorem sampleContents_sealed : PartsSealed plainAead sampleKeyring sampleStreamId sampleLayout sampleContents :=
  .cons ⟨rfl, by decide +kernel⟩ (.cons ⟨rfl, by decide +kernel⟩ .nil)

/-- A range across the boundary of the two parts. -/
theorem detached_reads_exact_sample :
    openPayloadObject plainAead sampleKeyring sampleStreamId sampleLayout
      (sampleContents.map fun content => content.2.flatten).flatten (.slice 1 3) = .ok [2, 3, 4] := by
  have h := @detached_reads_exact _ plainTaggedAead _ _ _ _ _ sampleLayout_new _ sampleContents_sealed
  obtain ⟨span, -, -, -, hopen, -⟩ := h.2.1 (.slice 1 3) (show 1 + 3 ≤ 4 by decide) (show 0 < 3 by decide)
  exact hopen

/-- A slice of no bytes lies in bounds, and is refused. -/
theorem empty_slice_refused :
    SegmentedPayloadLayout.new sampleReference [1] = .ok sampleLayout ∧
      PartsSealed plainAead sampleKeyring sampleStreamId sampleLayout sampleContents ∧
      (ByteRange.slice 0 0).InBounds (sampleContents.map Prod.fst).flatten.length ∧
      segmentedCiphertextSpan sampleLayout (.slice 0 0) = .error .invalidRange :=
  ⟨sampleLayout_new, sampleContents_sealed, Nat.zero_le _, rfl⟩

end Rs3.Payload
