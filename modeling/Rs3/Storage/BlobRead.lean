/-
# Rs3.Storage.BlobRead — bodies that arrive in chunks.

`read.rs` of `rs3-storage`.  A body is what its reader answers call by call: chunks, then an error or the end.  The
exact reader passes on the chunks of any source, without the empty ones and in pieces of bounded size, and fails when
the source fails, exceeds the announced length or ends before it.
-/
import Rs3.Lib.Wire
import Rs3.Lib.Checked

namespace Rs3.Storage

open List

/-- One answer of `next_chunk`; after the last one comes the end of the body. -/
inductive Reply where
  | chunk (bytes : Bytes)
  | failed
  deriving DecidableEq

/-- The bytes delivered before the first failure. -/
def delivered : List Reply → Bytes
  | [] => []
  | .failed :: _ => []
  | .chunk bytes :: rest => bytes ++ delivered rest

/-- The body ends without a failure. -/
def Complete (replies : List Reply) : Prop := .failed ∉ replies

instance (replies : List Reply) : Decidable (Complete replies) := by
  unfold Complete
  infer_instance

@[simp]
theorem complete_nil : Complete [] := not_mem_nil

@[simp] theorem complete_chunk : Complete (.chunk bytes :: rest) ↔ Complete rest := by
  simp [Complete]

@[simp] theorem not_complete_failed : ¬ Complete (.failed :: rest) := by simp [Complete]

/-- No chunk is empty. -/
def Solid (replies : List Reply) : Prop := .chunk [] ∉ replies

theorem Solid.eq_nil (hsolid : Solid replies) (hcomplete : Complete replies)
    (h : delivered replies = []) : replies = [] := by
  cases replies with
  | nil => rfl
  | cons reply rest =>
    cases reply with
    | failed => exact absurd hcomplete not_complete_failed
    | chunk bytes =>
      obtain ⟨rfl, -⟩ := append_eq_nil_iff.mp h
      exact absurd mem_cons_self hsolid

/-! ## The exact reader -/

/-- `MAX_BLOB_READ_CHUNK_BYTES`. -/
def blobReadChunkBytes : ℕ := 1024 * 1024

/-- The calls that one source chunk answers: pieces of bounded size. -/
def pieces (chunk : Bytes) : List Reply :=
  if chunk.length ≤ blobReadChunkBytes then [.chunk chunk]
  else .chunk (chunk.take blobReadChunkBytes) :: pieces (chunk.drop blobReadChunkBytes)
termination_by chunk.length
decreasing_by
  rw [length_drop]
  simp only [blobReadChunkBytes] at *
  omega

/-- The answers of an `ExactBlobRead` over what its source answers, with `remaining` bytes to come. -/
def exactBlobRead (remaining : ℕ) : List Reply → List Reply
  | [] => if remaining = 0 then [] else [.failed]
  | .failed :: _ => [.failed]
  | .chunk chunk :: source =>
    -- empty transport frames are not the end
    if chunk = [] then exactBlobRead remaining source
    else if remaining < chunk.length then [.failed]
    else pieces chunk ++ exactBlobRead (remaining - chunk.length) source

variable (chunk : Bytes) (rest : List Reply) (remaining : ℕ) (source : List Reply)

theorem delivered_pieces_append : delivered (pieces chunk ++ rest) = chunk ++ delivered rest := by
  fun_induction pieces chunk with
  | case1 chunk hshort => rfl
  | case2 chunk hlong ih =>
    rw [cons_append, delivered, ih, ← append_assoc, take_append_drop]

theorem complete_pieces_append : Complete (pieces chunk ++ rest) ↔ Complete rest := by
  fun_induction pieces chunk with
  | case1 chunk hshort => exact complete_chunk
  | case2 chunk hlong ih => rw [cons_append, complete_chunk, ih]

theorem solid_pieces {chunk : Bytes} (hne : chunk ≠ []) : Solid (pieces chunk) := by
  fun_induction pieces chunk with
  | case1 chunk hshort => simpa [Solid] using hne.symm
  | case2 chunk hlong ih =>
    have hrest : chunk.drop blobReadChunkBytes ≠ [] := by
      rw [Ne, drop_eq_nil_iff]
      exact hlong
    have hfirst : ([] : Bytes) ≠ chunk.take blobReadChunkBytes := by
      intro hnil
      have hlength := congrArg List.length hnil
      rw [length_nil, length_take] at hlength
      simp only [blobReadChunkBytes] at hlength hlong
      omega
    simp only [Solid, mem_cons, Reply.chunk.injEq, not_or]
    exact ⟨hfirst, ih hrest⟩

theorem solid_exactBlobRead : Solid (exactBlobRead remaining source) := by
  fun_induction exactBlobRead remaining source with
  | case1 => simp [Solid]
  | case2 => simp [Solid]
  | case3 => simp [Solid]
  | case4 remaining source ih => exact ih
  | case5 => simp [Solid]
  | case6 remaining chunk source hne _ ih =>
    simp only [Solid, mem_append, not_or]
    exact ⟨solid_pieces hne, ih⟩

/-- An exact reader completes exactly when its source does, with the announced length; it then delivers all of it. -/
theorem complete_exactBlobRead :
    (Complete (exactBlobRead remaining source) ↔ Complete source ∧ (delivered source).length = remaining) ∧
      (Complete (exactBlobRead remaining source) → delivered (exactBlobRead remaining source) = delivered source) := by
  fun_induction exactBlobRead remaining source with
  | case1 => simp [delivered]
  | case2 remaining hne =>
    simp only [delivered, length_nil, not_complete_failed, false_iff, not_and]
    exact ⟨fun _ hzero => hne hzero.symm, False.elim⟩
  | case3 => simp
  | case4 remaining source ih => simpa [delivered] using ih
  | case5 remaining chunk source hne hlt =>
    simp only [not_complete_failed, false_iff, not_and, delivered, length_append, false_imp_iff, and_true]
    omega
  | case6 remaining chunk source hne hle ih =>
    rw [complete_pieces_append, delivered_pieces_append, complete_chunk, delivered, length_append]
    refine ⟨?_, fun hcomplete => by rw [ih.2 hcomplete]⟩
    rw [ih.1]
    exact and_congr_right fun _ => by omega

end Rs3.Storage
