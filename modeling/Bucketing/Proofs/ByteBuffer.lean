import Bucketing.Murmur

/-! # Hashing does not depend on chunks

Whether a buffer is hashed in place or from a copy, its hash is that of the bytes left in it, and these
stay in it. This needs only that a chunk is a beginning of the bytes and that a copy gives all of them. It
holds of every buffer of chunks, in particular of one that has been pushed to and read from, however its
bytes lie afterwards.
-/
namespace Bucketing

namespace Buffer

/-- What is left in a buffer, as far as its operations tell. -/
structure IsView {β : Type} [Buffer β] (bytes : β → List UInt8) : Prop where
  remaining_eq : ∀ b, remaining b = (bytes b).length
  chunk_prefix : ∀ b, chunk b <+: bytes b
  copyBytes_all : ∀ b, ((copyBytes (remaining b)).run b).1 = bytes b

theorem run_hash_eq {β : Type} [Buffer β] (b : β) :
    hash.run b =
      (if (chunk b).length = remaining b then Murmur.hash (chunk b)
        else Murmur.hash ((copyBytes (remaining b)).run b).1, b) := by
  by_cases h : (chunk b).length = remaining b
  · simp only [hash, StateT.run_bind, StateT.run_get, pure_bind, if_pos h]
    rfl
  · simp only [hash, StateT.run_bind, StateT.run_get, pure_bind, if_neg h]
    rfl

theorem run_hash {β : Type} [Buffer β] {bytes : β → List UInt8} (h : IsView bytes) (b : β) :
    hash.run b = (Murmur.hash (bytes b), b) := by
  rw [run_hash_eq]
  split
  · next hWhole =>
    have hChunk : chunk b = bytes b :=
      (h.chunk_prefix b).eq_of_length (hWhole.trans (h.remaining_eq b))
    rw [hChunk]
  · rw [h.copyBytes_all]

end Buffer

namespace ByteBuffer

open Buffer

theorem chunk_prefix_bytes (b : ByteBuffer) : chunk b <+: b.bytes := by
  obtain ⟨chunks⟩ := b
  change (chunks.find? (!·.isEmpty)).getD [] <+: chunks.flatten
  induction chunks with
  | nil => exact List.prefix_rfl
  | cons c chunks ih =>
    cases c with
    | nil => exact ih
    | cons byte c => exact List.prefix_append _ _

theorem isView_bytes : IsView bytes where
  remaining_eq b := b.length_bytes.symm
  chunk_prefix := chunk_prefix_bytes
  copyBytes_all b := by
    refine (bytes_takeChunks (remaining b) b.chunks).1.trans ?_
    rw [← b.length_bytes]
    exact List.take_length

/-- What a step does to the bytes themselves. -/
def onBytes (left : List UInt8) : Step → List UInt8
  | .push bytes => left ++ bytes
  | .pushFront bytes => bytes.foldl (fun left byte => byte :: left) left
  | .advance count => left.drop count

theorem bytes_apply (b : ByteBuffer) (s : Step) : (b.apply s).bytes = onBytes b.bytes s := by
  cases s with
  | push bytes => simp [apply, ByteBuffer.bytes, onBytes]
  | pushFront bytes => simp [apply, ByteBuffer.bytes, onBytes]
  | advance count => exact (bytes_takeChunks count b.chunks).2

/-- From an empty buffer the steps lead to this one. After each of them the bytes may be cut into any
chunks. -/
inductive Reaches : List Step → ByteBuffer → Prop where
  | empty {b : ByteBuffer} (isEmpty : b.bytes = []) : Reaches [] b
  | step {steps : List Step} {b c : ByteBuffer} (prior : Reaches steps b) (s : Step)
      (sameBytes : c.bytes = (b.apply s).bytes) : Reaches (steps ++ [s]) c

theorem bytes_of_reaches {steps : List Step} {b : ByteBuffer} (h : Reaches steps b) :
    b.bytes = steps.foldl onBytes [] := by
  induction h with
  | empty isEmpty => exact isEmpty
  | step prior s sameBytes ih =>
    rw [sameBytes, bytes_apply, ih, List.foldl_append]
    rfl

theorem Reaches.append {before : List Step} {b : ByteBuffer} (h : Reaches before b) (steps : List Step) :
    Reaches (before ++ steps) (steps.foldl apply b) := by
  induction steps generalizing before b with
  | nil => rwa [List.append_nil]
  | cons s steps ih =>
    have hNext := ih (.step h s rfl)
    rwa [List.append_assoc] at hNext

theorem reaches_foldl (steps : List Step) : Reaches steps (steps.foldl apply empty) :=
  Reaches.append (.empty rfl) steps

theorem bytes_ofWindow (before window after : List UInt8) :
    (ofWindow (before ++ window ++ after) before.length (before.length + window.length)).bytes = window := by
  simp [ofWindow, bytes, List.take_append]

theorem bytes_ofPosition (bytes : List UInt8) (position : Nat) :
    (ofPosition bytes position).bytes = bytes.drop position := by
  simp [ofPosition, ByteBuffer.bytes]

/-- Hashing gives the hash of the bytes left in a buffer and leaves the buffer as it is. This holds of any
buffer whose chunk is a beginning of these bytes and whose copy gives them all. It holds for any chunks,
so for a window, from a position that may lie beyond the end, and after any steps. -/
theorem hash_anyLayout :
    (∀ (β : Type) [Buffer β] (bytes : β → List UInt8), IsView bytes →
      ∀ b, hash.run b = (Murmur.hash (bytes b), b)) ∧
      (∀ b : ByteBuffer, hash.run b = (Murmur.hash b.chunks.flatten, b)) ∧
      (∀ before window after : List UInt8,
        (hash.run (ofWindow (before ++ window ++ after) before.length
          (before.length + window.length))).1 = Murmur.hash window) ∧
      (∀ (bytes : List UInt8) (position : Nat),
        (hash.run (ofPosition bytes position)).1 = Murmur.hash (bytes.drop position)) ∧
      ∀ steps : List Step, Reaches steps (steps.foldl apply empty) ∧
        ∀ b : ByteBuffer, Reaches steps b → (hash.run b).1 = Murmur.hash (steps.foldl onBytes []) := by
  refine ⟨fun _ _ _ => run_hash, run_hash isView_bytes, fun before window after => ?_,
    fun bytes position => ?_, fun steps => ⟨reaches_foldl steps, fun b h => ?_⟩⟩
  · rw [run_hash isView_bytes, bytes_ofWindow]
  · rw [run_hash isView_bytes, bytes_ofPosition]
  · rw [run_hash isView_bytes, bytes_of_reaches h]

/-- Bytes that lie round the end of a ring. -/
theorem hash_anyLayout_wrapped :
    (IsView ByteBuffer.bytes ∧
      hash.run (⟨[[0], [1, 2, 3]]⟩ : ByteBuffer) = (Murmur.hash [0, 1, 2, 3], ⟨[[0], [1, 2, 3]]⟩)) ∧
      Reaches [.push [8, 8, 1], .advance 2, .pushFront [0], .push [2, 3]] ⟨[[0], [1, 2, 3]]⟩ ∧
      (hash.run (⟨[[0], [1, 2, 3]]⟩ : ByteBuffer)).1 = -188683207 := by
  have hSteps : Reaches [.push [8, 8, 1], .advance 2, .pushFront [0], .push [2, 3]]
      ⟨[[0], [1, 2, 3]]⟩ :=
    .step (reaches_foldl [.push [8, 8, 1], .advance 2, .pushFront [0]]) (.push [2, 3]) rfl
  refine ⟨⟨isView_bytes, hash_anyLayout.1 _ _ isView_bytes _⟩, hSteps, ?_⟩
  rw [(hash_anyLayout.2.2.2.2 _).2 _ hSteps]
  rfl

end ByteBuffer

end Bucketing
