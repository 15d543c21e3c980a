import Shortlink.Proofs.Deletion.Request
import Shortlink.Proofs.Store.Batch
import Shortlink.Proofs.Store.Torn
import Shortlink.Service
/-!
# Deleting in chunks

Into whatever chunks a request is cut: chunk by chunk, a store in a file is left byte for byte as it
is left when the whole request is deleted at once.
-/
namespace Shortlink
open LinkTable

private theorem LinkTable.deleteBatch_append (t : LinkTable) (owner : OwnerId)
    (xs ys : List ShortCode) :
    t.deleteBatch owner (xs ++ ys) =
      ((t.deleteBatch owner xs).1 ++ ((t.deleteBatch owner xs).2.deleteBatch owner ys).1,
        ((t.deleteBatch owner xs).2.deleteBatch owner ys).2) := by
  induction xs generalizing t with
  | nil => rfl
  | cons code rest ih =>
    rw [List.cons_append, LinkTable.deleteBatch, LinkTable.deleteBatch]
    cases t.ownLive? owner code with
    | none => exact ih t
    | some r => simp only [ih, List.cons_append]

namespace Pipeline

private theorem map_work_chunksOf (c : PipelineConfig) (number : Nat) (r : DeleteRequest) :
    (chunksOf c number r).map Chunk.work = r.chunks c.sizes.chunk := by
  apply List.ext_getElem <;> simp [chunksOf]

theorem codes_chunksOf (c : PipelineConfig) (number : Nat) (r : DeleteRequest) :
    (chunksOf c number r).flatMap (fun chunk => chunk.work.codes) = r.codes := by
  rw [← DeleteRequest.flatMap_codes_chunks r c.sizes.chunk, ← map_work_chunksOf c number,
    List.flatMap_map]

private theorem owner_of_mem_chunksOf {c : PipelineConfig} {number : Nat} {r : DeleteRequest}
    {chunk : Chunk} (h : chunk ∈ chunksOf c number r) : chunk.work.owner = r.owner := by
  have work := List.mem_map_of_mem (f := Chunk.work) h
  rw [map_work_chunksOf] at work
  exact DeleteRequest.owner_of_mem_chunks work

end Pipeline

namespace FileStore
open Journal

private theorem deletedLines_append (owner : OwnerId) (xs ys : List ShortCode) (t : LinkTable) :
    deletedLines owner (xs ++ ys) t =
      deletedLines owner xs t ++ deletedLines owner ys (t.deleteBatch owner xs).2 := by
  rw [deletedLines, deleteBatch_append, List.map_append]
  rfl

theorem rewrites_deleteBatch (owner : OwnerId) (codes : List ShortCode) (s : FileStore) :
    Rewrites s ((LinkStore.deleteBatch owner codes : StoreM FileStore Nat) s).2 :=
  rewrites_extend _ s

section
variable {s : FileStore} {text : List Char}

theorem Carries.deleteBatch (carries : s.Carries text) (owner : OwnerId) (codes : List ShortCode) :
    ((LinkStore.deleteBatch owner codes : StoreM FileStore Nat) s).2.Carries
      (text ++ (ofText text).addition (deletedLines owner codes (replay text))) := by
  obtain ⟨after, deleted, grows⟩ := adds_deleteBatch owner codes s text carries
  rw [deleted]
  exact grows.carries

/-- Chunks of one owner that are deleted one after another add the lines of one batch. -/
theorem Carries.deleteChunks (carries : s.Carries text) {owner : OwnerId} {chunks : List Chunk}
    (owned : ∀ chunk ∈ chunks, chunk.work.owner = owner) :
    Rewrites s (Service.deleteChunks s chunks) ∧
      (Service.deleteChunks s chunks).Carries (text ++ (ofText text).addition
        (deletedLines owner (chunks.flatMap fun chunk => chunk.work.codes) (replay text))) := by
  induction chunks generalizing s text with
  | nil =>
    refine ⟨⟨rfl, .inl rfl⟩, ?_⟩
    have nothing : (ofText text).addition [] = [] := rfl
    rw [List.flatMap_nil, deletedLines, LinkTable.deleteBatch, List.map_nil, nothing,
      List.append_nil]
    exact carries
  | cons chunk rest ih =>
    rw [List.forall_mem_cons] at owned
    obtain ⟨same, others⟩ := owned
    subst same
    -- the first chunk adds its marks, and the others start from the text with these
    have once := rewrites_deleteBatch chunk.work.owner chunk.work.codes s
    have left := carries.deleteBatch chunk.work.owner chunk.work.codes
    obtain ⟨more, last⟩ := ih left others
    refine ⟨once.trans more, ?_⟩
    have marks := foldl_tombstone (indexed_replay text) chunk.work.owner chunk.work.codes
    rw [List.flatMap_cons, deletedLines_append, addition_append, ← List.append_assoc, ← marks,
      ← deletedLines, ← replay_addition]
    exact last

theorem Carries.deleteChunks_chunksOf (carries : s.Carries text) (c : PipelineConfig) (number : Nat)
    (r : DeleteRequest) : Service.deleteChunks s (Pipeline.chunksOf c number r) =
      ((LinkStore.deleteBatch r.owner r.codes : StoreM FileStore Nat) s).2 := by
  have owned : ∀ chunk ∈ Pipeline.chunksOf c number r, chunk.work.owner = r.owner :=
    fun chunk there => Pipeline.owner_of_mem_chunksOf there
  obtain ⟨each, left⟩ := carries.deleteChunks owned
  rw [Pipeline.codes_chunksOf] at left
  exact eq_of_rewrites each (rewrites_deleteBatch r.owner r.codes s) left
    (carries.deleteBatch r.owner r.codes)

/-! ## Whatever is in the file -/

/-- The file of a store can be read, whether it is text or not. -/
def Readable (s : FileStore) : Prop := ∃ bytes, s.disk.read s.path = .ok bytes

theorem Readable.rewrites (readable : s.Readable) {after : FileStore}
    (rewrites : Rewrites s after) : after.Readable := by
  rw [Readable, rewrites.path]
  rcases rewrites.disk with same | ⟨bytes, written⟩
  · rw [same]
    exact readable
  · exact ⟨bytes, Disk.read_of_write written⟩

private theorem Readable.carries_or_fails (readable : s.Readable) :
    (∃ text, s.Carries text) ∨ s.Fails := by
  obtain ⟨bytes, read⟩ := readable
  by_cases valid : bytes.IsValidUTF8
  · obtain ⟨text, rfl⟩ := Text.exists_eq_bytes valid
    exact .inl ⟨text, read⟩
  · exact .inr (fails_of_load (load_of_invalid read valid))

theorem Fails.deleteBatch (fails : s.Fails) (owner : OwnerId) (codes : List ShortCode) :
    ((LinkStore.deleteBatch owner codes : StoreM FileStore Nat) s).2 = s := by
  obtain ⟨e, failed⟩ := fails (.deleteBatch owner codes)
  rw [StoreCall.perform, StoreM.map_apply] at failed
  exact (Prod.mk.inj failed).2

theorem Fails.deleteChunks (fails : s.Fails) (chunks : List Chunk) :
    Service.deleteChunks s chunks = s := by
  induction chunks with
  | nil => rfl
  | cons chunk rest ih =>
    rw [Service.deleteChunks, List.foldl_cons, fails.deleteBatch]
    exact ih

/-- Whatever the size of its chunks, a request leaves the file that one batch leaves. -/
theorem Readable.deleteChunks_chunksOf (readable : s.Readable) (c : PipelineConfig) (number : Nat)
    (r : DeleteRequest) : Service.deleteChunks s (Pipeline.chunksOf c number r) =
      ((LinkStore.deleteBatch r.owner r.codes : StoreM FileStore Nat) s).2 := by
  rcases readable.carries_or_fails with ⟨text, carries⟩ | fails
  · exact carries.deleteChunks_chunksOf c number r
  · rw [fails.deleteChunks, fails.deleteBatch]

end
end FileStore
end Shortlink
