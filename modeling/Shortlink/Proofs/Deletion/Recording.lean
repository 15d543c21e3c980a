import Shortlink.Service
/-!
# A store that keeps a record

Around any store, whether its deletions succeed or fail, the requests for deletion are noted as they
come. A run of the pipeline makes exactly one request of the store for each chunk.
-/
namespace Shortlink

structure Recording (σ : Type) where
  store : σ
  asked : List DeleteRequest

namespace Recording
variable {σ : Type}

def pass {α : Type} (m : StoreM σ α) : StoreM (Recording σ) α :=
  fun s => StoreM.within s.store (fun store => { s with store := store }) m s

instance [LinkStore σ] : LinkStore (Recording σ) where
  get key := pass (LinkStore.get key)
  ownedBy owner := pass (LinkStore.ownedBy owner)
  ping := pass LinkStore.ping
  stats := pass LinkStore.stats
  save link owner := pass (LinkStore.save link owner)
  saveBatch links owner := pass (LinkStore.saveBatch links owner)
  deleteBatch owner codes := fun s =>
    pass (LinkStore.deleteBatch owner codes) { s with asked := s.asked ++ [⟨owner, codes⟩] }

private theorem deleteBatch_asked [LinkStore σ] (s : Recording σ) (owner : OwnerId)
    (codes : List ShortCode) :
    ((LinkStore.deleteBatch owner codes : StoreM (Recording σ) Nat) s).2.asked =
      s.asked ++ [⟨owner, codes⟩] := rfl

/-- Every chunk is asked for once, whatever the store answers. -/
theorem asked_deleteChunks [LinkStore σ] (s : Recording σ) (chunks : List Chunk) :
    (Service.deleteChunks s chunks).asked = s.asked ++ chunks.map Chunk.work := by
  induction chunks generalizing s with
  | nil => simp [Service.deleteChunks]
  | cons chunk rest ih =>
    rw [Service.deleteChunks, List.foldl_cons, ← Service.deleteChunks, ih, deleteBatch_asked,
      List.append_assoc]
    rfl

end Recording
end Shortlink
