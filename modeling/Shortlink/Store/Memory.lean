import Shortlink.Store
import Shortlink.Table
/-!
# The store in memory

A link table is a store by itself; nothing outlives it.
-/
namespace Shortlink

instance : LinkStore LinkTable where
  get key := StoreM.ask fun t => t.get key
  ownedBy owner := StoreM.ask fun t => .ok (t.ownedBy owner)
  ping := StoreM.ask fun _ => .ok ()
  stats := StoreM.ask fun t => .ok t.stats
  save link owner := StoreM.change fun t => t.save link owner
  saveBatch links owner := StoreM.change fun t => t.saveBatch links owner
  deleteBatch owner codes := StoreM.change fun t =>
    let (marked, t) := t.deleteBatch owner codes
    .ok (marked.length, t)

end Shortlink
