import Shortlink.Proofs.Store.Equivalence
/-!
# What a store holds

A store in memory is a table, and a store in a file holds the table of the lines in its file, whatever
text the file has. Every operation does to the store what it does to the table that it holds.
-/
namespace Shortlink
open LinkTable

/-- Stores that hold one table each and do what that table does. -/
class TableStore (σ : Type) [LinkStore σ] where
  Holds : σ → LinkTable → Prop
  simulates : Simulates Holds
  unique : ∀ {store t u}, Holds store t → Holds store u → t = u
  indexed : ∀ {store t}, Holds store t → Indexed t

/-! ## In memory -/

private theorem alike_of_indexed {α : Type} {m : StoreM LinkTable α}
    (kept : ∀ t, Indexed t → Indexed (m t).2) :
    StoreM.Alike (fun s t => s = t ∧ Indexed t) m m := by
  intro s t related
  obtain ⟨same, indexed⟩ := related
  subst same
  exact ⟨rfl, rfl, kept s indexed⟩

private theorem indexed_change {α : Type} {f : LinkTable → Except StoreError (α × LinkTable)}
    (kept : ∀ t a t', Indexed t → f t = .ok (a, t') → Indexed t') (t : LinkTable)
    (indexed : Indexed t) : Indexed (StoreM.change f t).2 := by
  rw [StoreM.change]
  cases changed : f t with
  | error e => exact indexed
  | ok r => exact kept t r.1 r.2 indexed changed

private theorem simulates_indexed : Simulates fun s t : LinkTable => s = t ∧ Indexed t where
  get _ := alike_of_indexed fun _ indexed => indexed
  ownedBy _ := alike_of_indexed fun _ indexed => indexed
  stats := alike_of_indexed fun _ indexed => indexed
  save _ _ := alike_of_indexed (indexed_change fun _ _ _ indexed saved => indexed.save saved)
  saveBatch _ _ := alike_of_indexed (indexed_change fun _ _ _ indexed saved => indexed.saveBatch saved)
  deleteBatch owner codes := alike_of_indexed (indexed_change fun t _ _ indexed changed => by
    rw [← (Prod.mk.inj (Except.ok.inj changed)).2]
    exact indexed.deleteBatch owner codes)

instance : TableStore LinkTable where
  Holds s t := s = t ∧ Indexed t
  simulates := simulates_indexed
  unique first second := first.1.symm.trans second.1
  indexed held := held.2

/-! ## In a file -/

instance : TableStore FileStore where
  Holds s t := ∃ text, s.Carries text ∧ Journal.replay text = t
  simulates := by
    have shows : FileStore.Shows (fun _ => True) =
        fun s t => ∃ text, s.Carries text ∧ Journal.replay text = t := by
      funext s t
      simp only [FileStore.Shows, true_and]
    rw [← shows]
    exact FileStore.simulates_shows fun _ _ => trivial
  unique first second := by
    obtain ⟨a, readA, rfl⟩ := first
    obtain ⟨b, readB, rfl⟩ := second
    have same := Except.ok.inj (readA.symm.trans readB)
    rw [Text.bytes_inj same]
  indexed held := by
    obtain ⟨text, -, same⟩ := held
    rw [← same]
    exact Journal.indexed_replay text

namespace TableStore

theorem holds_self {t : LinkTable} (indexed : Indexed t) : Holds t t := ⟨rfl, indexed⟩

theorem holds_empty : Holds ({} : LinkTable) {} := holds_self indexed_empty

theorem holds_of_open {disk after : Disk} {path : String} {s : FileStore}
    (vacant : disk.Vacant path) (opened : FileStore.open disk path = (.ok s, after)) :
    Holds s {} := by
  obtain ⟨text, holds, same⟩ := FileStore.mirrors_of_open vacant opened
  exact ⟨text, holds.read, same⟩

end TableStore

/-! ## Runs -/

def OwnerId.zero : OwnerId := ⟨⟨List.replicate 32 ⟨0, Nat.zero_lt_succ 15⟩, rfl⟩⟩

section
variable {σ : Type} [LinkStore σ]

def StoreCall.run (calls : List StoreCall) (store : σ) : σ :=
  calls.foldl (fun store call => (call.perform store).2) store

theorem TableStore.Holds.run [TableStore σ] {store : σ} {t : LinkTable}
    (held : TableStore.Holds store t) (calls : List StoreCall) :
    TableStore.Holds (StoreCall.run calls store) (StoreCall.run calls t) := by
  induction calls generalizing store t with
  | nil => exact held
  | cons call rest ih => exact ih (TableStore.simulates.perform call store t held).2

end

end Shortlink
