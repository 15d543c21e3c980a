import Shortlink.Link
/-!
# The store contract

What every link store can do. An operation may change the store also when it fails.
-/
namespace Shortlink

/-- A step of a store: an answer or an error, and the store afterwards. -/
abbrev StoreM (σ : Type) := ExceptT StoreError (StateM σ)

/-- Operations of a link store. Looking up works both ways: a code leads to its URL and a URL to
its code. -/
class LinkStore (σ : Type) where
  /-- The other half of the link that a key leads to; a deleted link is an error. -/
  get : String → StoreM σ (Option String)
  /-- All records of an owner, deleted ones included. -/
  ownedBy : OwnerId → StoreM σ (List LinkRecord)
  /-- Whether the medium can be reached. -/
  ping : StoreM σ Unit
  stats : StoreM σ StoreStats
  /-- Store a link; a URL that is stored already is a conflict that carries its code. -/
  save : NewLink → Option OwnerId → StoreM σ ShortCode
  /-- Store all links or none; one code per link, in order. -/
  saveBatch : List NewLink → Option OwnerId → StoreM σ (List ShortCode)
  /-- Mark the owner's live links among the codes as deleted; how many were marked. -/
  deleteBatch : OwnerId → List ShortCode → StoreM σ Nat

namespace StoreM

def ask {σ α : Type} (f : σ → Except StoreError α) : StoreM σ α :=
  fun s => (f s, s)

def change {σ α : Type} (f : σ → Except StoreError (α × σ)) : StoreM σ α :=
  fun s => match f s with
    | .ok (a, s) => (.ok a, s)
    | .error e => (.error e, s)

def within {σ τ α : Type} (part : τ) (put : τ → σ) (m : StoreM τ α) : StoreM σ α :=
  fun _ => let (a, part) := m part; (a, put part)

end StoreM
end Shortlink
