import Shortlink.Owner
import Shortlink.ShortCode
/-!
# Links

A stored link, a link to be stored, and the counts over a store.
-/
namespace Shortlink

/-- A stored link. Deletion only sets a mark, which is never cleared. -/
structure LinkRecord where
  code : ShortCode
  url : String
  /-- The caller that created the link, unless anonymous. -/
  owner : Option OwnerId
  deleted : Bool
deriving DecidableEq

structure NewLink where
  code : ShortCode
  url : String
deriving DecidableEq

def NewLink.record (link : NewLink) (owner : Option OwnerId) : LinkRecord :=
  ⟨link.code, link.url, owner, false⟩

structure StoreStats where
  urls : Nat
  users : Nat
deriving DecidableEq

def firstDuplicate? : List String → List String → Option String
  | _, [] => none
  | seen, url :: rest => if url ∈ seen then some url else firstDuplicate? (url :: seen) rest

/-- Refuse a batch that names one URL twice: it could never be stored as a whole. -/
def ensureUnique (links : List NewLink) : Except StoreError Unit :=
  match firstDuplicate? [] (links.map NewLink.url) with
  | some url => .error (.duplicateInBatch url)
  | none => .ok ()

end Shortlink
