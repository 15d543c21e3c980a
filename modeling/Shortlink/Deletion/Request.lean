import Shortlink.Link
/-!
# Deletion requests

An owner's wish to delete some links. It is worked off in chunks of bounded size.
-/
namespace Shortlink

structure DeleteRequest where
  owner : OwnerId
  codes : List ShortCode
deriving DecidableEq

namespace DeleteRequest

/-- Cut a list into pieces of `n + 1` elements; only the last may be shorter. -/
def pieces {α : Type} (n : Nat) (xs : List α) : List (List α) :=
  match xs with
  | [] => []
  | x :: rest => (x :: rest.take n) :: pieces n (rest.drop n)
termination_by xs.length
decreasing_by
  simp only [List.length_drop, List.length_cons]
  omega

def chunks (request : DeleteRequest) (size : Nat) : List DeleteRequest :=
  (pieces (size - 1) request.codes).map fun codes => ⟨request.owner, codes⟩

end DeleteRequest
end Shortlink
