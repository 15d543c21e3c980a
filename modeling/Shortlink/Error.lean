/-!
# Errors

What can go wrong, by cause: reading a code or an owner, using a store, and using the shortening
service. Every error has one message.
-/
namespace Shortlink

inductive InputError where
  | shortCode (reason : String)
  | ownerId (reason : String)
deriving DecidableEq

def InputError.message : InputError → String
  | .shortCode reason => s!"invalid short code: {reason}"
  | .ownerId reason => s!"invalid owner id: {reason}"

/-- What a store answers instead of a value. A conflict and a deleted link are expected outcomes;
all else is a fault of the call or of the medium. -/
inductive StoreError where
  /-- The URL is stored already, under this code. -/
  | conflict (code : String)
  /-- The link found under this key has been deleted. -/
  | alreadyDeleted (key : String)
  | duplicateInBatch (url : String)
  | batchMismatch (expected actual : Nat)
  | missingOwner
  | unavailable (reason : String)
  | timeout (reason : String)
  | query (reason : String)
  | invalidData (reason : String)
  | io (reason : String)
deriving DecidableEq

namespace StoreError

def message : StoreError → String
  | conflict code => s!"original url already shortened as {code}"
  | alreadyDeleted key => s!"url {key} has already been deleted"
  | duplicateInBatch url => s!"original url appears more than once in batch: {url}"
  | batchMismatch expected actual =>
    s!"batch stored {actual} of {expected} records, rolled back"
  | missingOwner => "owner id is required by this backend"
  | unavailable reason => s!"storage backend unavailable: {reason}"
  | timeout reason => s!"storage operation timed out: {reason}"
  | query reason => s!"storage query failed: {reason}"
  | invalidData reason => s!"stored data is invalid: {reason}"
  | io reason => s!"storage io failed: {reason}"

def conflictCode? : StoreError → Option String
  | conflict code => some code
  | _ => none

end StoreError

inductive ServiceError where
  | invalidUrl (reason : String)
  /-- The link found under this key has been deleted. -/
  | gone (key : String)
  | unauthorized
  | storage (cause : StoreError)
  | closed
deriving DecidableEq

namespace ServiceError

def message : ServiceError → String
  | invalidUrl reason => s!"invalid url: {reason}"
  | gone key => s!"link is gone: {key}"
  | unauthorized => "caller is not identified"
  | storage cause => s!"storage error: {cause.message}"
  | closed => "deletion pipeline is shut down"

/-- A deleted link is an outcome of its own for callers; every other error of the store is passed
on. -/
def ofStore : StoreError → ServiceError
  | .alreadyDeleted key => gone key
  | cause => storage cause

end ServiceError
end Shortlink
