import Shortlink.Link
/-!
# Requests and answers of the service

What callers send in a batch, and what the service hands back to them.
-/
namespace Shortlink

/-- Whether a URL was stored by this call or had been stored before. -/
inductive ShortenStatus where
  | created
  | conflict
deriving DecidableEq

def ShortenStatus.name : ShortenStatus → String
  | created => "created"
  | conflict => "conflict"

structure Shortened where
  url : String
  code : ShortCode
  status : ShortenStatus
deriving DecidableEq

def Shortened.isConflict (s : Shortened) : Bool := s.status = .conflict

structure BatchRequest where
  correlationId : String
  url : String
deriving DecidableEq

structure BatchResponse where
  correlationId : String
  shortUrl : String
deriving DecidableEq

structure UserUrl where
  shortUrl : String
  url : String
deriving DecidableEq

end Shortlink
