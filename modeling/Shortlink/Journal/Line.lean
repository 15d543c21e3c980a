import Shortlink.Json.Links
import Shortlink.Json.Reader
/-!
# Journal lines

One line of a journal is one JSON record: a link, or the mark that a link has been deleted. Lines
without the mark simply lack its field.
-/
namespace Shortlink
open Json

structure JournalLine where
  owner : Option OwnerId
  url : String
  code : String
  deleted : Bool
deriving DecidableEq

namespace JournalLine

def live (link : NewLink) (owner : Option OwnerId) : JournalLine :=
  ⟨owner, link.url, link.code.text, false⟩

def tombstone (r : LinkRecord) : JournalLine :=
  ⟨r.owner, r.url, r.code.text, true⟩

instance : Form JournalLine where
  toJson l := ofFields ([("user_id", Form.toJson l.owner), ("original_url", ofText l.url),
    ("short_url", ofText l.code)] ++ if l.deleted then [("is_deleted", .bool true)] else [])
  ofJson? v := do
    match ← fields? [⟨"user_id", .optional⟩, ⟨"original_url", .required⟩, ⟨"short_url", .required⟩,
        ⟨"is_deleted", .defaulted⟩] v with
    | [owner, url, code, deleted] =>
      let owner ← owner.elim (some none) Form.ofJson?
      let deleted ← deleted.elim (some false) bool?
      return ⟨owner, ← url.bind text?, ← code.bind text?, deleted⟩
    | _ => none

def encode (l : JournalLine) : List Char := compact (Form.toJson l)

def decode? (cs : List Char) : Option JournalLine := (parse? cs).bind Form.ofJson?

end JournalLine
end Shortlink
