import Shortlink.Json.Fields
import Shortlink.Service.Answer
/-!
# JSON forms of links and answers

Identifiers are strings, statuses are words, all else is a record.
-/
namespace Shortlink
open Json

instance : Form ShortCode := ⟨fun code => ofText code.text, fun v => (text? v).map ShortCode.mk⟩

instance : Form OwnerId where
  toJson owner := ofText owner.uuid.toString
  ofJson? v := (text? v).bind fun s => (Uuid.parse s).toOption.map OwnerId.mk

private def given? {α : Type} [Form α] (v : Option Json) : Option α := v.bind Form.ofJson?

/-- Read the value of a field that stands for an absent one when it is left out. -/
private def perhaps? {α : Type} [Form α] : Option Json → Option (Option α)
  | none => some none
  | some v => Form.ofJson? v

instance : Form LinkRecord where
  toJson r := ofFields [("short_code", Form.toJson r.code), ("original_url", ofText r.url),
    ("owner", Form.toJson r.owner), ("deleted", .bool r.deleted)]
  ofJson? v := do
    match ← fields? [⟨"short_code", .required⟩, ⟨"original_url", .required⟩, ⟨"owner", .optional⟩,
        ⟨"deleted", .required⟩] v with
    | [code, url, owner, deleted] =>
      return ⟨← given? code, ← given? url, ← perhaps? owner, ← deleted.bind bool?⟩
    | _ => none

instance : Form StoreStats where
  toJson s := ofFields [("urls", .natural s.urls), ("users", .natural s.users)]
  ofJson? v := do
    match ← fields? [⟨"urls", .required⟩, ⟨"users", .required⟩] v with
    | [urls, users] => return ⟨← urls.bind word?, ← users.bind word?⟩
    | _ => none

def ShortenStatus.ofName? : String → Option ShortenStatus
  | "created" => some .created
  | "conflict" => some .conflict
  | _ => none

/-- A status is a word, or an object whose only member has that name and no value. -/
instance : Form ShortenStatus where
  toJson s := ofText s.name
  ofJson?
    | .string s => s.bind ShortenStatus.ofName?
    | .object [(name, .null)] => name.bind ShortenStatus.ofName?
    | _ => none

instance : Form Shortened where
  toJson s := ofFields [("url", ofText s.url), ("code", Form.toJson s.code),
    ("status", Form.toJson s.status)]
  ofJson? v := do
    match ← fields? [⟨"url", .required⟩, ⟨"code", .required⟩, ⟨"status", .required⟩] v with
    | [url, code, status] => return ⟨← given? url, ← given? code, ← given? status⟩
    | _ => none

instance : Form BatchRequest where
  toJson r := ofFields [("correlation_id", ofText r.correlationId), ("original_url", ofText r.url)]
  ofJson? v := do
    match ← fields? [⟨"correlation_id", .required⟩, ⟨"original_url", .required⟩] v with
    | [id, url] => return ⟨← given? id, ← given? url⟩
    | _ => none

instance : Form BatchResponse where
  toJson r := ofFields [("correlation_id", ofText r.correlationId), ("short_url", ofText r.shortUrl)]
  ofJson? v := do
    match ← fields? [⟨"correlation_id", .required⟩, ⟨"short_url", .required⟩] v with
    | [id, url] => return ⟨← given? id, ← given? url⟩
    | _ => none

instance : Form UserUrl where
  toJson u := ofFields [("short_url", ofText u.shortUrl), ("original_url", ofText u.url)]
  ofJson? v := do
    match ← fields? [⟨"short_url", .required⟩, ⟨"original_url", .required⟩] v with
    | [short, url] => return ⟨← given? short, ← given? url⟩
    | _ => none

end Shortlink
