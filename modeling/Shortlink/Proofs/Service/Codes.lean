import Shortlink.Proofs.Keys
import Shortlink.Proofs.Service.LinkMap
import Shortlink.Proofs.Table.Deletion
/-!
# Codes that come from URLs

In the table of a service every link has the code of its URL, so what the service stores and answers
for a URL never depends on what has been stored before.
-/
namespace Shortlink

/-- The URLs that a table knows, those of deleted links included. -/
abbrev LinkTable.urls (t : LinkTable) : List String := t.list.map LinkRecord.url

namespace Service
open LinkTable

/-- Every link has the code of its URL, and its URL is one that the service takes. -/
structure Minted (t : LinkTable) : Prop where
  indexed : Indexed t
  codes : ∀ r ∈ t.list, r.code = .ofUrl r.url
  checked : ∀ r ∈ t.list, checkUrl r.url = .ok ()

theorem minted_empty : Minted {} := ⟨indexed_empty, by simp, by simp⟩

def newLink (url : String) : NewLink := ⟨.ofUrl url, url⟩

section
variable {t : LinkTable} (h : Minted t)
include h

private theorem Minted.find?_code {url : String} (checked : checkUrl url = .ok ()) :
    t.list.find? (hasCode url) = none := by
  rw [List.find?_eq_none]
  intro r hr
  rw [hasCode, decide_eq_true_iff, h.codes r hr]
  exact ne_code_of_checkUrl checked r.url

private theorem Minted.find?_url {r : LinkRecord} (hr : r ∈ t.list) :
    t.list.find? (hasUrl r.url) = some r :=
  find?_of_nodup h.indexed.urls hr

omit h in
private theorem find?_of_new {url : String} (new : url ∉ t.urls) :
    t.list.find? (hasUrl url) = none := by
  rw [List.find?_eq_none]
  intro r hr same
  exact new (List.mem_map.mpr ⟨r, hr, by simpa [hasUrl] using same⟩)

theorem Minted.codeOf?_of_known {url : String} (known : url ∈ t.urls) :
    t.codeOf? url = some (.ofUrl url) := by
  obtain ⟨r, hr, rfl⟩ := List.mem_map.mp known
  rw [h.indexed.codeOf?_eq, h.find?_url hr, Option.map_some, h.codes r hr]

theorem Minted.codeOf?_of_new {url : String} (new : url ∉ t.urls) : t.codeOf? url = none := by
  rw [h.indexed.codeOf?_eq, find?_of_new new]
  rfl

/-! ## Looking up -/

theorem Minted.get_url {r : LinkRecord} (hr : r ∈ t.list) :
    t.get r.url = if r.deleted then .error (.alreadyDeleted r.url) else .ok (some r.code.text) := by
  have found : t.find? r.url = some r := by
    rw [h.indexed.find?_eq, h.find?_code (h.checked r hr), h.find?_url hr]
    rfl
  have apart : r.code.text ≠ r.url := by
    rw [h.codes r hr]
    exact ne_code_of_checkUrl (h.checked r hr) r.url
  rw [LinkTable.get, found]
  simp only [if_neg apart]

private theorem Minted.get_of_new {url : String} (checked : checkUrl url = .ok ())
    (new : url ∉ t.urls) :
    t.get url = .ok none := by
  have absent : t.find? url = none := by
    rw [h.indexed.find?_eq, h.find?_code checked, find?_of_new new]
    rfl
  rw [LinkTable.get, absent]

theorem Minted.codeFor {url : String} (checked : checkUrl url = .ok ()) :
    Service.codeFor url t = (.ok (.ofUrl url), t) := by
  by_cases known : url ∈ t.urls
  · obtain ⟨r, hr, rfl⟩ := List.mem_map.mp known
    cases deleted : r.deleted <;>
      simp [Service.codeFor, LinkStore.get, StoreM.ask, h.get_url hr, deleted, h.codes r hr]
  · simp [Service.codeFor, LinkStore.get, StoreM.ask, h.get_of_new checked known]

theorem Minted.linksFor {urls : List String} (checked : ∀ url ∈ urls, checkUrl url = .ok ()) :
    Service.linksFor urls t = (.ok (urls.map newLink), t) := by
  induction urls with
  | nil => rfl
  | cons url rest ih =>
    have later := ih fun u hu => checked u (List.mem_cons_of_mem url hu)
    simp only [Service.linksFor, h.codeFor (checked url List.mem_cons_self), later]
    rfl

/-! ## Storing -/

theorem Minted.push {url : String} (checked : checkUrl url = .ok ()) (new : url ∉ t.urls)
    (owner : Option OwnerId) : Minted (t.push ⟨.ofUrl url, url, owner, false⟩) := by
  refine ⟨h.indexed.push (h.codeOf?_of_new new), ?_, ?_⟩
  · rw [list_push, List.forall_mem_append]
    exact ⟨h.codes, by simp⟩
  · rw [list_push, List.forall_mem_append]
    exact ⟨h.checked, by simpa using checked⟩

theorem Minted.saveAll {urls : List String} (checked : ∀ url ∈ urls, checkUrl url = .ok ())
    (owner : Option OwnerId) :
    (t.saveAll owner (urls.map newLink)).1 = urls.map .ofUrl ∧
      Minted (t.saveAll owner (urls.map newLink)).2 ∧
      ∀ url, url ∈ (t.saveAll owner (urls.map newLink)).2.urls ↔ url ∈ t.urls ∨ url ∈ urls := by
  induction urls generalizing t with
  | nil => exact ⟨rfl, h, by simp [LinkTable.saveAll]⟩
  | cons url rest ih =>
    have first := checked url List.mem_cons_self
    have later := fun u hu => checked u (List.mem_cons_of_mem url hu)
    rw [List.map_cons, LinkTable.saveAll]
    by_cases known : url ∈ t.urls
    · obtain ⟨codes, minted, urls⟩ := ih h later
      rw [newLink, h.codeOf?_of_known known]
      refine ⟨congrArg (ShortCode.ofUrl url :: ·) codes, minted, fun u => ?_⟩
      rw [urls, List.mem_cons]
      constructor
      · rintro (old | new)
        · exact .inl old
        · exact .inr (.inr new)
      · rintro (old | rfl | new)
        · exact .inl old
        · exact .inl known
        · exact .inr new
    · obtain ⟨codes, minted, urls⟩ := ih (h.push first known owner) later
      rw [newLink, h.codeOf?_of_new known]
      refine ⟨congrArg (ShortCode.ofUrl url :: ·) codes, minted, fun u => ?_⟩
      have pushed : (t.push ⟨.ofUrl url, url, owner, false⟩).urls = t.urls ++ [url] := by
        rw [LinkTable.urls, list_push, List.map_append]
        rfl
      have step := urls u
      rw [pushed, List.mem_append, List.mem_singleton, or_assoc] at step
      rw [List.mem_cons]
      exact step

theorem Minted.saveBatch {urls : List String} (checked : ∀ url ∈ urls, checkUrl url = .ok ())
    (nodup : urls.Nodup) (owner : Option OwnerId) :
    Service.saveAll (urls.map newLink) owner t =
      (.ok (urls.map .ofUrl), (t.saveAll owner (urls.map newLink)).2) := by
  have unique : ensureUnique (urls.map newLink) = .ok () := by
    rw [ensureUnique_eq_ok_iff, List.map_map]
    exact (List.map_id urls).symm ▸ nodup
  have codes := (h.saveAll checked owner).1
  simp only [Service.saveAll, LinkStore.saveBatch, StoreM.change, LinkTable.saveBatch, unique]
  rw [if_pos (by rw [codes, List.length_map, List.length_map]), codes]

/-! ## Deleting -/

theorem Minted.strike (ws : List DeleteRequest) (indexed : Indexed (t.strike ws)) :
    Minted (t.strike ws) ∧ (t.strike ws).urls = t.urls := by
  have kept {f : LinkRecord → Prop} (same : ∀ r, f { r with deleted := true } = f r)
      (all : ∀ r ∈ t.list, f r) : ∀ r ∈ (t.strike ws).list, f r := by
    have facts := map_struckFirst same ws t.list
    intro r hr
    have present : f r ∈ t.list.map f := by
      rw [← facts]
      exact List.mem_map_of_mem hr
    obtain ⟨r', hr', eq⟩ := List.mem_map.mp present
    exact eq ▸ all r' hr'
  exact ⟨⟨indexed, kept (fun _ => rfl) h.codes, kept (fun _ => rfl) h.checked⟩,
    map_struckFirst (fun _ => rfl) ws t.list⟩

theorem Minted.deleteChunks (chunks : List Chunk) :
    Minted (Service.deleteChunks t chunks) ∧ (Service.deleteChunks t chunks).urls = t.urls := by
  obtain ⟨same, indexed⟩ := deleteChunks_eq h.indexed chunks
  rw [same] at indexed ⊢
  exact h.strike _ indexed

end

theorem checkUrl_of_checkAll {requests : List BatchRequest} (h : checkAll requests = .ok ()) :
    ∀ url ∈ requests.map BatchRequest.url, checkUrl url = .ok () := by
  induction requests with
  | nil => simp
  | cons request rest ih =>
    rw [checkAll] at h
    cases first : checkUrl request.url with
    | error e => simp [first] at h
    | ok =>
      simp only [first] at h
      rw [List.map_cons, List.forall_mem_cons]
      exact ⟨first, ih h⟩

end Service
end Shortlink
