import Shortlink.Proofs.Service.Codes
/-!
# Tables that reflect a link map

A table that holds exactly the links of a map answers from the map, and what is shortened on it is
added to both.
-/
namespace Shortlink

namespace KnownLink

def record (link : KnownLink) : LinkRecord := ⟨link.code, link.url, link.owner, link.gone⟩

@[simp] theorem record_code (link : KnownLink) : link.record.code = link.code := rfl

@[simp] theorem record_url (link : KnownLink) : link.record.url = link.url := rfl

@[simp] theorem record_owner (link : KnownLink) : link.record.owner = link.owner := rfl

@[simp] theorem record_deleted (link : KnownLink) : link.record.deleted = link.gone := rfl

end KnownLink

namespace Service
open LinkTable LinkMap

/-- A table holds exactly the links of a map, and all their URLs have been checked. -/
structure Reflects (t : LinkTable) (m : LinkMap) : Prop where
  indexed : Indexed t
  list : t.list = m.links.map KnownLink.record
  checked : ∀ url ∈ m.links.map KnownLink.url, checkUrl url = .ok ()

theorem singleCodes_of_distinct {t : LinkTable} {m : LinkMap} (indexed : Indexed t)
    (urls : t.list.map LinkRecord.url = m.links.map KnownLink.url)
    (codes : t.list.map (fun r => r.code.text) = m.links.map fun l => l.code.text)
    (distinct : m.Distinct) : t.SingleCodes := by
  have nodup : (m.links.map KnownLink.url).Nodup := urls ▸ indexed.urls
  rw [SingleCodes, codes]
  refine List.Nodup.map_on ?_ (List.Nodup.of_map _ nodup)
  intro a ha b hb same
  exact List.inj_on_of_nodup_map nodup ha hb (distinct a ha b hb (ShortCode.text_inj.mp same))

theorem reflects_empty : Reflects {} {} := ⟨indexed_empty, rfl, by simp⟩

section
variable {t : LinkTable} {m : LinkMap} (h : Reflects t m)
include h

theorem Reflects.urls : t.list.map LinkRecord.url = m.links.map KnownLink.url := by
  rw [h.list, List.map_map]
  rfl

theorem Reflects.mem_urls {url : String} : url ∈ t.urls ↔ url ∈ m.links.map KnownLink.url := by
  rw [LinkTable.urls, h.urls]

theorem Reflects.codes : t.list.map (fun r => r.code.text) = m.links.map fun l => l.code.text := by
  rw [h.list, List.map_map]
  rfl

private theorem Reflects.mem_list {link : KnownLink} (hl : link ∈ m.links) :
    link.record ∈ t.list := by
  rw [h.list]
  exact List.mem_map_of_mem hl

theorem Reflects.minted : Minted t := by
  refine ⟨h.indexed, ?_, ?_⟩
  · rw [h.list, List.forall_mem_map]
    exact fun _ _ => rfl
  · rw [h.list, List.forall_mem_map]
    exact List.forall_mem_map.mp h.checked

/-! ## Looking up -/

theorem Reflects.get_url {link : KnownLink} (hl : link ∈ m.links) :
    t.get link.url =
      if link.gone then .error (.alreadyDeleted link.url) else .ok (some link.code.text) :=
  h.minted.get_url (h.mem_list hl)

/-! ## Shortening -/

theorem Reflects.push {url : String} (checked : checkUrl url = .ok ())
    (new : url ∉ m.links.map KnownLink.url) (owner : Option OwnerId) :
    Reflects (t.push ⟨.ofUrl url, url, owner, false⟩) (m.add owner url) := by
  rw [add, if_neg new]
  refine ⟨(h.minted.push checked (mt h.mem_urls.mp new) owner).indexed, ?_, ?_⟩
  · rw [list_push, h.list, List.map_append]
    rfl
  · rw [List.map_append, List.forall_mem_append]
    exact ⟨h.checked, by simpa using checked⟩

theorem Reflects.saveAll {urls : List String} (checked : ∀ url ∈ urls, checkUrl url = .ok ())
    (owner : Option OwnerId) :
    Reflects (t.saveAll owner (urls.map newLink)).2 (urls.foldl (add owner) m) := by
  induction urls generalizing t m with
  | nil => exact h
  | cons url rest ih =>
    have first := checked url List.mem_cons_self
    have later := fun u hu => checked u (List.mem_cons_of_mem url hu)
    rw [List.map_cons, List.foldl_cons, LinkTable.saveAll]
    by_cases known : url ∈ m.links.map KnownLink.url
    · rw [newLink, h.minted.codeOf?_of_known (h.mem_urls.mpr known), add_of_mem known]
      exact ih h later
    · rw [newLink, h.minted.codeOf?_of_new (mt h.mem_urls.mp known)]
      exact ih (h.push first known owner) later

end

theorem Reflects.shorten {s : Service LinkTable} {m : LinkMap} (h : Reflects s.store m) (url : String)
    (owner : Option OwnerId) :
    ∃ answer t, Service.shorten url owner s = (answer, { s with store := t }) ∧
      Reflects t (m.next (.shorten url owner) (.shortened answer)) := by
  rw [Service.shorten]
  cases checked : checkUrl url with
  | error e => exact ⟨_, _, rfl, h⟩
  | ok =>
    by_cases known : url ∈ m.links.map KnownLink.url
    · have code := h.minted.codeOf?_of_known (h.mem_urls.mpr known)
      simp only [LinkStore.save, StoreM.change, LinkTable.save, code]
      refine ⟨_, _, rfl, ?_⟩
      rw [next, add_of_mem known]
      exact h
    · have code := h.minted.codeOf?_of_new (mt h.mem_urls.mp known)
      simp only [LinkStore.save, StoreM.change, LinkTable.save, code]
      exact ⟨_, _, rfl, h.push checked known owner⟩

theorem Reflects.shortenBatch {s : Service LinkTable} {m : LinkMap} (h : Reflects s.store m)
    (requests : List BatchRequest) (owner : Option OwnerId) :
    ∃ answer t, Service.shortenBatch requests owner s = (answer, { s with store := t }) ∧
      Reflects t (m.next (.shortenBatch requests owner) (.batch answer)) := by
  rw [Service.shortenBatch]
  cases all : checkAll requests with
  | error e => exact ⟨_, _, rfl, h⟩
  | ok =>
    generalize distinct : (requests.map BatchRequest.url).eraseDups = urls
    have checked : ∀ url ∈ urls, checkUrl url = .ok () := by
      intro url hurl
      rw [← distinct, List.mem_eraseDups] at hurl
      exact checkUrl_of_checkAll all url hurl
    have nodup : urls.Nodup := distinct ▸ nodup_eraseDups _
    have whole : (requests.map BatchRequest.url).foldl (add owner) m = urls.foldl (add owner) m := by
      rw [← distinct, foldl_add_eraseDups]
    simp only [ask, h.minted.linksFor checked]
    cases urls with
    | nil => exact ⟨_, _, rfl, by rw [next, whole]; exact h⟩
    | cons url rest =>
      have saved := h.minted.saveBatch checked nodup owner
      rw [List.map_cons] at saved
      simp only [List.map_cons, saved]
      exact ⟨_, _, rfl, by rw [next, whole]; exact h.saveAll checked owner⟩

/-! ## Answering -/

section
variable {t : LinkTable} {m : LinkMap} (h : Reflects t m)
include h

private theorem Reflects.singleCodes (distinct : m.Distinct) : t.SingleCodes :=
  singleCodes_of_distinct h.indexed h.urls h.codes distinct

private theorem Reflects.get_code (distinct : m.Distinct) {link : KnownLink} (hl : link ∈ m.links) :
    t.get link.code.text =
      if link.gone then .error (.alreadyDeleted link.code.text) else .ok (some link.url) := by
  have found : t.find? link.code.text = some link.record := by
    rw [h.indexed.find?_eq]
    exact congrArg (Option.or · _) ((h.singleCodes distinct).find?_eq (h.mem_list hl))
  rw [LinkTable.get, found]
  simp only [KnownLink.record, if_true]

private theorem Reflects.get_other {key : String}
    (other : ∀ link ∈ m.links, key ≠ link.code.text ∧ key ≠ link.url) : t.get key = .ok none := by
  have absent : t.find? key = none := by
    rw [h.indexed.find?_eq, h.list, Option.or_eq_none_iff, List.find?_eq_none, List.find?_eq_none]
    refine ⟨fun r hr => ?_, fun r hr => ?_⟩ <;> obtain ⟨link, hl, rfl⟩ := List.mem_map.mp hr
    · rw [hasCode, decide_eq_true_iff]
      exact Ne.symm (other link hl).1
    · rw [hasUrl, decide_eq_true_iff]
      exact Ne.symm (other link hl).2
  rw [LinkTable.get, absent]

theorem Reflects.ownedBy (owner : OwnerId) :
    t.ownedBy owner = (m.links.filter fun link => link.owner = some owner).map KnownLink.record := by
  have filtered : t.ownedBy owner = t.list.filter fun r => r.owner = some owner := rfl
  rw [filtered, h.list, List.filter_map]
  rfl

end

theorem Reflects.implements {s : Service LinkTable} {m : LinkMap} (h : Reflects s.store m)
    (distinct : m.Distinct) : Implements s.settings.baseUrl s m where
  of_code link hl := by
    rw [decode, ask]
    simp only [LinkStore.get, StoreM.ask, h.get_code distinct hl, KnownLink.answer]
    cases link.gone <;> rfl
  of_url link hl := by
    rw [decode, ask]
    simp only [LinkStore.get, StoreM.ask, h.get_url hl, KnownLink.answer]
    cases link.gone <;> rfl
  of_other key other := by
    rw [decode, ask]
    simp only [LinkStore.get, StoreM.ask, h.get_other other]
  listed owner := by
    simp only [userUrls, ask, LinkStore.ownedBy, StoreM.ask, h.ownedBy, List.filter_map, List.map_map,
      List.filter_filter]
    refine congrArg (fun links => Except.ok (List.map _ links)) (List.filter_congr fun link _ => ?_)
    cases gone : link.gone <;> simp [gone]

end Service
end Shortlink
