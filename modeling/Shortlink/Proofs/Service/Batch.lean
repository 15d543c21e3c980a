import Shortlink.Proofs.Service.Codes
import Shortlink.Proofs.Store.Batch
/-!
# What shortening stores

A service over a store whose table keeps to the codes of its URLs answers with these codes. It stores
the link of a URL, and for a batch the links of its URLs one after another, each URL once.
-/
namespace Shortlink
open LinkTable TableStore

namespace Service

theorem checkAll_eq_ok {requests : List BatchRequest}
    (checked : ∀ request ∈ requests, checkUrl request.url = .ok ()) : checkAll requests = .ok () := by
  induction requests with
  | nil => rfl
  | cons request rest ih =>
    rw [List.forall_mem_cons] at checked
    simp only [checkAll, checked.1, ih checked.2]

theorem answers_eq (base : String) {urls : List String} {requests : List BatchRequest}
    (known : ∀ request ∈ requests, request.url ∈ urls) :
    answers base (urls.zip (urls.map ShortCode.ofUrl)) requests = requests.map fun request =>
      ⟨request.correlationId, (ShortCode.ofUrl request.url).toUrl base⟩ := by
  have found : ∀ url ∈ urls,
      (urls.zip (urls.map ShortCode.ofUrl)).lookup url = some (.ofUrl url) := by
    clear known
    intro url hurl
    induction urls with
    | nil => simp at hurl
    | cons first rest ih =>
      rw [List.map_cons, List.zip_cons_cons, List.lookup_cons]
      by_cases same : url = first
      · simp [same]
      · have later := ih (List.mem_of_ne_of_mem same hurl)
        have apart : (url == first) = false := by simpa using same
        simp only [apart, later]
  have each : ∀ request ∈ requests,
      ((urls.zip (urls.map ShortCode.ofUrl)).lookup request.url).map
          (fun code => (⟨request.correlationId, code.toUrl base⟩ : BatchResponse)) =
        some ⟨request.correlationId, (ShortCode.ofUrl request.url).toUrl base⟩ := by
    intro request hr
    rw [found _ (known request hr), Option.map_some]
  rw [answers, List.filterMap_congr each]
  exact congrFun List.filterMap_eq_map requests

/-- The status of an answer for a URL, given the table before. -/
def statusFor (url : String) (t : LinkTable) : ShortenStatus :=
  if url ∈ t.urls then .conflict else .created

theorem Minted.save {t : LinkTable} (h : Minted t) {url : String} (checked : checkUrl url = .ok ())
    (owner : Option OwnerId) :
    Minted ((LinkStore.save (newLink url) owner : StoreM LinkTable ShortCode) t).2 ∧
      ∀ u, u ∈ ((LinkStore.save (newLink url) owner : StoreM LinkTable ShortCode) t).2.urls ↔
        u ∈ t.urls ∨ u = url := by
  by_cases known : url ∈ t.urls
  · simp only [LinkStore.save, StoreM.change, LinkTable.save, newLink, h.codeOf?_of_known known]
    refine ⟨h, fun u => ⟨.inl, ?_⟩⟩
    rintro (old | rfl)
    · exact old
    · exact known
  · simp only [LinkStore.save, StoreM.change, LinkTable.save, newLink, h.codeOf?_of_new known]
    refine ⟨h.push checked known owner, fun u => ?_⟩
    rw [LinkTable.urls, list_push, List.map_append, List.mem_append]
    exact or_congr Iff.rfl List.mem_singleton

section
variable {σ : Type} [LinkStore σ] [BatchStore σ]

theorem codeFor_state (url : String) (store : σ) : (codeFor url store).2 = store := by
  have kept := BatchStore.get_state url store
  rw [codeFor]
  split
  all_goals
    next looked =>
      rw [looked] at kept
      exact kept

variable {t : LinkTable} (minted : Minted t)
include minted

/-! ## Batches -/

private theorem codeFor_eq {store : σ} (held : Holds store t) {url : String}
    (checked : checkUrl url = .ok ()) : codeFor url store = (.ok (.ofUrl url), store) := by
  have answer := (alike_codeFor simulates url store t held).1
  rw [minted.codeFor checked] at answer
  exact Prod.ext answer (codeFor_state url store)

private theorem linksFor_eq {store : σ} (held : Holds store t) {urls : List String}
    (checked : ∀ url ∈ urls, checkUrl url = .ok ()) :
    linksFor urls store = (.ok (urls.map newLink), store) := by
  induction urls with
  | nil => rfl
  | cons url rest ih =>
    rw [List.forall_mem_cons] at checked
    simp only [linksFor, codeFor_eq minted held checked.1, ih checked.2]
    rfl

theorem saveAll_eq {store : σ} (held : Holds store t) {urls : List String}
    (checked : ∀ url ∈ urls, checkUrl url = .ok ()) (nodup : urls.Nodup) (owner : Option OwnerId) :
    saveAll (urls.map newLink) owner store =
      (.ok (urls.map .ofUrl), LinkStore.saveEach owner (urls.map newLink) store) := by
  have distinct : ((urls.map newLink).map NewLink.url).Nodup := by
    rw [List.map_map]
    exact (List.map_id urls).symm ▸ nodup
  have answer := (alike_saveAll simulates (urls.map newLink) owner store t held).1
  rw [minted.saveBatch checked nodup owner] at answer
  refine Prod.ext answer ?_
  have state : (saveAll (urls.map newLink) owner store).2 =
      ((LinkStore.saveBatch (urls.map newLink) owner : StoreM σ (List ShortCode)) store).2 := by
    rw [saveAll]
    split
    · next saved => split <;> rw [saved]
    · next saved => rw [saved]
  rw [state, BatchStore.saveBatch_state owner held distinct]

/-- A batch is answered with the codes of its URLs, and stores the links of the distinct ones. -/
theorem shortenBatch_eq {s : Service σ} (held : Holds s.store t) {requests : List BatchRequest}
    (checked : ∀ request ∈ requests, checkUrl request.url = .ok ()) (owner : Option OwnerId) :
    shortenBatch requests owner s =
      (.ok (requests.map fun request =>
        ⟨request.correlationId, (ShortCode.ofUrl request.url).toUrl s.settings.baseUrl⟩),
      { s with
        store := LinkStore.saveEach owner
          ((requests.map BatchRequest.url).eraseDups.map newLink) s.store }) := by
  generalize distinct : (requests.map BatchRequest.url).eraseDups = urls
  have mem : ∀ url, url ∈ urls ↔ url ∈ requests.map BatchRequest.url := by
    intro url
    rw [← distinct, List.mem_eraseDups]
  have checked' : ∀ url ∈ urls, checkUrl url = .ok () := by
    intro url hurl
    obtain ⟨request, hr, rfl⟩ := List.mem_map.mp ((mem url).mp hurl)
    exact checked request hr
  have nodup : urls.Nodup := distinct ▸ nodup_eraseDups _
  have among : ∀ request ∈ requests, request.url ∈ urls :=
    fun request hr => (mem _).mpr (List.mem_map_of_mem hr)
  have told := answers_eq s.settings.baseUrl among
  have looked := linksFor_eq minted held checked'
  have saved := saveAll_eq minted held checked' nodup owner
  simp only [shortenBatch, checkAll_eq_ok checked, distinct, ask, looked]
  cases urls with
  | nil =>
    have nothing : requests = [] := by
      rw [← List.map_eq_nil_iff (f := BatchRequest.url), List.eq_nil_iff_forall_not_mem]
      exact fun url hurl => absurd ((mem url).mpr hurl) List.not_mem_nil
    rw [nothing]
    rfl
  | cons url rest =>
    rw [List.map_cons] at saved
    simp only [List.map_cons, saved]
    exact Prod.ext (congrArg Except.ok told) rfl

end

/-! ## Single calls -/

theorem shorten_eq {σ : Type} [LinkStore σ] [TableStore σ] {t : LinkTable} (minted : Minted t)
    {s : Service σ} (held : Holds s.store t) {url : String} (checked : checkUrl url = .ok ())
    (owner : Option OwnerId) :
    shorten url owner s =
      (.ok ⟨(ShortCode.ofUrl url).toUrl s.settings.baseUrl, .ofUrl url, statusFor url t⟩,
      { s with store := LinkStore.saveEach owner [newLink url] s.store }) := by
  obtain ⟨answer, after, t', saved, table, -⟩ :=
    (simulates.save (newLink url) owner).split held
  have step : LinkStore.saveEach owner [newLink url] s.store = after := by
    rw [LinkStore.saveEach, List.foldl_cons, List.foldl_nil, saved]
  rw [step, statusFor]
  simp only [newLink] at saved
  by_cases known : url ∈ t.urls
  · simp only [LinkStore.save, StoreM.change, LinkTable.save, newLink,
      minted.codeOf?_of_known known] at table
    simp only [shorten, checked, saved, ← (Prod.mk.inj table).1, if_pos known]
  · simp only [LinkStore.save, StoreM.change, LinkTable.save, newLink,
      minted.codeOf?_of_new known] at table
    simp only [shorten, checked, saved, ← (Prod.mk.inj table).1, if_neg known]

end Service
end Shortlink
