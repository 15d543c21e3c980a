import Shortlink.Proofs.Service.Uniqueness
import Shortlink.Proofs.Store.Torn
/-!
# A batch is its requests one after another

Shortening many URLs at once comes to the same as shortening them one by one: every request has the
short URL that its own call gives, and the service is left in the same state.
-/
namespace Shortlink
open LinkTable TableStore

namespace Service

def shortenEach {σ : Type} [LinkStore σ] (owner : Option OwnerId) :
    List String → Service σ → List (Except ServiceError Shortened) × Service σ
  | [], s => ([], s)
  | url :: rest, s =>
    let (answer, s) := shorten url owner s
    let (answers, s) := shortenEach owner rest s
    (answer :: answers, s)

section
variable {σ : Type} [LinkStore σ] {t : LinkTable} (minted : Minted t)
include minted

private theorem holds_save [TableStore σ] {store : σ} (held : Holds store t) {url : String}
    (checked : checkUrl url = .ok ()) (owner : Option OwnerId) :
    ∃ t', Holds (LinkStore.saveEach owner [newLink url] store) t' ∧ Minted t' ∧
      ∀ u, u ∈ t'.urls ↔ u ∈ t.urls ∨ u = url := by
  obtain ⟨minted', urls⟩ := minted.save checked owner
  exact ⟨_, (simulates.save (newLink url) owner store t held).2, minted', urls⟩

private theorem shortenEach_eq [TableStore σ] {s : Service σ} (held : Holds s.store t)
    {urls : List String}
    (checked : ∀ url ∈ urls, checkUrl url = .ok ()) (owner : Option OwnerId) :
    ∃ answers : List Shortened,
      answers.map Shortened.url =
        urls.map (fun url => (ShortCode.ofUrl url).toUrl s.settings.baseUrl) ∧
      shortenEach owner urls s =
        (answers.map .ok, { s with store := LinkStore.saveEach owner (urls.map newLink) s.store }) := by
  induction urls generalizing s t with
  | nil => exact ⟨[], rfl, rfl⟩
  | cons url rest ih =>
    rw [List.forall_mem_cons] at checked
    have first := shorten_eq minted held checked.1 owner
    obtain ⟨t', held', minted', -⟩ := holds_save minted held checked.1 owner
    obtain ⟨answers, urls, others⟩ := ih minted'
      (s := { s with store := LinkStore.saveEach owner [newLink url] s.store }) held' checked.2
    refine ⟨⟨(ShortCode.ofUrl url).toUrl s.settings.baseUrl, .ofUrl url, statusFor url t⟩ :: answers,
      ?_, ?_⟩
    · rw [List.map_cons, List.map_cons, urls]
    · rw [shortenEach, first]
      simp only [others]
      rfl

private theorem saveEach_eraseDups [BatchStore σ] {store : σ} (held : Holds store t)
    {urls : List String}
    (checked : ∀ url ∈ urls, checkUrl url = .ok ()) (owner : Option OwnerId) :
    LinkStore.saveEach owner (urls.eraseDups.map newLink) store =
      LinkStore.saveEach owner (urls.map newLink) store := by
  rw [LinkStore.saveEach, LinkStore.saveEach, List.foldl_map, List.foldl_map]
  refine foldl_eraseDups (fun url => checkUrl url = .ok ())
    (fun store done => ∃ t, Holds store t ∧ Minted t ∧ ∀ url ∈ done, url ∈ t.urls) ?_ ?_ ?_ [] ?_
  · rintro store done url ⟨t, held, minted, known⟩ again
    apply BatchStore.save_known owner held
    rw [newLink, minted.codeOf?_of_known (known url again)]
    rfl
  · rintro store done url ⟨t, held, minted, known⟩ checked
    obtain ⟨t', held', minted', urls⟩ := holds_save minted held checked owner
    refine ⟨t', held', minted', ?_⟩
    intro other hother
    rcases List.mem_cons.mp hother with rfl | old
    · exact (urls other).mpr (.inr rfl)
    · exact (urls other).mpr (.inl (known other old))
  · exact checked
  · exact ⟨t, held, minted, List.forall_mem_nil _⟩

end

/-- Over a store that holds a table with the codes of its URLs, a batch is its requests one after
another. -/
theorem shortenBatch_eq_shortenEach {σ : Type} [LinkStore σ] [BatchStore σ] {s : Service σ}
    {t : LinkTable} (held : Holds s.store t) (minted : Minted t) (owner : Option OwnerId)
    {requests : List BatchRequest}
    (checked : ∀ request ∈ requests, checkUrl request.url = .ok ()) :
    ∃ answers : List Shortened, ∃ after,
      answers.length = requests.length ∧
      shortenEach owner (requests.map BatchRequest.url) s = (answers.map .ok, after) ∧
      shortenBatch requests owner s = (.ok (List.zipWith (fun request answer =>
        ⟨request.correlationId, answer.url⟩) requests answers), after) := by
  have checked' : ∀ url ∈ requests.map BatchRequest.url, checkUrl url = .ok () := by
    intro url hurl
    obtain ⟨request, hr, rfl⟩ := List.mem_map.mp hurl
    exact checked request hr
  obtain ⟨answers, urls, each⟩ := shortenEach_eq minted held checked' owner
  refine ⟨answers, _, ?_, each, ?_⟩
  · simpa using congrArg List.length urls
  · rw [shortenBatch_eq minted held checked owner, saveEach_eraseDups minted held checked' owner]
    have zipped : (requests.map fun request => (⟨request.correlationId,
        (ShortCode.ofUrl request.url).toUrl s.settings.baseUrl⟩ : BatchResponse)) =
        List.zipWith (fun request answer => ⟨request.correlationId, answer.url⟩) requests answers := by
      have paired : List.zipWith (fun (request : BatchRequest) (answer : Shortened) =>
            (⟨request.correlationId, answer.url⟩ : BatchResponse)) requests answers =
          List.zipWith (fun request short => ⟨request.correlationId, short⟩) requests
            (answers.map Shortened.url) := by
        rw [List.zipWith_map_right]
      rw [paired, urls, List.map_map, List.zipWith_map_right, List.zipWith_self]
      rfl
    rw [zipped]

private theorem exists_minted_after {σ : Type} [LinkStore σ] [TableStore σ] {store : σ}
    (empty : Holds store {}) (settings : ServiceSettings) (events : List ServiceEvent) :
    ∃ t, Holds ((start store settings).after events).store t ∧ Minted t := by
  have mirrors : Mirrors Holds (start store settings) (start {} settings) := ⟨empty, rfl, rfl⟩
  obtain ⟨-, still⟩ := history_eq_of_mirrors simulates mirrors events
  have started : Minted (start ({} : LinkTable) settings).store := minted_empty
  have known : ∀ url, url ∈ (start ({} : LinkTable) settings).store.urls ↔ url ∈ ([] : List String) :=
    fun _ => Iff.rfl
  exact ⟨_, still.store, (started.after known events).1⟩

/-- In whatever state a run over an empty store has left a service: a batch of URLs that the service
takes is answered request by request, each with the short URL that shortening the URLs one after another
gives, and the service is left in the very state that those calls leave. For a store in a file this
includes every byte on the disk. -/
theorem batch_is_single_calls {σ : Type} [LinkStore σ] {store : σ} (empty : EmptyStore store)
    (settings : ServiceSettings) (events : List ServiceEvent) (owner : Option OwnerId)
    (requests : List BatchRequest)
    (checked : ∀ request ∈ requests, checkUrl request.url = .ok ()) :
    let s := (start store settings).after events
    ∃ answers : List Shortened, ∃ after,
      answers.length = requests.length ∧
      shortenEach owner (requests.map BatchRequest.url) s = (answers.map .ok, after) ∧
      shortenBatch requests owner s = (.ok (List.zipWith (fun request answer =>
        ⟨request.correlationId, answer.url⟩) requests answers), after) := by
  intro s
  cases empty with
  | memory =>
    obtain ⟨t, held, minted⟩ := exists_minted_after holds_empty settings events
    exact shortenBatch_eq_shortenEach held minted owner checked
  | file vacant opened =>
    obtain ⟨t, held, minted⟩ := exists_minted_after (holds_of_open vacant opened) settings events
    exact shortenBatch_eq_shortenEach held minted owner checked

/-- The second request repeats the first one, and the third one is for a link that has been deleted. -/
def repeatedRequests : List BatchRequest :=
  [⟨"1", "http://e.f/"⟩, ⟨"2", "http://e.f/"⟩, ⟨"3", "http://a.b/"⟩]

theorem batch_is_single_calls_of_repeatedRequests :
    let s := (start (FileStore.ofContent .empty) {}).after reshortenedRun
    (shortenBatch repeatedRequests none s).2.store.disk.read "urls.json" =
        (shortenEach none (repeatedRequests.map BatchRequest.url) s).2.store.disk.read "urls.json" ∧
      ∃ responses, (shortenBatch repeatedRequests none s).1 = .ok responses ∧
        responses.map BatchResponse.correlationId = ["1", "2", "3"] := by
  intro s
  have vacant : ({} : Disk).Vacant "urls.json" := by
    intro p parsed
    have steps : DiskPath.parse "urls.json" = .ok ⟨[.name "urls.json"], false⟩ := rfl
    obtain rfl := Except.ok.inj (steps.symm.trans parsed)
    exact .inl rfl
  have opened : FileStore.open {} "urls.json" =
      (.ok (FileStore.ofContent .empty), (FileStore.ofContent .empty).disk) := rfl
  have checked : ∀ request ∈ repeatedRequests, checkUrl request.url = .ok () := by decide +kernel
  obtain ⟨answers, after, length, each, batch⟩ :=
    batch_is_single_calls (.file vacant opened) {} reshortenedRun none repeatedRequests checked
  rw [batch, each]
  refine ⟨rfl, _, rfl, ?_⟩
  match answers, length with
  | [a, b, c], _ => rfl

end Service
end Shortlink
