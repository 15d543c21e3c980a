import Shortlink.Deletion.Course
import Shortlink.Service.Answer
import Shortlink.Store
import Shortlink.Url
/-!
# The shortening service

Shortens, resolves and lists links over any store, and hands deletions to a pipeline of its own.
Codes are derived from URLs, so one URL has one code whoever asks; a store that knows the URL under
another code has the last word.
-/
namespace Shortlink

structure ServiceSettings where
  /-- What short URLs start with; slashes at its end do not count. -/
  baseUrl : String := "http://localhost:8080"
  sizes : PipelineSizes := {}

/-- The pipeline of a service: its store deletes chunks without delay. -/
def ServiceSettings.pipeline (settings : ServiceSettings) : PipelineConfig :=
  ⟨settings.sizes, fun _ => 0⟩

structure Service (σ : Type) where
  store : σ
  settings : ServiceSettings
  deletion : Course

/-- A step of the service: an answer or an error, and the service afterwards. -/
abbrev ServiceM (σ : Type) := ExceptT ServiceError (StateM (Service σ))

namespace Service

def start {σ : Type} (store : σ) (settings : ServiceSettings) : Service σ :=
  ⟨store, settings, .start settings.pipeline⟩

def checkUrl (url : String) : Except ServiceError Unit :=
  match Url.parse url with
  | .error fault => .error (.invalidUrl s!"{url}: {fault.message}")
  | .ok parsed =>
    if parsed.scheme ≠ "http".toList ∧ parsed.scheme ≠ "https".toList then
      .error (.invalidUrl s!"URL scheme must be http or https: {String.ofList parsed.scheme}")
    else if parsed.authority.host.isNone then .error (.invalidUrl s!"URL must have a host: {url}")
    else .ok ()

def checkAll : List BatchRequest → Except ServiceError Unit
  | [] => .ok ()
  | request :: rest =>
    match checkUrl request.url with
    | .ok () => checkAll rest
    | .error e => .error e

variable {σ : Type} [LinkStore σ]

def ask {α : Type} (m : StoreM σ α) : ServiceM σ α := fun s =>
  match m s.store with
  | (.ok a, store) => (.ok a, { s with store := store })
  | (.error e, store) => (.error (.ofStore e), { s with store := store })

/-- Shorten a URL. A URL that is stored already keeps its code. -/
def shorten (url : String) (owner : Option OwnerId) : ServiceM σ Shortened := fun s =>
  match checkUrl url with
  | .error e => (.error e, s)
  | .ok () =>
    let answer (code : ShortCode) (status : ShortenStatus) : Shortened :=
      ⟨code.toUrl s.settings.baseUrl, code, status⟩
    match (LinkStore.save ⟨.ofUrl url, url⟩ owner : StoreM σ ShortCode) s.store with
    | (.ok code, store) => (.ok (answer code .created), { s with store := store })
    | (.error (.conflict code), store) =>
      (.ok (answer ⟨code⟩ .conflict), { s with store := store })
    | (.error e, store) => (.error (.ofStore e), { s with store := store })

def decode (key : String) : ServiceM σ (Option String) := ask (LinkStore.get key)

/-- The code to store a URL under: the one it has, if any. A deleted link still owns its URL, and
then the store keeps its code. -/
def codeFor (url : String) : StoreM σ ShortCode := fun store =>
  match (LinkStore.get url : StoreM σ (Option String)) store with
  | (.ok (some code), store) => (.ok ⟨code⟩, store)
  | (.ok none, store) => (.ok (.ofUrl url), store)
  | (.error (.alreadyDeleted _), store) => (.ok (.ofUrl url), store)
  | (.error e, store) => (.error e, store)

def linksFor : List String → StoreM σ (List NewLink)
  | [] => fun store => (.ok [], store)
  | url :: rest => fun store =>
    match codeFor url store with
    | (.error e, store) => (.error e, store)
    | (.ok code, store) =>
      match linksFor rest store with
      | (.error e, store) => (.error e, store)
      | (.ok links, store) => (.ok (⟨code, url⟩ :: links), store)

def saveAll (links : List NewLink) (owner : Option OwnerId) : StoreM σ (List ShortCode) :=
  fun store =>
    match (LinkStore.saveBatch links owner : StoreM σ (List ShortCode)) store with
    | (.ok codes, store) =>
      if codes.length = links.length then (.ok codes, store)
      else (.error (.batchMismatch links.length codes.length), store)
    | (.error e, store) => (.error e, store)

def answers (base : String) (codes : List (String × ShortCode)) (requests : List BatchRequest) :
    List BatchResponse :=
  requests.filterMap fun request =>
    (codes.lookup request.url).map fun code => ⟨request.correlationId, code.toUrl base⟩

/-- Shorten many URLs at once, all of them or none. Each URL is stored once, however often it is
asked for. -/
def shortenBatch (requests : List BatchRequest) (owner : Option OwnerId) :
    ServiceM σ (List BatchResponse) := fun s =>
  match checkAll requests with
  | .error e => (.error e, s)
  | .ok () =>
    let urls := (requests.map BatchRequest.url).eraseDups
    match ask (linksFor urls) s with
    | (.error e, s) => (.error e, s)
    | (.ok [], s) => (.ok [], s)
    | (.ok links, s) =>
      match ask (saveAll links owner) s with
      | (.error e, s) => (.error e, s)
      | (.ok codes, s) => (.ok (answers s.settings.baseUrl (urls.zip codes) requests), s)

def userUrls (owner : Option OwnerId) : ServiceM σ (List UserUrl) := fun s =>
  match owner with
  | none => (.error .unauthorized, s)
  | some owner =>
    match ask (LinkStore.ownedBy owner) s with
    | (.error e, s) => (.error e, s)
    | (.ok records, s) =>
      (.ok ((records.filter fun r => !r.deleted).map fun r =>
        ⟨r.code.toUrl s.settings.baseUrl, r.url⟩), s)

/-- Ask for the deletion of some of the caller's links. Texts that are no codes are passed over;
the links are deleted later. -/
def deleteUrls (codes : List String) (owner : Option OwnerId) : ServiceM σ Unit := fun s =>
  match owner with
  | none => (.error .unauthorized, s)
  | some owner =>
    let codes := codes.filterMap fun code => (ShortCode.parse code).toOption
    match s.deletion.submit s.settings.pipeline ⟨owner, codes⟩ with
    | .error e => (.error e, s)
    | .ok deletion => (.ok (), { s with deletion := deletion })

def ping : ServiceM σ Unit := ask LinkStore.ping

def stats : ServiceM σ StoreStats := ask LinkStore.stats

/-- Delete chunks one after another. An error costs the chunk only. -/
def deleteChunks (store : σ) (chunks : List Chunk) : σ :=
  chunks.foldl (fun store chunk =>
    ((LinkStore.deleteBatch chunk.work.owner chunk.work.codes : StoreM σ Nat) store).2) store

/-- The pipeline has gone on: the store deletes the chunks that have been done since. -/
def catchUp (s : Service σ) (deletion : Course) : Service σ :=
  let before := s.deletion.pipeline.finished.length
  let done := (deletion.pipeline.finished.drop before).map FinishedChunk.chunk
  { s with deletion := deletion, store := deleteChunks s.store done }

/-- Accept no more deletions, and let those that are left be done within so many milliseconds. -/
def shutdown (s : Service σ) (grace : Nat) : Option DrainOutcome × Service σ :=
  let (outcome, deletion) := s.deletion.shutdown s.settings.pipeline grace
  (outcome, s.catchUp deletion)

/-- Shut the service down, and start a new one over the same store. -/
def restart (s : Service σ) (grace : Nat) : Option DrainOutcome × Service σ :=
  let (outcome, s) := s.shutdown grace
  (outcome, start s.store s.settings)

end Service
end Shortlink
