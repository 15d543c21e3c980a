import Shortlink.Proofs.Service.Uniqueness
import Shortlink.Proofs.Store.Provenance
/-!
# Codes and URLs are apart

Every link that a service stores has the code of its URL, and its URL is one that the service takes,
also where the service stores a code that its store has told it. So callers can name each code that is
stored, and no key is both a code and a URL.
-/
namespace Shortlink
open LinkTable

structure NewLink.Derived (link : NewLink) : Prop where
  code : link.code = .ofUrl link.url
  checked : Service.checkUrl link.url = .ok ()

/-- Codes that callers can name, none of which is a URL. -/
structure Separate (links : List NewLink) : Prop where
  accepted : ∀ link ∈ links, ShortCode.parse link.code.text = .ok link.code
  apart : Apart links

private theorem separate_of_derived {links : List NewLink} (h : ∀ link ∈ links, link.Derived) :
    Separate links where
  accepted link there := by
    rw [(h link there).code]
    exact ShortCode.parse_ofUrl link.url
  apart a ha b hb := by
    rw [(h a ha).code]
    exact Service.ne_code_of_checkUrl (h b hb).checked a.url

namespace Service
variable {σ : Type} [LinkStore σ] {I : σ → Prop}

section
variable (confines : Confines NewLink.Derived I)
include confines

/-! ## Looking up codes -/

private theorem codeFor_of_confines {url : String} (checked : checkUrl url = .ok ()) {store : σ}
    (held : I store) : I (codeFor url store).2 ∧
      ∀ code, (codeFor url store).1 = .ok code → code = .ofUrl url := by
  have still := confines.get url store held
  have found {half : String} := @confines.found store url half held
  rw [codeFor]
  rcases answer : (LinkStore.get url : StoreM σ (Option String)) store with ⟨(e | (_ | half)), after⟩
  · rw [answer] at still
    cases e with
    | alreadyDeleted _ => exact ⟨still, fun code same => (Except.ok.inj same).symm⟩
    | _ => exact ⟨still, by simp⟩
  · rw [answer] at still
    exact ⟨still, fun code same => (Except.ok.inj same).symm⟩
  · rw [answer] at still
    obtain ⟨link, derived, leads⟩ := found (congrArg Prod.fst answer)
    refine ⟨still, fun code same => ?_⟩
    rw [← Except.ok.inj same]
    rcases leads with ⟨code, -⟩ | ⟨rfl, rfl⟩
    · rw [derived.code] at code
      exact absurd code (ne_code_of_checkUrl checked link.url)
    · rw [derived.code]

private theorem linksFor_of_confines {urls : List String}
    (checked : ∀ url ∈ urls, checkUrl url = .ok ())
    {store : σ} (held : I store) : I (linksFor urls store).2 ∧
      ∀ links, (linksFor urls store).1 = .ok links → ∀ link ∈ links, link.Derived := by
  induction urls generalizing store with
  | nil =>
    refine ⟨held, fun links same => ?_⟩
    rw [← Except.ok.inj same]
    exact List.forall_mem_nil _
  | cons url rest ih =>
    rw [List.forall_mem_cons] at checked
    obtain ⟨once, own⟩ := codeFor_of_confines confines checked.1 held
    rcases first : codeFor url store with ⟨e | code, store'⟩
    · simp only [linksFor, first]
      rw [first] at once
      exact ⟨once, by simp⟩
    · rw [first] at once own
      obtain ⟨twice, others⟩ := ih checked.2 once
      rcases later : linksFor rest store' with ⟨e | links, store''⟩
      · simp only [linksFor, first, later]
        rw [later] at twice
        exact ⟨twice, by simp⟩
      · simp only [linksFor, first, later]
        rw [later] at twice others
        refine ⟨twice, fun all same => ?_⟩
        rw [← Except.ok.inj same, List.forall_mem_cons]
        exact ⟨⟨own code rfl, checked.1⟩, others links rfl⟩

/-! ## Calls -/

omit [LinkStore σ] confines in
private theorem keeps_ask {α : Type} {m : StoreM σ α} (h : Keeps I m) :
    Keeps (fun s : Service σ => I s.store) (ask m) := by
  intro s held
  have still := h s.store held
  rw [ask]
  rcases answer : m s.store with ⟨_ | _, after⟩ <;> rwa [answer] at still

private theorem keeps_saveAll {links : List NewLink} (derived : ∀ link ∈ links, link.Derived)
    (owner : Option OwnerId) : Keeps I (saveAll links owner : StoreM σ (List ShortCode)) := by
  intro store held
  have still := confines.saveBatch owner derived store held
  rw [saveAll]
  rcases answer : (LinkStore.saveBatch links owner : StoreM σ (List ShortCode)) store with
    ⟨_ | codes, after⟩
  · rwa [answer] at still
  · rw [answer] at still
    simp only
    split <;> exact still

private theorem keeps_shorten (url : String) (owner : Option OwnerId) :
    Keeps (fun s : Service σ => I s.store) (shorten url owner) := by
  intro s held
  rw [shorten]
  cases checked : checkUrl url with
  | error e => exact held
  | ok =>
    have derived : (newLink url).Derived := ⟨rfl, checked⟩
    have still := confines.save owner derived s.store held
    rw [newLink] at still
    rcases answer : (LinkStore.save ⟨.ofUrl url, url⟩ owner : StoreM σ ShortCode) s.store with
      ⟨e | code, after⟩
    · rw [answer] at still
      cases e <;> exact still
    · rwa [answer] at still

private theorem keeps_shortenBatch (requests : List BatchRequest) (owner : Option OwnerId) :
    Keeps (fun s : Service σ => I s.store) (shortenBatch requests owner) := by
  intro s held
  rw [shortenBatch]
  cases all : checkAll requests with
  | error e => exact held
  | ok =>
    have checked : ∀ url ∈ (requests.map BatchRequest.url).eraseDups, checkUrl url = .ok () :=
      fun url there => checkUrl_of_checkAll all url (List.mem_eraseDups.mp there)
    obtain ⟨once, derived⟩ := linksFor_of_confines confines checked held
    rcases looked : linksFor (requests.map BatchRequest.url).eraseDups s.store with ⟨e | links, store⟩
    · simp only [ask, looked]
      rwa [looked] at once
    · rw [looked] at once derived
      cases links with
      | nil =>
        simp only [ask, looked]
        exact once
      | cons link links =>
        have twice := keeps_saveAll confines (derived _ rfl) owner store once
        rcases saved : saveAll (link :: links) owner store with ⟨e | codes, after⟩ <;>
        · simp only [ask, looked, saved]
          rwa [saved] at twice

private theorem keeps_userUrls (owner : Option OwnerId) :
    Keeps (fun s : Service σ => I s.store) (userUrls owner) := by
  intro s held
  cases owner with
  | none => exact held
  | some owner =>
    have still := keeps_ask (confines.ownedBy owner) s held
    rw [userUrls]
    rcases answer : ask (LinkStore.ownedBy owner) s with ⟨e | records, after⟩ <;> rwa [answer] at still

omit [LinkStore σ] confines in
private theorem keeps_deleteUrls (codes : List String) (owner : Option OwnerId) :
    Keeps (fun s : Service σ => I s.store) (deleteUrls codes owner) := by
  intro s held
  cases owner with
  | none => exact held
  | some owner =>
    simp only [deleteUrls]
    split <;> exact held

private theorem holds_catchUp {s : Service σ} (held : I s.store) (deletion : Course) :
    I (s.catchUp deletion).store := by
  rw [catchUp]
  generalize (deletion.pipeline.finished.drop _).map FinishedChunk.chunk = chunks
  show I (deleteChunks s.store chunks)
  generalize s.store = store at held
  induction chunks generalizing store with
  | nil => exact held
  | cons chunk rest ih =>
    exact ih _ (confines.deleteBatch chunk.work.owner chunk.work.codes store held)

private theorem keeps_event (event : ServiceEvent) {s : Service σ} (held : I s.store) :
    I (event.perform s).2.store := by
  cases event with
  | shorten url owner => exact keeps_shorten confines url owner s held
  | shortenBatch requests owner => exact keeps_shortenBatch confines requests owner s held
  | decode key => exact keeps_ask (confines.get key) s held
  | userUrls owner => exact keeps_userUrls confines owner s held
  | deleteUrls codes owner => exact keeps_deleteUrls codes owner s held
  | shutdown grace => exact holds_catchUp confines held _
  | restart grace => exact holds_catchUp confines held _
  | elapse actions => exact holds_catchUp confines held _

/-- What holds of a store that has only links as a service makes them holds after every run. -/
theorem holds_after {s : Service σ} (held : I s.store) (events : List ServiceEvent) :
    I (s.after events).store := by
  induction events generalizing s with
  | nil => exact held
  | cons event rest ih => exact ih (keeps_event confines event held)

end

/-- Whatever a digest is, its code is one that callers can name, and no URL that the service takes is
such a code. So in every run over an empty store, be it a table, a file, or a database that may fail at
any time, callers can name the codes of all links, and none of these codes is a URL of a link. -/
theorem codes_and_urls_are_apart :
    (∀ digest : List UInt8, 6 ≤ digest.length →
      ∃ code, ShortCode.parse (String.ofList ((Base64Url.encode digest).take ShortCode.size)) =
        .ok code) ∧
    (∀ url, ShortCode.parse (ShortCode.ofUrl url).text = .ok (.ofUrl url)) ∧
    (∀ url code, checkUrl url = .ok () → ShortCode.parse url ≠ .ok code) ∧
    (∀ {σ : Type} [LinkStore σ] [TableStore σ] {store : σ}, TableStore.Holds store {} →
      ∀ (settings : ServiceSettings) (events : List ServiceEvent),
        ∃ t, TableStore.Holds ((start store settings).after events).store t ∧ Separate t.links) ∧
    ∀ {δ : Type} [Sql.Database δ] {Holds : δ → Sql.TableDatabase → Prop}, Sql.Honest Holds →
      ∀ {db : δ}, Holds db {} → ∀ (settings : ServiceSettings) (events : List ServiceEvent),
        ∃ t, Holds ((start (⟨db⟩ : PostgresStore δ) settings).after events).store.database t ∧
          Separate (t.rows.map Sql.LinkRow.link) := by
  refine ⟨fun digest long => ⟨_, ShortCode.parse_take_encode long⟩, ShortCode.parse_ofUrl,
    fun url code checked => parse_ne_ok_of_checkUrl checked code, ?_, ?_⟩
  · intro σ _ _ store empty settings events
    have held : TableStore.Only NewLink.Derived (start store settings).store :=
      ⟨{}, empty, List.forall_mem_nil _⟩
    obtain ⟨t, holds, derived⟩ := holds_after TableStore.confines held events
    exact ⟨t, holds, separate_of_derived derived⟩
  · intro δ _ Holds honest db empty settings events
    have held : PostgresStore.Only Holds NewLink.Derived
        (start (⟨db⟩ : PostgresStore δ) settings).store :=
      ⟨{}, empty, List.forall_mem_nil _, nofun⟩
    obtain ⟨t, holds, only⟩ := holds_after (PostgresStore.confines honest) held events
    exact ⟨t, holds, separate_of_derived (List.forall_mem_map.mpr only.rows)⟩

/-- Links that are deleted and shortened again, in a table and in a database. -/
theorem codes_and_urls_are_apart_of_reshortenedRun :
    Separate ((start ({} : LinkTable) {}).after reshortenedRun).store.links ∧
      ((start ({} : LinkTable) {}).after reshortenedRun).store.links.length = 2 ∧
      Separate (((start (⟨{}⟩ : PostgresStore Sql.TableDatabase) {}).after
        reshortenedRun).store.database.rows.map Sql.LinkRow.link) := by
  obtain ⟨-, -, -, tables, databases⟩ := codes_and_urls_are_apart
  obtain ⟨t, ⟨same, -⟩, separate⟩ := tables TableStore.holds_empty {} reshortenedRun
  obtain ⟨u, same', separate'⟩ := databases Sql.TableDatabase.honest rfl {} reshortenedRun
  rw [same, same']
  refine ⟨separate, ?_, separate'⟩
  rw [← same]
  decide +kernel

end Service
end Shortlink
