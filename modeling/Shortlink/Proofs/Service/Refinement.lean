import Shortlink.Proofs.Service.Reflection
/-!
# A service implements the link map

Whatever happens, the table of a service keeps up with the map that its history tells of. While
deletions are pending the table lags behind by the chunks that are not done; a shutdown that answers
that the pipeline is drained makes up for them.
-/
namespace Shortlink

open Pipeline LinkRecord LinkTable

/-! ## Codes that callers name -/

private theorem ShortCode.ofUrl_mem_parsed {url : String} {codes : List String} :
    ofUrl url ∈ codes.filterMap (fun code => (parse code).toOption) ↔ (ofUrl url).text ∈ codes := by
  rw [List.mem_filterMap]
  constructor
  · rintro ⟨code, hcode, parsed⟩
    cases accepted : parse code with
    | error e => simp [accepted, Except.toOption] at parsed
    | ok other =>
      rw [accepted] at parsed
      obtain rfl : other = ofUrl url := Option.some.inj parsed
      rw [text_of_parse accepted]
      exact hcode
  · intro named
    exact ⟨_, named, by rw [parse_ofUrl]; rfl⟩

def DeleteRequest.ofCodes (owner : OwnerId) (codes : List String) : DeleteRequest :=
  ⟨owner, codes.filterMap fun code => (ShortCode.parse code).toOption⟩

private theorem KnownLink.record_strike (owner : OwnerId) (codes : List String) (link : KnownLink) :
    (link.strike owner codes).record = link.record.struck [.ofCodes owner codes] := by
  have named : (∃ w ∈ [DeleteRequest.ofCodes owner codes], w.Names link.record) ↔
      link.owner = some owner ∧ link.code.text ∈ codes := by
    simp [DeleteRequest.Names, DeleteRequest.ofCodes, code, ← ShortCode.ofUrl_mem_parsed]
  by_cases h : link.owner = some owner ∧ link.code.text ∈ codes
  · rw [strike, if_pos h, struck, if_pos (named.mpr h)]
    rfl
  · rw [strike, if_neg h, struck, if_neg fun n => h (named.mp n)]

private theorem LinkMap.records_strike (owner : OwnerId) (codes : List String) (m : LinkMap) :
    (m.strike owner codes).links.map KnownLink.record =
      (m.links.map KnownLink.record).map (struck [.ofCodes owner codes]) := by
  rw [strike, List.map_map, List.map_map]
  exact List.map_congr_left fun link _ => link.record_strike owner codes

private theorem exists_chunk_names_iff (c : PipelineConfig) (n : Nat)
    (requests : List DeleteRequest)
    (r : LinkRecord) : (∃ w ∈ (chunksFrom c n requests).map Chunk.work, w.Names r) ↔
      ∃ w ∈ requests, w.Names r := by
  constructor
  · rintro ⟨w, hw, names⟩
    obtain ⟨chunk, hchunk, rfl⟩ := List.mem_map.mp hw
    obtain ⟨i, request, found, -, part⟩ := mem_chunksFrom.mp hchunk
    have inside := List.mem_of_getElem? part
    refine ⟨request, List.mem_of_getElem? found, ?_, ?_⟩
    · rw [names.1, DeleteRequest.owner_of_mem_chunks inside]
    · exact (request.exists_mem_chunks_iff _ _).mp ⟨_, inside, names.2⟩
  · rintro ⟨request, hrequest, mine, named⟩
    obtain ⟨w, hw, code⟩ := (request.exists_mem_chunks_iff c.sizes.chunk r.code).mpr named
    obtain ⟨i, found⟩ := List.mem_iff_getElem?.mp hrequest
    obtain ⟨k, part⟩ := List.mem_iff_getElem?.mp hw
    refine ⟨w, List.mem_map.mpr ⟨⟨n + i, k, w⟩, ?_, rfl⟩, ?_, code⟩
    · exact mem_chunksFrom.mpr ⟨i, request, found, rfl, part⟩
    · rw [mine, DeleteRequest.owner_of_mem_chunks hw]

theorem exists_names_iff_of_perm {c : PipelineConfig} {chunks : List Chunk}
    {requests : List DeleteRequest} (perm : chunks.Perm (chunksFrom c 0 requests))
    (r : LinkRecord) :
    (∃ w ∈ chunks.map Chunk.work, w.Names r) ↔ ∃ w ∈ requests, w.Names r := by
  rw [← exists_chunk_names_iff c 0 requests]
  simp only [List.mem_map, perm.mem_iff]

namespace Service

/-! ## Deletions catch up -/

section
variable {s : Service LinkTable} {q : Course}

private theorem store_catchUp_of_same (same : q.pipeline.finished = s.deletion.pipeline.finished) :
    (s.catchUp q).store = s.store := by
  simp only [catchUp, same, List.drop_length]
  rfl

theorem store_catchUp (indexed : Indexed s.store) {new : List FinishedChunk}
    (whole : s.deletion.pipeline.finished ++ new = q.pipeline.finished) :
    (s.catchUp q).store = s.store.strike ((new.map FinishedChunk.chunk).map Chunk.work) ∧
      Indexed (s.catchUp q).store := by
  simp only [catchUp, ← whole, List.drop_left]
  exact deleteChunks_eq indexed (new.map FinishedChunk.chunk)

private theorem list_catchUp (indexed : Indexed s.store) (single : s.store.SingleCodes)
    {base : List LinkRecord}
    (list : s.store.list = base.map (struck (s.deletion.pipeline.recorded.map Chunk.work)))
    (grown : s.deletion.pipeline.finished <+: q.pipeline.finished) :
    (s.catchUp q).store.list = base.map (struck (q.pipeline.recorded.map Chunk.work)) ∧
      Indexed (s.catchUp q).store := by
  obtain ⟨new, whole⟩ := grown
  obtain ⟨later, kept⟩ := store_catchUp indexed whole
  refine ⟨?_, kept⟩
  rw [later, single.list_strike, list, ← map_struck_append, recorded, recorded, ← whole,
    List.map_append, List.map_append]

end

/-! ## Keeping up with the map -/

/-- How the table of a service keeps up with the map. -/
inductive Tracks (c : PipelineConfig) (s : Service LinkTable) (m : LinkMap) : Prop where
  | settled (status : m.deletions = .settled) (reflects : Reflects s.store m)
      (idle : Idle c s.deletion.pipeline)
  | pending (base : List LinkRecord) (requests : List DeleteRequest)
      (status : m.deletions = .pending) (indexed : Indexed s.store)
      (checked : ∀ url ∈ m.links.map KnownLink.url, checkUrl url = .ok ())
      (links : m.links.map KnownLink.record = base.map (struck requests))
      (list : s.store.list = base.map (struck (s.deletion.pipeline.recorded.map Chunk.work)))
      (working : Working c requests s.deletion.pipeline)
  | lost (status : m.deletions = .lost)

section
variable {c : PipelineConfig} {s : Service LinkTable} {m : LinkMap}

private theorem tracks_start (settings : ServiceSettings) :
    Tracks settings.pipeline (start {} settings) {} :=
  .settled rfl reflects_empty (idle_new _)

private theorem singleCodes_of_pending {base : List LinkRecord} {as bs : List DeleteRequest}
    (indexed : Indexed s.store) (links : m.links.map KnownLink.record = base.map (struck as))
    (list : s.store.list = base.map (struck bs)) (distinct : m.Distinct) :
    s.store.SingleCodes := by
  have keys {α : Type} {f : LinkRecord → α} (same : ∀ r, f { r with deleted := true } = f r) :
      s.store.list.map f = m.links.map (f ∘ KnownLink.record) := by
    rw [← List.map_map, links, list, map_struck same, map_struck same]
  exact singleCodes_of_distinct indexed (keys fun _ => rfl) (keys fun _ => rfl) distinct

theorem Tracks.elapse (h : Tracks s.settings.pipeline s m) (distinct : m.Distinct)
    (actions : List Action) : Tracks s.settings.pipeline (s.elapse actions) m := by
  have own : ∀ a ∈ actions.filter Action.isOwn, a.isOwn = true :=
    fun a ha => (List.mem_filter.mp ha).2
  have goes : Goes s.settings.pipeline s.deletion.pipeline
      (s.deletion.act s.settings.pipeline (actions.filter Action.isOwn)).pipeline :=
    ⟨_, rfl, fun a ha => Action.isSubmit_of_isOwn (own a ha)⟩
  cases h with
  | settled status reflects idle =>
    obtain ⟨idle', same⟩ := idle.goes goes
    refine .settled status ?_ idle'
    rw [Service.elapse, store_catchUp_of_same same]
    exact reflects
  | pending base requests status indexed checked links list working =>
    have single := singleCodes_of_pending indexed links list distinct
    obtain ⟨list', indexed'⟩ := list_catchUp indexed single list goes.finished
    exact .pending base requests status indexed' checked links list' (working.own own)
  | lost status => exact .lost status

theorem Tracks.shutdown (h : Tracks s.settings.pipeline s m) (distinct : m.Distinct) (grace : Nat) :
    Tracks s.settings.pipeline (s.shutdown grace).2 (m.finish (s.shutdown grace).1) ∧
      (m.finish (s.shutdown grace).1).deletions ≠ .pending := by
  have goes := Course.goes_shutdown (c := s.settings.pipeline) s.deletion grace
  have begun : Goes s.settings.pipeline s.deletion.pipeline
      (s.deletion.shutdown s.settings.pipeline grace).2.pipeline :=
    .trans ⟨[.shutDown grace], rfl, by simp [Action.isSubmit]⟩ goes
  cases h with
  | settled status reflects idle =>
    obtain ⟨idle', same⟩ := idle.goes begun
    have still : m.finish (s.shutdown grace).1 = m := by rw [LinkMap.finish, status]
    rw [still]
    refine ⟨.settled status ?_ idle', by simp [status]⟩
    rw [Service.shutdown, store_catchUp_of_same same]
    exact reflects
  | pending base requests status indexed checked links list working =>
    -- no shutdown has begun before, so it is the first call that answers here
    by_cases answer : (s.shutdown grace).1 = some .drained
    · have single := singleCodes_of_pending indexed links list distinct
      obtain ⟨list', indexed'⟩ := list_catchUp indexed single list begun.finished
      obtain ⟨idle, perm⟩ := working.drained goes answer
      have caught : m.finish (s.shutdown grace).1 = { m with deletions := .settled } := by
        simp [LinkMap.finish, status, answer]
      rw [caught]
      refine ⟨.settled rfl ⟨indexed', ?_, checked⟩ idle, by simp⟩
      have same : struck ((s.shutdown grace).2.deletion.pipeline.recorded.map Chunk.work) =
          struck requests := funext fun r => struck_congr (exists_names_iff_of_perm perm r)
      rw [links, ← same]
      exact list'
    · have given : (m.finish (s.shutdown grace).1).deletions = .lost := by
        simp [LinkMap.finish, status, answer]
      exact ⟨.lost given, by simp [given]⟩
  | lost status =>
    have still : m.finish (s.shutdown grace).1 = m := by rw [LinkMap.finish, status]
    rw [still]
    exact ⟨.lost status, by simp [status]⟩

theorem Tracks.restart (h : Tracks s.settings.pipeline s m) (distinct : m.Distinct) (grace : Nat) :
    Tracks s.settings.pipeline (s.restart grace).2 (m.finish (s.restart grace).1) := by
  obtain ⟨ended, decided⟩ := h.shutdown distinct grace
  cases ended with
  | settled status reflects idle => exact .settled status reflects (idle_new _)
  | pending base requests status indexed checked links list working => exact absurd status decided
  | lost status => exact .lost status

theorem Tracks.submit (h : Tracks c s m) (unasked : s.deletion.pipeline.drain = .idle)
    (owner : OwnerId) (codes : List String) {deletion : Course}
    (handed : deletion.pipeline = s.deletion.pipeline.act c (.submit (.ofCodes owner codes))) :
    Tracks c { s with deletion := deletion } (m.strike owner codes) := by
  have same : deletion.pipeline.recorded = s.deletion.pipeline.recorded := by
    simp [handed, act, unasked, recorded]
  cases h with
  | settled status reflects idle =>
    obtain ⟨working, nothing⟩ := idle.submit unasked (.ofCodes owner codes)
    refine .pending s.store.list [.ofCodes owner codes] (by simp [LinkMap.strike, status])
      reflects.indexed (by simpa using reflects.checked) ?_ ?_ (handed ▸ working)
    · rw [LinkMap.records_strike, reflects.list]
    · rw [same, nothing]
      exact (map_struck_nil s.store.list).symm
  | pending base requests status indexed checked links list working =>
    refine .pending base (requests ++ [.ofCodes owner codes]) (by simp [LinkMap.strike, status])
      indexed (by simpa using checked) ?_ (same ▸ list)
      (handed ▸ working.submit (.ofCodes owner codes))
    rw [LinkMap.records_strike, links, map_struck_append]
  | lost status => exact .lost (by simp [LinkMap.strike, status])

theorem Tracks.deleteUrls (h : Tracks s.settings.pipeline s m) (codes : List String)
    (owner : Option OwnerId) :
    Tracks s.settings.pipeline (Service.deleteUrls codes owner s).2
      (m.next (.deleteUrls codes owner) (.accepted (Service.deleteUrls codes owner s).1)) := by
  cases owner with
  | none => exact h
  | some owner =>
    rw [Service.deleteUrls, ← DeleteRequest.ofCodes]
    by_cases unasked : s.deletion.pipeline.drain = .idle
    · obtain ⟨deletion, accepted, handed⟩ :=
        s.deletion.submit_of_idle (c := s.settings.pipeline) unasked (.ofCodes owner codes)
      rw [accepted]
      exact h.submit unasked owner codes handed
    · rw [s.deletion.submit_of_not_idle unasked]
      exact h

omit m in
theorem ask_state {α : Type} (f : LinkTable → Except StoreError α) (s : Service LinkTable) :
    (ask (StoreM.ask f) s).2 = s := by
  simp only [ask, StoreM.ask]
  cases f s.store <;> rfl

theorem userUrls_state (owner : Option OwnerId) (s : Service LinkTable) :
    (Service.userUrls owner s).2 = s := by
  cases owner <;> rfl

private theorem Tracks.of_settled (h : Tracks c s m) (settled : m.deletions = .settled) :
    Reflects s.store m ∧ Idle c s.deletion.pipeline := by
  cases h with
  | settled status reflects idle => exact ⟨reflects, idle⟩
  | pending base requests status indexed checked links list working => simp [status] at settled
  | lost status => simp [status] at settled

theorem Tracks.shorten (h : Tracks c s m) (settled : m.deletions = .settled)
    (url : String) (owner : Option OwnerId) :
    Tracks c (Service.shorten url owner s).2
      (m.next (.shorten url owner) (.shortened (Service.shorten url owner s).1)) := by
  obtain ⟨reflects, idle⟩ := h.of_settled settled
  obtain ⟨answer, t, shortened, reflects⟩ := reflects.shorten url owner
  rw [shortened]
  exact .settled ((m.deletions_next _ rfl).trans settled) reflects idle

theorem Tracks.shortenBatch (h : Tracks c s m) (settled : m.deletions = .settled)
    (requests : List BatchRequest) (owner : Option OwnerId) :
    Tracks c (Service.shortenBatch requests owner s).2
      (m.next (.shortenBatch requests owner) (.batch (Service.shortenBatch requests owner s).1)) := by
  obtain ⟨reflects, idle⟩ := h.of_settled settled
  obtain ⟨answer, t, shortened, reflects⟩ := reflects.shortenBatch requests owner
  rw [shortened]
  exact .settled ((m.deletions_next _ rfl).trans settled) reflects idle

/-- Whatever happens, the table keeps up with the map. -/
theorem Tracks.perform (h : Tracks s.settings.pipeline s m) (distinct : m.Distinct)
    (event : ServiceEvent) (orderly : event.shortens = true → m.deletions = .settled) :
    Tracks s.settings.pipeline (event.perform s).2 (m.next event (event.perform s).1) := by
  cases event with
  | shorten url owner => exact h.shorten (orderly rfl) url owner
  | shortenBatch requests owner => exact h.shortenBatch (orderly rfl) requests owner
  | decode key =>
    have same : ((ServiceEvent.decode key).perform s).2 = s := ask_state _ s
    rw [same]
    exact h
  | userUrls owner =>
    have same : ((ServiceEvent.userUrls owner).perform s).2 = s := userUrls_state owner s
    rw [same]
    exact h
  | deleteUrls codes owner => exact h.deleteUrls codes owner
  | shutdown grace => exact (h.shutdown distinct grace).1
  | restart grace => exact h.restart distinct grace
  | elapse actions => exact h.elapse distinct actions

end

/-! ## Runs -/

/-- In every orderly run the table keeps up with the map. -/
theorem Tracks.after {settings : ServiceSettings} {s : Service LinkTable} {m : LinkMap}
    (h : Tracks settings.pipeline s m) (same : s.settings = settings) {events : List ServiceEvent}
    (orderly : m.Orderly (s.history events)) (distinct : (m.after (s.history events)).Distinct) :
    Tracks settings.pipeline (s.after events) (m.after (s.history events)) := by
  induction events generalizing s m with
  | nil => exact h
  | cons event rest ih =>
    subst same
    -- links only grow, so codes that are distinct at the end are distinct now
    have early := distinct.of_subset (m.urls_subset_after _)
    exact ih (h.perform early event orderly.1) (settings_perform s event) orderly.2 distinct

/-! ## Any store -/

section
variable {σ : Type} [LinkStore σ] {R : σ → LinkTable → Prop} (sim : Simulates R)
  {s : Service σ} {t : Service LinkTable}
include sim

theorem history_eq_of_mirrors (mirrors : Mirrors R s t) (events : List ServiceEvent) :
    s.history events = t.history events ∧ Mirrors R (s.after events) (t.after events) := by
  induction events generalizing s t with
  | nil => exact ⟨rfl, mirrors⟩
  | cons event rest ih =>
    obtain ⟨same, still⟩ := perform_alike sim mirrors event
    obtain ⟨later, last⟩ := ih still
    rw [history, history, same, later]
    exact ⟨rfl, last⟩

private theorem Implements.of_mirrors (mirrors : Mirrors R s t) {base : String} {m : LinkMap}
    (h : Implements base t m) : Implements base s m := by
  have decoded (key : String) : (decode key s).1 = (decode key t).1 :=
    (alike_ask (sim.get key) s t mirrors).1
  have listed (owner : Option OwnerId) : (userUrls owner s).1 = (userUrls owner t).1 :=
    (alike_userUrls sim owner s t mirrors).1
  exact {
    of_code := fun link hl => (decoded _).trans (h.of_code link hl)
    of_url := fun link hl => (decoded _).trans (h.of_url link hl)
    of_other := fun key other => (decoded key).trans (h.of_other key other)
    listed := fun owner => (listed _).trans (h.listed owner) }

end

/-- A store that is empty at first: in memory, or in a file that was missing or empty when it was
opened. -/
inductive EmptyStore : {σ : Type} → [LinkStore σ] → σ → Prop where
  | memory : EmptyStore ({} : LinkTable)
  | file {disk after : Disk} {path : String} {s : FileStore} (vacant : disk.Vacant path)
      (opened : FileStore.open disk path = (.ok s, after)) : EmptyStore s

theorem EmptyStore.simulates {σ : Type} [LinkStore σ] {store : σ} (h : EmptyStore store) :
    ∃ R : σ → LinkTable → Prop, Simulates R ∧ R store {} := by
  cases h with
  | memory => exact ⟨Eq, simulates_eq, rfl⟩
  | file vacant opened => exact ⟨_, FileStore.simulates, FileStore.mirrors_of_open vacant opened⟩

/-- A service over an empty store implements the link map of its history, whenever the deletions of
an orderly run are settled and links have distinct codes. Between the calls of the run the pipeline
may do any actions by itself. -/
theorem implements_link_map {σ : Type} [LinkStore σ] {store : σ} (empty : EmptyStore store)
    (settings : ServiceSettings) (events : List ServiceEvent)
    (orderly : LinkMap.Orderly {} ((start store settings).history events))
    (distinct : (LinkMap.after {} ((start store settings).history events)).Distinct)
    (settled : (LinkMap.after {} ((start store settings).history events)).deletions = .settled) :
    Implements settings.baseUrl ((start store settings).after events)
      (LinkMap.after {} ((start store settings).history events)) := by
  obtain ⟨R, sim, related⟩ := empty.simulates
  have mirrors : Mirrors R (start store settings) (start {} settings) := ⟨related, rfl, rfl⟩
  obtain ⟨same, still⟩ := history_eq_of_mirrors sim mirrors events
  rw [same] at orderly distinct settled ⊢
  have tracks := (tracks_start settings).after rfl orderly distinct
  have kept := settings_after (start ({} : LinkTable) settings) events
  have implements := (tracks.of_settled settled).1.implements distinct
  rw [kept] at implements
  exact implements.of_mirrors sim still

/-- A link is deleted and drained before another one is created. -/
def deletedLinkRun : List ServiceEvent :=
  [.shorten "http://a.b/" (some ⟨⟨List.replicate 32 ⟨0, by decide⟩, rfl⟩⟩),
    .deleteUrls ["pKXxiYMn"] (some ⟨⟨List.replicate 32 ⟨0, by decide⟩, rfl⟩⟩), .elapse [.enter 0 1],
    .restart 20000, .shortenBatch [⟨"1", "http://c.d/"⟩] none]

/-- The deleted link is gone, and the other one belongs to nobody. -/
theorem implements_link_map_of_deletedLinkRun :
    Implements "http://localhost:8080" ((start ({} : LinkTable) {}).after deletedLinkRun)
      ⟨[⟨"http://a.b/", some ⟨⟨List.replicate 32 ⟨0, by decide⟩, rfl⟩⟩, true⟩, ⟨"http://c.d/", none, false⟩],
        .settled⟩ := by
  have told : LinkMap.after {} ((start ({} : LinkTable) {}).history deletedLinkRun) =
      ⟨[⟨"http://a.b/", some ⟨⟨List.replicate 32 ⟨0, by decide⟩, rfl⟩⟩, true⟩, ⟨"http://c.d/", none, false⟩],
        .settled⟩ := by decide +kernel
  have orderly : LinkMap.Orderly {} ((start ({} : LinkTable) {}).history deletedLinkRun) := by
    decide +kernel
  rw [← told]
  refine implements_link_map .memory {} deletedLinkRun orderly ?_ ?_
  · decide +kernel
  · rw [told]

end Service
end Shortlink
