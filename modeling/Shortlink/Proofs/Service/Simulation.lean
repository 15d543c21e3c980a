import Shortlink.Proofs.Deletion.Drain
import Shortlink.Proofs.Store.Simulation
/-!
# Services over related stores

A service uses its store only through link operations. Services over stores that do the same give
the same answers to the same calls.
-/
namespace Shortlink

inductive ServiceEvent where
  | shorten (url : String) (owner : Option OwnerId)
  | shortenBatch (requests : List BatchRequest) (owner : Option OwnerId)
  | decode (key : String)
  | userUrls (owner : Option OwnerId)
  | deleteUrls (codes : List String) (owner : Option OwnerId)
  | shutdown (grace : Nat)
  | restart (grace : Nat)
  /-- Between calls the pipeline does some actions by itself. -/
  | elapse (actions : List Pipeline.Action)

inductive ServiceAnswer where
  | shortened (answer : Except ServiceError Shortened)
  | batch (answer : Except ServiceError (List BatchResponse))
  | half (answer : Except ServiceError (Option String))
  | urls (answer : Except ServiceError (List UserUrl))
  | accepted (answer : Except ServiceError Unit)
  | ended (outcome : Option DrainOutcome)
  /-- Something has happened that is no call. -/
  | elapsed

/-- The pipeline goes on while nobody calls. Actions that are calls are passed over. -/
def Service.elapse {σ : Type} [LinkStore σ] (s : Service σ) (actions : List Pipeline.Action) :
    Service σ :=
  s.catchUp (s.deletion.act s.settings.pipeline (actions.filter Pipeline.Action.isOwn))

def ServiceEvent.perform {σ : Type} [LinkStore σ] (s : Service σ) :
    ServiceEvent → ServiceAnswer × Service σ
  | shorten url owner => (Service.shorten url owner s).map .shortened id
  | shortenBatch requests owner => (Service.shortenBatch requests owner s).map .batch id
  | decode key => (Service.decode key s).map .half id
  | userUrls owner => (Service.userUrls owner s).map .urls id
  | deleteUrls codes owner => (Service.deleteUrls codes owner s).map .accepted id
  | shutdown grace => (s.shutdown grace).map .ended id
  | restart grace => (s.restart grace).map .ended id
  | elapse actions => (.elapsed, s.elapse actions)

namespace StoreM

theorem Alike.split {σ τ α : Type} {R : σ → τ → Prop} {m : StoreM σ α} {n : StoreM τ α}
    (h : Alike R m n) {s : σ} {t : τ} (related : R s t) :
    ∃ a s' t', m s = (a, s') ∧ n t = (a, t') ∧ R s' t' := by
  obtain ⟨same, still⟩ := h s t related
  exact ⟨(m s).1, (m s).2, (n t).2, rfl, Prod.ext same.symm rfl, still⟩

end StoreM

namespace Service
variable {σ τ : Type} {R : σ → τ → Prop}

/-- Two services differ at most in their stores, which are related. -/
structure Mirrors (R : σ → τ → Prop) (s : Service σ) (t : Service τ) : Prop where
  store : R s.store t.store
  settings : s.settings = t.settings
  deletion : s.deletion = t.deletion

/-- Two services answer alike and stay related. -/
def Alike {α : Type} (R : σ → τ → Prop) (m : ServiceM σ α) (n : ServiceM τ α) : Prop :=
  ∀ s t, Mirrors R s t → (m s).1 = (n t).1 ∧ Mirrors R (m s).2 (n t).2

variable [LinkStore σ] [LinkStore τ] (sim : Simulates R)
include sim

omit [LinkStore σ] [LinkStore τ] sim in
theorem alike_ask {α : Type} {m : StoreM σ α} {n : StoreM τ α} (h : StoreM.Alike R m n) :
    Alike R (ask m) (ask n) := by
  rintro ⟨s, settings, deletion⟩ ⟨t, _, _⟩ ⟨related, rfl, rfl⟩
  obtain ⟨a, s', t', hs, ht, still⟩ := h.split related
  simp only [ask, hs, ht]
  cases a <;> exact ⟨rfl, still, rfl, rfl⟩

theorem alike_shorten (url : String) (owner : Option OwnerId) :
    Alike R (shorten url owner) (shorten url owner) := by
  rintro ⟨s, settings, deletion⟩ ⟨t, _, _⟩ ⟨related, rfl, rfl⟩
  obtain ⟨a, s', t', hs, ht, still⟩ := (sim.save ⟨.ofUrl url, url⟩ owner).split related
  simp only [shorten, hs, ht]
  cases checkUrl url with
  | error e => exact ⟨rfl, related, rfl, rfl⟩
  | ok =>
    cases a with
    | ok code => exact ⟨rfl, still, rfl, rfl⟩
    | error e => cases e <;> exact ⟨rfl, still, rfl, rfl⟩

theorem alike_codeFor (url : String) : StoreM.Alike R (codeFor url) (codeFor url) := by
  intro s t related
  obtain ⟨a, s', t', hs, ht, still⟩ := (sim.get url).split related
  simp only [codeFor, hs, ht]
  cases a with
  | ok found => cases found <;> exact ⟨rfl, still⟩
  | error e => cases e <;> exact ⟨rfl, still⟩

private theorem alike_linksFor (urls : List String) :
    StoreM.Alike R (linksFor urls) (linksFor urls) := by
  induction urls with
  | nil => exact fun s t related => ⟨rfl, related⟩
  | cons url rest ih =>
    intro s t related
    obtain ⟨a, s', t', hs, ht, once⟩ := (alike_codeFor sim url).split related
    simp only [linksFor, hs, ht]
    cases a with
    | error e => exact ⟨rfl, once⟩
    | ok code =>
      obtain ⟨b, s'', t'', hs, ht, twice⟩ := ih.split once
      simp only [hs, ht]
      cases b <;> exact ⟨rfl, twice⟩

theorem alike_saveAll (links : List NewLink) (owner : Option OwnerId) :
    StoreM.Alike R (saveAll links owner) (saveAll links owner) := by
  intro s t related
  obtain ⟨a, s', t', hs, ht, still⟩ := (sim.saveBatch links owner).split related
  simp only [saveAll, hs, ht]
  cases a with
  | error e => exact ⟨rfl, still⟩
  | ok codes => by_cases whole : codes.length = links.length <;> simp [whole, still]

theorem alike_shortenBatch (requests : List BatchRequest) (owner : Option OwnerId) :
    Alike R (shortenBatch requests owner) (shortenBatch requests owner) := by
  rintro ⟨s, settings, deletion⟩ ⟨t, _, _⟩ ⟨related, rfl, rfl⟩
  obtain ⟨a, s', t', hs, ht, once⟩ :=
    (alike_linksFor sim (requests.map BatchRequest.url).eraseDups).split related
  simp only [shortenBatch, ask, hs, ht]
  cases checkAll requests with
  | error e => exact ⟨rfl, related, rfl, rfl⟩
  | ok =>
    cases a with
    | error e => exact ⟨rfl, once, rfl, rfl⟩
    | ok links =>
      cases links with
      | nil => exact ⟨rfl, once, rfl, rfl⟩
      | cons link links =>
        obtain ⟨b, s'', t'', hs, ht, twice⟩ := (alike_saveAll sim (link :: links) owner).split once
        simp only [hs, ht]
        cases b <;> exact ⟨rfl, twice, rfl, rfl⟩

theorem alike_userUrls (owner : Option OwnerId) : Alike R (userUrls owner) (userUrls owner) := by
  rintro ⟨s, settings, deletion⟩ ⟨t, _, _⟩ ⟨related, rfl, rfl⟩
  cases owner with
  | none => exact ⟨rfl, related, rfl, rfl⟩
  | some owner =>
    obtain ⟨a, s', t', hs, ht, still⟩ := (sim.ownedBy owner).split related
    simp only [userUrls, ask, hs, ht]
    cases a <;> exact ⟨rfl, still, rfl, rfl⟩

omit [LinkStore σ] [LinkStore τ] sim in
theorem alike_deleteUrls (codes : List String) (owner : Option OwnerId) :
    Alike R (deleteUrls codes owner) (deleteUrls codes owner) := by
  rintro ⟨s, settings, deletion⟩ ⟨t, _, _⟩ ⟨related, rfl, rfl⟩
  cases owner with
  | none => exact ⟨rfl, related, rfl, rfl⟩
  | some owner =>
    simp only [deleteUrls]
    split <;> exact ⟨rfl, related, rfl, rfl⟩

theorem related_deleteChunks (chunks : List Chunk) {s : σ} {t : τ} (related : R s t) :
    R (deleteChunks s chunks) (deleteChunks t chunks) := by
  induction chunks generalizing s t with
  | nil => exact related
  | cons chunk rest ih =>
    exact ih (sim.deleteBatch chunk.work.owner chunk.work.codes s t related).2

private theorem mirrors_catchUp {s : Service σ} {t : Service τ} (mirrors : Mirrors R s t)
    (deletion : Course) : Mirrors R (s.catchUp deletion) (t.catchUp deletion) := by
  obtain ⟨s, settings, past⟩ := s
  obtain ⟨t, _, _⟩ := t
  obtain ⟨related, rfl, rfl⟩ := mirrors
  exact ⟨related_deleteChunks sim _ related, rfl, rfl⟩

theorem shutdown_alike {s : Service σ} {t : Service τ} (mirrors : Mirrors R s t) (grace : Nat) :
    (s.shutdown grace).1 = (t.shutdown grace).1 ∧
      Mirrors R (s.shutdown grace).2 (t.shutdown grace).2 := by
  simp only [shutdown, mirrors.settings, mirrors.deletion]
  exact ⟨trivial, mirrors_catchUp sim mirrors _⟩

theorem perform_alike {s : Service σ} {t : Service τ} (mirrors : Mirrors R s t)
    (event : ServiceEvent) :
    (event.perform s).1 = (event.perform t).1 ∧
      Mirrors R (event.perform s).2 (event.perform t).2 := by
  have map {α : Type} {m : ServiceM σ α} {n : ServiceM τ α} (h : Alike R m n)
      (f : Except ServiceError α → ServiceAnswer) :
      ((m s).map f id).1 = ((n t).map f id).1 ∧
        Mirrors R ((m s).map f id).2 ((n t).map f id).2 :=
    ⟨congrArg f (h s t mirrors).1, (h s t mirrors).2⟩
  cases event with
  | shorten url owner => exact map (alike_shorten sim url owner) _
  | shortenBatch requests owner => exact map (alike_shortenBatch sim requests owner) _
  | decode key => exact map (alike_ask (sim.get key)) _
  | userUrls owner => exact map (alike_userUrls sim owner) _
  | deleteUrls codes owner => exact map (alike_deleteUrls codes owner) _
  | shutdown grace =>
    obtain ⟨same, still⟩ := shutdown_alike sim mirrors grace
    exact ⟨congrArg ServiceAnswer.ended same, still⟩
  | restart grace =>
    obtain ⟨same, still⟩ := shutdown_alike sim mirrors grace
    refine ⟨congrArg ServiceAnswer.ended same, still.store, still.settings, ?_⟩
    exact congrArg (fun settings : ServiceSettings => Course.start settings.pipeline) still.settings
  | elapse actions =>
    simp only [ServiceEvent.perform, elapse, mirrors.settings, mirrors.deletion]
    exact ⟨trivial, mirrors_catchUp sim mirrors _⟩

end Service
end Shortlink
