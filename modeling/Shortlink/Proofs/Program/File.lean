import Shortlink.Proofs.Program.Command
import Shortlink.Proofs.Service.Batch
import Shortlink.Proofs.Store.Chunks
/-!
# Commands over a file

A command that fails leaves a store in a file as it is. One that succeeds leaves a store in the same
file, which can be read again.
-/
namespace Shortlink

/-! ## Failures -/

/-- What fails leaves the store as it is. -/
def StoreM.Atomic {σ α : Type} (m : StoreM σ α) : Prop :=
  ∀ (s : σ) (e : StoreError), (m s).1 = .error e → (m s).2 = s

namespace FileStore

private theorem atomic_extend {α : Type}
    (f : Journal → LinkTable → Except StoreError (α × Journal)) :
    StoreM.Atomic (extend f) := by
  intro s e failed
  rw [extend, StoreM.change] at failed ⊢
  split
  · next done =>
    rw [done] at failed
    contradiction
  · rfl

private theorem atomic_saveBatch (links : List NewLink) (owner : Option OwnerId) :
    StoreM.Atomic (LinkStore.saveBatch links owner : StoreM FileStore (List ShortCode)) := by
  intro s e failed
  cases unique : ensureUnique links with
  | error e => simp only [LinkStore.saveBatch, unique]
  | ok =>
    simp only [LinkStore.saveBatch, unique] at failed ⊢
    exact atomic_extend _ s e failed

private theorem answer_extend {α : Type} {f : Journal → LinkTable → Except StoreError (α × Journal)}
    {s : FileStore} {a : α} (h : (extend f s).1 = .ok a) : ∃ j t grown, f j t = .ok (a, grown) := by
  rw [extend, StoreM.change] at h
  split at h
  case h_2 => contradiction
  case h_1 answer after changed =>
    obtain rfl := Except.ok.inj h
    split at changed
    · contradiction
    next j t _ =>
    split at changed
    · contradiction
    next same grown made =>
    split at changed
    · obtain ⟨rfl, -⟩ := Prod.mk.inj (Except.ok.inj changed)
      exact ⟨j, t, grown, made⟩
    split at changed
    · contradiction
    · obtain ⟨rfl, -⟩ := Prod.mk.inj (Except.ok.inj changed)
      exact ⟨j, t, grown, made⟩

private theorem length_of_saveBatch {links : List NewLink} {owner : Option OwnerId} {s : FileStore}
    {codes : List ShortCode}
    (h : ((LinkStore.saveBatch links owner : StoreM FileStore (List ShortCode)) s).1 = .ok codes) :
    codes.length = links.length := by
  cases unique : ensureUnique links with
  | error e => simp [LinkStore.saveBatch, unique] at h
  | ok =>
    simp only [LinkStore.saveBatch, unique] at h
    obtain ⟨j, t, grown, made⟩ := answer_extend h
    rw [← (Prod.mk.inj (Except.ok.inj made)).1]
    exact List.length_map _

end FileStore

namespace Service

private theorem linksFor_state {σ : Type} [LinkStore σ] [BatchStore σ] (urls : List String)
    (store : σ) :
    (linksFor urls store).2 = store := by
  induction urls with
  | nil => rfl
  | cons url rest ih =>
    have first := codeFor_state url store
    simp only [linksFor]
    cases found : codeFor url store with
    | mk code after =>
      rw [found] at first
      simp only at first
      subst first
      cases code with
      | error e => rfl
      | ok code =>
        cases others : linksFor rest after with
        | mk links last =>
          rw [others] at ih
          cases links <;> simpa [others] using ih

private theorem atomic_saveAll (links : List NewLink) (owner : Option OwnerId) :
    StoreM.Atomic (saveAll (σ := FileStore) links owner) := by
  intro s e failed
  rw [saveAll] at failed ⊢
  split at failed
  · next codes after saved =>
    have sizes : codes.length = links.length :=
      FileStore.length_of_saveBatch (by rw [saved])
    simp [sizes] at failed
  · next e' after saved =>
    have kept := FileStore.atomic_saveBatch links owner s e' (by rw [saved])
    simpa [saved] using kept

/-- What fails leaves the store of the service as it is. -/
def Atomic {α : Type} (m : ServiceM FileStore α) : Prop :=
  ∀ (s : Service FileStore) (e : ServiceError), (m s).1 = .error e → (m s).2.store = s.store

private theorem atomic_shorten (url : String) (owner : Option OwnerId) :
    Atomic (shorten url owner) := by
  intro s e failed
  have atomic : StoreM.Atomic
      (LinkStore.save ⟨.ofUrl url, url⟩ owner : StoreM FileStore ShortCode) :=
    FileStore.atomic_extend _
  simp only [shorten] at failed ⊢
  cases checked : checkUrl url with
  | error e => rfl
  | ok =>
    cases saved : (LinkStore.save ⟨.ofUrl url, url⟩ owner : StoreM FileStore ShortCode) s.store with
    | mk answer after =>
      cases answer with
      | ok code => simp [checked, saved] at failed
      | error cause =>
        have kept := atomic s.store cause (by rw [saved])
        rw [saved] at kept
        cases cause <;> exact kept

private theorem atomic_shortenBatch (requests : List BatchRequest) (owner : Option OwnerId) :
    Atomic (shortenBatch requests owner) := by
  intro s e failed
  have looked := linksFor_state (requests.map BatchRequest.url).eraseDups s.store
  simp only [shortenBatch, ask] at failed ⊢
  cases checked : checkAll requests with
  | error e => rfl
  | ok =>
    cases found : linksFor (requests.map BatchRequest.url).eraseDups s.store with
    | mk links store =>
      rw [found] at looked
      simp only at looked
      cases links with
      | error cause => exact looked
      | ok links =>
        cases links with
        | nil => exact looked
        | cons link rest =>
          cases saved : saveAll (link :: rest) owner store with
          | mk codes after =>
            cases codes with
            | ok codes => simp [checked, found, saved] at failed
            | error cause =>
              have kept := atomic_saveAll (link :: rest) owner store cause (by rw [saved])
              rw [saved] at kept
              simpa [saved] using kept.trans looked

/-- What only looks leaves the store of the service as it is. -/
def Looks {α : Type} (m : ServiceM FileStore α) : Prop :=
  ∀ s : Service FileStore, (m s).2.store = s.store

private theorem looks_ask {α : Type} (f : FileStore → Except StoreError α) :
    Looks (ask (StoreM.ask f)) := by
  intro s
  simp only [ask, StoreM.ask]
  cases f s.store <;> rfl

private theorem looks_journal {α : Type} (f : LinkTable → Except StoreError α) :
    Looks (ask (FileStore.ask f)) := looks_ask _

private theorem looks_userUrls (owner : Option OwnerId) : Looks (userUrls owner) := by
  intro s
  cases owner with
  | none => rfl
  | some owner =>
    have records := looks_journal (fun t => .ok (t.ownedBy owner)) s
    simp only [userUrls]
    split
    · next found => exact (congrArg (fun r => r.2.store) found).symm.trans records
    · next found => exact (congrArg (fun r => r.2.store) found).symm.trans records

private theorem looks_deleteUrls (codes : List String) (owner : Option OwnerId) :
    Looks (deleteUrls codes owner) := by
  intro s
  cases owner with
  | none => rfl
  | some owner =>
    simp only [deleteUrls]
    split <;> rfl

end Service

namespace Program
open Service

variable {batch : Option String → Except ProgramError String} {owner : Option OwnerId}
  {command : Command}

private theorem store_of_looks {α : Type} {m : ServiceM FileStore α} (looks : Looks m)
    (f : α → Except ProgramError String) (s : Service FileStore) :
    (present m f s).2.store = s.store := by
  have kept := looks s
  simp only [present]
  split <;> next done => rw [done] at kept; exact kept

private theorem store_of_atomic {α : Type} {m : ServiceM FileStore α} (atomic : Atomic m)
    (f : α → String)
    {s : Service FileStore} {e : ProgramError}
    (failed : (present m (fun a => .ok (f a)) s).1 = .error e) :
    (present m (fun a => .ok (f a)) s).2.store = s.store := by
  simp only [present] at failed ⊢
  cases done : m s with
  | mk answer after =>
    cases answer with
    | ok a => simp [done] at failed
    | error cause =>
      have kept := atomic s cause (by rw [done])
      rwa [done] at kept

/-- A command that fails has changed nothing. -/
theorem store_of_error {s : Service FileStore} {e : ProgramError}
    (failed : (carryOut batch owner command s).1 = .error e) :
    (carryOut batch owner command s).2.store = s.store := by
  cases command with
  | shorten url => exact store_of_atomic (atomic_shorten url owner) _ failed
  | shortenBatch file =>
    simp only [carryOut] at failed ⊢
    split at failed
    · next requests _ => exact store_of_atomic (atomic_shortenBatch requests owner) _ failed
    · rfl
  | decode key => exact store_of_looks (looks_ask _) _ s
  | list => exact store_of_looks (looks_userUrls owner) _ s
  | delete codes => exact store_of_looks (looks_deleteUrls codes owner) _ s
  | ping => exact store_of_looks (looks_ask _) _ s
  | stats => exact store_of_looks (looks_ask _) _ s

end Program

/-! ## What is left in the file -/

namespace FileStore

/-- A store in the file of a path, which can be read. -/
structure Legible (path : String) (s : FileStore) : Prop where
  path : s.path = path
  readable : s.Readable

section
variable {path : String} {s : FileStore}

theorem Legible.rewrites (legible : s.Legible path) {after : FileStore}
    (rewrites : Rewrites s after) : after.Legible path :=
  ⟨rewrites.path.trans legible.path, legible.readable.rewrites rewrites⟩

private theorem alike_legible {α : Type} {m : StoreM FileStore α}
    (rewrites : ∀ s, Rewrites s (m s).2) :
    StoreM.Alike (fun s t => s = t ∧ s.Legible path) m m := by
  intro s t related
  obtain ⟨rfl, legible⟩ := related
  exact ⟨rfl, rfl, legible.rewrites (rewrites s)⟩

private theorem simulates_legible (path : String) :
    Simulates fun s t : FileStore => s = t ∧ s.Legible path where
  get _ := alike_legible fun _ => ⟨rfl, .inl rfl⟩
  ownedBy _ := alike_legible fun _ => ⟨rfl, .inl rfl⟩
  stats := alike_legible fun _ => ⟨rfl, .inl rfl⟩
  save _ _ := alike_legible fun s => rewrites_extend _ s
  saveBatch links owner := alike_legible fun s => rewrites_saveBatch links owner s
  deleteBatch owner codes := alike_legible fun s => rewrites_deleteBatch owner codes s

theorem Legible.deleteBatch (legible : s.Legible path) (owner : OwnerId) (codes : List ShortCode) :
    ((LinkStore.deleteBatch owner codes : StoreM FileStore Nat) s).2.Legible path :=
  legible.rewrites (rewrites_deleteBatch owner codes s)

end

end FileStore

namespace Program
open Service FileStore

/-- What a command answers over a store, and the store when all is done that it asks for. -/
def outcome (batch : Option String → Except ProgramError String) (owner : Option OwnerId)
    (command : Command) (base : String) (store : FileStore) :
    Except ProgramError String × FileStore :=
  match command.request? owner with
  | some r => (.ok "", ((LinkStore.deleteBatch r.owner r.codes : StoreM FileStore Nat) store).2)
  | none =>
    let (answer, s) := carryOut batch owner command (Service.start store { baseUrl := base })
    (answer, s.store)

section
variable {batch : Option String → Except ProgramError String} {owner : Option OwnerId}
  {command : Command} {base path : String} {store : FileStore}

theorem outcome_of_request {r : DeleteRequest} (asks : command.request? owner = some r) :
    outcome batch owner command base store =
      (.ok "", ((LinkStore.deleteBatch r.owner r.codes : StoreM FileStore Nat) store).2) := by
  rw [outcome, asks]

theorem outcome_of_quiet (quiet : command.request? owner = none) {s : Service FileStore}
    (here : s.settings.baseUrl = base) : carryOut batch owner command s =
      ((outcome batch owner command base s.store).1,
        { s with store := (outcome batch owner command base s.store).2 }) := by
  have bound : StoreBound (carryOut (σ := FileStore) batch owner command) :=
    storeBound_carryOut quiet
  rw [outcome, quiet]
  exact bound (Service.start s.store { baseUrl := base }) s.settings s.deletion here

theorem legible_outcome (legible : store.Legible path) :
    (outcome batch owner command base store).2.Legible path := by
  cases asks : command.request? owner with
  | some r =>
    rw [outcome_of_request asks]
    exact legible.deleteBatch r.owner r.codes
  | none =>
    have mirrors : Mirrors (fun s t : FileStore => s = t ∧ s.Legible path)
        (Service.start store { baseUrl := base }) (Service.start store { baseUrl := base }) :=
      ⟨⟨rfl, legible⟩, rfl, rfl⟩
    have ping : StoreM.Alike (fun s t : FileStore => s = t ∧ s.Legible path) LinkStore.ping
        LinkStore.ping := by
      intro s t related
      obtain ⟨rfl, legible⟩ := related
      exact ⟨rfl, rfl, legible⟩
    rw [outcome, asks]
    exact (carryOut_alike batch owner command (simulates_legible path) ping mirrors).2.store.2

theorem outcome_of_error {e : ProgramError}
    (failed : (outcome batch owner command base store).1 = .error e) :
    (outcome batch owner command base store).2 = store := by
  cases asks : command.request? owner with
  | some r =>
    rw [outcome_of_request asks] at failed
    contradiction
  | none =>
    rw [outcome, asks] at failed ⊢
    exact store_of_error failed

end
end Program
end Shortlink
