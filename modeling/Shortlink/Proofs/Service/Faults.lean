import Shortlink.Proofs.Service.Batch
import Shortlink.Store.Faulty
/-!
# Batches over a store that fails

Any call of a store may answer an error and do nothing else. A batch then fails as a whole: it looks up
one URL after another until a look-up fails, and stores all links at once only if none does. A deleted
link is no failure of a look-up.
-/
namespace Shortlink

inductive StoreExchange where
  | get (key : String) (answer : Except StoreError (Option String))
  | ownedBy (owner : OwnerId) (answer : Except StoreError (List LinkRecord))
  | ping (answer : Except StoreError Unit)
  | stats (answer : Except StoreError StoreStats)
  | save (link : NewLink) (owner : Option OwnerId) (answer : Except StoreError ShortCode)
  | saveBatch (links : List NewLink) (owner : Option OwnerId)
      (answer : Except StoreError (List ShortCode))
  | deleteBatch (owner : OwnerId) (codes : List ShortCode) (answer : Except StoreError Nat)

/-- A table with the calls it has had. Whether a call fails, and how, may depend on its method and on
all the calls before it. -/
structure UnreliableStore where
  table : LinkTable
  /-- The error that a call of the method answers instead of acting, if it is to fail. -/
  fault : List StoreExchange → StoreMethod → Option StoreError
  exchanges : List StoreExchange := []

namespace UnreliableStore

def attempt {α : Type} (method : StoreMethod) (note : Except StoreError α → StoreExchange)
    (m : StoreM LinkTable α) : StoreM UnreliableStore α := fun s =>
  let (answer, table) := match s.fault s.exchanges method with
    | some e => (.error e, s.table)
    | none => m s.table
  (answer, { s with table := table, exchanges := s.exchanges ++ [note answer] })

instance : LinkStore UnreliableStore where
  get key := attempt .get (.get key) (LinkStore.get key)
  ownedBy owner := attempt .ownedBy (.ownedBy owner) (LinkStore.ownedBy owner)
  ping := attempt .ping .ping LinkStore.ping
  stats := attempt .stats .stats LinkStore.stats
  save link owner := attempt .save (.save link owner) (LinkStore.save link owner)
  saveBatch links owner := attempt .saveBatch (.saveBatch links owner) (LinkStore.saveBatch links owner)
  deleteBatch owner codes :=
    attempt .deleteBatch (.deleteBatch owner codes) (LinkStore.deleteBatch owner codes)

def noted (s : UnreliableStore) (calls : List StoreExchange) : UnreliableStore :=
  { s with exchanges := s.exchanges ++ calls }

private theorem noted_nil (s : UnreliableStore) : s.noted [] = s := by
  simp only [noted, List.append_nil]

private theorem noted_noted (s : UnreliableStore) (calls more : List StoreExchange) :
    (s.noted calls).noted more = s.noted (calls ++ more) := by
  simp only [noted, List.append_assoc]

/-! ## Two methods -/

private theorem get_eq (key : String) (s : UnreliableStore) :
    ∃ answer, (LinkStore.get key : StoreM UnreliableStore (Option String)) s =
      (answer, s.noted [.get key answer]) := by
  cases fails : s.fault s.exchanges .get with
  | some e => exact ⟨.error e, by simp only [LinkStore.get, attempt, fails]; rfl⟩
  | none => exact ⟨s.table.get key, by simp only [LinkStore.get, attempt, fails]; rfl⟩

private theorem length_codes_saveAll (t : LinkTable) (owner : Option OwnerId)
    (links : List NewLink) :
    (t.saveAll owner links).1.length = links.length := by
  induction links generalizing t with
  | nil => rfl
  | cons link rest ih =>
    rw [LinkTable.saveAll]
    cases t.codeOf? link.url with
    | some code => exact congrArg Nat.succ (ih t)
    | none => exact congrArg Nat.succ (ih _)

/-- A batch that fails has stored nothing. -/
theorem saveBatch_eq (links : List NewLink) (owner : Option OwnerId) (s : UnreliableStore) :
    ∃ answer table, (LinkStore.saveBatch links owner : StoreM UnreliableStore (List ShortCode)) s =
        (answer, { s.noted [.saveBatch links owner answer] with table := table }) ∧
      (∀ e, answer = .error e → table = s.table) ∧
      ∀ codes, answer = .ok codes → codes.length = links.length := by
  cases fails : s.fault s.exchanges .saveBatch with
  | some e =>
    refine ⟨.error e, s.table, ?_, fun _ _ => rfl, by simp⟩
    simp only [LinkStore.saveBatch, attempt, fails]
    rfl
  | none =>
    cases unique : ensureUnique links with
    | error e =>
      refine ⟨.error e, s.table, ?_, fun _ _ => rfl, by simp⟩
      simp only [LinkStore.saveBatch, attempt, fails, StoreM.change, LinkTable.saveBatch, unique]
      rfl
    | ok =>
      refine ⟨.ok (s.table.saveAll owner links).1, (s.table.saveAll owner links).2, ?_, by simp, ?_⟩
      · simp only [LinkStore.saveBatch, attempt, fails, StoreM.change, LinkTable.saveBatch, unique]
        rfl
      · intro codes same
        rw [← Except.ok.inj same]
        exact length_codes_saveAll s.table owner links

end UnreliableStore

/-! ## Looking up -/

structure LookUp where
  url : String
  answer : Except StoreError (Option String)

namespace LookUp

def exchange (l : LookUp) : StoreExchange := .get l.url l.answer

/-- The error that ends a batch. A deleted link is looked up without failure. -/
def failure? (l : LookUp) : Option StoreError :=
  match l.answer with
  | .ok _ | .error (.alreadyDeleted _) => none
  | .error cause => some cause

/-- The link that is stored after the look-up. A link that is missing and one that is deleted get the
code of the URL. -/
def link (l : LookUp) : NewLink :=
  match l.answer with
  | .ok (some code) => ⟨⟨code⟩, l.url⟩
  | _ => ⟨.ofUrl l.url, l.url⟩

private theorem link_url (l : LookUp) : l.link.url = l.url := by
  rw [link]
  split <;> rfl

private theorem ofStore_of_failure? {l : LookUp} {cause : StoreError}
    (failed : l.failure? = some cause) :
    ServiceError.ofStore cause = .storage cause := by
  rw [failure?] at failed
  split at failed
  · contradiction
  · contradiction
  next others _ =>
    obtain rfl := Option.some.inj failed
    rw [ServiceError.ofStore]
    exact others

end LookUp

namespace Service
open UnreliableStore

private theorem eq_alreadyDeleted_of_ofStore {cause : StoreError} {key : String}
    (gone : ServiceError.ofStore cause = .gone key) : cause = .alreadyDeleted key := by
  cases cause with
  | alreadyDeleted key' => rw [ServiceError.gone.inj gone]
  | _ => contradiction

private theorem codeFor_unreliable (url : String) (s : UnreliableStore) :
    ∃ l : LookUp, l.url = url ∧
    codeFor url s = (match l.failure? with
      | some cause => .error cause
      | none => .ok l.link.code, s.noted [l.exchange]) := by
  obtain ⟨answer, looked⟩ := get_eq url s
  refine ⟨⟨url, answer⟩, rfl, ?_⟩
  rw [codeFor, looked]
  cases answer with
  | ok found => cases found <;> rfl
  | error cause => cases cause <;> rfl

/-- URLs are looked up one after another, until a look-up fails. -/
theorem linksFor_unreliable (urls : List String) (s : UnreliableStore) : ∃ looked : List LookUp,
    looked.map LookUp.url <+: urls ∧ (linksFor urls s).2 = s.noted (looked.map LookUp.exchange) ∧
      (∀ l ∈ looked, ∀ cause, l.failure? = some cause → (linksFor urls s).1 = .error cause) ∧
      ((∀ l ∈ looked, l.failure? = none) →
        looked.map LookUp.url = urls ∧ (linksFor urls s).1 = .ok (looked.map LookUp.link)) := by
  induction urls generalizing s with
  | nil =>
    refine ⟨[], List.prefix_refl _, ?_, by simp, fun _ => ⟨rfl, rfl⟩⟩
    rw [List.map_nil, noted_nil]
    rfl
  | cons url rest ih =>
    obtain ⟨l, named, found⟩ := codeFor_unreliable url s
    cases failed : l.failure? with
    | some cause =>
      rw [failed] at found
      refine ⟨[l], ?_, ?_, ?_, ?_⟩
      · rw [List.map_singleton, named]
        exact List.prefix_append [url] rest
      · simp only [linksFor, found, List.map_singleton]
      · intro other there cause' failed'
        rw [List.mem_singleton.mp there, failed, Option.some.injEq] at failed'
        simp only [linksFor, found, failed']
      · intro none
        simp [failed] at none
    | none =>
      rw [failed] at found
      obtain ⟨looked, within, noted, stops, goes⟩ := ih (s.noted [l.exchange])
      refine ⟨l :: looked, ?_, ?_, ?_, ?_⟩
      · rw [List.map_cons, named]
        exact List.cons_prefix_cons.mpr ⟨rfl, within⟩
      · have whole : (linksFor (url :: rest) s).2 = (linksFor rest (s.noted [l.exchange])).2 := by
          simp only [linksFor, found]
          cases others : linksFor rest (s.noted [l.exchange]) with
          | mk answer after => cases answer <;> rfl
        rw [whole, noted, noted_noted]
        rfl
      · intro other there cause failed'
        rcases List.mem_cons.mp there with rfl | later
        · rw [failed] at failed'
          contradiction
        · have told := stops other later cause failed'
          simp only [linksFor, found]
          cases others : linksFor rest (s.noted [l.exchange]) with
          | mk answer after =>
            rw [others] at told
            simp only at told
            rw [told]
      · intro all
        obtain ⟨urls, links⟩ := goes fun other later => all other (List.mem_cons_of_mem l later)
        refine ⟨by rw [List.map_cons, urls, named], ?_⟩
        simp only [linksFor, found]
        cases others : linksFor rest (s.noted [l.exchange]) with
        | mk answer after =>
          rw [others] at links
          simp only at links
          have first : (⟨l.link.code, url⟩ : NewLink) = l.link := by rw [← named, ← l.link_url]
          rw [links, List.map_cons, ← first]

/-! ## Storing -/

private theorem saveAll_unreliable (links : List NewLink) (owner : Option OwnerId)
    (s : UnreliableStore) :
    ∃ told table, saveAll links owner s =
        (told, { s.noted [.saveBatch links owner told] with table := table }) ∧
      ∀ cause, told = .error cause → table = s.table := by
  obtain ⟨told, table, saved, kept, sizes⟩ := saveBatch_eq links owner s
  refine ⟨told, table, ?_, kept⟩
  rw [saveAll, saved]
  cases told with
  | error cause => rfl
  | ok codes => simp only [sizes codes rfl, if_true]

/-! ## Checking -/

private theorem checkUrl_eq_error {url : String} {e : ServiceError}
    (refused : checkUrl url = .error e) :
    ∃ reason, e = .invalidUrl reason := by
  rw [checkUrl] at refused
  split at refused
  · exact ⟨_, (Except.error.inj refused).symm⟩
  split at refused
  · exact ⟨_, (Except.error.inj refused).symm⟩
  split at refused
  · exact ⟨_, (Except.error.inj refused).symm⟩
  · contradiction

private theorem checkAll_of_refused {before later : List BatchRequest} {request : BatchRequest}
    {e : ServiceError} (accepted : ∀ earlier ∈ before, checkUrl earlier.url = .ok ())
    (refused : checkUrl request.url = .error e) :
    checkAll (before ++ request :: later) = .error e := by
  induction before with
  | nil => simp only [List.nil_append, checkAll, refused]
  | cons first rest ih =>
    rw [List.forall_mem_cons] at accepted
    simp only [List.cons_append, checkAll, accepted.1]
    exact ih accepted.2

/-! ## The batch -/

def batchAnswer (base : String) (requests : List BatchRequest) :
    Except StoreError (List ShortCode) → Except ServiceError (List BatchResponse)
  | .error cause => .error (.ofStore cause)
  | .ok codes => .ok (answers base ((requests.map BatchRequest.url).eraseDups.zip codes) requests)

section
variable {σ : Type} [LinkStore σ] {s : Service σ} {requests : List BatchRequest} {store last : σ}
  (owner : Option OwnerId) (accepted : checkAll requests = .ok ())
include accepted

private theorem shortenBatch_of_failure {cause : StoreError}
    (failed : linksFor (requests.map BatchRequest.url).eraseDups s.store = (.error cause, store)) :
    shortenBatch requests owner s = (.error (.ofStore cause), { s with store := store }) := by
  simp only [shortenBatch, accepted, ask, failed]

private theorem shortenBatch_of_nothing
    (found : linksFor (requests.map BatchRequest.url).eraseDups s.store = (.ok [], store)) :
    shortenBatch requests owner s = (.ok [], { s with store := store }) := by
  simp only [shortenBatch, accepted, ask, found]

private theorem shortenBatch_of_links {links : List NewLink}
    {told : Except StoreError (List ShortCode)}
    (found : linksFor (requests.map BatchRequest.url).eraseDups s.store = (.ok links, store))
    (filled : links ≠ []) (stored : saveAll links owner store = (told, last)) :
    shortenBatch requests owner s =
      (batchAnswer s.settings.baseUrl requests told, { s with store := last }) := by
  simp only [shortenBatch, accepted, ask, found]
  cases links with
  | nil => exact absurd rfl filled
  | cons link links =>
    simp only [stored]
    cases told <;> rfl

end

/-- How a batch goes whose URLs are all accepted: each URL is looked up, once and in order, and then the
links are stored. Whatever fails is the answer and the end of it. -/
theorem shortenBatch_unreliable (s : Service UnreliableStore) {requests : List BatchRequest}
    (owner : Option OwnerId) (accepted : checkAll requests = .ok ()) :
    let urls := (requests.map BatchRequest.url).eraseDups
    let answer := (shortenBatch requests owner s).1
    let after := (shortenBatch requests owner s).2.store
    ∃ (looked : List LookUp) (saves : List StoreExchange),
      after.exchanges = s.store.exchanges ++ looked.map LookUp.exchange ++ saves ∧
        (∀ e, answer = .error e → after.table = s.store.table) ∧
        looked.map LookUp.url <+: urls ∧
        (∀ l ∈ looked, ∀ cause, l.failure? = some cause → answer = .error (.ofStore cause) ∧ saves = []) ∧
        ((∀ l ∈ looked, l.failure? = none) → looked.map LookUp.url = urls ∧
          (urls = [] ∧ saves = [] ∧ answer = .ok [] ∨
            ∃ told, saves = [.saveBatch (looked.map LookUp.link) owner told] ∧
              (∀ cause, told = .error cause → answer = .error (.ofStore cause)) ∧
              ∀ codes, told = .ok codes → ∃ responses, answer = .ok responses)) := by
  intro urls
  obtain ⟨looked, within, noted, stops, goes⟩ := linksFor_unreliable urls s.store
  cases found : linksFor urls s.store with
  | mk links store =>
    rw [found] at noted stops goes
    simp only at noted stops goes
    cases links with
    | error cause =>
      rw [shortenBatch_of_failure owner accepted found, noted]
      refine ⟨looked, [], (List.append_nil _).symm, fun _ _ => rfl, within, ?_, ?_⟩
      · intro l there cause' failed
        rw [Except.error.inj (stops l there cause' failed)]
        exact ⟨rfl, rfl⟩
      · intro all
        exact absurd (goes all).2 (by simp)
    | ok links =>
      have all : ∀ l ∈ looked, l.failure? = none := by
        intro l there
        cases failed : l.failure? with
        | none => rfl
        | some cause => exact absurd (stops l there cause failed) (by simp)
      obtain ⟨same, saved⟩ := goes all
      obtain rfl := Except.ok.inj saved
      by_cases filled : looked = []
      · subst filled
        rw [shortenBatch_of_nothing owner accepted found, noted]
        refine ⟨[], [], (List.append_nil _).symm, fun _ _ => rfl, within, by simp, ?_⟩
        exact fun _ => ⟨same, .inl ⟨same.symm, rfl, rfl⟩⟩
      · obtain ⟨told, table, stored, kept⟩ := saveAll_unreliable (looked.map LookUp.link) owner store
        rw [shortenBatch_of_links owner accepted found (by simpa using filled) stored, noted]
        refine ⟨looked, [.saveBatch (looked.map LookUp.link) owner told], rfl, ?_, within, ?_, ?_⟩
        · intro e failed
          cases told with
          | ok codes => contradiction
          | error cause =>
            rw [noted] at kept
            exact kept cause rfl
        · intro l there cause failed
          rw [all l there] at failed
          contradiction
        · intro _
          refine ⟨same, .inr ⟨told, rfl, ?_, ?_⟩⟩
          · rintro cause rfl
            rfl
          · rintro codes rfl
            exact ⟨_, rfl⟩

/-! ## Faults by method -/

/-- A store of which always the same methods fail, seen as one of which any call may fail. -/
def Mimics (f : FaultyStore) (u : UnreliableStore) : Prop :=
  f.batchCount = none ∧ u.table = f.table ∧ ∀ calls method, u.fault calls method = f.faults method

private theorem alike_attempt {α : Type} (method : StoreMethod)
    (note : Except StoreError α → StoreExchange)
    (m : StoreM LinkTable α) :
    StoreM.Alike Mimics (FaultyStore.attempt method m) (UnreliableStore.attempt method note m) := by
  intro f u mimics
  obtain ⟨whole, table, faults⟩ := mimics
  simp only [FaultyStore.attempt, UnreliableStore.attempt, faults, table]
  cases f.faults method with
  | some e => exact ⟨rfl, whole, rfl, faults⟩
  | none => exact ⟨rfl, whole, rfl, faults⟩

private theorem simulates_faulty : Simulates Mimics where
  get _ := alike_attempt _ _ _
  ownedBy _ := alike_attempt _ _ _
  stats := alike_attempt _ _ _
  save _ _ := alike_attempt _ _ _
  saveBatch links owner := by
    intro f u mimics
    obtain ⟨answer, f', u', faulty, unreliable, still⟩ :=
      (alike_attempt .saveBatch (.saveBatch links owner) (LinkStore.saveBatch links owner)).split mimics
    simp only [LinkStore.saveBatch] at faulty unreliable ⊢
    rw [faulty, unreliable]
    cases answer with
    | error cause => exact ⟨rfl, still⟩
    | ok codes =>
      obtain ⟨whole, same⟩ := still
      simp only [whole]
      exact ⟨trivial, whole, same⟩
  deleteBatch _ _ := alike_attempt _ _ _

/-- A batch over a store with faults by method is answered, and leaves the table, as it would be if the
calls were noted. -/
theorem shortenBatch_faulty (s : Service FaultyStore) (whole : s.store.batchCount = none)
    (requests : List BatchRequest) (owner : Option OwnerId) :
    let noting : Service UnreliableStore :=
      ⟨{ table := s.store.table, fault := fun _ method => s.store.faults method }, s.settings, s.deletion⟩
    (shortenBatch requests owner s).1 = (shortenBatch requests owner noting).1 ∧
      (shortenBatch requests owner s).2.store.table =
        (shortenBatch requests owner noting).2.store.table := by
  intro noting
  have mirrors : Mirrors Mimics s noting := ⟨⟨whole, rfl, fun _ _ => rfl⟩, rfl, rfl⟩
  obtain ⟨same, still⟩ := alike_shortenBatch simulates_faulty requests owner s noting mirrors
  exact ⟨same, still.store.2.1.symm⟩

/-- A batch that fails changes nothing, whichever calls of the store fail and with what errors. If a URL
is to be refused, the first such request decides on the answer and the store is not called at all.
Otherwise the distinct URLs are looked up in order until a look-up fails: its error is the answer, and
nothing is saved. A deleted link does not fail a look-up. It counts as missing, and if all look-ups end
well the links are saved with one call, whose failure is the answer; only that call can make it one of
a deleted link. -/
theorem failing_batch_changes_nothing (s : Service UnreliableStore) (requests : List BatchRequest)
    (owner : Option OwnerId) :
    let urls := (requests.map BatchRequest.url).eraseDups
    let answer := (shortenBatch requests owner s).1
    let after := (shortenBatch requests owner s).2
    (∀ e, answer = .error e → after.store.table = s.store.table) ∧
      (∀ before request later e, requests = before ++ request :: later →
        (∀ earlier ∈ before, checkUrl earlier.url = .ok ()) → checkUrl request.url = .error e →
        answer = .error e ∧ after = s ∧ ∃ reason, e = .invalidUrl reason) ∧
      ((∀ request ∈ requests, checkUrl request.url = .ok ()) →
        ∃ (looked : List LookUp) (saves : List StoreExchange),
          after.store.exchanges = s.store.exchanges ++ looked.map LookUp.exchange ++ saves ∧
          looked.map LookUp.url <+: urls ∧
          (∀ l ∈ looked, ∀ cause, l.failure? = some cause →
            answer = .error (.storage cause) ∧ saves = []) ∧
          ((∀ l ∈ looked, l.failure? = none) → looked.map LookUp.url = urls ∧
            (urls = [] ∧ saves = [] ∧ answer = .ok [] ∨
              ∃ told, saves = [.saveBatch (looked.map LookUp.link) owner told] ∧
                (∀ cause, told = .error cause → answer = .error (.ofStore cause)) ∧
                ∀ codes, told = .ok codes → ∃ responses, answer = .ok responses)) ∧
          ∀ key, answer = .error (.gone key) →
            saves = [.saveBatch (looked.map LookUp.link) owner (.error (.alreadyDeleted key))]) := by
  intro urls answer after
  refine ⟨?_, ?_, ?_⟩
  · intro e failed
    cases accepted : checkAll requests with
    | error e' =>
      have nothing : shortenBatch requests owner s = (.error e', s) := by
        simp only [shortenBatch, accepted]
      show (shortenBatch requests owner s).2.store.table = s.store.table
      rw [nothing]
    | ok =>
      obtain ⟨-, -, -, kept, -⟩ := shortenBatch_unreliable s owner accepted
      exact kept e failed
  · intro before request later e split accepted refused
    have decided : checkAll requests = .error e := by
      rw [split]
      exact checkAll_of_refused accepted refused
    have nothing : shortenBatch requests owner s = (.error e, s) := by
      simp only [shortenBatch, decided]
    exact ⟨congrArg Prod.fst nothing, congrArg Prod.snd nothing, checkUrl_eq_error refused⟩
  · intro accepted
    obtain ⟨looked, saves, noted, -, within, stops, goes⟩ :=
      shortenBatch_unreliable s owner (checkAll_eq_ok accepted)
    refine ⟨looked, saves, noted, within, ?_, goes, ?_⟩
    · intro l there cause failed
      rw [← LookUp.ofStore_of_failure? failed]
      exact stops l there cause failed
    · intro key gone
      by_cases all : ∀ l ∈ looked, l.failure? = none
      · obtain ⟨-, ⟨-, -, done⟩ | ⟨told, saved, failed, stored⟩⟩ := goes all
        · exact absurd (gone.symm.trans done) (by simp)
        · cases told with
          | error cause =>
            have same := Except.error.inj (gone.symm.trans (failed cause rfl))
            rw [saved, eq_alreadyDeleted_of_ofStore same.symm]
          | ok codes =>
            obtain ⟨responses, done⟩ := stored codes rfl
            exact absurd (gone.symm.trans done) (by simp)
      · rw [not_forall] at all
        obtain ⟨l, failing⟩ := all
        rw [Classical.not_imp, ← ne_eq, Option.ne_none_iff_exists'] at failing
        obtain ⟨there, cause, failed⟩ := failing
        have told := (stops l there cause failed).1
        rw [LookUp.ofStore_of_failure? failed] at told
        exact absurd (gone.symm.trans told) (by simp)

def deletedLinkFaults : StoreMethod → Option StoreError
  | .get => some (.alreadyDeleted "c")
  | .saveBatch => some (.conflict "c")
  | _ => none

theorem failing_batch_changes_nothing_of_deletedLink :
    let s : Service UnreliableStore :=
      start { table := {}, fault := fun _ method => deletedLinkFaults method } {}
    let requests : List BatchRequest := [⟨"1", "http://a.b/"⟩, ⟨"2", "http://a.b/"⟩]
    (shortenBatch requests none s).1 = .error (.storage (.conflict "c")) ∧
      (shortenBatch requests none s).2.store.table = {} ∧
      ∃ (looked : List LookUp) (saves : List StoreExchange),
        (shortenBatch requests none s).2.store.exchanges = looked.map LookUp.exchange ++ saves ∧
          looked.map LookUp.url <+: ["http://a.b/"] := by
  intro s requests
  have failed : (shortenBatch requests none s).1 = .error (.storage (.conflict "c")) := by
    decide +kernel
  have accepted : ∀ request ∈ requests, checkUrl request.url = .ok () := by decide +kernel
  obtain ⟨kept, -, goes⟩ := failing_batch_changes_nothing s requests none
  obtain ⟨looked, saves, noted, within, -⟩ := goes accepted
  exact ⟨failed, kept _ failed, looked, saves, noted, within⟩

end Service
end Shortlink
