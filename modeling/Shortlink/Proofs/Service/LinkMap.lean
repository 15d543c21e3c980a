import Shortlink.Proofs.Distinct
import Shortlink.Proofs.Service.Simulation
/-!
# The link map

What a service is for, told by its history alone: which links there are, whose they are and which of
them are gone. A service implements the map if it answers look-ups and listings from it.
-/
namespace Shortlink

structure KnownLink where
  url : String
  /-- The caller that shortened the URL first, unless anonymous. -/
  owner : Option OwnerId
  /-- Whether the owner has had it deleted. -/
  gone : Bool
deriving DecidableEq

namespace KnownLink

def code (link : KnownLink) : ShortCode := .ofUrl link.url

def answer (link : KnownLink) (key half : String) : Except ServiceError (Option String) :=
  if link.gone then .error (.gone key) else .ok (some half)

def strike (owner : OwnerId) (codes : List String) (link : KnownLink) : KnownLink :=
  if link.owner = some owner ∧ link.code.text ∈ codes then { link with gone := true } else link

end KnownLink

/-- How far the deletions are that have been asked for. -/
inductive Deletions where
  | settled
  /-- Some have been asked for since the last drain. -/
  | pending
  | lost
deriving DecidableEq

structure LinkMap where
  links : List KnownLink := []
  deletions : Deletions := .settled
deriving DecidableEq

def ServiceEvent.shortens : ServiceEvent → Bool
  | .shorten _ _ | .shortenBatch _ _ => true
  | _ => false

namespace LinkMap

def add (owner : Option OwnerId) (m : LinkMap) (url : String) : LinkMap :=
  if url ∈ m.links.map KnownLink.url then m
  else { m with links := m.links ++ [⟨url, owner, false⟩] }

def strike (owner : OwnerId) (codes : List String) (m : LinkMap) : LinkMap where
  links := m.links.map (KnownLink.strike owner codes)
  deletions := if m.deletions = .lost then .lost else .pending

def finish (outcome : Option DrainOutcome) (m : LinkMap) : LinkMap :=
  match m.deletions with
  | .pending => { m with deletions := if outcome = some .drained then .settled else .lost }
  | _ => m

/-- The map after a call that has been answered. Failed calls change nothing. -/
def next (m : LinkMap) : ServiceEvent → ServiceAnswer → LinkMap
  | .shorten url owner, .shortened (.ok _) => m.add owner url
  | .shortenBatch requests owner, .batch (.ok _) =>
    (requests.map BatchRequest.url).foldl (add owner) m
  | .deleteUrls codes (some owner), .accepted (.ok _) => m.strike owner codes
  | .shutdown _, .ended outcome => m.finish outcome
  | .restart _, .ended outcome => m.finish outcome
  | _, _ => m

/-- The map after a history of events and their answers. -/
def after (m : LinkMap) (history : List (ServiceEvent × ServiceAnswer)) : LinkMap :=
  history.foldl (fun m entry => m.next entry.1 entry.2) m

/-- In a history nothing is shortened before the deletions are settled. -/
def Orderly (m : LinkMap) : List (ServiceEvent × ServiceAnswer) → Prop
  | [] => True
  | (event, answer) :: rest =>
    (event.shortens = true → m.deletions = .settled) ∧ (m.next event answer).Orderly rest

instance decidableOrderly (m : LinkMap) (history : List (ServiceEvent × ServiceAnswer)) :
    Decidable (m.Orderly history) :=
  match history with
  | [] => inferInstanceAs (Decidable True)
  | (event, answer) :: rest =>
    have := decidableOrderly (m.next event answer) rest
    inferInstanceAs (Decidable ((event.shortens = true → m.deletions = .settled) ∧
      (m.next event answer).Orderly rest))

/-- Links with one code are one link. -/
def Distinct (m : LinkMap) : Prop :=
  ∀ a ∈ m.links, ∀ b ∈ m.links, a.code = b.code → a.url = b.url

instance (m : LinkMap) : Decidable m.Distinct :=
  inferInstanceAs (Decidable (∀ a ∈ m.links, ∀ b ∈ m.links, a.code = b.code → a.url = b.url))

/-! ## What histories preserve -/

private theorem mem_urls_add {owner : Option OwnerId} {m : LinkMap} {url other : String} :
    other ∈ (m.add owner url).links.map KnownLink.url ↔
      other ∈ m.links.map KnownLink.url ∨ other = url := by
  rw [add]
  split
  case isTrue known =>
    constructor
    · exact .inl
    · rintro (old | rfl)
      · exact old
      · exact known
  case isFalse => simp

theorem add_of_mem {owner : Option OwnerId} {m : LinkMap} {url : String}
    (known : url ∈ m.links.map KnownLink.url) : m.add owner url = m := if_pos known

theorem foldl_add_eraseDups (owner : Option OwnerId) (urls : List String) (m : LinkMap) :
    urls.eraseDups.foldl (add owner) m = urls.foldl (add owner) m := by
  refine foldl_eraseDups (fun _ => True)
    (fun m done => ∀ url ∈ done, url ∈ m.links.map KnownLink.url) ?_ ?_ ?_ [] ?_
  · intro m done url known again
    exact add_of_mem (known url again)
  · intro m done url known _ other hother
    rcases List.mem_cons.mp hother with rfl | old
    · exact mem_urls_add.mpr (.inr rfl)
    · exact mem_urls_add.mpr (.inl (known other old))
  · exact fun _ _ => trivial
  · exact List.forall_mem_nil _

private theorem urls_subset_foldl_add (owner : Option OwnerId) (urls : List String) (m : LinkMap) :
    m.links.map KnownLink.url ⊆ (urls.foldl (add owner) m).links.map KnownLink.url := by
  induction urls generalizing m with
  | nil => exact List.Subset.refl _
  | cons url rest ih =>
    intro other known
    rw [List.foldl_cons]
    exact ih _ (mem_urls_add.mpr (.inl known))

@[simp] theorem deletions_add (owner : Option OwnerId) (m : LinkMap) (url : String) :
    (m.add owner url).deletions = m.deletions := by
  rw [add]
  split <;> rfl

@[simp] theorem deletions_foldl_add (owner : Option OwnerId) (urls : List String) (m : LinkMap) :
    (urls.foldl (add owner) m).deletions = m.deletions := by
  induction urls generalizing m with
  | nil => rfl
  | cons url rest ih => rw [List.foldl_cons, ih, deletions_add]

theorem deletions_next (m : LinkMap) {event : ServiceEvent} (answer : ServiceAnswer)
    (shortens : event.shortens = true) : (m.next event answer).deletions = m.deletions := by
  unfold next
  split <;> simp [ServiceEvent.shortens] at shortens ⊢

@[simp] theorem urls_strike (owner : OwnerId) (codes : List String) (m : LinkMap) :
    (m.strike owner codes).links.map KnownLink.url = m.links.map KnownLink.url := by
  rw [strike, List.map_map]
  apply List.map_congr_left
  intro link _
  simp only [Function.comp, KnownLink.strike]
  split <;> rfl

@[simp] theorem links_finish (outcome : Option DrainOutcome) (m : LinkMap) :
    (m.finish outcome).links = m.links := by
  rw [finish]
  split <;> rfl

private theorem urls_subset_next (m : LinkMap) (event : ServiceEvent) (answer : ServiceAnswer) :
    m.links.map KnownLink.url ⊆ (m.next event answer).links.map KnownLink.url := by
  intro other known
  unfold next
  split
  · exact mem_urls_add.mpr (.inl known)
  · exact urls_subset_foldl_add _ _ _ known
  · rwa [urls_strike]
  · rwa [links_finish]
  · rwa [links_finish]
  · exact known

theorem urls_subset_after (m : LinkMap) (history : List (ServiceEvent × ServiceAnswer)) :
    m.links.map KnownLink.url ⊆ (m.after history).links.map KnownLink.url := by
  induction history generalizing m with
  | nil => exact List.Subset.refl _
  | cons entry rest ih => exact List.Subset.trans (urls_subset_next m entry.1 entry.2) (ih _)

theorem Distinct.of_subset {m n : LinkMap}
    (subset : m.links.map KnownLink.url ⊆ n.links.map KnownLink.url) (distinct : n.Distinct) :
    m.Distinct := by
  intro a ha b hb same
  obtain ⟨a', ha', hurl⟩ := List.mem_map.mp (subset (List.mem_map_of_mem ha))
  obtain ⟨b', hb', hurl'⟩ := List.mem_map.mp (subset (List.mem_map_of_mem hb))
  have codes : a'.code = b'.code := by
    rw [KnownLink.code, KnownLink.code, hurl, hurl']
    exact same
  rw [← hurl, ← hurl']
  exact distinct a' ha' b' hb' codes

end LinkMap

/-! ## Services -/

namespace Service
variable {σ : Type} [LinkStore σ]

def history (s : Service σ) : List ServiceEvent → List (ServiceEvent × ServiceAnswer)
  | [] => []
  | event :: rest => (event, (event.perform s).1) :: history (event.perform s).2 rest

def after (s : Service σ) (events : List ServiceEvent) : Service σ :=
  events.foldl (fun s event => (event.perform s).2) s

/-- A service answers look-ups and listings from the map, with short URLs under a base. -/
structure Implements (base : String) (s : Service σ) (m : LinkMap) : Prop where
  of_code : ∀ link ∈ m.links, (decode link.code.text s).1 = link.answer link.code.text link.url
  of_url : ∀ link ∈ m.links, (decode link.url s).1 = link.answer link.url link.code.text
  of_other : ∀ key, (∀ link ∈ m.links, key ≠ link.code.text ∧ key ≠ link.url) →
    (decode key s).1 = .ok none
  listed : ∀ owner, (userUrls (some owner) s).1 =
    .ok ((m.links.filter fun link => link.owner = some owner ∧ link.gone = false).map fun link =>
      ⟨link.code.toUrl base, link.url⟩)

/-! ## Settings never change -/

omit [LinkStore σ] in
private theorem settings_ask {α : Type} (m : StoreM σ α) (s : Service σ) :
    (ask m s).2.settings = s.settings := by
  rw [ask]
  split <;> rfl

private theorem settings_shorten (url : String) (owner : Option OwnerId) (s : Service σ) :
    (shorten url owner s).2.settings = s.settings := by
  rw [shorten]
  split
  · rfl
  · extract_lets
    split <;> rfl

private theorem settings_shortenBatch (requests : List BatchRequest) (owner : Option OwnerId)
    (s : Service σ) : (shortenBatch requests owner s).2.settings = s.settings := by
  have looked := settings_ask (linksFor (requests.map BatchRequest.url).eraseDups) s
  rw [shortenBatch]
  split
  · rfl
  · extract_lets urls
    split
    · next answer => simpa only [urls, answer] using looked
    · next answer => simpa only [urls, answer] using looked
    · next links s' _ answer =>
      have saved := settings_ask (saveAll links owner) s'
      simp only [urls, answer] at looked
      split <;> next stored => simpa only [stored, looked] using saved

private theorem settings_userUrls (owner : Option OwnerId) (s : Service σ) :
    (userUrls owner s).2.settings = s.settings := by
  cases owner with
  | none => rfl
  | some owner =>
    have asked := settings_ask (LinkStore.ownedBy owner) s
    rw [userUrls]
    split <;> next answer => simpa only [answer] using asked

omit [LinkStore σ] in
private theorem settings_deleteUrls (codes : List String) (owner : Option OwnerId) (s : Service σ) :
    (deleteUrls codes owner s).2.settings = s.settings := by
  cases owner with
  | none => rfl
  | some owner =>
    simp only [deleteUrls]
    split <;> rfl

theorem settings_perform (s : Service σ) (event : ServiceEvent) :
    (event.perform s).2.settings = s.settings := by
  cases event with
  | shorten url owner => exact settings_shorten url owner s
  | shortenBatch requests owner => exact settings_shortenBatch requests owner s
  | decode key => exact settings_ask _ s
  | userUrls owner => exact settings_userUrls owner s
  | deleteUrls codes owner => exact settings_deleteUrls codes owner s
  | _ => rfl

theorem settings_after (s : Service σ) (events : List ServiceEvent) :
    (s.after events).settings = s.settings := by
  induction events generalizing s with
  | nil => rfl
  | cons event rest ih => exact (ih _).trans (settings_perform s event)

end Service
end Shortlink
