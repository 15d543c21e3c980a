import Shortlink.Proofs.Service.Batch
import Shortlink.Proofs.Service.Refinement
/-!
# One code for each URL

In every run of a service over an empty store a URL is answered with one code and one short URL,
whoever asks and whatever has been deleted, and it is created by the first call that shortens it.
-/
namespace Shortlink
open LinkTable TableStore

/-- The URLs that a call has shortened, judging by its answer. -/
def ServiceEvent.issued : ServiceEvent → ServiceAnswer → List String
  | shorten url _, .shortened (.ok _) => [url]
  | shortenBatch requests _, .batch (.ok _) => requests.map BatchRequest.url
  | _, _ => []

def issuedBy (history : List (ServiceEvent × ServiceAnswer)) : List String :=
  history.flatMap fun entry => entry.1.issued entry.2

/-- What a successful answer tells, given the URLs that have been shortened before. -/
def Told (base : String) (before : List String) : ServiceEvent → ServiceAnswer → Prop
  | .shorten url _, .shortened (.ok answer) =>
    answer.code = .ofUrl url ∧ answer.url = (ShortCode.ofUrl url).toUrl base ∧
      (answer.status = .created ↔ url ∉ before)
  | .shortenBatch requests _, .batch (.ok answers) =>
    answers = requests.map fun request =>
      ⟨request.correlationId, (ShortCode.ofUrl request.url).toUrl base⟩
  | _, _ => True

def creates (url : String) : ServiceEvent × ServiceAnswer → Bool
  | (.shorten other _, .shortened (.ok answer)) => other = url ∧ answer.status = .created
  | _ => false

theorem Told.congr {base : String} {as bs : List String} (same : ∀ url, url ∈ as ↔ url ∈ bs)
    {event : ServiceEvent} {answer : ServiceAnswer} (told : Told base as event answer) :
    Told base bs event answer := by
  unfold Told at told ⊢
  split
  · simpa only [same] using told
  · exact told
  · trivial

namespace Service

/-! ## One event -/

structure Issues (s : Service LinkTable) (event : ServiceEvent) (answer : ServiceAnswer)
    (t : LinkTable) : Prop where
  minted : Minted t
  urls : ∀ url, url ∈ t.urls ↔ url ∈ s.store.urls ∨ url ∈ event.issued answer
  told : Told s.settings.baseUrl s.store.urls event answer

private theorem issues_nothing {s : Service LinkTable} {event : ServiceEvent}
    {answer : ServiceAnswer}
    {t : LinkTable} (minted : Minted t) (urls : t.urls = s.store.urls)
    (nothing : event.issued answer = [])
    (told : Told s.settings.baseUrl s.store.urls event answer) : Issues s event answer t :=
  ⟨minted, by simp [urls, nothing], told⟩

section
variable {s : Service LinkTable} (h : Minted s.store)
include h

theorem Minted.shorten (url : String) (owner : Option OwnerId) :
    Issues s (.shorten url owner) (.shortened (Service.shorten url owner s).1)
      (Service.shorten url owner s).2.store := by
  cases checked : checkUrl url with
  | error e =>
    rw [Service.shorten, checked]
    exact issues_nothing h rfl rfl trivial
  | ok =>
    obtain ⟨minted, urls⟩ := h.save checked owner
    rw [shorten_eq h (s := s) (holds_self h.indexed) checked owner]
    refine ⟨minted, ?_, rfl, rfl, ?_⟩
    · intro u
      rw [ServiceEvent.issued, List.mem_singleton]
      exact urls u
    · by_cases known : url ∈ s.store.urls <;> simp [statusFor, known]

theorem Minted.shortenBatch (requests : List BatchRequest) (owner : Option OwnerId) :
    Issues s (.shortenBatch requests owner) (.batch (Service.shortenBatch requests owner s).1)
      (Service.shortenBatch requests owner s).2.store := by
  cases all : checkAll requests with
  | error e =>
    rw [Service.shortenBatch, all]
    exact issues_nothing h rfl rfl trivial
  | ok =>
    have checked := checkUrl_of_checkAll all
    have checked' : ∀ url ∈ (requests.map BatchRequest.url).eraseDups, checkUrl url = .ok () :=
      fun url hurl => checked url (List.mem_eraseDups.mp hurl)
    obtain ⟨-, minted, urls⟩ := h.saveAll checked' owner
    rw [shortenBatch_eq h (s := s) (holds_self h.indexed)
      (fun request hr => checked _ (List.mem_map_of_mem hr)) owner, ← saveAll_state]
    refine ⟨minted, ?_, rfl⟩
    intro u
    rw [urls, List.mem_eraseDups]
    rfl

theorem Minted.catchUp (q : Course) :
    Minted (s.catchUp q).store ∧ (s.catchUp q).store.urls = s.store.urls :=
  h.deleteChunks _

/-- Whatever happens, the table keeps to the codes of its URLs. -/
theorem Minted.perform (event : ServiceEvent) :
    Issues s event (event.perform s).1 (event.perform s).2.store := by
  have quiet {event : ServiceEvent} (nothing : event.issued (event.perform s).1 = [])
      (told : Told s.settings.baseUrl s.store.urls event (event.perform s).1)
      (store : (event.perform s).2.store = s.store) :
      Issues s event (event.perform s).1 (event.perform s).2.store := by
    rw [store]
    exact issues_nothing h rfl nothing told
  cases event with
  | shorten url owner => exact h.shorten url owner
  | shortenBatch requests owner => exact h.shortenBatch requests owner
  | decode key => exact quiet rfl trivial (congrArg Service.store (ask_state _ s))
  | userUrls owner => exact quiet rfl trivial (congrArg Service.store (userUrls_state owner s))
  | deleteUrls codes owner =>
    refine quiet rfl trivial ?_
    cases owner with
    | none => rfl
    | some owner =>
      simp only [ServiceEvent.perform, deleteUrls]
      split <;> rfl
  | shutdown grace =>
    obtain ⟨minted, urls⟩ := h.catchUp (s.deletion.shutdown s.settings.pipeline grace).2
    exact issues_nothing minted urls rfl trivial
  | restart grace =>
    obtain ⟨minted, urls⟩ := h.catchUp (s.deletion.shutdown s.settings.pipeline grace).2
    exact issues_nothing minted urls rfl trivial
  | elapse actions =>
    obtain ⟨minted, urls⟩ :=
      h.catchUp (s.deletion.act s.settings.pipeline (actions.filter Pipeline.Action.isOwn))
    exact issues_nothing minted urls rfl trivial

end

/-! ## Runs -/

/-- In every run the answers tell of the codes of their URLs, given what has been shortened. -/
theorem Minted.after {s : Service LinkTable} (h : Minted s.store) {past : List String}
    (known : ∀ url, url ∈ s.store.urls ↔ url ∈ past) (events : List ServiceEvent) :
    Minted (s.after events).store ∧
      ∀ before event answer later, s.history events = before ++ (event, answer) :: later →
        Told s.settings.baseUrl (past ++ issuedBy before) event answer := by
  -- `past` takes up what each event has issued, so the hypothesis speaks of all that came before
  induction events generalizing s past with
  | nil =>
    refine ⟨h, fun before event answer later split => ?_⟩
    simp [history] at split
  | cons first rest ih =>
    have issues := h.perform first
    have grown : ∀ url, url ∈ (first.perform s).2.store.urls ↔
        url ∈ past ++ first.issued (first.perform s).1 := by
      intro url
      rw [issues.urls, List.mem_append, known]
    obtain ⟨minted, told⟩ := ih issues.minted grown
    refine ⟨minted, fun before event answer later split => ?_⟩
    rw [history] at split
    cases before with
    | nil =>
      obtain ⟨here, -⟩ := List.cons.inj split
      obtain ⟨rfl, rfl⟩ := Prod.mk.inj here
      rw [issuedBy, List.flatMap_nil, List.append_nil]
      exact issues.told.congr known
    | cons entry before =>
      obtain ⟨rfl, others⟩ := List.cons.inj split
      have later := told before event answer later others
      rw [settings_perform] at later
      rw [issuedBy, List.flatMap_cons, ← List.append_assoc]
      exact later

private theorem countP_le_one {α : Type} {p : α → Bool} {xs : List α}
    (single : ∀ before x later, xs = before ++ x :: later → p x = true →
      ∀ y ∈ before, p y = false) : xs.countP p ≤ 1 := by
  induction xs with
  | nil => simp
  | cons x rest ih =>
    cases first : p x with
    | true =>
      have none : rest.countP p = 0 := by
        rw [List.countP_eq_zero]
        intro y hy again
        obtain ⟨as, bs, split⟩ := List.append_of_mem hy
        have before := single (x :: as) y bs (by rw [split]; rfl) again x List.mem_cons_self
        rw [first] at before
        contradiction
      rw [List.countP_cons, none, first]
      rfl
    | false =>
      have later := ih fun before y after split has z hz =>
        single (x :: before) y after (by rw [split]; rfl) has z (List.mem_cons_of_mem x hz)
      rw [List.countP_cons, first]
      exact later

private theorem exists_of_creates {url : String} {entry : ServiceEvent × ServiceAnswer}
    (created : creates url entry = true) : ∃ owner answer,
      entry = (.shorten url owner, .shortened (.ok answer)) ∧ answer.status = .created := by
  unfold creates at created
  split at created
  case h_1 other owner answer =>
    obtain ⟨rfl, status⟩ := of_decide_eq_true created
    exact ⟨owner, answer, rfl, status⟩
  case h_2 => contradiction

private theorem countP_creates_le_one {base : String}
    {history : List (ServiceEvent × ServiceAnswer)}
    (told : ∀ before event answer later, history = before ++ (event, answer) :: later →
      Told base (issuedBy before) event answer) (url : String) :
    history.countP (creates url) ≤ 1 := by
  apply countP_le_one
  intro before entry later split created earlier hearlier
  by_contra again
  rw [Bool.not_eq_false] at again
  obtain ⟨owner, answer, rfl, status⟩ := exists_of_creates created
  obtain ⟨owner', answer', rfl, -⟩ := exists_of_creates again
  have new := ((told before _ _ later split).2.2).mp status
  have old : url ∈ issuedBy before :=
    List.mem_flatMap.mpr ⟨_, hearlier, List.mem_singleton.mpr rfl⟩
  exact new old

/-- In every run over an empty store each successful answer for a URL tells of the code that comes from
the URL, and the URL is created exactly if no successful call has named it before. So it is created
once at most, and no two links of the store have one URL. -/
theorem one_code_per_url {σ : Type} [LinkStore σ] [TableStore σ] {store : σ}
    (empty : Holds store {}) (settings : ServiceSettings) (events : List ServiceEvent) :
    (∀ before event answer later,
      (start store settings).history events = before ++ (event, answer) :: later →
        Told settings.baseUrl (issuedBy before) event answer) ∧
    (∀ url, ((start store settings).history events).countP (creates url) ≤ 1) ∧
    ∃ t, Holds ((start store settings).after events).store t ∧ t.urls.Nodup := by
  have mirrors : Mirrors Holds (start store settings) (start {} settings) := ⟨empty, rfl, rfl⟩
  obtain ⟨same, still⟩ := history_eq_of_mirrors simulates mirrors events
  have started : Minted (start ({} : LinkTable) settings).store := minted_empty
  have known : ∀ url, url ∈ (start ({} : LinkTable) settings).store.urls ↔ url ∈ ([] : List String) :=
    fun _ => Iff.rfl
  obtain ⟨minted, told⟩ := started.after known events
  simp only [List.nil_append] at told
  rw [same]
  exact ⟨told, countP_creates_le_one told, _, still.store, minted.indexed.urls⟩

/-- A link is deleted, and its URL is shortened twice more. -/
def reshortenedRun : List ServiceEvent :=
  [.shorten "http://a.b/" (some .zero),
    .deleteUrls ["pKXxiYMn"] (some .zero), .restart 20000,
    .shorten "http://a.b/" none,
    .shortenBatch [⟨"1", "http://c.d/"⟩, ⟨"2", "http://a.b/"⟩, ⟨"3", "http://c.d/"⟩] none]

theorem one_code_per_url_of_reshortenedRun :
    ((start ({} : LinkTable) {}).history reshortenedRun).countP (creates "http://a.b/") = 1 ∧
      ((start ({} : LinkTable) {}).after reshortenedRun).store.urls.Nodup := by
  obtain ⟨-, single, t, ⟨same, -⟩, nodup⟩ := one_code_per_url holds_empty {} reshortenedRun
  refine ⟨Nat.le_antisymm (single "http://a.b/") ?_, ?_⟩
  · decide +kernel
  · rw [same]
    exact nodup

end Service
end Shortlink
