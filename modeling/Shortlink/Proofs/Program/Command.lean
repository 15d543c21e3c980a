import Shortlink.Program
import Shortlink.Proofs.Service.Refinement
/-!
# What a command depends on

Apart from the store, a command sees of its service the base URL only, and of the pipeline only
whether it accepts a request. Over a store in a file, a command that fails leaves the store as it is.
-/
namespace Shortlink

def Command.request? (owner : Option OwnerId) : Command → Option DeleteRequest
  | .delete codes => owner.map fun owner => .ofCodes owner codes
  | _ => none

/-! ## Store and base URL -/

namespace Service
variable {σ : Type}

/-- Of the service only the store and the base URL matter to this, and only the store may change. -/
def StoreBound {α : Type} (m : Service σ → α × Service σ) : Prop :=
  ∀ (s : Service σ) (settings : ServiceSettings) (deletion : Course),
    settings.baseUrl = s.settings.baseUrl →
      m ⟨s.store, settings, deletion⟩ = ((m s).1, ⟨(m s).2.store, settings, deletion⟩)

private theorem storeBound_ask {α : Type} (m : StoreM σ α) : StoreBound (ask m) := by
  intro s settings deletion _
  simp only [ask]
  cases m s.store with
  | mk answer store => cases answer <;> rfl

variable [LinkStore σ]

private theorem storeBound_shorten (url : String) (owner : Option OwnerId) :
    StoreBound (shorten (σ := σ) url owner) := by
  intro s settings deletion base
  simp only [shorten, base]
  cases checkUrl url with
  | error e => rfl
  | ok =>
    cases (LinkStore.save ⟨.ofUrl url, url⟩ owner : StoreM σ ShortCode) s.store with
    | mk answer store =>
      cases answer with
      | ok code => rfl
      | error e => cases e <;> rfl

private theorem storeBound_shortenBatch (requests : List BatchRequest) (owner : Option OwnerId) :
    StoreBound (shortenBatch (σ := σ) requests owner) := by
  intro s settings deletion base
  simp only [shortenBatch, ask]
  cases checkAll requests with
  | error e => rfl
  | ok =>
    cases linksFor (requests.map BatchRequest.url).eraseDups s.store with
    | mk found store =>
      cases found with
      | error e => rfl
      | ok links =>
        cases links with
        | nil => rfl
        | cons link rest =>
          cases saved : saveAll (link :: rest) owner store with
          | mk codes after => cases codes <;> simp [saved, base]

private theorem storeBound_userUrls (owner : Option OwnerId) :
    StoreBound (userUrls (σ := σ) owner) := by
  intro s settings deletion base
  cases owner with
  | none => rfl
  | some owner =>
    simp only [userUrls, ask]
    cases (LinkStore.ownedBy owner : StoreM σ (List LinkRecord)) s.store with
    | mk records store => cases records <;> simp [base]

end Service

namespace Program
open Service
variable {σ : Type} [LinkStore σ] {batch : Option String → Except ProgramError String}
  {owner : Option OwnerId} {command : Command}

omit [LinkStore σ] in
private theorem storeBound_present {α : Type} {m : ServiceM σ α} (bound : StoreBound m)
    (f : α → Except ProgramError String) : StoreBound (present m f) := by
  intro s settings deletion base
  simp only [present, bound s settings deletion base]
  cases m s with
  | mk answer after => cases answer <;> rfl

theorem storeBound_carryOut (quiet : command.request? owner = none) :
    StoreBound (carryOut (σ := σ) batch owner command) := by
  cases command with
  | shorten url => exact storeBound_present (storeBound_shorten url owner) _
  | shortenBatch file =>
    intro s settings deletion base
    simp only [carryOut]
    cases (batch file).bind requests with
    | error e => rfl
    | ok requests => exact storeBound_present (storeBound_shortenBatch requests owner) _ s _ _ base
  | decode key => exact storeBound_present (storeBound_ask _) _
  | list => exact storeBound_present (storeBound_userUrls owner) _
  | delete codes =>
    cases owner with
    | none => exact fun s settings deletion _ => rfl
    | some owner => simp [Command.request?] at quiet
  | ping => exact storeBound_present (storeBound_ask _) _
  | stats => exact storeBound_present (storeBound_ask _) _

variable (batch) in
theorem carryOut_of_request {r : DeleteRequest} (asks : command.request? owner = some r)
    {s : Service σ} (idle : s.deletion.pipeline.drain = .idle) :
    ∃ handed, s.deletion.submit s.settings.pipeline r = .ok handed ∧
      handed.pipeline = s.deletion.pipeline.act s.settings.pipeline (.submit r) ∧
      carryOut batch owner command s = (.ok "", { s with deletion := handed }) := by
  cases command with
  | delete codes =>
    cases owner with
    | none => simp [Command.request?] at asks
    | some owner =>
      simp only [Command.request?, Option.map_some, Option.some.injEq] at asks
      obtain ⟨handed, accepted, pipeline⟩ :=
        s.deletion.submit_of_idle (c := s.settings.pipeline) idle r
      rw [← asks, DeleteRequest.ofCodes] at accepted
      refine ⟨handed, asks ▸ accepted, pipeline, ?_⟩
      simp only [carryOut, present, deleteUrls, accepted]
  | _ => simp [Command.request?] at asks

/-! ## Related stores -/

variable (batch owner command) in
theorem carryOut_alike {τ : Type} [LinkStore τ] {R : σ → τ → Prop} (sim : Simulates R)
    (ping : StoreM.Alike R LinkStore.ping LinkStore.ping) {s : Service σ} {t : Service τ}
    (mirrors : Mirrors R s t) :
    (carryOut batch owner command s).1 = (carryOut batch owner command t).1 ∧
      Mirrors R (carryOut batch owner command s).2 (carryOut batch owner command t).2 := by
  have presented {α : Type} {m : ServiceM σ α} {n : ServiceM τ α} (h : Service.Alike R m n)
      (f : α → Except ProgramError String) :
      (present m f s).1 = (present n f t).1 ∧ Mirrors R (present m f s).2 (present n f t).2 := by
    obtain ⟨same, still⟩ := h s t mirrors
    simp only [present]
    cases first : m s with
    | mk a s' =>
      cases second : n t with
      | mk b t' =>
        rw [first, second] at same still
        simp only at same
        subst same
        cases a <;> exact ⟨rfl, still⟩
  cases command with
  | shorten url => exact presented (alike_shorten sim url owner) _
  | shortenBatch file =>
    simp only [carryOut]
    cases (batch file).bind requests with
    | error e => exact ⟨rfl, mirrors⟩
    | ok requests => exact presented (alike_shortenBatch sim requests owner) _
  | decode key => exact presented (alike_ask (sim.get key)) _
  | list => exact presented (alike_userUrls sim owner) _
  | delete codes => exact presented (alike_deleteUrls codes owner) _
  | ping => exact presented (alike_ask ping) _
  | stats => exact presented (alike_ask sim.stats) _

end Program
end Shortlink
