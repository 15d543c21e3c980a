import Shortlink.Proofs.Service.Refinement
import Shortlink.Proofs.Store.State
/-!
# Deletions in any order

However requests are cut into chunks and whichever way the chunks are taken, a drained pipeline leaves
the store that deleting the requests one after another would have left.
-/
namespace Shortlink
open Pipeline LinkTable TableStore

/-- The deletion that a call asks for, if it is one by an identified owner. -/
def ServiceEvent.deletion? : ServiceEvent → Option (OwnerId × List String)
  | deleteUrls codes (some owner) => some (owner, codes)
  | _ => none

/-- Whether an event neither saves a link nor ends the service. -/
def ServiceEvent.savesNothing : ServiceEvent → Bool
  | shorten _ _ | shortenBatch _ _ | shutdown _ | restart _ => false
  | _ => true

def deleteEach {σ : Type} [LinkStore σ] (store : σ) (requests : List DeleteRequest) : σ :=
  requests.foldl (fun store w =>
    ((LinkStore.deleteBatch w.owner w.codes : StoreM σ Nat) store).2) store

private theorem deleteEach_eq {t : LinkTable} (indexed : Indexed t)
    (requests : List DeleteRequest) :
    deleteEach t requests = t.strike requests := by
  induction requests generalizing t with
  | nil => exact (strike_nil t).symm
  | cons w rest ih =>
    have later := ih (indexed.deleteBatch w.owner w.codes)
    rw [deleteBatch_eq indexed, ← strike_append, List.singleton_append] at later
    rw [← later, ← deleteBatch_eq indexed]
    rfl

namespace Service

/-! ## One service -/

/-- The table of a service has been struck by the chunks that are done. -/
structure Deleting (base : LinkTable) (requests : List DeleteRequest) (s : Service LinkTable) :
    Prop where
  indexed : Indexed s.store
  store : s.store = base.strike (s.deletion.pipeline.recorded.map Chunk.work)
  working : Working s.settings.pipeline requests s.deletion.pipeline

section
variable {base : LinkTable} {requests : List DeleteRequest} {s : Service LinkTable}

private theorem deleting_start (indexed : Indexed base) (settings : ServiceSettings) :
    Deleting base [] (start base settings) :=
  ⟨indexed, (strike_nil base).symm, [], rfl, rfl, rfl⟩

theorem Deleting.catchUp (h : Deleting base requests s) {q : Course}
    (grown : s.deletion.pipeline.finished <+: q.pipeline.finished) :
    Indexed (s.catchUp q).store ∧
      (s.catchUp q).store = base.strike (q.pipeline.recorded.map Chunk.work) := by
  obtain ⟨new, whole⟩ := grown
  obtain ⟨later, kept⟩ := store_catchUp h.indexed whole
  refine ⟨kept, ?_⟩
  rw [later, h.store, ← strike_append, recorded, recorded, ← whole, List.map_append,
    List.map_append]

theorem Deleting.elapse (h : Deleting base requests s) (actions : List Action) :
    Deleting base requests (s.elapse actions) := by
  have own : ∀ a ∈ actions.filter Action.isOwn, a.isOwn = true :=
    fun a ha => (List.mem_filter.mp ha).2
  have goes : Goes s.settings.pipeline s.deletion.pipeline
      (s.deletion.act s.settings.pipeline (actions.filter Action.isOwn)).pipeline :=
    ⟨_, rfl, fun a ha => Action.isSubmit_of_isOwn (own a ha)⟩
  obtain ⟨indexed, store⟩ := h.catchUp goes.finished
  exact ⟨indexed, store, h.working.own own⟩

theorem Deleting.deleteUrls (h : Deleting base requests s) (codes : List String) (owner : OwnerId) :
    Deleting base (requests ++ [.ofCodes owner codes])
      (Service.deleteUrls codes (some owner) s).2 := by
  have idle := h.working.idle
  obtain ⟨deletion, accepted, handed⟩ :=
    s.deletion.submit_of_idle (c := s.settings.pipeline) idle (.ofCodes owner codes)
  have same : deletion.pipeline.recorded = s.deletion.pipeline.recorded := by
    simp [handed, act, idle, recorded]
  rw [Service.deleteUrls, ← DeleteRequest.ofCodes, accepted]
  refine ⟨h.indexed, ?_, handed ▸ h.working.submit (.ofCodes owner codes)⟩
  rw [same]
  exact h.store

def requestsOf (events : List ServiceEvent) : List DeleteRequest :=
  (events.filterMap ServiceEvent.deletion?).map fun call => .ofCodes call.1 call.2

theorem Deleting.perform (h : Deleting base requests s) {event : ServiceEvent}
    (saves : event.savesNothing = true) :
    Deleting base (requests ++ requestsOf [event]) (event.perform s).2 := by
  have none (quiet : requestsOf [event] = []) (still : (event.perform s).2 = s) :
      Deleting base (requests ++ requestsOf [event]) (event.perform s).2 := by
    rw [quiet, List.append_nil, still]
    exact h
  cases event with
  | shorten url owner => simp [ServiceEvent.savesNothing] at saves
  | shortenBatch requests owner => simp [ServiceEvent.savesNothing] at saves
  | shutdown grace => simp [ServiceEvent.savesNothing] at saves
  | restart grace => simp [ServiceEvent.savesNothing] at saves
  | decode key => exact none rfl (ask_state _ s)
  | userUrls owner => exact none rfl (userUrls_state owner s)
  | deleteUrls codes owner =>
    cases owner with
    | none => exact none rfl rfl
    | some owner => exact h.deleteUrls codes owner
  | elapse actions =>
    have quiet : requestsOf [ServiceEvent.elapse actions] = [] := rfl
    rw [quiet, List.append_nil]
    exact h.elapse actions

theorem Deleting.after (h : Deleting base requests s) {events : List ServiceEvent}
    (saves : ∀ e ∈ events, e.savesNothing = true) :
    Deleting base (requests ++ requestsOf events) (s.after events) := by
  induction events generalizing s requests with
  | nil =>
    rw [requestsOf, List.filterMap_nil, List.map_nil, List.append_nil]
    exact h
  | cons event rest ih =>
    have first := h.perform (saves event List.mem_cons_self)
    have later := ih first fun e he => saves e (List.mem_cons_of_mem event he)
    have whole : requestsOf (event :: rest) = requestsOf [event] ++ requestsOf rest := by
      rw [requestsOf, requestsOf, requestsOf, ← List.map_append, ← List.filterMap_append]
      rfl
    rw [whole, ← List.append_assoc]
    exact later

theorem Deleting.shutdown (h : Deleting base requests s) {grace : Nat}
    (drained : (s.shutdown grace).1 = some .drained) :
    (s.shutdown grace).2.store = base.strike requests := by
  have goes := Course.goes_shutdown (c := s.settings.pipeline) s.deletion grace
  have begun : Goes s.settings.pipeline s.deletion.pipeline
      (s.deletion.shutdown s.settings.pipeline grace).2.pipeline :=
    .trans ⟨[.shutDown grace], rfl, by simp [Action.isSubmit]⟩ goes
  obtain ⟨-, perm⟩ := h.working.drained goes drained
  have store := (h.catchUp begun.finished).2
  rw [strike_congr (exists_names_iff_of_perm perm)] at store
  exact store

end

/-! ## Any store -/

private theorem related_deleteEach {σ : Type} [LinkStore σ] {R : σ → LinkTable → Prop}
    (sim : Simulates R)
    (requests : List DeleteRequest) {store : σ} {t : LinkTable} (related : R store t) :
    R (deleteEach store requests) (deleteEach t requests) := by
  induction requests generalizing store t with
  | nil => exact related
  | cons w rest ih => exact ih (sim.deleteBatch w.owner w.codes store t related).2

/-- Where deletions are asked for and no link is saved in between, a pipeline that is drained leaves one
and the same table, whatever its sizes are, whatever it does between the calls and in whatever order
the chunks reach the store: the table that deleting the requests one by one leaves. -/
theorem deletions_confluent {σ : Type} [LinkStore σ] [TableStore σ] {store : σ} {t : LinkTable}
    (held : Holds store t) (calls : List (OwnerId × List String)) :
    ∃ t' : LinkTable,
      Holds (deleteEach store (calls.map fun call => .ofCodes call.1 call.2)) t' ∧
      (∀ (settings : ServiceSettings) (events : List ServiceEvent) (grace : Nat),
        (∀ e ∈ events, e.savesNothing = true) → events.filterMap ServiceEvent.deletion? = calls →
        (((start store settings).after events).shutdown grace).1 = some .drained →
        Holds (((start store settings).after events).shutdown grace).2.store t') ∧
      ∀ (c : PipelineConfig) (actions : List Action) (call : Nat) (order : List Chunk),
        accepted c {} actions = calls.map (fun call => .ofCodes call.1 call.2) →
        firstCall? c {} actions = some call →
        (run c {} actions).outcome? call = some .drained → order.Perm (handed c {} actions) →
        Holds (deleteChunks store order) t' := by
  have indexed := TableStore.indexed held
  -- what a link becomes depends on which requests name it, and neither order nor chunks matter to that
  refine ⟨t.strike (calls.map fun call => .ofCodes call.1 call.2), ?_, ?_, ?_⟩
  · rw [← deleteEach_eq indexed]
    exact related_deleteEach simulates _ held
  · intro settings events grace saves same drained
    have mirrors : Mirrors Holds (start store settings) (start t settings) := ⟨held, rfl, rfl⟩
    obtain ⟨-, still⟩ := history_eq_of_mirrors simulates mirrors events
    obtain ⟨answer, ended⟩ := shutdown_alike simulates still grace
    have deleting := (deleting_start indexed settings).after saves
    rw [answer] at drained
    have store := ended.store
    rw [deleting.shutdown drained, List.nil_append, requestsOf, same] at store
    exact store
  · intro c actions call order requests first drained perm
    have whole := (perm_of_drained c actions first drained).2
    rw [requests] at whole
    rw [← strike_congr (exists_names_iff_of_perm (perm.trans whole)), ← (deleteChunks_eq indexed _).1]
    exact related_deleteChunks simulates order held

/-- Some work is done between two calls that name the same codes. -/
def overlappingCalls : List ServiceEvent :=
  [.deleteUrls ["AAAAAAAA", "no code", "BBBBBBBB"] (some .zero), .elapse [.enter 0 1, .take],
    .deleteUrls ["BBBBBBBB", "AAAAAAAA"] (some .zero)]

theorem deletions_confluent_of_overlappingCalls :
    let table := StoreCall.run [.save ⟨⟨"AAAAAAAA"⟩, "http://a.b/"⟩ (some .zero),
      .save ⟨⟨"BBBBBBBB"⟩, "http://c.d/"⟩ (some .zero)] ({} : LinkTable)
    (((start table { sizes := ⟨1, 1, 2⟩ }).after overlappingCalls).shutdown 20000).2.store =
      deleteEach table (([(.zero, ["AAAAAAAA", "no code", "BBBBBBBB"]),
        (.zero, ["BBBBBBBB", "AAAAAAAA"])]).map fun call => .ofCodes call.1 call.2) := by
  intro table
  have held : Holds table table := holds_empty.run _
  obtain ⟨t', ⟨each, -⟩, served, -⟩ := deletions_confluent held
    [(.zero, ["AAAAAAAA", "no code", "BBBBBBBB"]), (.zero, ["BBBBBBBB", "AAAAAAAA"])]
  have drained : (((start table { sizes := ⟨1, 1, 2⟩ }).after overlappingCalls).shutdown
      20000).1 = some .drained := by decide +kernel
  obtain ⟨left, -⟩ := served { sizes := ⟨1, 1, 2⟩ } overlappingCalls 20000 (by decide) rfl drained
  rw [left, each]

end Service
end Shortlink
