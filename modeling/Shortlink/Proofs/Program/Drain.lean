import Shortlink.Proofs.Deletion.Turns
import Shortlink.Proofs.Deletion.WorkedOff
import Shortlink.Proofs.Program.File
/-!
# Commands and their deletions

A program that waits long enough ends with the deletions of its command done, and a service can
always do those that it has been asked for. Both then leave the store that the command leaves.
-/
namespace Shortlink
open Pipeline Service FileStore

/-- Whether the program waits long enough: when it ends, no chunk of its deletion is left or has
been given up. -/
def Invocation.Drains (i : Invocation) : Prop :=
  ∀ r, i.command.request? i.owner = some r →
    ∀ handed, (Course.start i.service.pipeline).submit i.service.pipeline r = .ok handed →
      let ended := (handed.shutdown i.service.pipeline (1000 * i.graceSecs)).2.pipeline
      ended.isEmpty = true ∧ ended.lost = []

namespace Program

/-- Time has passed, and all deletions have been done, in the order in which they were asked for. -/
def Drained {σ : Type} [LinkStore σ] (s t : Service σ) : Prop :=
  ∃ actions, t = s.elapse actions ∧ t.deletion.pipeline.isEmpty = true ∧
    t.deletion.pipeline.recorded.Pairwise Chunk.Before

/-! ## One run of the program -/

private theorem simulates_file : Simulates fun (a : Storage) (s : FileStore) => a = .file s where
  get _ _ _ same := by rw [same]; exact ⟨rfl, rfl⟩
  ownedBy _ _ _ same := by rw [same]; exact ⟨rfl, rfl⟩
  stats _ _ same := by rw [same]; exact ⟨rfl, rfl⟩
  save _ _ _ _ same := by rw [same]; exact ⟨rfl, rfl⟩
  saveBatch _ _ _ _ same := by rw [same]; exact ⟨rfl, rfl⟩
  deleteBatch _ _ _ _ same := by rw [same]; exact ⟨rfl, rfl⟩

private theorem store_catchUp_eq {σ : Type} [LinkStore σ] (s : Service σ) (q : Course) :
    (s.catchUp q).store = deleteChunks s.store
      (q.pipeline.recorded.drop s.deletion.pipeline.recorded.length) := by
  simp only [catchUp, recorded, List.map_drop, List.length_map]

private theorem store_shutdown_of_new {σ : Type} [LinkStore σ] {s : Service σ}
    (new : s.deletion.pipeline = {}) (grace : Nat) : (s.shutdown grace).2.store = s.store := by
  have begins : Goes s.settings.pipeline {} (({} : Pipeline).act s.settings.pipeline
      (.shutDown grace)) := ⟨[.shutDown grace], rfl, by simp [Action.isSubmit]⟩
  have ends := Course.goes_shutdown (c := s.settings.pipeline) s.deletion grace
  rw [new] at ends
  have nothing := ((idle_new s.settings.pipeline).goes (begins.trans ends)).2
  rw [Service.shutdown]
  simp only [store_catchUp_eq, recorded, nothing, new]
  rfl

section
variable {i : Invocation} {path base : String} {input : ByteArray} {disk after : Disk}
  {store : FileStore}

private theorem invoke_file (setting : i.storage = .file path)
    (opened : FileStore.open disk path = (.ok store, after)) :
    invoke i input disk =
      ((carryOut (batchText store.disk input) i.owner i.command (Service.start store i.service)).1,
        ((carryOut (batchText store.disk input) i.owner i.command
          (Service.start store i.service)).2.shutdown (1000 * i.graceSecs)).2.store.disk) := by
  have ready : Storage.open disk i.storage = (.ok (.file store), after) := by
    simp only [Storage.open, setting, opened]
    rfl
  have mirrors : Mirrors (fun (a : Storage) (s : FileStore) => a = .file s)
      (Service.start (Storage.file store) i.service) (Service.start store i.service) :=
    ⟨rfl, rfl, rfl⟩
  have ping : StoreM.Alike (fun (a : Storage) (s : FileStore) => a = .file s) LinkStore.ping
      LinkStore.ping := by
    intro a s same
    subst same
    exact ⟨rfl, rfl⟩
  obtain ⟨same, still⟩ := carryOut_alike (batchText store.disk input) i.owner i.command
    simulates_file ping mirrors
  have ended := (shutdown_alike simulates_file still (1000 * i.graceSecs)).2.store
  rw [invoke, ready]
  exact Prod.ext same (congrArg Storage.disk ended)

/-- A run that drains leaves the store that its command leaves. -/
theorem invoke_eq_outcome (setting : i.storage = .file path)
    (opened : FileStore.open disk path = (.ok store, after)) (drains : i.Drains) :
    invoke i input disk =
      ((outcome (batchText store.disk input) i.owner i.command i.service.baseUrl store).1,
        (outcome (batchText store.disk input) i.owner i.command i.service.baseUrl store).2.disk) := by
  rw [invoke_file setting opened]
  cases asks : i.command.request? i.owner with
  | none =>
    have carried : carryOut (batchText store.disk input) i.owner i.command
        (Service.start store i.service) = _ := outcome_of_quiet asks rfl
    rw [carried]
    refine Prod.ext rfl (congrArg FileStore.disk ?_)
    exact store_shutdown_of_new rfl _
  | some r =>
    have idle : (Service.start store i.service).deletion.pipeline.drain = .idle := rfl
    obtain ⟨handed, submitted, pipeline, carried⟩ :=
      carryOut_of_request (batchText store.disk input) asks idle
    obtain ⟨empty, kept⟩ := drains r asks handed submitted
    have recorded := Course.recorded_shutdown (fun _ => rfl) submitted empty kept
    -- the pipeline is new, so all that it has recorded in the end are the chunks of this request
    have none : handed.pipeline.recorded = [] := by
      rw [pipeline, recorded_submit]
      rfl
    have readable : store.Readable := exists_read_of_open opened
    have deleted := readable.deleteChunks_chunksOf i.service.pipeline 0 r
    rw [carried, outcome_of_request asks, ← deleted]
    refine Prod.ext rfl (congrArg FileStore.disk ?_)
    refine (store_catchUp_eq _ _).trans ?_
    rw [none, List.length_nil, List.drop_zero]
    exact congrArg (Service.deleteChunks store) recorded

end

/-! ## One command of the service -/

/-- All deletions are done, in the order in which they were asked for. -/
def AtRest (s : Service FileStore) : Prop :=
  ∃ requests, WorkedOff s.settings.pipeline requests s.deletion.pipeline

theorem atRest_start (store : FileStore) (settings : ServiceSettings) :
    AtRest (Service.start store settings) := ⟨[], workedOff_new _⟩

section
variable {s t u : Service FileStore} {requests more : List DeleteRequest}

/-- What a service has been asked for since it was at rest is deleted when it is at rest again. -/
theorem drained_eq (working : Working t.settings.pipeline (requests ++ more) t.deletion.pipeline)
    (recorded : t.deletion.pipeline.recorded = chunksFrom t.settings.pipeline 0 requests)
    (drained : Drained t u) :
    u.settings = t.settings ∧ AtRest u ∧
      u.store = deleteChunks t.store (chunksFrom t.settings.pipeline requests.length more) := by
  obtain ⟨actions, rfl, empty, order⟩ := drained
  have own : ∀ a ∈ actions.filter Action.isOwn, a.isOwn = true := by simp
  have off := (working.own own).workedOff empty order
  refine ⟨rfl, ⟨_, off⟩, ?_⟩
  have all : (t.deletion.act t.settings.pipeline (actions.filter Action.isOwn)).pipeline.recorded =
      chunksFrom t.settings.pipeline 0 (requests ++ more) := off.recorded
  rw [elapse, store_catchUp_eq, all, recorded, chunksFrom_append, List.drop_left, Nat.zero_add]

private theorem exists_drained {actions : List Action} (own : ∀ a ∈ actions, a.isOwn = true)
    (off : WorkedOff t.settings.pipeline requests
      (Pipeline.run t.settings.pipeline t.deletion.pipeline actions)) :
    ∃ u, Drained t u := by
  have kept : actions.filter Action.isOwn = actions := List.filter_eq_self.mpr own
  have reached : (t.elapse actions).deletion.pipeline =
      Pipeline.run t.settings.pipeline t.deletion.pipeline actions := by
    rw [elapse, kept]
    rfl
  refine ⟨_, actions, rfl, ?_, ?_⟩
  · rw [reached]
    exact off.empty
  · rw [reached, off.recorded]
    exact pairwise_chunksFrom _ _ _

/-- Carrying out a command and draining leaves the store that the command leaves. -/
theorem served_eq_outcome (rest : AtRest s) (readable : s.store.Readable)
    (batch : Option String → Except ProgramError String) (owner : Option OwnerId)
    (command : Command) :
    (carryOut batch owner command s).1 =
        (outcome batch owner command s.settings.baseUrl s.store).1 ∧
      (∃ u, Drained (carryOut batch owner command s).2 u) ∧
      ∀ u, Drained (carryOut batch owner command s).2 u →
        u.settings = s.settings ∧ AtRest u ∧
        u.store = (outcome batch owner command s.settings.baseUrl s.store).2 := by
  obtain ⟨requests, off⟩ := rest
  cases asks : command.request? owner with
  | none =>
    have carried : carryOut batch owner command s = _ := outcome_of_quiet asks rfl
    rw [carried]
    refine ⟨rfl, exists_drained (List.forall_mem_nil _) off, ?_⟩
    intro u drained
    have working : Working s.settings.pipeline (requests ++ []) s.deletion.pipeline := by
      rw [List.append_nil]
      exact off.working
    exact drained_eq
      (t := { s with store := (outcome batch owner command s.settings.baseUrl s.store).2 })
      working off.recorded drained
  | some r =>
    obtain ⟨handed, submitted, pipeline, carried⟩ := carryOut_of_request batch asks off.working.idle
    obtain ⟨actions, own, onward⟩ := off.exists_run (fun _ => rfl) r
    have working := off.working.submit r
    rw [← pipeline] at onward working
    have recorded : handed.pipeline.recorded = chunksFrom s.settings.pipeline 0 requests := by
      rw [pipeline, recorded_submit, off.recorded]
    rw [carried, outcome_of_request asks]
    refine ⟨rfl, exists_drained own onward, ?_⟩
    intro u drained
    obtain ⟨settings, rest, store⟩ := drained_eq working recorded drained
    refine ⟨settings, rest, store.trans ?_⟩
    -- the service has cut the request into other chunks, with other numbers, than the program does
    have one : chunksFrom s.settings.pipeline requests.length [r] =
        chunksOf s.settings.pipeline requests.length r := List.append_nil _
    rw [← readable.deleteChunks_chunksOf s.settings.pipeline requests.length r]
    exact congrArg _ one

end

end Program
end Shortlink
