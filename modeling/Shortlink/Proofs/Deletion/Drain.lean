import Shortlink.Proofs.Deletion.Course
import Shortlink.Proofs.Deletion.Request
import Shortlink.Proofs.Deletion.Shutdown
/-!
# From a request to the end of its shutdown

A pipeline that has been handed nothing, or that has ended, finishes no chunk. One that has requests
finishes some of their chunks as time goes on, and all of them before a shutdown answers that it is
drained.
-/
namespace Shortlink.Pipeline

def Action.isOwn : Action → Bool
  | .submit _ | .shutDown _ | .announce _ | .beginAnnounced => false
  | _ => true

theorem Action.isSubmit_of_isOwn {a : Action} (own : a.isOwn = true) : a.isSubmit = false := by
  cases a <;> first | rfl | simp [isOwn] at own

/-- A pipeline that has no chunks and gets none before a new request. -/
def Idle (c : PipelineConfig) (p : Pipeline) : Prop :=
  ∃ actions, p = run c {} actions ∧
    (accepted c {} actions = [] ∨ p.drain = .over ∧ p.phase = .stopped ∧ p.isEmpty = true)

/-- A pipeline that has accepted these requests, and no shutdown has begun. -/
def Working (c : PipelineConfig) (requests : List DeleteRequest) (p : Pipeline) : Prop :=
  ∃ actions, p = run c {} actions ∧ accepted c {} actions = requests ∧ p.drain = .idle

theorem idle_new (c : PipelineConfig) : Idle c {} := ⟨[], rfl, .inl rfl⟩

/-! ## One action -/

section
variable {c : PipelineConfig} {p q : Pipeline} {a : Action}

theorem Effect.finished (h : Effect c p a q) : p.finished <+: q.finished := by
  cases h with
  | finish found due => exact List.prefix_append _ _
  | shutDown => simp
  | beginAnnounced first => simp
  | _ => exact List.prefix_refl _

theorem Effect.idle (h : Effect c p a q) (own : a.isOwn = true) (idle : p.drain = .idle) :
    q.drain = .idle := by
  cases h with
  | shutDown => simp [Action.isOwn] at own
  | beginAnnounced first => simp [Action.isOwn] at own
  | expire waits due => exact absurd (idle.symm.trans waits) (by simp)
  | drained waits empty => exact absurd (idle.symm.trans waits) (by simp)
  | _ => exact idle

end

/-! ## Runs -/

section
variable {c : PipelineConfig} {p q : Pipeline}

theorem run_snoc (c : PipelineConfig) (p : Pipeline) (actions : List Action) (a : Action) :
    run c p (actions ++ [a]) = (run c p actions).act c a :=
  run_append c p actions [a]

private theorem finished_run (c : PipelineConfig) (p : Pipeline) (actions : List Action) :
    p.finished <+: (run c p actions).finished := by
  induction actions generalizing p with
  | nil => exact List.prefix_refl _
  | cons a rest ih => exact (act_effect c p a).finished.trans (ih (p.act c a))

theorem Goes.finished (goes : Goes c p q) : p.finished <+: q.finished := by
  obtain ⟨actions, rfl, -⟩ := goes
  exact finished_run c p actions

private theorem drain_run_own (idle : p.drain = .idle) {actions : List Action}
    (own : ∀ a ∈ actions, a.isOwn = true) : (run c p actions).drain = .idle := by
  induction actions generalizing p with
  | nil => exact idle
  | cons a rest ih =>
    have first := (act_effect c p a).idle (own a List.mem_cons_self) idle
    exact ih first fun b hb => own b (List.mem_cons_of_mem a hb)

private theorem firstCall?_append (c : PipelineConfig) (p : Pipeline) (as bs : List Action) :
    firstCall? c p (as ++ bs) = (firstCall? c p as).or (firstCall? c (run c p as) bs) := by
  induction as generalizing p with
  | nil =>
    cases bs with
    | nil => cases h : p.waiting? <;> simp [firstCall?, run, h]
    | cons b bs => cases h : p.waiting? <;> simp [firstCall?, run, h]
  | cons a as ih => rw [List.cons_append, firstCall?, firstCall?, ih, run_cons, Option.or_assoc]

private theorem firstCall?_of_waiting {call : Nat} (waits : p.waiting? = some call)
    (actions : List Action) :
    firstCall? c p actions = some call := by
  cases actions <;> simp [firstCall?, waits]

private theorem recorded_eq_nil {actions : List Action} (nothing : accepted c {} actions = []) :
    (run c {} actions).recorded = [] := by
  have none := places_perm c actions
  rw [nothing, chunksFrom, List.perm_nil] at none
  simp only [places, List.append_eq_nil_iff] at none
  exact none.1.2

theorem Working.idle {requests : List DeleteRequest} (h : Working c requests p) :
    p.drain = .idle := by
  obtain ⟨-, -, -, idle⟩ := h
  exact idle

theorem Idle.goes (h : Idle c p) (goes : Goes c p q) : Idle c q ∧ q.finished = p.finished := by
  obtain ⟨actions, rfl, last⟩ := h
  obtain ⟨more, rfl, silent⟩ := goes
  rw [← run_append]
  rcases last with nothing | ⟨ended, stopped, empty⟩
  · have still : accepted c {} (actions ++ more) = [] := by
      rw [accepted_append, nothing, accepted_of_silent c silent]
      rfl
    have before := recorded_eq_nil nothing
    have after := recorded_eq_nil still
    rw [recorded, List.map_eq_nil_iff] at before after
    exact ⟨⟨actions ++ more, rfl, .inl still⟩, after.trans before.symm⟩
  · have quiet := quiet_run c ended stopped empty more
    rw [← run_append] at quiet
    obtain ⟨ended', stopped', empty', same, -⟩ := quiet
    exact ⟨⟨actions ++ more, rfl, .inr ⟨ended', stopped', empty'⟩⟩, same⟩

theorem Idle.submit (h : Idle c p) (idle : p.drain = .idle) (r : DeleteRequest) :
    Working c [r] (p.act c (.submit r)) ∧ p.recorded = [] := by
  obtain ⟨actions, rfl, last⟩ := h
  rcases last with nothing | ⟨ended, -, -⟩
  · refine ⟨⟨actions ++ [.submit r], (run_snoc ..).symm, ?_, ?_⟩, recorded_eq_nil nothing⟩
    · simp [accepted_append, nothing, accepted, accepts, idle]
    · simp [act, idle]
  · exact absurd (ended.symm.trans idle) (by simp)

theorem Working.submit {requests : List DeleteRequest} (h : Working c requests p)
    (r : DeleteRequest) : Working c (requests ++ [r]) (p.act c (.submit r)) := by
  obtain ⟨actions, rfl, rfl, idle⟩ := h
  refine ⟨actions ++ [.submit r], (run_snoc ..).symm, ?_, ?_⟩
  · simp [accepted_append, accepted, accepts, idle]
  · simp [act, idle]

theorem Working.own {requests : List DeleteRequest} (h : Working c requests p)
    {actions : List Action} (own : ∀ a ∈ actions, a.isOwn = true) :
    Working c requests (run c p actions) := by
  obtain ⟨past, rfl, rfl, idle⟩ := h
  have silent : ∀ a ∈ actions, a.isSubmit = false :=
    fun a ha => Action.isSubmit_of_isOwn (own a ha)
  refine ⟨past ++ actions, (run_append ..).symm, ?_, drain_run_own idle own⟩
  rw [accepted_append, accepted_of_silent c silent, List.append_nil]

/-- The first shutdown that answers that the pipeline is drained has seen every chunk done. -/
theorem Working.drained {requests : List DeleteRequest} (h : Working c requests p) {grace : Nat}
    (goes : Goes c (p.act c (.shutDown grace)) q) (answer : q.outcome? p.calls = some .drained) :
    Idle c q ∧ q.recorded.Perm (chunksFrom c 0 requests) := by
  obtain ⟨past, rfl, rfl, idle⟩ := h
  obtain ⟨more, rfl, silent⟩ := goes
  have whole : run c {} (past ++ .shutDown grace :: more) =
      run c ((run c {} past).act c (.shutDown grace)) more := run_append ..
  have waits : ((run c {} past).act c (.shutDown grace)).waiting? = some (run c {} past).calls := by
    simp only [act]
    rw [beginCall_of_idle _ _ _ _ idle]
    rfl
  have first : firstCall? c {} (past ++ .shutDown grace :: more) = some (run c {} past).calls := by
    rw [firstCall?_append, ((stage_run c past).of_idle idle).1, firstCall?, waiting?_eq_none idle,
      firstCall?_of_waiting waits]
    rfl
  have requests : accepted c {} (past ++ .shutDown grace :: more) = accepted c {} past := by
    rw [accepted_append, accepted, accepted_of_silent c silent]
    simp [accepts]
  rw [← whole] at answer ⊢
  have done := (perm_of_drained c _ first answer).1
  obtain ⟨stopped, unwaiting⟩ := stopped_of_answered first (by rw [answer]; simp)
  obtain ⟨ended, empty⟩ := over_of_stopped stopped unwaiting
  exact ⟨⟨_, rfl, .inr ⟨ended, stopped, empty⟩⟩, requests ▸ done⟩

end
end Shortlink.Pipeline
