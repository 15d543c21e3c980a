import Shortlink.Proofs.Deletion.Conservation
/-!
# What the end of a shutdown says

The answer of the first shutdown call can be trusted, and once it has been given nothing happens any
more. Every other call answers at once, also after chunks have been lost.
-/
namespace Shortlink.Pipeline

/-- What a caller may take answers and the stopped state to mean: a call that answers that the
pipeline is drained has seen every chunk passed to the store, and a stopped pipeline deletes nothing
and passes nothing to the store any more. -/
def Trustworthy (c : PipelineConfig) (actions : List Action) : Prop :=
  let p := run c {} actions
  (∀ call, p.outcome? call = some .drained →
      chunksFrom c 0 (accepted c {} actions) ⊆ handed c {} actions) ∧
    (p.phase = .stopped →
      p.flying = [] ∧ ∀ more, handed c p more = [] ∧ (run c p more).recorded = p.recorded)

/-- An answer need not mean that: when the time of the first call runs out, a chunk is given up that
no worker has taken, and the next call answers that the pipeline is drained. -/
theorem not_trustworthy_of_lost_chunk :
    ¬ Trustworthy ⟨⟨1, 2, 1⟩, fun _ => 100⟩
      [.submit ⟨⟨⟨List.replicate 32 0, rfl⟩⟩, [⟨"a0"⟩, ⟨"a1"⟩]⟩, .enter 0 2, .take, .shutDown 10,
        .wait 10, .expire, .shutDown 10] := by
  intro trust
  have chunks := trust.1 1
  simp [run, outcome?, accepted, accepts, handed, hands, chunksFrom, chunksOf,
    DeleteRequest.chunks, DeleteRequest.pieces, act, beginCall, giveUp, Producer.ofChunks,
    Producer.chunks, Producer.request, room, PipelineConfig.queueSize, PipelineConfig.workers]
    at chunks

private theorem outcome?_of_later_call (c : PipelineConfig) {p : Pipeline} (begun : p.drain ≠ .idle)
    (grace : Nat) : (p.act c (.shutDown grace)).outcome? p.calls = some .drained := by
  simp only [act]
  rw [beginCall_of_not_idle _ _ _ _ begun]
  exact List.lookup_cons_self

/-- After the end of the first call nothing is deleted and nothing is passed to the store. -/
theorem quiet_run (c : PipelineConfig) {p : Pipeline} (ended : p.drain = .over)
    (stopped : p.phase = .stopped) (empty : p.isEmpty = true) (more : List Action) :
    (run c p more).drain = .over ∧ (run c p more).phase = .stopped ∧
      (run c p more).isEmpty = true ∧ (run c p more).finished = p.finished ∧
      handed c p more = [] := by
  induction more generalizing p with
  | nil => exact ⟨ended, stopped, empty, rfl, rfl⟩
  | cons a rest ih =>
    obtain ⟨ended', stopped', -⟩ := (act_effect c p a).over ended stopped
    obtain ⟨empty', same, -, untaken, -⟩ := (act_effect c p a).quiet empty (by simp [ended])
    obtain ⟨hover, hphase, hempty, hfinished, hhanded⟩ := ih ended' stopped' empty'
    rw [run_cons, handed, untaken, hhanded]
    exact ⟨hover, hphase, hempty, hfinished.trans same, rfl⟩

theorem stopped_of_answered {c : PipelineConfig} {actions : List Action} {call : Nat}
    (first : firstCall? c {} actions = some call)
    (answered : (run c {} actions).outcome? call ≠ none) :
    (run c {} actions).phase = .stopped ∧ (run c {} actions).waiting? = none := by
  have stage := stage_run c actions
  rw [first] at stage
  cases stage with
  | draining waits refusing early kept =>
    exact absurd (outcome?_eq_none_of_waiting (by rw [waiting?, waits])) answered
  | drained ended stopped empty kept mem => exact ⟨stopped, by rw [waiting?, ended]⟩
  | timedOut ended stopped empty mem => exact ⟨stopped, by rw [waiting?, ended]⟩

theorem over_of_stopped {c : PipelineConfig} {actions : List Action}
    (stopped : (run c {} actions).phase = .stopped)
    (unwaiting : (run c {} actions).waiting? = none) :
    (run c {} actions).drain = .over ∧ (run c {} actions).isEmpty = true := by
  have stage := stage_run c actions
  generalize firstCall? c {} actions = first at stage
  cases stage with
  | accepting idle running silent kept => exact absurd (stopped.symm.trans running) (by simp)
  | draining waits refusing early kept => simp [waiting?, waits] at unwaiting
  | drained ended stopped empty kept answer => exact ⟨ended, empty⟩
  | timedOut ended stopped empty answer => exact ⟨ended, empty⟩

private theorem draining_of_waiting {c : PipelineConfig} {actions : List Action}
    (waiting : (run c {} actions).waiting? ≠ none) (silent : (run c {} actions).outcomes = []) :
    (run c {} actions).phase = .draining := by
  have stage := stage_run c actions
  generalize firstCall? c {} actions = first at stage
  cases stage with
  | accepting idle running silent kept => exact absurd (waiting?_eq_none idle) waiting
  | draining waits refusing early kept =>
    cases phase : (run c {} actions).phase with
    | running => exact absurd phase refusing
    | draining => rfl
    | stopped => exact absurd silent (early phase)
  | drained ended stopped empty kept answer => simp [silent] at answer
  | timedOut ended stopped empty answer => simp [silent] at answer

/-- What answers and the stopped state say in every run. When the first shutdown call answers that
the pipeline is drained, every chunk of every accepted request has been passed to the store. Any
call that begins after it has answered says at once that the pipeline is drained. From the moment
at which the pipeline is stopped and no call waits any more, and so from the answer of the first
call on, it stays stopped, no chunk is being deleted, and none is passed to the store or put on
record. While the first call waits and no other call has answered, it reads as draining. -/
theorem shutdown_final (c : PipelineConfig) (actions : List Action) :
    let p := run c {} actions
    (∀ call, firstCall? c {} actions = some call → p.outcome? call = some .drained →
        (handed c {} actions).Perm (chunksFrom c 0 (accepted c {} actions))) ∧
      (∀ call, firstCall? c {} actions = some call → p.outcome? call ≠ none →
        p.phase = .stopped ∧ p.waiting? = none ∧
          ∀ grace, (p.act c (.shutDown grace)).outcome? p.calls = some .drained) ∧
      (p.phase = .stopped → p.waiting? = none → ∀ more,
        (run c p more).phase = .stopped ∧ (run c p more).flying = [] ∧
          (run c p more).recorded = p.recorded ∧ handed c p more = []) ∧
      (p.waiting? ≠ none → p.outcomes = [] → p.phase = .draining) := by
  intro p
  refine ⟨?_, ?_, ?_, ?_⟩
  · intro call first answer
    exact (perm_of_drained c actions first answer).2
  · intro call first answered
    obtain ⟨stopped, unwaiting⟩ := stopped_of_answered first answered
    obtain ⟨ended, -⟩ := over_of_stopped stopped unwaiting
    refine ⟨stopped, unwaiting, fun grace => outcome?_of_later_call c ?_ grace⟩
    intro idle
    exact absurd (ended.symm.trans idle) (by simp)
  · intro stopped unwaiting more
    obtain ⟨ended, empty⟩ := over_of_stopped stopped unwaiting
    obtain ⟨-, hphase, hempty, hfinished, hhanded⟩ := quiet_run c ended stopped empty more
    obtain ⟨-, -, -, -, hflight⟩ := isEmpty_iff.mp hempty
    refine ⟨hphase, ?_, ?_, hhanded⟩
    · rw [flying, hflight]
      rfl
    · rw [recorded, hfinished]
      rfl
  · exact draining_of_waiting

end Shortlink.Pipeline
