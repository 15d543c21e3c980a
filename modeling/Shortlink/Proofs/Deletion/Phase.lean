import Shortlink.Proofs.Deletion.Drain
/-!
# The phases of a pipeline come in one order

A pipeline is running until a shutdown begins, and it never goes back to an earlier phase, however
many calls overlap. What a call does between two of its waits is one action, so a call that finds no
workers to wait for is over as it begins. A request that is refused leaves no trace.
-/
namespace Shortlink

def PipelinePhase.rank : PipelinePhase → Nat
  | running => 0
  | draining => 1
  | stopped => 2

private theorem PipelinePhase.rank_le_two (phase : PipelinePhase) : phase.rank ≤ 2 := by
  cases phase <;> simp [rank]

namespace Pipeline

def begins (p : Pipeline) : Action → Bool
  | .shutDown _ => true
  | .beginAnnounced => !p.announced.isEmpty
  | _ => false

/-- Whether a shutdown call begins in a run. -/
def begun (c : PipelineConfig) (p : Pipeline) : List Action → Bool
  | [] => false
  | a :: rest => p.begins a || begun c (p.act c a) rest

/-! ## One action -/

section
variable {c : PipelineConfig} {p q : Pipeline} {a : Action}

private theorem beginCall_drain_ne_idle (p : Pipeline) (call grace turn : Nat) :
    (p.beginCall call grace turn).drain ≠ .idle := by
  by_cases idle : p.drain = .idle
  · rw [beginCall_of_idle _ _ _ _ idle]
    simp
  · rw [beginCall_of_not_idle _ _ _ _ idle]
    exact idle

private theorem act_of_refused (busy : p.drain ≠ .idle) (r : DeleteRequest) :
    p.act c (.submit r) = p := if_neg busy

theorem Effect.phase (h : Effect c p a q) (busy : p.drain ≠ .idle) :
    q.phase = p.phase ∨ q.phase = .stopped := by
  cases h with
  | shutDown =>
    rw [beginCall_of_not_idle _ _ _ _ busy]
    exact .inr rfl
  | beginAnnounced first =>
    rw [beginCall_of_not_idle _ _ _ _ busy]
    exact .inr rfl
  | expire waits due => exact .inr rfl
  | drained waits empty => exact .inr rfl
  | _ => exact .inl rfl

private theorem Stage.rank_le {first : Option Nat} (stage : Stage p first) (h : Effect c p a q) :
    p.phase.rank ≤ q.phase.rank := by
  by_cases idle : p.drain = .idle
  · rw [stage.running_iff_idle.mpr idle]
    exact Nat.zero_le _
  · rcases h.phase idle with same | stopped
    · exact Nat.le_of_eq (by rw [same])
    · rw [stopped]
      exact p.phase.rank_le_two

private theorem act_drain_eq_idle_iff (c : PipelineConfig) (p : Pipeline) (a : Action) :
    (p.act c a).drain = .idle ↔ p.drain = .idle ∧ p.begins a = false := by
  by_cases starts : p.begins a = true
  · have busy : (p.act c a).drain ≠ .idle := by
      cases a with
      | shutDown grace => exact beginCall_drain_ne_idle p p.calls grace 0
      | beginAnnounced =>
        cases first : p.announced with
        | nil => simp [begins, first] at starts
        | cons call others =>
          simp only [act, first]
          exact beginCall_drain_ne_idle p call.call call.grace (p.turns + 1)
      | _ => simp [begins] at starts
    simp [busy, starts]
  · have own : p.begins a = false := by simpa using starts
    have same : (p.act c a).drain = .idle ↔ p.drain = .idle := by
      have effect := act_effect c p a
      generalize p.act c a = q at effect
      cases effect with
      | nothing refused untaken => rfl
      | shutDown => simp [begins] at own
      | beginAnnounced first => simp [begins, first] at own
      | expire waits due => simp [giveUp, waits]
      | drained waits empty => simp [waits]
      | _ => rfl
    rw [same, own]
    simp

end

/-! ## Runs -/

private theorem drain_run_eq_idle_iff (c : PipelineConfig) (p : Pipeline) (actions : List Action) :
    (run c p actions).drain = .idle ↔ p.drain = .idle ∧ begun c p actions = false := by
  induction actions generalizing p with
  | nil => simp [run, begun]
  | cons a rest ih =>
    rw [run_cons, ih, act_drain_eq_idle_iff, begun, Bool.or_eq_false_iff, and_assoc]

private theorem Stage.rank_le_run (c : PipelineConfig) {p : Pipeline} {first : Option Nat}
    (stage : Stage p first) (more : List Action) :
    p.phase.rank ≤ (Pipeline.run c p more).phase.rank := by
  induction more generalizing p first with
  | nil => exact Nat.le_refl _
  | cons a rest ih =>
    have effect := act_effect c p a
    exact Nat.le_trans (stage.rank_le effect) (ih (effect.stage stage))

private theorem running_iff_not_begun (c : PipelineConfig) (actions : List Action) :
    (run c {} actions).phase = .running ↔ begun c {} actions = false := by
  rw [(stage_run c actions).running_iff_idle, drain_run_eq_idle_iff]
  exact and_iff_right rfl

private theorem handed_append (c : PipelineConfig) (p : Pipeline) (as bs : List Action) :
    handed c p (as ++ bs) = handed c p as ++ handed c (run c p as) bs := by
  induction as generalizing p with
  | nil => rfl
  | cons a as ih => rw [List.cons_append, handed, handed, ih, run_cons, List.append_assoc]

private theorem handed_subset (c : PipelineConfig) (actions : List Action) :
    handed c {} actions ⊆ chunksFrom c 0 (accepted c {} actions) := by
  intro chunk passed
  have bound := count_handed_run c {} actions chunk
  have once : 0 < (handed c {} actions).count chunk := List.count_pos_iff.mpr passed
  simp only [held, List.append_nil, List.flatMap_nil, List.count_nil] at bound
  exact List.count_pos_iff.mp (by omega)

/-- A refused request leaves no trace: the run goes on, and chunks are accepted and reach the store,
as if it had not been handed in. -/
theorem refused_leaves_no_trace (c : PipelineConfig) {past : List Action}
    (busy : (run c {} past).drain ≠ .idle) (r : DeleteRequest) (more : List Action) :
    run c {} (past ++ .submit r :: more) = run c {} (past ++ more) ∧
      handed c {} (past ++ .submit r :: more) = handed c {} (past ++ more) ∧
      accepted c {} (past ++ .submit r :: more) = accepted c {} (past ++ more) := by
  have same : (run c {} past).act c (.submit r) = run c {} past := act_of_refused busy r
  refine ⟨?_, ?_, ?_⟩
  · rw [run_append, run_append, run_cons, same]
  · rw [handed_append, handed_append, handed, same]
    rfl
  · rw [accepted_append, accepted_append, accepted, same]
    simp [accepts, busy]

end Pipeline

namespace Course
open Pipeline

private theorem submit_eq_ok_iff (c : PipelineConfig) (s : Course) (r : DeleteRequest) :
    (∃ after, s.submit c r = .ok after ∧ after.pipeline = s.pipeline.act c (.submit r) ∧
      s.pipeline.accepts (.submit r) = [r]) ↔ s.pipeline.drain = .idle := by
  constructor
  · intro answered
    by_contra busy
    obtain ⟨after, answer, -⟩ := answered
    rw [s.submit_of_not_idle busy] at answer
    exact absurd answer (by simp)
  · intro idle
    obtain ⟨after, answer, entered⟩ := s.submit_of_idle idle r
    exact ⟨after, answer, entered, if_pos idle⟩

private theorem submit_eq_closed_iff (c : PipelineConfig) (s : Course) (r : DeleteRequest) :
    s.submit c r = .error .closed ↔ s.pipeline.drain ≠ .idle := by
  constructor
  · intro refused idle
    obtain ⟨after, answer, -⟩ := s.submit_of_idle idle r
    rw [answer] at refused
    exact absurd refused (by simp)
  · intro busy
    exact s.submit_of_not_idle busy r

end Course

/-- The life of a pipeline goes one way. However submits, shutdown calls and the work of the
pipeline itself follow each other, the phase that is read never goes back. It is running exactly as
long as no shutdown call has begun, and just so long a submit is answered with success, whatever codes it
names and however full the queue is. When a submit is refused, all later states and all chunks that
ever reach the store are those of the run without it, chunks of accepted requests only. -/
theorem Pipeline.phases_one_way (c : PipelineConfig) (past : List Pipeline.Action) :
    let p := Pipeline.run c {} past
    (∀ more, p.phase.rank ≤ (Pipeline.run c p more).phase.rank) ∧
      (p.phase = .running ↔ Pipeline.begun c {} past = false) ∧
      ∀ (s : Course) (r : DeleteRequest),
        let answer := { s with pipeline := p }.submit c r
        ((∃ after, answer = .ok after ∧ after.pipeline = p.act c (.submit r) ∧
            p.accepts (.submit r) = [r]) ↔ p.phase = .running) ∧
          (answer = .error .closed ↔ p.phase ≠ .running) ∧
          (answer = .error .closed → ∀ more,
            Pipeline.run c {} (past ++ .submit r :: more) = Pipeline.run c {} (past ++ more) ∧
              Pipeline.handed c {} (past ++ .submit r :: more) =
                Pipeline.handed c {} (past ++ more) ∧
              Pipeline.handed c {} (past ++ .submit r :: more) ⊆
                Pipeline.chunksFrom c 0 (Pipeline.accepted c {} (past ++ more))) := by
  intro p
  refine ⟨?_, Pipeline.running_iff_not_begun c past, ?_⟩
  · intro more
    exact (Pipeline.stage_run c past).rank_le_run c more
  · intro s r
    have agree : p.phase = .running ↔ p.drain = .idle :=
      (Pipeline.stage_run c past).running_iff_idle
    have closed := Course.submit_eq_closed_iff c { s with pipeline := p } r
    refine ⟨?_, ?_, ?_⟩
    · rw [agree]
      exact Course.submit_eq_ok_iff c { s with pipeline := p } r
    · exact closed.trans agree.not.symm
    intro refused more
    rw [closed] at refused
    obtain ⟨later, passed, requests⟩ := Pipeline.refused_leaves_no_trace c refused r more
    have known := Pipeline.handed_subset c (past ++ .submit r :: more)
    rw [requests] at known
    exact ⟨later, passed, known⟩

end Shortlink
