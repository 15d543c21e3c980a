import Shortlink.Deletion.Course
import Shortlink.Proofs.Deletion.Accounting
/-!
# The course of a pipeline is a run

Whatever a course does by itself it does by actions of the pipeline, and none of them hands in a
request. What holds of all runs therefore holds of every course.
-/
namespace Shortlink

namespace Pipeline

theorem accepted_append (c : PipelineConfig) (p : Pipeline) (as bs : List Action) :
    accepted c p (as ++ bs) = accepted c p as ++ accepted c (run c p as) bs := by
  induction as generalizing p with
  | nil => rfl
  | cons a as ih => rw [List.cons_append, accepted, accepted, ih, run_cons, List.append_assoc]

def Action.isSubmit : Action → Bool
  | .submit _ => true
  | _ => false

theorem accepted_of_silent (c : PipelineConfig) {actions : List Action}
    (silent : ∀ a ∈ actions, a.isSubmit = false) (p : Pipeline) : accepted c p actions = [] := by
  induction actions generalizing p with
  | nil => rfl
  | cons a rest ih =>
    have first : p.accepts a = [] := by
      have here := silent a List.mem_cons_self
      cases a <;> simp [Action.isSubmit] at here <;> rfl
    rw [accepted, first, ih fun b hb => silent b (List.mem_cons_of_mem a hb)]
    rfl

/-- A pipeline goes on to another state by itself. -/
def Goes (c : PipelineConfig) (p q : Pipeline) : Prop :=
  ∃ actions, q = run c p actions ∧ ∀ a ∈ actions, a.isSubmit = false

theorem Goes.refl (c : PipelineConfig) (p : Pipeline) : Goes c p p := ⟨[], rfl, by simp⟩

theorem Goes.trans {c : PipelineConfig} {p q r : Pipeline} (pq : Goes c p q) (qr : Goes c q r) :
    Goes c p r := by
  obtain ⟨as, rfl, ha⟩ := pq
  obtain ⟨bs, rfl, hb⟩ := qr
  refine ⟨as ++ bs, (run_append c p as bs).symm, fun a h => ?_⟩
  exact (List.mem_append.mp h).elim (ha a) (hb a)

end Pipeline

namespace Course
open Pipeline
variable {c : PipelineConfig}

private theorem goes_act (s : Course) {actions : List Action}
    (silent : ∀ a ∈ actions, a.isSubmit = false) :
    Goes c s.pipeline (s.act c actions).pipeline :=
  ⟨actions, rfl, silent⟩

@[simp] theorem pipeline_plan (s : Course) (turns : List Turn) :
    (s.plan turns).pipeline = s.pipeline := rfl

@[simp] theorem pipeline_rouse (s : Course) : s.rouse.pipeline = s.pipeline := by
  rw [rouse]
  split <;> rfl

private theorem goes_look (s : Course) : Goes c s.pipeline (s.look c).pipeline := by
  rw [look]
  split
  · exact .refl c _
  · extract_lets called t
    have taken : Goes c s.pipeline t.pipeline := s.goes_act (by simp [Action.isSubmit])
    split <;> exact taken

private theorem goes_seek (s : Course) : Goes c s.pipeline (s.seek c).pipeline := by
  rw [seek]
  split
  · exact s.goes_look
  · exact .refl c _

private theorem goes_feed (s : Course) (request : Nat) :
    Goes c s.pipeline (s.feed c request).pipeline := by
  unfold feed
  extract_lets before arrived fed count entered roused
  have reached : Goes c s.pipeline fed :=
    ⟨[.arrive request, .enter request _], rfl, by simp [Action.isSubmit]⟩
  have kept : roused.pipeline = fed := by
    simp only [roused]
    split <;> simp [entered]
  split
  · rw [kept]
    exact reached
  split
  · rw [kept]
    exact reached
  · have onward : Goes c roused.pipeline (roused.act c [.lineUp request]).pipeline :=
      roused.goes_act (by simp [Action.isSubmit])
    rw [kept] at onward
    exact reached.trans onward

private theorem goes_take (s : Course) (turn : Turn) :
    Goes c s.pipeline (s.take c turn).pipeline := by
  cases turn with
  | worker => exact s.goes_seek
  | first => exact s.goes_look
  | done timer => exact (s.goes_act (by simp [Action.isSubmit])).trans (goes_seek _)
  | producer request => exact s.goes_feed request
  | call =>
    rw [take]
    split
    · refine s.goes_act ?_
      intro a ha
      simp only [atOnce, List.mem_cons] at ha
      rcases ha with rfl | ha
      · rfl
      · split at ha <;> simp at ha
        subst ha
        rfl
    · exact .refl c _
  | deadline => exact s.goes_act (by simp [Action.isSubmit])

private theorem goes_takeTurns (n : Nat) (s : Course) :
    Goes c s.pipeline (takeTurns c n s).pipeline := by
  induction n generalizing s with
  | zero => exact .refl c _
  | succ n ih =>
    rw [takeTurns]
    split
    · exact .refl c _
    · next turn rest _ => exact (goes_take { s with agenda := rest } turn).trans (ih _)

private theorem goes_round (s : Course) : Goes c s.pipeline (s.round c).pipeline :=
  goes_takeTurns roundLength s

private theorem goes_step? {s next : Course} (h : s.step? c = some next) :
    Goes c s.pipeline next.pipeline := by
  rw [step?] at h
  split at h
  · rw [← Option.some.inj h]
    exact s.goes_round
  split at h
  · rw [← Option.some.inj h]
    exact .refl c _
  split at h
  · rw [← Option.some.inj h]
    exact s.goes_act (by simp [Action.isSubmit])
  · simp at h

theorem goes_settleWithin (enough : Pipeline → Bool) (steps : Nat) (s : Course) :
    Goes c s.pipeline (s.settleWithin c enough steps).pipeline := by
  induction steps generalizing s with
  | zero => exact .refl c _
  | succ n ih =>
    rw [settleWithin]
    split
    · exact .refl c _
    split
    · exact .refl c _
    · next next step => exact (goes_step? step).trans (ih next)

theorem goes_advance (s : Course) (moment : Nat) :
    Goes c s.pipeline (s.advance c moment).pipeline :=
  s.goes_act (by simp [Action.isSubmit])

private theorem goes_goTo (call bound steps : Nat) (s : Course) :
    Goes c s.pipeline (goTo c call bound steps s).pipeline := by
  induction steps generalizing s with
  | zero => exact .refl c _
  | succ n ih =>
    have settled := goes_settleWithin (c := c) (fun p => (p.outcome? call).isSome) bound s
    rw [goTo]
    split
    · exact settled
    split
    · exact settled.trans ((goes_advance _ _).trans (ih _))
    · exact settled

theorem goes_goUntil (moment bound steps : Nat) (s : Course) :
    Goes c s.pipeline (goUntil c moment bound steps s).pipeline := by
  induction steps generalizing s with
  | zero => exact goes_advance _ _
  | succ n ih =>
    have settled := goes_settleWithin (c := c) (fun _ => false) bound s
    rw [goUntil]
    split
    · split
      · exact settled.trans ((goes_advance _ _).trans (ih _))
      · exact settled.trans (goes_advance _ _)
    · exact settled.trans (goes_advance _ _)

theorem goes_sleep (s : Course) (ms : Nat) : Goes c s.pipeline (s.sleep c ms).pipeline := by
  rw [sleep]
  split
  · exact .refl c _
  · exact goes_goUntil _ _ _ s

theorem goes_join (s : Course) (call : Nat) : Goes c s.pipeline (s.join c call).pipeline :=
  goes_goTo _ _ _ s

theorem goes_shutdown (s : Course) (grace : Nat) :
    Goes c (s.pipeline.act c (.shutDown grace)) (s.shutdown c grace).2.pipeline := by
  have begun : Goes c (s.pipeline.act c (.shutDown grace))
      (s.act c (.shutDown grace :: s.pipeline.atOnce grace)).pipeline := by
    refine ⟨s.pipeline.atOnce grace, rfl, fun a ha => ?_⟩
    rw [atOnce] at ha
    split at ha <;> simp at ha
    subst ha
    rfl
  exact begun.trans (goes_goTo _ _ _ _)

theorem submit_of_idle (s : Course) (idle : s.pipeline.drain = .idle) (r : DeleteRequest) :
    ∃ after, s.submit c r = .ok after ∧ after.pipeline = s.pipeline.act c (.submit r) := by
  rw [submit, if_pos idle]
  exact ⟨_, rfl, rfl⟩

theorem submit_of_not_idle (s : Course) (busy : s.pipeline.drain ≠ .idle) (r : DeleteRequest) :
    s.submit c r = .error .closed := if_neg busy

end Course
end Shortlink
