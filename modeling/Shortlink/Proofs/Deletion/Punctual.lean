import Mathlib.Algebra.Order.BigOperators.Group.List
import Mathlib.Algebra.Order.Group.Nat
import Shortlink.Proofs.Deletion.Settling
/-!
# Draining ends in time

Time goes on only while nobody can go on, and then up to the moment at which the next worker is done.
At least one worker has a chunk all the while, so the time that passes is store time of the chunks
that were left. A shutdown call that waits longer than this sees the end.
-/
namespace Shortlink
open Pipeline

namespace Pipeline

section
variable {c : PipelineConfig} {p : Pipeline}

private theorem le_rest_of_mem {flight : Flight} (flies : flight ∈ p.inFlight) :
    flight.timer.due - p.now ≤ p.rest c := by
  obtain ⟨before, after, flights⟩ := List.append_of_mem flies
  simp only [rest, flights, List.map_append, List.map_cons, List.sum_append, List.sum_cons]
  omega

private theorem rest_wait (flies : p.inFlight ≠ []) {moment : Nat}
    (early : ∀ flight ∈ p.inFlight, max p.now moment ≤ flight.timer.due) :
    (p.act c (.wait moment)).now + (p.act c (.wait moment)).rest c ≤ p.now + p.rest c := by
  have now : (p.act c (.wait moment)).now = max p.now moment := rfl
  cases flights : p.inFlight with
  | nil => exact absurd flights flies
  | cons flight others =>
    have due := early flight (by simp [flights])
    have less : (others.map fun flight => flight.timer.due - max p.now moment).sum ≤
        (others.map fun flight => flight.timer.due - p.now).sum :=
      List.sum_le_sum fun _ _ => Nat.sub_le_sub_left (Nat.le_max_left p.now moment) _
    have inFlight : (p.act c (.wait moment)).inFlight = flight :: others := flights
    have same : (p.act c (.wait moment)).held ++ (p.act c (.wait moment)).queue =
      p.held ++ p.queue := rfl
    simp only [rest, same, now, inFlight, flights, List.map_cons, List.sum_cons]
    omega

private theorem length_pos_of_due {flight : Flight} (flies : flight ∈ p.inFlight) {moment : Nat}
    (due : flight.timer.due ≤ moment) :
    0 < (p.inFlight.filter (·.timer.due ≤ moment)).length :=
  List.length_pos_of_mem (List.mem_filter.mpr ⟨flies, by simpa using due⟩)

private theorem alarms_of_early
    (early : ∀ call timer, p.drain = .waiting call timer → p.now < timer.due) :
    p.alarms =
      ((p.inFlight.filter (·.timer.due ≤ p.now)).map fun flight => .done flight.timer.turn) := by
  have done : ((p.inFlight.map Flight.timer).filter (·.due ≤ p.now)).map
      (fun timer => Turn.done timer.turn) =
      (p.inFlight.filter (·.timer.due ≤ p.now)).map fun flight => .done flight.timer.turn := by
    rw [List.filter_map, List.map_map]
    rfl
  simp only [alarms, done]
  split
  · next call timer waits =>
    rw [if_neg (Nat.not_le_of_lt (early call timer waits))]
  · rfl

private theorem nextMoment?_of_flying (flies : p.inFlight ≠ [])
    (early : ∀ call timer, p.drain = .waiting call timer →
      ∀ flight ∈ p.inFlight, flight.timer.due ≤ timer.due) :
    ∃ flight ∈ p.inFlight, p.nextMoment? = some flight.timer.due ∧
      ∀ other ∈ p.inFlight, flight.timer.due ≤ other.timer.due := by
  obtain ⟨due, least⟩ : ∃ due, (p.inFlight.map (·.timer.due)).min? = some due := by
    cases search : (p.inFlight.map (·.timer.due)).min? with
    | none => exact absurd (List.map_eq_nil_iff.mp (List.min?_eq_none_iff.mp search)) flies
    | some due => exact ⟨due, rfl⟩
  obtain ⟨there, below⟩ := List.min?_eq_some_iff.mp least
  obtain ⟨flight, mine, rfl⟩ := List.mem_map.mp there
  refine ⟨flight, mine, ?_, fun other theirs => below _ (List.mem_map_of_mem theirs)⟩
  refine List.min?_eq_some_iff.mpr ⟨List.mem_append_left _ there, fun moment known => ?_⟩
  rcases List.mem_append.mp known with flying | waiting
  · exact below moment flying
  · split at waiting
    · next call timer waits =>
      rw [List.mem_singleton.mp waiting]
      exact early call timer waits flight mine
    · simp at waiting

end
end Pipeline

namespace Course

section
variable {c : PipelineConfig} {s t : Course} {first : Option Nat}

private theorem rest_of_step? (last : s.step? c = none) : s.agenda = [] ∧ s.resting = [] ∧
    (∀ flight ∈ s.pipeline.inFlight, s.pipeline.now < flight.timer.due) ∧
    s.pipeline.isDrained = false := by
  rw [step?] at last
  split at last
  · simp at last
  next quiet =>
  split at last
  · simp at last
  next landed =>
  split at last
  · simp at last
  next undrained =>
  rw [not_or, not_not, not_not] at quiet
  refine ⟨List.isEmpty_iff.mp quiet.1, List.isEmpty_iff.mp quiet.2, ?_, by simpa using undrained⟩
  intro flight flies
  simpa using List.find?_eq_none.mp landed flight flies

theorem Ample.early {moment : Nat} (ample : Ample c (s.advance c moment) first) (call : Nat)
    (timer : Timer) (waits : s.pipeline.drain = .waiting call timer) :
    max s.pipeline.now moment < timer.due := by
  have now : (s.advance c moment).pipeline.now = max s.pipeline.now moment := rfl
  have drain : (s.advance c moment).pipeline.drain = s.pipeline.drain := rfl
  cases ample with
  | unasked idle _ => simp [drain, waits] at idle
  | announced idle _ _ _ => simp [drain, waits] at idle
  | waiting waits' longer =>
    rw [drain, waits] at waits'
    obtain ⟨-, rfl⟩ := Drain.waiting.inj waits'
    omega

/-- Time goes on at rest, as long as the first shutdown call has time. If a worker is done then, less
is left to do. -/
theorem Steady.advance (steady : Steady c first s) (last : s.step? c = none) {moment : Nat}
    (ample : Ample c (s.advance c moment) first) :
    Steady c first (s.advance c moment) ∧ ∀ flight ∈ s.pipeline.inFlight,
      flight.timer.due ≤ moment → (s.advance c moment).effort < s.effort := by
  obtain ⟨agenda, resting, -, -⟩ := rest_of_step? last
  obtain ⟨planned, crew, watchful, -⟩ := steady
  have alarms : (s.pipeline.act c (.wait moment)).alarms = ((s.pipeline.inFlight.filter
      (·.timer.due ≤ max s.pipeline.now moment)).map fun flight => .done flight.timer.turn) :=
    alarms_of_early ample.early
  have turns : (s.advance c moment).agenda = ((s.pipeline.inFlight.filter
      (·.timer.due ≤ max s.pipeline.now moment)).map fun flight => .done flight.timer.turn) := by
    show s.agenda ++ (s.pipeline.act c (.wait moment)).alarms = _
    rw [agenda, List.nil_append, alarms]
  have dones : (s.advance c moment).dones = (s.pipeline.inFlight.filter
      (·.timer.due ≤ max s.pipeline.now moment)).map fun flight => flight.timer.turn := by
    rw [Course.dones, turns, List.filterMap_map]
    exact congrFun List.filterMap_eq_map _
  refine ⟨⟨⟨planned.reached.act (.wait moment), ?_, ?_, ?_⟩, ?_, watchful, ample⟩, ?_⟩
  · intro producer there
    simpa [agenda, resting] using planned.awake producer there
  · rw [dones]
    have once : s.pipeline.flightTurns.Nodup := planned.timed.rising.imp Nat.ne_of_lt
    exact once.sublist (List.filter_sublist.map _)
  · rw [dones]
    intro turn there
    obtain ⟨flight, among, named⟩ := List.mem_map.mp there
    obtain ⟨flies, due⟩ := List.mem_filter.mp among
    refine ⟨flight, flies, named, ?_⟩
    show flight.timer.due ≤ max s.pipeline.now moment
    simpa using due
  · have waited : Crew c 0 { s with pipeline := s.pipeline.act c (.wait moment) } :=
      crew.of_inFlight rfl
    refine waited.plan _ fun turn there => ?_
    change turn ∈ (s.pipeline.act c (.wait moment)).alarms at there
    rw [alarms] at there
    obtain ⟨flight, -, rfl⟩ := List.mem_map.mp there
    simp
  · intro flight there soon
    have some := length_pos_of_due there (Nat.le_trans soon (Nat.le_max_right s.pipeline.now _))
    have few : (s.pipeline.inFlight.filter (·.timer.due ≤ max s.pipeline.now moment)).length ≤
        s.pipeline.inFlight.length := List.length_filter_le _ _
    have before : s.dones = [] := by simp [Course.dones, agenda]
    have load : (s.advance c moment).pipeline.load = s.pipeline.load := rfl
    have rests : (s.advance c moment).resting = s.resting := rfl
    simp only [effort, dones, turns, before, load, rests, agenda, resting, List.length_map,
      List.length_nil]
    simp only [Pipeline.load]
    omega

/-! ## Time goes on -/

theorem Steady.flying {call : Nat} (steady : Steady c (some call) s) (last : s.step? c = none) :
    s.pipeline.inFlight ≠ [] := by
  obtain ⟨agenda, resting, -, undrained⟩ := rest_of_step? last
  intro landed
  cases steady.ample with
  | announced idle first planned longer => simp [agenda] at planned
  | waiting waits longer =>
    have empty := steady.empty_of_rest agenda resting landed
    simp [isDrained, waits, empty] at undrained

theorem Steady.nextMoment? (steady : Steady c first s) (last : s.step? c = none) :
    s.pipeline.inFlight = [] ∧ s.pipeline.nextMoment? = none ∨
      ∃ flight ∈ s.pipeline.inFlight, s.pipeline.nextMoment? = some flight.timer.due ∧
        ∀ other ∈ s.pipeline.inFlight, flight.timer.due ≤ other.timer.due := by
  by_cases landed : s.pipeline.inFlight = []
  · cases first with
    | none =>
      cases steady.ample with
      | unasked idle silent => exact .inl ⟨landed, by simp [Pipeline.nextMoment?, idle, landed]⟩
    | some call => exact absurd landed (steady.flying last)
  · right
    apply nextMoment?_of_flying landed
    intro call timer waits flight there
    have part := le_rest_of_mem (c := c) there
    cases steady.ample with
    | unasked idle silent => simp [idle] at waits
    | announced idle first planned longer => simp [idle] at waits
    | waiting waits' longer =>
      obtain ⟨-, rfl⟩ := Drain.waiting.inj (waits.symm.trans waits')
      omega

/-- A course at rest may go on up to the moment at which the next worker is done. No time passes
beyond the store time that is left, unless no shutdown has been asked for. -/
theorem Steady.wait (steady : Steady c first s) (last : s.step? c = none) {limit : Nat} (moment : Nat)
    (soon : first ≠ none → s.pipeline.now + s.pipeline.rest c ≤ limit)
    (early : ∀ flight ∈ s.pipeline.inFlight, moment ≤ flight.timer.due) :
    Steady c first (s.advance c moment) ∧
      (first ≠ none → (s.advance c moment).pipeline.now + (s.advance c moment).pipeline.rest c ≤
        limit) ∧
      ∀ flight ∈ s.pipeline.inFlight,
        flight.timer.due ≤ moment → (s.advance c moment).effort < s.effort := by
  obtain ⟨agenda, -, later, -⟩ := rest_of_step? last
  cases first with
  | none =>
    cases steady.ample with
    | unasked idle silent =>
      have unasked : Ample c (s.advance c moment) none := .unasked idle silent
      obtain ⟨still, less⟩ := steady.advance last unasked
      exact ⟨still, fun asked => absurd rfl asked, less⟩
  | some call =>
    have passed : (s.advance c moment).pipeline.now + (s.advance c moment).pipeline.rest c ≤
        s.pipeline.now + s.pipeline.rest c := by
      apply rest_wait (steady.flying last)
      intro flight there
      exact Nat.max_le.mpr ⟨Nat.le_of_lt (later flight there), early flight there⟩
    cases steady.ample with
    | announced idle first planned longer => simp [agenda] at planned
    | waiting waits longer =>
      obtain ⟨still, less⟩ := steady.advance last (.waiting waits (Nat.lt_of_le_of_lt passed longer))
      exact ⟨still, fun asked => Nat.le_trans passed (soon asked), less⟩

/-! ## Going on until the call has its answer -/

private theorem outcome?_of_ample (reached : Reached c s.pipeline) {call : Nat}
    (ample : Ample c s (some call)) : s.pipeline.outcome? call = none := by
  obtain ⟨actions, run⟩ := reached
  cases ample with
  | announced idle first planned longer =>
    have stage := stage_run c actions
    rw [← run] at stage
    generalize firstCall? c {} actions = begun at stage
    cases stage with
    | accepting _ running silent kept => simp [outcome?, silent]
    | draining waits refusing early kept => simp [idle] at waits
    | drained ended stopped empty kept answer => simp [idle] at ended
    | timedOut ended stopped empty answer => simp [idle] at ended
  | waiting waits longer =>
    rw [run] at waits ⊢
    exact outcome?_eq_none_of_waiting (by rw [waiting?, waits])

/-- The first shutdown call has its answer, or will have it by this moment if it is waited for. If
none has been asked for, the course keeps to its roster. -/
inductive Underway (c : PipelineConfig) (limit : Nat) (s : Course) : Option Nat → Prop where
  | steady {first : Option Nat} (steady : Steady c first s)
      (soon : first ≠ none → s.pipeline.now + s.pipeline.rest c ≤ limit) : Underway c limit s first
  | finished {call : Nat} (finished : Finished c call s.pipeline) : Underway c limit s (some call)

/-- A shutdown call that is waited for answers that nothing is left, and no later than it has to. -/
theorem Steady.goTo {call bound : Nat} (steady : Steady c (some call) s) (enough : s.effort < bound)
    {steps : Nat} (more : s.effort < steps) :
    Finished c call (goTo c call bound steps s).pipeline ∧
      (goTo c call bound steps s).pipeline.now ≤ s.pipeline.now + s.pipeline.rest c := by
  induction steps generalizing s with
  | zero => omega
  | succ steps ih =>
    have settled := steady.settleWithin (fun p => (p.outcome? call).isSome)
      (fun t still => by simp [outcome?_of_ample still.planned.reached still.ample]) enough
    rw [Course.goTo]
    rcases settled with ⟨still, onward, last⟩ | ⟨_, asked, finished, now⟩
    · have effort := onward.effort
      have rest := onward.rest
      have now := onward.now
      have none := outcome?_of_ample still.planned.reached still.ample
      rcases still.nextMoment? last with ⟨landed, -⟩ | ⟨flight, there, next, least⟩
      · exact absurd landed (still.flying last)
      obtain ⟨later, soon, less⟩ := still.wait last _ (fun _ => Nat.le_refl _) least
      have fewer := less flight there (Nat.le_refl _)
      have time := soon (by simp)
      simp only [none, Option.isSome_none, Bool.false_eq_true, if_false, next]
      obtain ⟨finished, ended⟩ := ih later (by omega) (by omega)
      exact ⟨finished, by omega⟩
    · obtain rfl := Option.some.inj asked
      have same := now fun p finished => by simp [finished.outcome?]
      simp only [finished.outcome?, Option.isSome_some, if_true]
      exact ⟨finished, by omega⟩

theorem Underway.goUntil {limit moment bound : Nat} (steady : Steady c first s)
    (soon : first ≠ none → s.pipeline.now + s.pipeline.rest c ≤ limit) (enough : s.effort < bound)
    {steps : Nat} (more : s.effort < steps) :
    Underway c limit (Course.goUntil c moment bound steps s) first := by
  induction steps generalizing s with
  | zero => omega
  | succ steps ih =>
    have settled := steady.settleWithin (fun _ => false) (fun _ _ => rfl) enough
    rw [Course.goUntil]
    rcases settled with ⟨still, onward, last⟩ | ⟨call, rfl, finished, -⟩
    · have effort := onward.effort
      have soon : first ≠ none → _ := fun asked => onward.soon (soon asked)
      rcases still.nextMoment? last with ⟨landed, next⟩ | ⟨flight, there, next, least⟩
      · obtain ⟨later, passed, -⟩ := still.wait last moment soon (by simp [landed])
        simp only [next]
        exact .steady later passed
      simp only [next]
      split
      · obtain ⟨later, passed, less⟩ := still.wait last _ soon least
        have fewer := less flight there (Nat.le_refl _)
        exact ih later passed (by omega) (by omega)
      · next after =>
        obtain ⟨later, passed, -⟩ := still.wait last moment soon fun other theirs =>
          Nat.le_trans (Nat.le_of_not_lt after) (least other theirs)
        exact .steady later passed
    · refine .finished (finished.goes ?_)
      split
      · split
        · exact (goes_advance _ _).trans (goes_goUntil _ _ _ _)
        · exact goes_advance _ _
      · exact goes_advance _ _

private theorem effort_lt_work (s : Course) : s.effort < s.work := by
  simp only [effort, work, load, held]
  omega

theorem Underway.sleep {limit : Nat} (underway : Underway c limit s first) (ms : Nat) :
    Underway c limit (s.sleep c ms) first := by
  rw [Course.sleep]
  split
  · exact underway
  cases underway with
  | steady steady soon => exact .goUntil steady soon s.effort_lt_work s.effort_lt_work
  | finished finished => exact .finished (finished.goes (goes_goUntil _ _ _ _))

theorem Underway.join {limit call : Nat} (underway : Underway c limit s (some call)) :
    Finished c call (s.join c call).pipeline ∧
      (s.join c call).pipeline.now ≤ max s.pipeline.now limit := by
  rw [Course.join]
  cases underway with
  | steady steady soon =>
    obtain ⟨finished, ended⟩ := steady.goTo s.effort_lt_work s.effort_lt_work
    have early := soon (by simp)
    exact ⟨finished, by omega⟩
  | finished finished =>
    have stays : goTo c call s.work s.work s = s := by
      have some : s.work = (s.work - 1) + 1 := by
        have positive := s.effort_lt_work
        omega
      rw [some]
      simp [goTo, settleWithin, finished.outcome?]
    rw [stays]
    exact ⟨finished, Nat.le_max_left _ _⟩

theorem Underway.finished_of_lt {limit call : Nat} (underway : Underway c limit s (some call))
    (late : limit < s.pipeline.now) : Finished c call s.pipeline := by
  cases underway with
  | steady steady soon =>
    have early := soon (by simp)
    omega
  | finished finished => exact finished

end
end Course
end Shortlink
