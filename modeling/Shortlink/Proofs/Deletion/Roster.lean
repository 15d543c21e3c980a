import Mathlib.Data.List.Perm.Subperm
import Shortlink.Proofs.Deletion.Remainder
import Shortlink.Proofs.Deletion.Turns
/-!
# Nobody is forgotten

A course keeps to its roster: every worker has a turn, waits or has a chunk, and every producer that
can go on has a turn. Each turn that is taken makes the rest of the work smaller.
-/
namespace Shortlink
namespace Course
open Pipeline

def dones (s : Course) : List Nat := s.agenda.filterMap Turn.done?

/-- A bound on the steps that are left. A worker that has a turn for being done needs no other step
for that. -/
def effort (s : Course) : Nat :=
  2 * s.agenda.length + 3 * s.resting.length + s.pipeline.load - 3 * s.dones.length

/-- Who can go on has a turn, and who has a turn to be done can be done. -/
structure Planned (c : PipelineConfig) (s : Course) : Prop where
  reached : Reached c s.pipeline
  awake : ∀ producer ∈ s.pipeline.awake,
    .producer producer.request ∈ s.agenda ∨ producer.request ∈ s.resting
  once : s.dones.Nodup
  due : ∀ turn ∈ s.dones, ∃ flight ∈ s.pipeline.inFlight,
    flight.timer.turn = turn ∧ flight.timer.due ≤ s.pipeline.now

/-- Every worker but those that are in hand has a turn, waits or has a chunk. -/
structure Crew (c : PipelineConfig) (inHand : Nat) (s : Course) : Prop where
  all : s.agenda.count .worker + s.behind + (if s.watch = .nobody then 0 else 1) +
    s.pipeline.inFlight.length + inHand = c.workers
  roused : s.agenda.count .first = if s.watch = .roused then 1 else 0
  alone : s.watch = .nobody → s.behind = 0

/-- Nobody sleeps beside a chunk. -/
def Watchful (s : Course) : Prop := s.watch = .asleep → s.pipeline.queue = []

section
variable {c : PipelineConfig} {s : Course}

theorem Planned.timed (planned : Planned c s) : Timed c s.pipeline := by
  obtain ⟨actions, run⟩ := planned.reached
  rw [run]
  exact timed_run c actions

theorem Planned.length_dones (planned : Planned c s) :
    s.dones.length ≤ s.pipeline.inFlight.length := by
  have within : s.dones ⊆ s.pipeline.flightTurns := by
    intro turn there
    obtain ⟨flight, flies, named, -⟩ := planned.due turn there
    exact List.mem_map.mpr ⟨flight, flies, named⟩
  have fewer := (List.subperm_of_subset planned.once within).length_le
  rwa [flightTurns, List.length_map] at fewer

theorem Planned.of_unmoved (planned : Planned c s) {t : Course} (reached : Reached c t.pipeline)
    (unmoved : Unmoved s.pipeline t.pipeline) (agenda : s.agenda ⊆ t.agenda)
    (resting : s.resting ⊆ t.resting) (dones : t.dones = s.dones) : Planned c t := by
  refine ⟨reached, ?_, ?_, ?_⟩
  · intro producer there
    rw [Pipeline.awake, unmoved.ready, unmoved.called] at there
    exact (planned.awake producer there).imp (agenda ·) (resting ·)
  · rw [dones]
    exact planned.once
  · rw [dones, unmoved.inFlight, unmoved.now]
    exact planned.due

theorem Crew.of_inFlight {inHand : Nat} (crew : Crew c inHand s) {p : Pipeline}
    (inFlight : p.inFlight = s.pipeline.inFlight) : Crew c inHand { s with pipeline := p } := by
  obtain ⟨all, roused, alone⟩ := crew
  refine ⟨?_, roused, alone⟩
  rw [inFlight]
  exact all

/-! ## Looking at the queue -/

theorem look_of_empty (empty : s.pipeline.queue = []) : s.look c = { s with watch := .asleep } := by
  simp [look, empty]

theorem look_of_chunk {chunk : Chunk} {others : List Chunk}
    (first : s.pipeline.queue = chunk :: others) : s.look c = { s with
      pipeline := s.pipeline.act c .take
      agenda := s.agenda ++ ((s.pipeline.line.take 1).map fun producer => .producer producer.request) ++
        if s.behind = 0 then [] else [.first]
      watch := if s.behind = 0 then .nobody else .roused
      behind := s.behind - 1 } := by
  by_cases alone : s.behind = 0
  · simp [look, first, plan, Course.act, run, alone]
  · simp [look, first, plan, Course.act, run, alone]

private theorem filterMap_done?_producers (producers : List Producer) :
    (producers.map fun producer => Turn.producer producer.request).filterMap Turn.done? = [] := by
  simp [List.filterMap_eq_nil_iff, Turn.done?]

private theorem count_producers (turn : Turn) (other : ∀ request, turn ≠ .producer request)
    (producers : List Producer) :
    (producers.map fun producer => Turn.producer producer.request).count turn = 0 := by
  rw [List.count_eq_zero, List.mem_map]
  rintro ⟨producer, -, same⟩
  exact other producer.request same.symm

theorem Planned.look (planned : Planned c s) (free : s.pipeline.inFlight.length < c.workers) :
    Planned c (s.look c) := by
  cases queue : s.pipeline.queue with
  | nil =>
    rw [look_of_empty queue]
    exact planned.of_unmoved planned.reached (.refl _) (List.Subset.refl _) (List.Subset.refl _) rfl
  | cons chunk others =>
    rw [look_of_chunk queue]
    have dones : (s.look c).dones = s.dones := by
      rw [look_of_chunk queue]
      simp only [Course.dones, List.filterMap_append, filterMap_done?_producers]
      split <;> simp [Turn.done?]
    rw [look_of_chunk queue] at dones
    refine ⟨planned.reached.act .take, ?_, dones ▸ planned.once, ?_⟩
    · intro producer there
      simp only [act_take queue free, Pipeline.awake, List.mem_append] at there ⊢
      rcases there with ready | called | next
      · refine (planned.awake producer (List.mem_append_left _ ready)).imp_left fun known => ?_
        exact .inl (.inl known)
      · refine (planned.awake producer (List.mem_append_right _ called)).imp_left fun known => ?_
        exact .inl (.inl known)
      · exact .inl (.inl (.inr (List.mem_map_of_mem next)))
    · rw [dones]
      intro turn there
      obtain ⟨flight, flies, known⟩ := planned.due turn there
      refine ⟨flight, ?_, ?_⟩
      · simp [act_take queue free, flies]
      · simpa [act_take queue free] using known

theorem Crew.look (all : s.agenda.count .worker + s.behind + s.pipeline.inFlight.length + 1 = c.workers)
    (none : s.agenda.count .first = 0) : Crew c 0 (s.look c) := by
  cases queue : s.pipeline.queue with
  | nil =>
    rw [look_of_empty queue]
    exact ⟨by simp; omega, by simp [none], by simp⟩
  | cons chunk others =>
    have free : s.pipeline.inFlight.length < c.workers := by omega
    have workers := count_producers .worker (by simp) (s.pipeline.line.take 1)
    have firsts := count_producers .first (by simp) (s.pipeline.line.take 1)
    rw [look_of_chunk queue, act_take queue free]
    by_cases alone : s.behind = 0
    · refine ⟨?_, ?_, ?_⟩
      · simp only [alone, if_true, List.append_nil, List.count_append, workers, List.length_append,
          List.length_singleton]
        omega
      · simp only [alone, if_true, List.append_nil, List.count_append, firsts, none]
        rfl
      · simp [alone]
    · refine ⟨?_, ?_, ?_⟩
      · simp only [if_neg alone, List.count_append, workers, List.length_append,
          List.length_singleton]
        simp
        omega
      · simp only [if_neg alone, List.count_append, firsts, none]
        rfl
      · simp [alone]

theorem watchful_look : Watchful (s.look c) := by
  cases queue : s.pipeline.queue with
  | nil =>
    rw [look_of_empty queue]
    exact fun _ => queue
  | cons chunk others =>
    rw [look_of_chunk queue]
    intro asleep
    simp only at asleep
    split at asleep <;> simp at asleep

theorem effort_look (free : s.pipeline.inFlight.length < c.workers) :
    (s.look c).effort ≤ s.effort := by
  cases queue : s.pipeline.queue with
  | nil =>
    rw [look_of_empty queue]
    exact Nat.le_refl _
  | cons chunk others =>
    have load := load_take queue free
    have next : (s.pipeline.line.take 1).length ≤ 1 := List.length_take_le _ _
    rw [look_of_chunk queue]
    simp only [effort, dones, List.filterMap_append, filterMap_done?_producers, List.append_nil,
      List.length_append, List.length_map]
    split
    · simp
      omega
    · simp [Turn.done?]
      omega

theorem moves_look : Moves c s.pipeline (s.look c).pipeline := by
  cases queue : s.pipeline.queue with
  | nil =>
    rw [look_of_empty queue]
    exact .refl c _
  | cons chunk others =>
    rw [look_of_chunk queue]
    exact (act_effect c s.pipeline .take).moves rfl

/-! ## A free worker -/

theorem Planned.seek (planned : Planned c s) (free : s.pipeline.inFlight.length < c.workers) :
    Planned c (s.seek c) := by
  rw [Course.seek]
  split
  · exact planned.look free
  · exact planned.of_unmoved planned.reached (.refl _) (List.Subset.refl _) (List.Subset.refl _) rfl

theorem Crew.seek (crew : Crew c 1 s) : Crew c 0 (s.seek c) := by
  obtain ⟨all, roused, alone⟩ := crew
  rw [Course.seek]
  split
  · next nobody =>
    rw [nobody] at all roused
    exact Crew.look (by simpa using all) (by simpa using roused)
  · next somebody =>
    refine ⟨?_, roused, fun nobody => absurd nobody somebody⟩
    simp only [if_neg somebody] at all ⊢
    omega

theorem Crew.free {n : Nat} (crew : Crew c (n + 1) s) : s.pipeline.inFlight.length < c.workers := by
  have all := crew.all
  omega

theorem watchful_seek (watchful : Watchful s) : Watchful (s.seek c) := by
  rw [seek]
  split
  · exact watchful_look
  · exact watchful

theorem effort_seek (free : s.pipeline.inFlight.length < c.workers) :
    (s.seek c).effort ≤ s.effort := by
  rw [seek]
  split
  · exact effort_look free
  · exact Nat.le_refl _

theorem moves_seek : Moves c s.pipeline (s.seek c).pipeline := by
  rw [seek]
  split
  · exact moves_look
  · exact .refl c _

/-! ## A producer with a turn -/

/-- A worker that sleeps is roused by a chunk that enters the queue, and nobody else is. -/
inductive Alert (s t : Course) : Prop where
  | quiet (agenda : t.agenda = s.agenda) (watch : t.watch = s.watch)
      (queue : s.watch = .asleep → t.pipeline.queue = s.pipeline.queue)
  | roused (agenda : t.agenda = s.agenda ++ [.first]) (asleep : s.watch = .asleep)
      (watch : t.watch = .roused) (queue : s.pipeline.queue.length < t.pipeline.queue.length)

/-- What a producer does in its turn. A producer that has chunks left rests or lines up. -/
structure FedBy (c : PipelineConfig) (request : Nat) (s t : Course) : Prop where
  reached : Reached c t.pipeline
  fed : Fed request s.pipeline t.pipeline
  moves : Moves c s.pipeline t.pipeline
  behind : t.behind = s.behind
  alert : Alert s t
  resting : t.resting = s.resting ∨ t.resting = s.resting ++ [request] ∧
    longestTurn ≤ t.pipeline.queue.length - s.pipeline.queue.length
  own : ∀ producer ∈ t.pipeline.awake, producer.request = request → request ∈ t.resting

theorem Alert.of_same {t u : Course} (alert : Alert s t) (agenda : u.agenda = t.agenda)
    (watch : u.watch = t.watch) (queue : u.pipeline.queue = t.pipeline.queue) : Alert s u := by
  cases alert with
  | quiet same still kept =>
    refine .quiet (agenda.trans same) (watch.trans still) fun asleep => ?_
    exact queue.trans (kept asleep)
  | roused added asleep roused grown =>
    exact .roused (agenda.trans added) asleep (watch.trans roused) (by rwa [queue])

private theorem behind_rouse (s : Course) : s.rouse.behind = s.behind := by
  rw [rouse]
  split <;> rfl

private theorem resting_rouse (s : Course) : s.rouse.resting = s.resting := by
  rw [rouse]
  split <;> rfl

private theorem alert_rouse {p : Pipeline} (grown : s.pipeline.queue.length < p.queue.length) :
    Alert s ({ s with pipeline := p }.rouse) := by
  cases watch : s.watch with
  | asleep =>
    simp only [rouse]
    exact .roused rfl watch rfl grown
  | _ =>
    simp only [rouse]
    exact .quiet rfl watch.symm (by simp [watch])

/-- A turn that has not been too long for a producer with chunks left ends because there is no
room. -/
theorem room_of_short_turn {p : Pipeline} (reached : Reached c p) {request : Nat} :
    let arrived := p.act c (.arrive request)
    let fed := arrived.act c
      (.enter request (longestTurn - (arrived.queue.length - p.queue.length)))
    (∃ producer ∈ fed.ready, producer.request = request) →
      ¬ fed.queue.length - p.queue.length = longestTurn → fed.room c = 0 := by
  intro arrived fed left short
  obtain ⟨producer, ready, named⟩ := left
  rcases room_enter (reached.act (.arrive request)).sole_ready ready named with all | none
  · have most : longestTurn = 128 := rfl
    have one : arrived.queue.length ≤ p.queue.length + 1 := length_queue_arrive
    have arrives : Fed request p arrived := (act_effect _ _ _).fed rfl reached.sole
    have more : p.queue.length ≤ arrived.queue.length := arrives.queue.length_le
    have last : fed.queue.length =
      arrived.queue.length + (longestTurn - (arrived.queue.length - p.queue.length)) := all
    omega
  · exact none

theorem fedBy_feed (reached : Reached c s.pipeline) (request : Nat) :
    FedBy c request s (s.feed c request) := by
  unfold feed
  extract_lets before arrived fed count entered roused
  have arrivedReached : Reached c arrived := reached.act _
  have fedReached : Reached c fed := arrivedReached.act _
  have fedArrived : Fed request s.pipeline arrived := (act_effect _ _ _).fed rfl reached.sole
  have whole : Fed request s.pipeline fed :=
    fedArrived.trans ((act_effect _ _ _).fed rfl arrivedReached.sole)
  have moves : Moves c s.pipeline fed :=
    ((act_effect _ _ _).moves rfl).trans ((act_effect _ _ _).moves rfl)
  have uncalled : ∀ producer ∈ fed.called, producer.request ≠ request := by
    have sole := reached.sole.sublist (List.sublist_append_right _ s.pipeline.called)
    intro producer there
    rw [called_enter] at there
    exact called_arrive sole producer there
  have kept : roused.pipeline = fed ∧ roused.behind = s.behind ∧ roused.resting = s.resting ∧
      Alert s roused := by
    simp only [roused]
    split
    · next none =>
      exact ⟨rfl, rfl, rfl, .quiet rfl rfl fun _ => whole.queue_eq none⟩
    · next some =>
      exact ⟨pipeline_rouse _, behind_rouse _, resting_rouse _, alert_rouse (by omega)⟩
  obtain ⟨pipeline, behind, resting, alert⟩ := kept
  split
  · next gone =>
    rw [← pipeline] at fedReached whole moves uncalled gone
    refine ⟨fedReached, whole, moves, behind, alert, .inl resting, ?_⟩
    intro producer there named
    rcases List.mem_append.mp there with ready | called
    · exact absurd named (by simpa using List.all_eq_true.mp gone producer ready)
    · exact absurd named (uncalled producer called)
  next left =>
  split
  · next long =>
    refine ⟨pipeline ▸ fedReached, pipeline ▸ whole, pipeline ▸ moves, behind,
      alert.of_same rfl rfl rfl, .inr ⟨?_, ?_⟩, ?_⟩
    · rw [resting]
    · show longestTurn ≤ roused.pipeline.queue.length - before
      rw [pipeline]
      exact Nat.le_of_eq long.symm
    · intro producer _ _
      exact List.mem_append_right _ (List.mem_singleton_self request)
  · next short =>
    have full : fed.room c = 0 := by
      apply room_of_short_turn reached _ short
      simpa using left
    have lined : (roused.act c [.lineUp request]).pipeline = fed.act c (.lineUp request) := by
      rw [← pipeline]
      rfl
    have queue : (roused.act c [.lineUp request]).pipeline.queue = roused.pipeline.queue := by
      rw [lined, queue_lineUp, pipeline]
    refine ⟨?_, ?_, ?_, behind, alert.of_same rfl rfl queue, .inl resting, ?_⟩ <;> rw [lined]
    · exact fedReached.act _
    · exact whole.trans ((act_effect _ _ _).fed rfl fedReached.sole)
    · exact moves.trans ((act_effect _ _ _).moves rfl)
    · intro producer there named
      rcases List.mem_append.mp there with ready | called
      · exact absurd named (ready_lineUp fedReached.sole_ready full producer ready)
      · rw [called_lineUp] at called
        exact absurd named (uncalled producer called)

section
variable {request : Nat} {t : Course}

theorem Crew.fedBy {inHand : Nat} (crew : Crew c inHand s) (h : FedBy c request s t) :
    Crew c inHand t := by
  obtain ⟨all, roused, alone⟩ := crew
  cases h.alert with
  | quiet agenda watch queue =>
    refine ⟨?_, ?_, ?_⟩
    · rw [agenda, watch, h.behind, h.fed.inFlight]
      exact all
    · rw [agenda, watch]
      exact roused
    · rw [watch, h.behind]
      exact alone
  | roused agenda asleep watch queue =>
    rw [asleep] at all roused
    refine ⟨?_, ?_, by simp [watch]⟩
    · rw [agenda, watch, h.behind, h.fed.inFlight, List.count_append]
      simpa using all
    · rw [agenda, watch, List.count_append, roused]
      rfl

theorem Watchful.fedBy (watchful : Watchful s) (h : FedBy c request s t) : Watchful t := by
  intro asleep
  cases h.alert with
  | quiet agenda watch queue =>
    rw [watch] at asleep
    rw [queue asleep]
    exact watchful asleep
  | roused agenda _ watch queue => simp [watch] at asleep

theorem FedBy.dones (h : FedBy c request s t) : t.dones = s.dones := by
  cases h.alert with
  | quiet agenda watch queue => rw [Course.dones, Course.dones, agenda]
  | roused agenda asleep watch queue => simp [Course.dones, agenda, Turn.done?]

theorem FedBy.agenda (h : FedBy c request s t) : s.agenda ⊆ t.agenda := by
  cases h.alert with
  | quiet agenda watch queue => rw [agenda]; exact List.Subset.refl _
  | roused agenda asleep watch queue => rw [agenda]; exact List.subset_append_left _ _

theorem FedBy.effort (h : FedBy c request s t) : t.effort ≤ s.effort := by
  have load := h.fed.load
  have most : longestTurn = 128 := rfl
  have rest : t.resting.length = s.resting.length ∨ t.resting.length = s.resting.length + 1 ∧
      128 ≤ t.pipeline.queue.length - s.pipeline.queue.length := by
    rcases h.resting with same | ⟨more, long⟩
    · exact .inl (by rw [same])
    · exact .inr ⟨by rw [more, List.length_append, List.length_singleton], long⟩
  have turns : t.agenda.length = s.agenda.length ∨ t.agenda.length = s.agenda.length + 1 ∧
      0 < t.pipeline.queue.length - s.pipeline.queue.length := by
    cases h.alert with
    | quiet agenda watch queue => exact .inl (by rw [agenda])
    | roused agenda asleep watch queue =>
      exact .inr ⟨by rw [agenda, List.length_append, List.length_singleton], by omega⟩
  simp only [Course.effort, h.dones]
  omega

end

/-! ## The next turn -/

section
variable {turn : Turn} {others : List Turn}

private theorem dones_of_other (agenda : s.agenda = turn :: others) (other : turn.done? = none) :
    s.dones = others.filterMap Turn.done? := by
  rw [dones, agenda, List.filterMap_cons, other]

theorem Planned.tail (planned : Planned c s) (agenda : s.agenda = turn :: others)
    (other : turn.done? = none) (unfed : ∀ request, turn ≠ .producer request) :
    Planned c { s with agenda := others } := by
  refine ⟨planned.reached, ?_, ?_, ?_⟩
  · intro producer there
    refine (planned.awake producer there).imp_left fun known => ?_
    rw [agenda] at known
    exact (List.mem_cons.mp known).resolve_left fun same => unfed _ same.symm
  · have once := planned.once
    rwa [dones_of_other agenda other] at once
  · have due := planned.due
    rwa [dones_of_other agenda other] at due

theorem Crew.tail {inHand : Nat} (crew : Crew c inHand s) (agenda : s.agenda = turn :: others)
    (worker : turn ≠ .worker) (first : turn ≠ .first) : Crew c inHand { s with agenda := others } := by
  have workers : s.agenda.count .worker = others.count .worker := by
    rw [agenda, List.count_cons_of_ne worker]
  have firsts : s.agenda.count .first = others.count .first := by
    rw [agenda, List.count_cons_of_ne first]
  exact ⟨workers ▸ crew.all, firsts ▸ crew.roused, crew.alone⟩

theorem Planned.fed {request : Nat} (planned : Planned c s)
    (agenda : s.agenda = .producer request :: others) {t : Course}
    (h : FedBy c request { s with agenda := others } t) : Planned c t := by
  have dones : t.dones = s.dones := h.dones.trans (dones_of_other agenda rfl).symm
  refine ⟨h.reached, ?_, ?_, ?_⟩
  · intro producer there
    by_cases named : producer.request = request
    · rw [named]
      exact .inr (h.own producer there named)
    · rcases planned.awake producer (h.fed.others producer there named) with known | rests
      · rw [agenda, List.mem_cons, Turn.producer.injEq] at known
        exact .inl (h.agenda (known.resolve_left named))
      · refine .inr ?_
        rcases h.resting with same | ⟨more, -⟩
        · rw [same]
          exact rests
        · rw [more]
          exact List.mem_append_left _ rests
  · rw [dones]
    exact planned.once
  · rw [dones, h.fed.inFlight, h.moves.now]
    exact planned.due

theorem effort_tail (planned : Planned c s) (agenda : s.agenda = turn :: others)
    (other : turn.done? = none) : ({ s with agenda := others } : Course).effort + 2 ≤ s.effort := by
  have dones := dones_of_other agenda other
  have few := planned.length_dones
  simp only [effort, Course.dones, load, agenda, List.length_cons] at dones few ⊢
  rw [dones] at few ⊢
  omega

theorem Planned.finishes {timer : Nat} (planned : Planned c s)
    (agenda : s.agenda = .done timer :: others) : ∃ flight,
      flight ∈ s.pipeline.inFlight ∧ flight.timer.turn = timer ∧
      s.pipeline.act c (.finish timer) = { s.pipeline with
        inFlight := s.pipeline.inFlight.eraseP (·.timer.turn = timer)
        busy := s.pipeline.busy - 1
        finished := s.pipeline.finished ++ [⟨s.pipeline.now, flight.chunk⟩] } := by
  have first : timer ∈ s.dones := by simp [dones, agenda, Turn.done?]
  obtain ⟨flight, flies, named, due⟩ := planned.due timer first
  have once : s.pipeline.flightTurns.Nodup := planned.timed.rising.imp Nat.ne_of_lt
  refine ⟨flight, flies, named, ?_⟩
  rw [← named]
  exact act_finish once flies due

private theorem Planned.length_finish {timer : Nat} (planned : Planned c s)
    (agenda : s.agenda = .done timer :: others) :
    (s.pipeline.act c (.finish timer)).inFlight.length + 1 = s.pipeline.inFlight.length := by
  obtain ⟨flight, flies, named, finish⟩ := planned.finishes agenda
  have one := List.length_eraseP_of_mem (p := fun flight => decide (flight.timer.turn = timer)) flies
    (by simpa using named)
  have some := List.length_pos_of_mem flies
  rw [finish]
  simp only at one ⊢
  omega

theorem Planned.done {timer : Nat} (planned : Planned c s)
    (agenda : s.agenda = .done timer :: others) :
    Planned c ({ s with agenda := others }.act c [.finish timer]) := by
  have once := planned.once
  have due := planned.due
  have dones : s.dones = timer :: others.filterMap Turn.done? := by
    rw [Course.dones, agenda]
    rfl
  rw [dones, List.nodup_cons] at once
  obtain ⟨flight, -, -, finish⟩ := planned.finishes agenda
  have pipeline : ({ s with agenda := others }.act c [.finish timer]).pipeline =
      s.pipeline.act c (.finish timer) := rfl
  refine ⟨planned.reached.act (.finish timer), ?_, once.2, ?_⟩
  · intro producer there
    rw [pipeline, finish] at there
    refine (planned.awake producer there).imp_left fun known => ?_
    rw [agenda] at known
    show Turn.producer producer.request ∈ others
    simpa using known
  · intro turn there
    obtain ⟨other, flies, named, early⟩ := due turn (dones ▸ List.mem_cons_of_mem _ there)
    have differs : other.timer.turn ≠ timer := by
      rintro same
      exact once.1 (same ▸ named ▸ there)
    rw [pipeline, finish]
    refine ⟨other, ?_, named, early⟩
    exact (List.mem_eraseP_of_neg (by simpa using differs)).mpr flies

theorem Crew.done {timer : Nat} (crew : Crew c 0 s) (planned : Planned c s)
    (agenda : s.agenda = .done timer :: others) :
    Crew c 1 ({ s with agenda := others }.act c [.finish timer]) := by
  obtain ⟨all, roused, alone⟩ := crew.tail agenda (by simp) (by simp)
  have fewer := planned.length_finish agenda
  refine ⟨?_, roused, alone⟩
  simp only at all
  show others.count .worker + s.behind + (if s.watch = .nobody then 0 else 1) +
    (s.pipeline.act c (.finish timer)).inFlight.length + 1 = c.workers
  omega

theorem effort_done {timer : Nat} (planned : Planned c s)
    (agenda : s.agenda = .done timer :: others) :
    ({ s with agenda := others }.act c [.finish timer]).effort + 2 ≤ s.effort := by
  have few := planned.length_dones
  have fewer := planned.length_finish agenda
  obtain ⟨flight, -, -, finish⟩ := planned.finishes agenda
  have dones : s.dones.length = (others.filterMap Turn.done?).length + 1 := by
    rw [Course.dones, agenda]
    rfl
  have held : (s.pipeline.act c (.finish timer)).held = s.pipeline.held := by
    rw [finish]
    rfl
  have queue : (s.pipeline.act c (.finish timer)).queue = s.pipeline.queue := by rw [finish]
  show 2 * others.length + 3 * s.resting.length + (s.pipeline.act c (.finish timer)).load -
    3 * (others.filterMap Turn.done?).length + 2 ≤ s.effort
  simp only [effort, load, held, queue, agenda, List.length_cons]
  omega

end
end
end Course
end Shortlink
