import Shortlink.Proofs.Deletion.Roster
/-!
# A course comes to rest

With every step of a course less is left to do, and in the end nobody can go on at this moment. A
course that has come to rest either waits for a worker that has a chunk, or has nothing left.
-/
namespace Shortlink
namespace Course
open Pipeline

/-- The first shutdown call, if there is one, has more time than the chunks that are left take. -/
inductive Ample (c : PipelineConfig) (s : Course) : Option Nat → Prop where
  | unasked (idle : s.pipeline.drain = .idle) (silent : s.pipeline.announced = []) : Ample c s none
  | announced {call : AnnouncedCall} {others : List AnnouncedCall} (idle : s.pipeline.drain = .idle)
      (first : s.pipeline.announced = call :: others) (planned : .call ∈ s.agenda)
      (longer : s.pipeline.rest c < call.grace) : Ample c s (some call.call)
  | waiting {call : Nat} {timer : Timer} (waits : s.pipeline.drain = .waiting call timer)
      (longer : s.pipeline.now + s.pipeline.rest c < timer.due) : Ample c s (some call)

/-- A course that keeps to its roster and has time. -/
structure Steady (c : PipelineConfig) (first : Option Nat) (s : Course) : Prop where
  planned : Planned c s
  crew : Crew c 0 s
  watchful : Watchful s
  ample : Ample c s first

/-- A course has gone on at the same moment, with so many steps less to do. -/
structure Onward (c : PipelineConfig) (steps : Nat) (s t : Course) : Prop where
  now : t.pipeline.now = s.pipeline.now
  rest : t.pipeline.rest c ≤ s.pipeline.rest c
  effort : t.effort + steps ≤ s.effort

theorem Onward.refl (c : PipelineConfig) (s : Course) : Onward c 0 s s :=
  ⟨rfl, Nat.le_refl _, Nat.le_refl _⟩

theorem Onward.trans {c : PipelineConfig} {m n : Nat} {s t u : Course} (st : Onward c m s t)
    (tu : Onward c n t u) : Onward c (m + n) s u := by
  refine ⟨tu.now.trans st.now, Nat.le_trans tu.rest st.rest, ?_⟩
  have first := st.effort
  have second := tu.effort
  omega

private theorem Onward.weaken {c : PipelineConfig} {m n : Nat} {s t : Course} (st : Onward c n s t)
    (fewer : m ≤ n) : Onward c m s t :=
  ⟨st.now, st.rest, Nat.le_trans (Nat.add_le_add_left fewer _) st.effort⟩

theorem Onward.soon {c : PipelineConfig} {n limit : Nat} {s t : Course} (st : Onward c n s t)
    (soon : s.pipeline.now + s.pipeline.rest c ≤ limit) :
    t.pipeline.now + t.pipeline.rest c ≤ limit := by
  rw [st.now]
  exact Nat.le_trans (Nat.add_le_add_left st.rest _) soon

section
variable {c : PipelineConfig} {s t : Course} {first : Option Nat} {turn : Turn} {others : List Turn}

private theorem Ample.of_moves (ample : Ample c s first) (moves : Moves c s.pipeline t.pipeline)
    (calls : .call ∈ s.agenda → .call ∈ t.agenda) : Ample c t first := by
  have rest := moves.rest
  cases ample with
  | unasked idle silent => exact .unasked (moves.drain.trans idle) (moves.announced.trans silent)
  | announced idle first planned longer =>
    exact .announced (moves.drain.trans idle) (moves.announced.trans first) (calls planned)
      (Nat.lt_of_le_of_lt rest longer)
  | waiting waits longer =>
    refine .waiting (moves.drain.trans waits) ?_
    rw [moves.now]
    omega

private theorem agenda_look : s.agenda ⊆ (s.look c).agenda := by
  cases queue : s.pipeline.queue with
  | nil =>
    rw [look_of_empty queue]
    exact List.Subset.refl _
  | cons chunk rest =>
    rw [look_of_chunk queue, List.append_assoc]
    exact List.subset_append_left _ _

private theorem agenda_seek : s.agenda ⊆ (s.seek c).agenda := by
  rw [seek]
  split
  · exact agenda_look
  · exact List.Subset.refl _

/-! ## A turn -/

private theorem call_mem_tail (agenda : s.agenda = turn :: others) (other : turn ≠ .call)
    (there : .call ∈ s.agenda) : .call ∈ others := by
  rw [agenda] at there
  exact (List.mem_cons.mp there).resolve_left other.symm

private theorem Steady.take_worker (steady : Steady c first s)
    (agenda : s.agenda = .worker :: others) :
    Steady c first ({ s with agenda := others }.seek c) ∧
      Onward c 1 s ({ s with agenda := others }.seek c) := by
  obtain ⟨planned, crew, watchful, ample⟩ := steady
  have free : Crew c 1 { s with agenda := others } := by
    have all := crew.all
    have roused := crew.roused
    rw [agenda] at all roused
    refine ⟨?_, by simpa using roused, crew.alone⟩
    rw [List.count_cons_self] at all
    simp only
    omega
  have less := effort_tail planned agenda rfl
  have effort := effort_seek free.free
  have moves : Moves c s.pipeline ({ s with agenda := others }.seek c).pipeline :=
    moves_seek (s := { s with agenda := others })
  refine ⟨⟨(planned.tail agenda rfl (by simp)).seek free.free, free.seek, watchful_seek watchful,
    ample.of_moves moves ?_⟩, moves.now, moves.rest, by omega⟩
  intro there
  exact agenda_seek (call_mem_tail agenda (by simp) there)

private theorem Steady.take_first (steady : Steady c first s)
    (agenda : s.agenda = .first :: others) :
    Steady c first ({ s with agenda := others }.look c) ∧
      Onward c 1 s ({ s with agenda := others }.look c) := by
  obtain ⟨planned, crew, watchful, ample⟩ := steady
  have roused := crew.roused
  have all := crew.all
  rw [agenda, List.count_cons_self] at roused
  rw [agenda, List.count_cons_of_ne (by simp)] at all
  have awake : s.watch = .roused := by
    by_contra other
    simp [other] at roused
  simp only [awake, if_true] at roused all
  have free : s.pipeline.inFlight.length < c.workers := by
    simp at all
    omega
  have less := effort_tail planned agenda rfl
  have effort := effort_look (c := c) (s := { s with agenda := others }) free
  have moves : Moves c s.pipeline ({ s with agenda := others }.look c).pipeline :=
    moves_look (s := { s with agenda := others })
  refine ⟨⟨(planned.tail agenda rfl (by simp)).look free, Crew.look ?_ ?_, watchful_look,
    ample.of_moves moves ?_⟩, moves.now, moves.rest, by omega⟩
  · simp at all
    simp only
    omega
  · simp only
    omega
  · intro there
    exact agenda_look (call_mem_tail agenda (by simp) there)

private theorem Steady.take_done {timer : Nat} (steady : Steady c first s)
    (agenda : s.agenda = .done timer :: others) :
    Steady c first (({ s with agenda := others }.act c [.finish timer]).seek c) ∧
      Onward c 1 s (({ s with agenda := others }.act c [.finish timer]).seek c) := by
  obtain ⟨planned, crew, watchful, ample⟩ := steady
  have free := crew.done planned agenda
  have less := effort_done planned agenda
  have effort := effort_seek free.free
  have finishes : Moves c s.pipeline ({ s with agenda := others }.act c [.finish timer]).pipeline :=
    (act_effect c s.pipeline (.finish timer)).moves rfl
  have moves := finishes.trans (moves_seek (c := c))
  refine ⟨⟨(planned.done agenda).seek free.free, free.seek, watchful_seek ?_,
    ample.of_moves moves ?_⟩, moves.now, moves.rest, by omega⟩
  · obtain ⟨flight, -, -, finish⟩ := planned.finishes agenda
    intro asleep
    show (s.pipeline.act c (.finish timer)).queue = []
    rw [finish]
    exact watchful asleep
  · intro there
    exact agenda_seek (call_mem_tail agenda (by simp) there)

private theorem Steady.take_producer {request : Nat} (steady : Steady c first s)
    (agenda : s.agenda = .producer request :: others) :
    Steady c first ({ s with agenda := others }.feed c request) ∧
      Onward c 1 s ({ s with agenda := others }.feed c request) := by
  obtain ⟨planned, crew, watchful, ample⟩ := steady
  have fed := fedBy_feed (s := { s with agenda := others }) planned.reached request
  have tail := crew.tail agenda (by simp) (by simp)
  have less := effort_tail planned agenda rfl
  have effort := fed.effort
  have awake : Watchful { s with agenda := others } := watchful
  refine ⟨⟨planned.fed agenda fed, tail.fedBy fed, awake.fedBy fed,
    ample.of_moves fed.moves ?_⟩, fed.moves.now, fed.moves.rest, by omega⟩
  intro there
  exact fed.agenda (call_mem_tail agenda (by simp) there)

private theorem Ample.take_call (ample : Ample c s first) (reached : Reached c s.pipeline)
    (others : List Turn) :
    ∃ p, { s with agenda := others }.take c .call = { s with pipeline := p, agenda := others } ∧
      Unmoved s.pipeline p ∧ Reached c p ∧ Ample c { s with pipeline := p, agenda := others } first := by
  have unmoved := unmoved_beginAnnounced c s.pipeline
  have begun := reached.act .beginAnnounced
  cases ample with
  | unasked idle silent =>
    refine ⟨s.pipeline, ?_, .refl _, reached, .unasked idle silent⟩
    simp [take, silent]
  | @announced call rest idle first planned longer =>
    have grace : call.grace ≠ 0 := by omega
    have waits : (s.pipeline.act c .beginAnnounced).drain = .waiting call.call
        ⟨s.pipeline.now + call.grace, s.pipeline.turns + 1⟩ := by
      simp only [Pipeline.act, first]
      rw [beginCall_of_idle _ _ _ _ idle]
    refine ⟨s.pipeline.act c .beginAnnounced, ?_, unmoved, begun, .waiting waits ?_⟩
    · simp [take, first, atOnce, grace, Course.act, run]
    · simp only [unmoved.now, unmoved.rest]
      exact Nat.add_lt_add_left longer _
  | @waiting call timer waits longer =>
    cases first : s.pipeline.announced with
    | nil =>
      refine ⟨s.pipeline, ?_, .refl _, reached, .waiting waits longer⟩
      simp [take, first]
    | cons call' rest =>
      have busy : s.pipeline.drain ≠ .idle := by simp [waits]
      have still : (s.pipeline.act c .beginAnnounced).drain = .waiting call timer := by
        simp only [Pipeline.act, first]
        rw [beginCall_of_not_idle _ _ _ _ busy]
        exact waits
      refine ⟨s.pipeline.act c .beginAnnounced, ?_, unmoved, begun, .waiting still ?_⟩
      · simp [take, first, atOnce, busy, Course.act, run]
      · simpa only [unmoved.now, unmoved.rest] using longer

private theorem Ample.act_expire (ample : Ample c s first) :
    s.pipeline.act c .expire = s.pipeline := by
  cases ample with
  | unasked idle silent => simp [Pipeline.act, idle]
  | announced idle first planned longer => simp [Pipeline.act, idle]
  | @waiting call timer waits longer =>
    have early : ¬ timer.due ≤ s.pipeline.now := by omega
    simp [Pipeline.act, waits, early]

private theorem Steady.take_call (steady : Steady c first s) (agenda : s.agenda = .call :: others) :
    Steady c first ({ s with agenda := others }.take c .call) ∧
      Onward c 1 s ({ s with agenda := others }.take c .call) := by
  obtain ⟨planned, crew, watchful, ample⟩ := steady
  have less := effort_tail planned agenda rfl
  have tail := planned.tail agenda rfl (by simp)
  obtain ⟨p, taken, unmoved, reached, ample⟩ := ample.take_call planned.reached others
  have effort : ({ s with pipeline := p, agenda := others } : Course).effort =
      ({ s with agenda := others } : Course).effort := by
    simp only [Course.effort, dones, unmoved.load]
  rw [taken]
  refine ⟨⟨tail.of_unmoved reached unmoved (List.Subset.refl _) (List.Subset.refl _) rfl,
    (crew.tail agenda (by simp) (by simp)).of_inFlight unmoved.inFlight, ?_, ample⟩, unmoved.now,
    Nat.le_of_eq (unmoved.rest c), by omega⟩
  intro asleep
  rw [unmoved.queue]
  exact watchful asleep

private theorem Steady.take_deadline (steady : Steady c first s)
    (agenda : s.agenda = .deadline :: others) :
    Steady c first ({ s with agenda := others }.act c [.expire]) ∧
      Onward c 1 s ({ s with agenda := others }.act c [.expire]) := by
  obtain ⟨planned, crew, watchful, ample⟩ := steady
  have less := effort_tail planned agenda rfl
  have nothing : { s with agenda := others }.act c [.expire] = { s with agenda := others } := by
    show ({ s with agenda := others, pipeline := s.pipeline.act c .expire } : Course) = _
    rw [ample.act_expire]
  rw [nothing]
  refine ⟨⟨planned.tail agenda rfl (by simp), crew.tail agenda (by simp) (by simp), watchful,
    ample.of_moves (.refl c _) ?_⟩, rfl, Nat.le_refl _, by omega⟩
  exact call_mem_tail agenda (by simp)

theorem Steady.take (steady : Steady c first s) (agenda : s.agenda = turn :: others) :
    Steady c first ({ s with agenda := others }.take c turn) ∧
      Onward c 1 s ({ s with agenda := others }.take c turn) := by
  cases turn with
  | worker => exact steady.take_worker agenda
  | first => exact steady.take_first agenda
  | done timer => exact steady.take_done agenda
  | producer request => exact steady.take_producer agenda
  | call => exact steady.take_call agenda
  | deadline => exact steady.take_deadline agenda

/-! ## A round of turns -/

theorem Steady.takeTurns (steady : Steady c first s) (n : Nat) :
    Steady c first (takeTurns c n s) ∧ Onward c 0 s (takeTurns c n s) := by
  induction n generalizing s with
  | zero => exact ⟨steady, .refl c s⟩
  | succ n ih =>
    rw [Course.takeTurns]
    split
    · exact ⟨steady, .refl c s⟩
    · next turn rest agenda =>
      obtain ⟨taken, once⟩ := steady.take agenda
      obtain ⟨later, more⟩ := ih taken
      exact ⟨later, (once.trans more).weaken (Nat.zero_le _)⟩

theorem Crew.plan {inHand : Nat} (crew : Crew c inHand s) (turns : List Turn)
    (none : ∀ turn ∈ turns, turn ≠ .worker ∧ turn ≠ .first) : Crew c inHand (s.plan turns) := by
  obtain ⟨all, roused, alone⟩ := crew
  have workers : turns.count .worker = 0 :=
    List.count_eq_zero.mpr fun there => (none _ there).1 rfl
  have firsts : turns.count .first = 0 := List.count_eq_zero.mpr fun there => (none _ there).2 rfl
  refine ⟨?_, ?_, alone⟩
  · rw [Course.plan, List.count_append, workers]
    exact all
  · rw [Course.plan, List.count_append, firsts]
    exact roused

private theorem Steady.comeBack (steady : Steady c first s) :
    Steady c first { s.plan (s.resting.map Turn.producer) with resting := [] } ∧
      Onward c s.resting.length s { s.plan (s.resting.map Turn.producer) with resting := [] } := by
  obtain ⟨planned, crew, watchful, ample⟩ := steady
  have dones : ({ s.plan (s.resting.map Turn.producer) with resting := [] } : Course).dones =
      s.dones := by
    simp only [Course.dones, plan, List.filterMap_append, List.filterMap_map]
    simp [Turn.done?]
  have back := crew.plan (s.resting.map Turn.producer) (by simp)
  refine ⟨⟨⟨planned.reached, ?_, dones ▸ planned.once, ?_⟩, ⟨back.all, back.roused, back.alone⟩,
    watchful, ample.of_moves (.refl c _) (List.mem_append_left _)⟩, rfl, Nat.le_refl _, ?_⟩
  · intro producer there
    rcases planned.awake producer there with known | rests
    · exact .inl (List.mem_append_left _ known)
    · exact .inl (List.mem_append_right _ (List.mem_map_of_mem rests))
  · rw [dones]
    exact planned.due
  · have few := planned.length_dones
    simp only [effort, dones]
    simp only [plan, load, List.length_append, List.length_map, List.length_nil]
    omega

/-- A round in which somebody has a turn or comes back leaves less to do. -/
theorem Steady.round (steady : Steady c first s) (some : s.agenda ≠ [] ∨ s.resting ≠ []) :
    Steady c first (s.round c) ∧ Onward c 1 s (s.round c) := by
  cases agenda : s.agenda with
  | nil =>
    have idle : Course.takeTurns c roundLength s = s := by
      rw [roundLength, Course.takeTurns]
      split
      · rfl
      · next planned => simp [agenda] at planned
    have rests : 0 < s.resting.length := List.length_pos_iff.mpr (some.resolve_left (· agenda))
    obtain ⟨back, onward⟩ := steady.comeBack
    rw [Course.round, idle]
    exact ⟨back, onward.weaken rests⟩
  | cons turn rest =>
    have once : Course.takeTurns c roundLength s =
        Course.takeTurns c 60 ({ s with agenda := rest }.take c turn) := by
      rw [roundLength, Course.takeTurns]
      simp only [agenda]
    obtain ⟨taken, first⟩ := steady.take agenda
    obtain ⟨turned, second⟩ := taken.takeTurns 60
    obtain ⟨back, third⟩ := turned.comeBack
    rw [Course.round, once]
    exact ⟨back, ((first.trans second).trans third).weaken (by omega)⟩

/-! ## The next step -/

private theorem Steady.land (steady : Steady c first s) (agenda : s.agenda = []) {flight : Flight}
    (flies : flight ∈ s.pipeline.inFlight) (due : flight.timer.due ≤ s.pipeline.now) :
    Steady c first (s.plan [.done flight.timer.turn]) ∧
      Onward c 1 s (s.plan [.done flight.timer.turn]) := by
  obtain ⟨planned, crew, watchful, ample⟩ := steady
  have dones : (s.plan [.done flight.timer.turn]).dones = [flight.timer.turn] := by
    simp [Course.dones, plan, agenda, Turn.done?]
  refine ⟨⟨⟨planned.reached, ?_, by simp [dones], ?_⟩, crew.plan _ (by simp), watchful,
    ample.of_moves (.refl c _) (List.mem_append_left _)⟩, rfl, Nat.le_refl _, ?_⟩
  · intro producer there
    exact (planned.awake producer there).imp_left (List.mem_append_left _)
  · rw [dones]
    intro turn there
    exact ⟨flight, flies, (List.mem_singleton.mp there).symm, due⟩
  · have some := List.length_pos_of_mem flies
    have before : s.dones = [] := by simp [Course.dones, agenda]
    simp only [effort, dones, before]
    simp only [load, plan, agenda, List.nil_append, List.length_nil, List.length_singleton]
    omega

theorem Steady.finish (steady : Steady c first s) (drained : s.pipeline.isDrained = true) :
    ∃ call, first = some call ∧ Finished c call (s.act c [.drained]).pipeline ∧
      (s.act c [.drained]).pipeline.now = s.pipeline.now := by
  obtain ⟨planned, -, -, ample⟩ := steady
  cases ample with
  | unasked idle silent => simp [isDrained, idle] at drained
  | announced idle _ _ _ => simp [isDrained, idle] at drained
  | @waiting call timer waits longer =>
    have empty : s.pipeline.isEmpty = true := by simpa [isDrained, waits] using drained
    have ends : (s.act c [.drained]).pipeline = { s.pipeline with
        phase := .stopped, drain := .over, outcomes := (call, .drained) :: s.pipeline.outcomes } := by
      simp [Course.act, run, Pipeline.act, waits, empty]
    have kept : s.pipeline.lost = [] := by
      obtain ⟨actions, run⟩ := planned.reached
      rw [run] at waits ⊢
      exact (of_waiting c (by rw [waiting?, waits])).2
    have reached : Reached c (s.act c [.drained]).pipeline := planned.reached.act .drained
    rw [ends] at reached ⊢
    exact ⟨call, rfl, ⟨reached, List.mem_cons_self, rfl, rfl, empty, kept⟩, rfl⟩

theorem Steady.step? (steady : Steady c first s) (step : s.step? c = some t) :
    (Steady c first t ∧ Onward c 1 s t) ∨
      ∃ call, first = some call ∧ Finished c call t.pipeline ∧ t.pipeline.now = s.pipeline.now := by
  rw [Course.step?] at step
  split at step
  · next busy =>
    left
    rw [← Option.some.inj step]
    apply steady.round
    simpa using busy
  next quiet =>
  have agenda : s.agenda = [] := by
    rw [not_or, not_not] at quiet
    exact List.isEmpty_iff.mp quiet.1
  split at step
  · next flight found =>
    left
    rw [← Option.some.inj step]
    exact steady.land agenda (List.mem_of_find?_eq_some found)
      (by simpa using List.find?_some found)
  split at step
  · next drained =>
    right
    rw [← Option.some.inj step]
    exact steady.finish drained
  · simp at step

/-- A course is let go on until the caller has what it waits for. If that is not the answer of the
first shutdown call, the course comes to rest or finds the call answered on its way. -/
theorem Steady.settleWithin (steady : Steady c first s) (enough : Pipeline → Bool)
    (unanswered : ∀ t, Steady c first t → enough t.pipeline = false) {steps : Nat}
    (bound : s.effort < steps) :
    (Steady c first (s.settleWithin c enough steps) ∧
        Onward c 0 s (s.settleWithin c enough steps) ∧
        (s.settleWithin c enough steps).step? c = none) ∨
      ∃ call, first = some call ∧ Finished c call (s.settleWithin c enough steps).pipeline ∧
        ((∀ p, Finished c call p → enough p = true) →
          (s.settleWithin c enough steps).pipeline.now = s.pipeline.now) := by
  induction steps generalizing s with
  | zero => omega
  | succ steps ih =>
    simp only [Course.settleWithin, unanswered s steady, Bool.false_eq_true, if_false]
    split
    · next last => exact .inl ⟨steady, .refl c s, last⟩
    next next step =>
    rcases steady.step? step with ⟨still, once⟩ | ⟨call, asked, finished, now⟩
    · have less := once.effort
      rcases ih still (by omega) with ⟨settled, onward, last⟩ | ⟨call, asked, finished, now⟩
      · exact .inl ⟨settled, (once.trans onward).weaken (Nat.zero_le _), last⟩
      · exact .inr ⟨call, asked, finished, fun answered => (now answered).trans once.now⟩
    · refine .inr ⟨call, asked, finished.goes (goes_settleWithin enough steps next), ?_⟩
      intro answered
      -- the caller has the answer, so no further step is made
      have stays : next.settleWithin c enough steps = next := by
        cases steps with
        | zero => rfl
        | succ steps => simp only [Course.settleWithin, answered _ finished, if_true]
      rw [stays]
      exact now

/-! ## At rest -/

/-- When nobody can go on and no worker has a chunk, nothing is left. -/
theorem Steady.empty_of_rest (steady : Steady c first s) (agenda : s.agenda = [])
    (resting : s.resting = []) (landed : s.pipeline.inFlight = []) : s.pipeline.isEmpty = true := by
  obtain ⟨planned, crew, watchful, ample⟩ := steady
  have workers : 1 ≤ c.workers := Nat.le_max_left _ _
  have places : 1 ≤ c.queueSize := Nat.le_max_left _ _
  have awake : s.pipeline.awake = [] := by
    refine List.eq_nil_iff_forall_not_mem.mpr fun producer there => ?_
    simpa [agenda, resting] using planned.awake producer there
  obtain ⟨ready, called⟩ := List.append_eq_nil_iff.mp awake
  have queue : s.pipeline.queue = [] := by
    have all := crew.all
    have roused := crew.roused
    rw [agenda, landed] at all
    rw [agenda] at roused
    cases watch : s.watch with
    | nobody =>
      have alone := crew.alone watch
      simp [watch, alone] at all
      omega
    | asleep => exact watchful watch
    | roused => simp [watch] at roused
  have line : s.pipeline.line = [] := by
    obtain ⟨actions, run⟩ := planned.reached
    have roomy := roomy_run c actions
    rw [← run] at roomy
    by_contra waits
    have full := roomy.full waits
    simp only [room, queue, called, List.length_nil] at full
    omega
  exact isEmpty_iff.mpr ⟨ready, line, called, queue, landed⟩

end
end Course
end Shortlink
