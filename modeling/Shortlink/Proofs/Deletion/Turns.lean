import Shortlink.Proofs.Deletion.Lifecycle
import Shortlink.Proofs.Deletion.Order
/-!
# Workers are done in turn

The agenda of a course never lets a worker be done before one that took its chunk earlier. As long
as one request is all there is, its chunks are therefore done in order, and a shutdown that gives up
none of them leaves a record of the whole request.
-/
namespace Shortlink

/-- Of the workers whose timers have these turns, none is done before one of a lower turn. -/
def Fair : List Nat → List Turn → Prop
  | _, [] => True
  | turns, .done turn :: rest =>
    (∀ other ∈ turns, turn ≤ other) ∧ Fair (turns.filter (· ≠ turn)) rest
  | turns, .worker :: rest => Fair turns rest
  | turns, .first :: rest => Fair turns rest
  | turns, .producer _ :: rest => Fair turns rest
  | turns, .call :: rest => Fair turns rest
  | turns, .deadline :: rest => Fair turns rest

def Turn.done? : Turn → Option Nat
  | .done turn => some turn
  | _ => none

private theorem fair_cons {turns : List Nat} {turn : Turn} (others : turn.done? = none)
    (rest : List Turn) : Fair turns (turn :: rest) ↔ Fair turns rest := by
  cases turn with
  | done timer => simp [Turn.done?] at others
  | _ => exact Iff.rfl

theorem Fair.mono {turns fewer : List Nat} {agenda : List Turn} (fair : Fair turns agenda)
    (fewer_subset : fewer ⊆ turns) : Fair fewer agenda := by
  induction agenda generalizing turns fewer with
  | nil => trivial
  | cons turn rest ih =>
    cases turn with
    | done timer =>
      refine ⟨fun other there => fair.1 other (fewer_subset there), ih fair.2 ?_⟩
      intro other there
      rw [List.mem_filter] at there ⊢
      exact ⟨fewer_subset there.1, there.2⟩
    | _ => exact ih fair fewer_subset

theorem Fair.tail {turns : List Nat} {turn : Turn} {rest : List Turn}
    (fair : Fair turns (turn :: rest)) (others : turn.done? = none) : Fair turns rest :=
  (fair_cons others rest).mp fair

/-- A worker that takes a chunk gets a turn after all that are planned. -/
theorem Fair.later {turns : List Nat} {agenda : List Turn} {last : Nat} (fair : Fair turns agenda)
    (known : ∀ turn, .done turn ∈ agenda → turn ≤ last) :
    Fair (turns ++ [last + 1]) agenda := by
  induction agenda generalizing turns with
  | nil => trivial
  | cons turn rest ih =>
    have rest_known : ∀ turn, .done turn ∈ rest → turn ≤ last :=
      fun turn there => known turn (List.mem_cons_of_mem _ there)
    cases turn with
    | done timer =>
      have old : timer ≤ last := known timer List.mem_cons_self
      have new : last + 1 ≠ timer := by omega
      constructor
      · intro other there
        rcases List.mem_append.mp there with there | there
        · exact fair.1 other there
        · rw [List.mem_singleton.mp there]
          omega
      · have kept := ih fair.2 rest_known
        rwa [List.filter_append, List.filter_cons_of_pos (by simpa using new), List.filter_nil]
    | _ => exact ih fair rest_known

theorem Fair.append {turns : List Nat} {agenda more : List Turn} (fair : Fair turns agenda)
    (rest : ∀ left, left ⊆ turns → Fair left more) : Fair turns (agenda ++ more) := by
  induction agenda generalizing turns with
  | nil => exact rest turns (List.Subset.refl _)
  | cons turn others ih =>
    cases turn with
    | done timer =>
      refine ⟨fair.1, ih fair.2 ?_⟩
      intro left within
      exact rest left (List.Subset.trans within (List.filter_subset_self _))
    | _ => exact ih fair rest

private theorem fair_of_none {turns : List Nat} {agenda : List Turn}
    (none : ∀ turn ∈ agenda, turn.done? = none) : Fair turns agenda := by
  induction agenda with
  | nil => trivial
  | cons turn rest ih =>
    rw [fair_cons (none turn List.mem_cons_self)]
    exact ih fun other there => none other (List.mem_cons_of_mem _ there)

/-- Timers that go off in the order of their turns are fair to all workers with a timer. -/
theorem fair_of_rising {turns left : List Nat} (rising : turns.Pairwise (· < ·))
    (within : left ⊆ turns) : Fair left (turns.map Turn.done) := by
  induction turns generalizing left with
  | nil => trivial
  | cons turn rest ih =>
    rw [List.pairwise_cons] at rising
    constructor
    · intro other there
      rcases List.mem_cons.mp (within there) with same | later
      · exact Nat.le_of_eq same.symm
      · exact Nat.le_of_lt (rising.1 other later)
    · refine ih rising.2 ?_
      intro other there
      obtain ⟨there, differs⟩ := List.mem_filter.mp there
      rcases List.mem_cons.mp (within there) with same | later
      · exact absurd same (by simpa using differs)
      · exact later

namespace Pipeline

/-- Alarms go off in the order in which the workers took their chunks. -/
theorem InLine.alarms {chunks : List Chunk} {p : Pipeline} (inLine : InLine chunks p) :
    p.alarms = p.flightTurns.map Turn.done ∨
      p.alarms = .deadline :: p.flightTurns.map Turn.done := by
  have due : (p.inFlight.map Flight.timer).filter (·.due ≤ p.now) = p.inFlight.map Flight.timer := by
    simpa [List.filter_eq_self] using inLine.due
  have done : (p.inFlight.map Flight.timer).map (fun timer => Turn.done timer.turn) =
      p.flightTurns.map Turn.done := by
    simp [flightTurns]
  have positive : ∀ timer ∈ p.inFlight.map Flight.timer, 0 < timer.turn := by
    intro timer there
    obtain ⟨flight, flies, rfl⟩ := List.mem_map.mp there
    exact (inLine.known _ (List.mem_map_of_mem flies)).1
  have none : (p.inFlight.map Flight.timer).filter (·.turn < 0) = [] := by simp
  have all : (p.inFlight.map Flight.timer).filter (0 < ·.turn) = p.inFlight.map Flight.timer := by
    rw [List.filter_eq_self]
    exact fun timer there => by simpa using positive timer there
  unfold Pipeline.alarms
  simp only [due, done]
  split
  · next call timer waits =>
    split
    · -- the shutdown has the lowest turn of all, so its time is over before any worker is done
      rw [inLine.deadline call timer waits, none, all, done]
      exact .inr rfl
    · exact .inl rfl
  · exact .inl rfl

end Pipeline

namespace Course
open Pipeline

/-- One request passes through the pipeline in order, and so it will go on. -/
structure Orderly (chunks : List Chunk) (s : Course) : Prop where
  inLine : InLine chunks s.pipeline
  fair : Fair s.pipeline.flightTurns s.agenda
  known : ∀ turn, .done turn ∈ s.agenda → turn ≤ s.pipeline.turns

section
variable {c : PipelineConfig} {chunks : List Chunk} {s : Course}

private theorem Orderly.act_one (orderly : Orderly chunks s) (instant : ∀ w, c.delay w = 0)
    {a : Action}
    (passes : a.passes = true) :
    Orderly chunks { s with pipeline := s.pipeline.act c a } := by
  have effect := act_effect c s.pipeline a
  obtain ⟨turns, later⟩ := effect.flightTurns passes
  refine ⟨effect.inLine instant passes orderly.inLine, ?_, ?_⟩
  · exact (orderly.fair.later orderly.known).mono turns
  · exact fun turn there => Nat.le_trans (orderly.known turn there) later

theorem Orderly.act (orderly : Orderly chunks s) (instant : ∀ w, c.delay w = 0)
    {actions : List Action} (passes : ∀ a ∈ actions, a.passes = true) :
    Orderly chunks (s.act c actions) := by
  induction actions generalizing s with
  | nil => exact orderly
  | cons a rest ih =>
    have first := orderly.act_one instant (passes a List.mem_cons_self)
    exact ih first fun b there => passes b (List.mem_cons_of_mem a there)

theorem Orderly.of_same (orderly : Orderly chunks s) {t : Course}
    (pipeline : t.pipeline = s.pipeline) (agenda : t.agenda = s.agenda) : Orderly chunks t := by
  refine ⟨?_, ?_, ?_⟩ <;> rw [pipeline]
  · exact orderly.inLine
  · rw [agenda]
    exact orderly.fair
  · rw [agenda]
    exact orderly.known

theorem Orderly.plan (orderly : Orderly chunks s) {turns : List Turn}
    (none : ∀ turn ∈ turns, turn.done? = none) : Orderly chunks (s.plan turns) := by
  refine ⟨orderly.inLine, ?_, ?_⟩
  · exact orderly.fair.append fun left _ => fair_of_none none
  · intro turn there
    rcases List.mem_append.mp there with there | there
    · exact orderly.known turn there
    · simpa [Turn.done?] using none _ there

theorem Orderly.rouse (orderly : Orderly chunks s) : Orderly chunks s.rouse := by
  rw [Course.rouse]
  split
  · have planned : Orderly chunks (s.plan [.first]) := orderly.plan (by simp [Turn.done?])
    exact planned.of_same rfl rfl
  · exact orderly

theorem Orderly.look (orderly : Orderly chunks s) (instant : ∀ w, c.delay w = 0) :
    Orderly chunks (s.look c) := by
  rw [Course.look]
  split
  · exact orderly.of_same rfl rfl
  · extract_lets called t
    have taken : Orderly chunks (s.act c [.take]) := orderly.act instant (by simp [Action.passes])
    have promised : Orderly chunks t := by
      refine taken.plan fun turn there => ?_
      obtain ⟨producer, -, rfl⟩ := List.mem_map.mp there
      rfl
    split
    · exact promised.of_same rfl rfl
    · have next : Orderly chunks (t.plan [.first]) := promised.plan (by simp [Turn.done?])
      exact next.of_same rfl rfl

theorem Orderly.seek (orderly : Orderly chunks s) (instant : ∀ w, c.delay w = 0) :
    Orderly chunks (s.seek c) := by
  rw [Course.seek]
  split
  · exact orderly.look instant
  · exact orderly.of_same rfl rfl

theorem Orderly.feed (orderly : Orderly chunks s) (instant : ∀ w, c.delay w = 0)
    (request : Nat) : Orderly chunks (s.feed c request) := by
  unfold Course.feed
  extract_lets before arrived fed count entered roused
  have reached : Orderly chunks entered := by
    have arrives : Orderly chunks { s with pipeline := arrived } := orderly.act_one instant rfl
    exact arrives.act_one instant rfl
  have onward : Orderly chunks roused := by
    simp only [roused]
    split
    · exact reached
    · exact reached.rouse
  split
  · exact onward
  split
  · exact onward.of_same rfl rfl
  · exact onward.act instant (by simp [Action.passes])

/-- The worker whose turn it is took its chunk before all others that are still at theirs. -/
theorem Orderly.finish {timer : Nat} {rest : List Turn} (agenda : s.agenda = .done timer :: rest)
    (orderly : Orderly chunks s) :
    Orderly chunks ({ s with agenda := rest }.act c [.finish timer]) := by
  have fair := orderly.fair
  rw [agenda] at fair
  obtain ⟨inLine, turns, same⟩ := orderly.inLine.finish (c := c) fair.1
  refine ⟨inLine, fair.2.mono turns, ?_⟩
  intro turn there
  have planned : .done turn ∈ s.agenda := agenda ▸ List.mem_cons_of_mem _ there
  exact same ▸ orderly.known turn planned

theorem Orderly.tail {turn : Turn} {rest : List Turn} (agenda : s.agenda = turn :: rest)
    (orderly : Orderly chunks s) (others : turn.done? = none) :
    Orderly chunks { s with agenda := rest } := by
  refine ⟨orderly.inLine, ?_, ?_⟩
  · have fair := orderly.fair
    rw [agenda] at fair
    exact fair.tail others
  · exact fun timer there => orderly.known timer (agenda ▸ List.mem_cons_of_mem _ there)

theorem Orderly.take (orderly : Orderly chunks s) (instant : ∀ w, c.delay w = 0) {turn : Turn}
    {rest : List Turn} (agenda : s.agenda = turn :: rest) :
    Orderly chunks ({ s with agenda := rest }.take c turn) := by
  cases turn with
  | worker => exact (orderly.tail agenda rfl).seek instant
  | first => exact (orderly.tail agenda rfl).look instant
  | done timer => exact (orderly.finish agenda).seek instant
  | producer request => exact (orderly.tail agenda rfl).feed instant request
  | call =>
    rw [Course.take]
    simp only [orderly.inLine.unannounced]
    exact orderly.tail agenda rfl
  | deadline => exact (orderly.tail agenda rfl).act instant (by simp [Action.passes])

theorem Orderly.takeTurns (instant : ∀ w, c.delay w = 0) (n : Nat)
    (orderly : Orderly chunks s) : Orderly chunks (takeTurns c n s) := by
  induction n generalizing s with
  | zero => exact orderly
  | succ n ih =>
    rw [Course.takeTurns]
    split
    · exact orderly
    · next turn rest agenda => exact ih (orderly.take instant agenda)

theorem Orderly.round (orderly : Orderly chunks s) (instant : ∀ w, c.delay w = 0) :
    Orderly chunks (s.round c) := by
  have turned := orderly.takeTurns instant roundLength
  have producers : ∀ turn ∈ (Course.takeTurns c roundLength s).resting.map Turn.producer,
      turn.done? = none := by
    intro turn there
    obtain ⟨request, -, rfl⟩ := List.mem_map.mp there
    rfl
  exact (turned.plan producers).of_same rfl rfl

/-- The first chunk in flight that is due is the one that was taken first. -/
theorem Orderly.step? {next : Course} (orderly : Orderly chunks s) (instant : ∀ w, c.delay w = 0)
    (step : s.step? c = some next) : Orderly chunks next := by
  rw [Course.step?] at step
  split at step
  · rw [← Option.some.inj step]
    exact orderly.round instant
  next unplanned =>
  have agenda : s.agenda = [] := by
    rw [not_or, not_not] at unplanned
    exact List.isEmpty_iff.mp unplanned.1
  split at step
  · next flight first =>
    obtain ⟨-, before, after, flights, early⟩ := List.find?_eq_some_iff_append.mp first
    have inLine := orderly.inLine
    have here : flight ∈ s.pipeline.inFlight := by simp [flights]
    -- whatever is in flight is due, so the flight that is found is the very first
    have alone : before = [] := by
      refine List.eq_nil_iff_forall_not_mem.mpr fun other there => ?_
      have due := inLine.due other (by simp [flights, there])
      simpa [due] using early other there
    have rising := inLine.rising
    subst alone
    rw [← Option.some.inj step]
    refine ⟨inLine, ?_, ?_⟩
    · rw [Course.plan, agenda]
      refine ⟨fun other there => ?_, trivial⟩
      simp only [flightTurns, flights, List.nil_append, List.map_cons,
        List.pairwise_cons, List.mem_cons] at rising there
      rcases there with same | later
      · exact Nat.le_of_eq same.symm
      · exact Nat.le_of_lt (rising.1 other later)
    · intro turn there
      rw [Course.plan, agenda, List.nil_append, List.mem_singleton] at there
      have named := Turn.done.inj there
      rw [named]
      exact (inLine.known _ (List.mem_map_of_mem here)).2
  split at step
  · rw [← Option.some.inj step]
    exact orderly.act instant (by simp [Action.passes])
  · simp at step

theorem Orderly.settleWithin (instant : ∀ w, c.delay w = 0) (enough : Pipeline → Bool)
    (steps : Nat) (orderly : Orderly chunks s) :
    Orderly chunks (s.settleWithin c enough steps) := by
  induction steps generalizing s with
  | zero => exact orderly
  | succ n ih =>
    rw [Course.settleWithin]
    split
    · exact orderly
    split
    · exact orderly
    · next next step => exact ih (orderly.step? instant step)

theorem Orderly.advance (orderly : Orderly chunks s) (instant : ∀ w, c.delay w = 0)
    (moment : Nat) : Orderly chunks (s.advance c moment) := by
  have waited : Orderly chunks (s.act c [.wait moment]) :=
    orderly.act instant (by simp [Action.passes])
  have inLine := waited.inLine
  refine ⟨inLine, ?_, ?_⟩
  · refine waited.fair.append fun left within => ?_
    have fair := fair_of_rising inLine.rising within
    rcases inLine.alarms with alarms | alarms <;> rw [alarms]
    · exact fair
    · exact fair
  · intro turn there
    rcases List.mem_append.mp there with planned | alarm
    · exact waited.known turn planned
    · refine (inLine.known turn ?_).2
      rcases inLine.alarms with alarms | alarms <;> simpa [alarms] using alarm

theorem Orderly.goTo (instant : ∀ w, c.delay w = 0) (call bound steps : Nat)
    (orderly : Orderly chunks s) : Orderly chunks (goTo c call bound steps s) := by
  induction steps generalizing s with
  | zero => exact orderly
  | succ n ih =>
    have settled := orderly.settleWithin instant (fun p => (p.outcome? call).isSome) bound
    rw [Course.goTo]
    split
    · exact settled
    split
    · exact ih (settled.advance instant _)
    · exact settled

theorem Orderly.shutdown (orderly : Orderly chunks s) (instant : ∀ w, c.delay w = 0)
    (grace : Nat) : Orderly chunks (s.shutdown c grace).2 := by
  refine Orderly.goTo instant _ _ _ (orderly.act instant ?_)
  intro a there
  rw [atOnce] at there
  split at there <;> simp at there
  · rcases there with rfl | rfl <;> rfl
  · rw [there]
    rfl

private theorem orderly_submit {r : DeleteRequest}
    (submitted : (Course.start c).submit c r = .ok s) :
    Orderly (chunksOf c 0 r) s := by
  have idle : (Course.start c).pipeline.drain = .idle := rfl
  rw [submit, if_pos idle] at submitted
  rw [← Except.ok.inj submitted]
  have agenda : Fair [] (Course.start c).agenda := by
    refine fair_of_none fun turn there => ?_
    rw [List.eq_of_mem_replicate there]
    rfl
  have handed : Orderly (chunksOf c 0 r) ((Course.start c).act c [.submit r]) := by
    refine ⟨?_, agenda, ?_⟩
    · have begun : ((Course.start c).act c [.submit r]).pipeline =
          { ready := Producer.ofChunks (chunksOf c 0 r), requests := 1 } := rfl
      rw [begun]
      refine ⟨?_, ?_, List.Pairwise.nil, by simp [flightTurns], by simp, rfl, by simp⟩
      · intro kept
        simp [recorded, flying, held]
      · cases chunksOf c 0 r <;> simp [Producer.ofChunks]
    · intro turn there
      simpa using List.eq_of_mem_replicate there
  refine handed.plan fun turn there => ?_
  split at there
  · simp at there
  · rw [List.mem_singleton.mp there]
    rfl

/-- A service that has been handed one request, and shuts down without giving up on any part of it,
is done with its parts in the order in which they were asked for. -/
theorem recorded_shutdown (instant : ∀ w, c.delay w = 0) {r : DeleteRequest}
    (submitted : (Course.start c).submit c r = .ok s) {grace : Nat}
    (empty : (s.shutdown c grace).2.pipeline.isEmpty = true)
    (kept : (s.shutdown c grace).2.pipeline.lost = []) :
    (s.shutdown c grace).2.pipeline.recorded = chunksOf c 0 r := by
  have orderly := (orderly_submit submitted).shutdown instant grace
  have order := orderly.inLine.order kept
  obtain ⟨ready, line, called, queue, flying⟩ := isEmpty_iff.mp empty
  simpa [held, Pipeline.flying, ready, line, called, queue, flying] using order

end
end Course
end Shortlink
