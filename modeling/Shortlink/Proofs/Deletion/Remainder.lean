import Shortlink.Proofs.Deletion.Order
import Shortlink.Proofs.Deletion.Passage
/-!
# What is left to do

The chunks that are not done yet take a known time and a known number of turns. Moving them on, from
their producers to the record, never makes either of them larger.
-/
namespace Shortlink.Pipeline

def Action.moves : Action → Bool
  | .enter _ _ | .lineUp _ | .arrive _ | .take | .finish _ => true
  | _ => false

/-- How long the store takes for all chunks that are not done, one after another, from now on. -/
def rest (c : PipelineConfig) (p : Pipeline) : Nat :=
  ((p.held ++ p.queue).map fun chunk => c.delay chunk.work).sum +
    (p.inFlight.map fun flight => flight.timer.due - p.now).sum

/-- A bound on the turns that the chunks need. -/
def load (p : Pipeline) : Nat :=
  10 * p.held.length + 7 * p.queue.length + 3 * p.inFlight.length

/-- Chunks have been moved on at the same moment, and nothing else has happened. -/
structure Moves (c : PipelineConfig) (p q : Pipeline) : Prop where
  now : q.now = p.now
  drain : q.drain = p.drain
  announced : q.announced = p.announced
  rest : q.rest c ≤ p.rest c

theorem Moves.refl (c : PipelineConfig) (p : Pipeline) : Moves c p p :=
  ⟨rfl, rfl, rfl, Nat.le_refl _⟩

theorem Moves.trans {c : PipelineConfig} {p q r : Pipeline} (pq : Moves c p q) (qr : Moves c q r) :
    Moves c p r :=
  ⟨qr.now.trans pq.now, qr.drain.trans pq.drain, qr.announced.trans pq.announced,
    Nat.le_trans qr.rest pq.rest⟩

/-- No chunk has been moved, and no time has passed. -/
structure Unmoved (p q : Pipeline) : Prop where
  now : q.now = p.now
  ready : q.ready = p.ready
  line : q.line = p.line
  called : q.called = p.called
  queue : q.queue = p.queue
  inFlight : q.inFlight = p.inFlight

theorem Unmoved.refl (p : Pipeline) : Unmoved p p := ⟨rfl, rfl, rfl, rfl, rfl, rfl⟩

theorem unmoved_beginCall (p : Pipeline) (call grace turn : Nat) :
    Unmoved p (p.beginCall call grace turn) :=
  ⟨beginCall_now p call grace turn, by simp, by simp, by simp, by simp, by simp⟩

theorem unmoved_beginAnnounced (c : PipelineConfig) (p : Pipeline) :
    Unmoved p (p.act c .beginAnnounced) := by
  simp only [act]
  split
  · next call others first =>
    exact { unmoved_beginCall p call.call call.grace (p.turns + 1) with }
  · exact .refl p

section
variable {p q : Pipeline}

theorem Unmoved.rest (unmoved : Unmoved p q) (c : PipelineConfig) : q.rest c = p.rest c := by
  simp only [Pipeline.rest, held, unmoved.now, unmoved.ready, unmoved.line, unmoved.called,
    unmoved.queue, unmoved.inFlight]

theorem Unmoved.load (unmoved : Unmoved p q) : q.load = p.load := by
  simp only [Pipeline.load, held, unmoved.ready, unmoved.line, unmoved.called, unmoved.queue,
    unmoved.inFlight]

end

/-- The timers in flight have turns of their own, and none is due later than if its chunk had been
taken just now. -/
structure Timed (c : PipelineConfig) (p : Pipeline) : Prop where
  rising : p.flightTurns.Pairwise (· < ·)
  known : ∀ turn ∈ p.flightTurns, turn ≤ p.turns
  soon : ∀ flight ∈ p.inFlight, flight.timer.due ≤ p.now + c.delay flight.chunk.work

section
variable {c : PipelineConfig} {p q : Pipeline} {a : Action}

private theorem sum_take_drop (n : Nat) (chunks : List Chunk) :
    ((chunks.take n).map fun chunk => c.delay chunk.work).sum +
        ((chunks.drop n).map fun chunk => c.delay chunk.work).sum =
      (chunks.map fun chunk => c.delay chunk.work).sum := by
  rw [← List.sum_append, ← List.map_append, List.take_append_drop]

private theorem sum_chunks_take_drop (n : Nat) (line : List Producer) :
    (((line.take n).flatMap Producer.chunks).map fun chunk => c.delay chunk.work).sum +
        (((line.drop n).flatMap Producer.chunks).map fun chunk => c.delay chunk.work).sum =
      ((line.flatMap Producer.chunks).map fun chunk => c.delay chunk.work).sum := by
  rw [← List.sum_append, ← List.map_append, ← List.flatMap_append, List.take_append_drop]

theorem Effect.moves (h : Effect c p a q) (moves : a.moves = true) : Moves c p q := by
  cases h with
  | nothing refused untaken => exact .refl c p
  | @enter request count producer before after found named others =>
    refine ⟨rfl, rfl, rfl, ?_⟩
    have moved := sum_take_drop (c := c) (min count (p.room c)) producer.chunks
    simp only [rest, held, found, List.flatMap_append, List.flatMap_cons, List.map_append,
      List.sum_append, flatMap_chunks_ofChunks]
    omega
  | lineUp found named others full =>
    refine ⟨rfl, rfl, rfl, ?_⟩
    simp only [rest, held, found, List.flatMap_append, List.flatMap_cons, List.flatMap_nil,
      List.map_append, List.map_nil, List.sum_append, List.sum_nil]
    omega
  | arrive found named others =>
    refine ⟨rfl, rfl, rfl, ?_⟩
    simp only [rest, held, found, Producer.chunks, List.flatMap_append, List.flatMap_cons,
      List.map_append, List.map_cons, List.map_nil, List.sum_append, List.sum_cons, List.sum_nil,
      flatMap_chunks_ofChunks]
    omega
  | take first free =>
    refine ⟨rfl, rfl, rfl, ?_⟩
    have moved := sum_chunks_take_drop (c := c) 1 p.line
    simp only [rest, held, first, List.flatMap_append, List.map_append, List.map_cons, List.map_nil,
      List.sum_append, List.sum_cons, List.sum_nil]
    omega
  | finish found due =>
    refine ⟨rfl, rfl, rfl, ?_⟩
    simp only [rest, held, found, List.map_append, List.map_cons, List.sum_append, List.sum_cons]
    omega
  | _ => simp [Action.moves] at moves

theorem Effect.timed (h : Effect c p a q) (timed : Timed c p) : Timed c q := by
  obtain ⟨rising, known, soon⟩ := timed
  cases h with
  | take first free =>
    refine ⟨?_, ?_, ?_⟩
    · simp only [Pipeline.flightTurns, List.map_append, List.map_cons, List.map_nil]
      refine List.pairwise_append.mpr ⟨rising, List.pairwise_singleton _ _, ?_⟩
      intro turn before new last
      rw [List.mem_singleton] at last
      have old := known turn before
      omega
    · simp only [Pipeline.flightTurns, List.map_append, List.map_cons, List.map_nil, List.mem_append,
        List.mem_singleton]
      rintro turn (old | rfl)
      · exact Nat.le_succ_of_le (known turn old)
      · exact Nat.le_refl _
    · intro flight there
      rcases List.mem_append.mp there with old | new
      · exact soon flight old
      · rw [List.mem_singleton.mp new]
  | @finish turn flight before after found due =>
    have fewer : (before ++ after).Sublist p.inFlight := by
      rw [found]
      exact (List.sublist_cons_self _ _).append_left _
    refine ⟨rising.sublist (fewer.map _), ?_, fun other there => soon other (fewer.subset there)⟩
    exact fun turn there => known turn ((fewer.map _).subset there)
  | shutDown =>
    refine ⟨?_, ?_, ?_⟩
    · simpa [Pipeline.flightTurns] using rising
    · simpa [Pipeline.flightTurns, beginCall_turns] using known
    · simpa [beginCall_now] using soon
  | beginAnnounced first =>
    refine ⟨?_, ?_, ?_⟩
    · simpa [Pipeline.flightTurns] using rising
    · intro turn there
      simp only [Pipeline.flightTurns, beginCall_inFlight] at there
      exact Nat.le_succ_of_le (known turn there)
    · simpa [beginCall_now] using soon
  | expire waits due =>
    exact ⟨by simp [Pipeline.flightTurns, giveUp], by simp [Pipeline.flightTurns, giveUp], by simp [giveUp]⟩
  | wait =>
    refine ⟨rising, known, fun flight there => ?_⟩
    have before := soon flight there
    show flight.timer.due ≤ max p.now _ + _
    omega
  | _ => exact ⟨rising, known, soon⟩

end

section
variable (c : PipelineConfig)

theorem Timed.run {p : Pipeline} (timed : Timed c p) (actions : List Action) :
    Timed c (run c p actions) := by
  induction actions generalizing p with
  | nil => exact timed
  | cons a rest ih => exact ih ((act_effect c p a).timed timed)

theorem timed_run (actions : List Action) : Timed c (Pipeline.run c {} actions) :=
  Timed.run c ⟨List.Pairwise.nil, by simp [flightTurns], by simp⟩ actions

end

/-! ## States that runs reach -/

def Reached (c : PipelineConfig) (p : Pipeline) : Prop := ∃ actions, p = run c {} actions

theorem Reached.act {c : PipelineConfig} {p : Pipeline} (reached : Reached c p) (a : Action) :
    Reached c (p.act c a) := by
  obtain ⟨actions, rfl⟩ := reached
  exact ⟨actions ++ [a], (run_snoc c {} actions a).symm⟩

/-- The call has answered that nothing is left, and so it is. -/
structure Finished (c : PipelineConfig) (call : Nat) (p : Pipeline) : Prop where
  reached : Reached c p
  answered : (call, .drained) ∈ p.outcomes
  ended : p.drain = .over
  stopped : p.phase = .stopped
  empty : p.isEmpty = true
  kept : p.lost = []

theorem Finished.outcome? {c : PipelineConfig} {call : Nat} {p : Pipeline}
    (finished : Finished c call p) : p.outcome? call = some .drained := by
  obtain ⟨⟨actions, run⟩, answered, -⟩ := finished
  rw [run] at answered ⊢
  exact outcome?_eq_of_mem answered

theorem Finished.goes {c : PipelineConfig} {call : Nat} {p q : Pipeline}
    (finished : Finished c call p) (goes : Goes c p q) : Finished c call q := by
  obtain ⟨actions, rfl, -⟩ := goes
  induction actions generalizing p with
  | nil => exact finished
  | cons a rest ih =>
    obtain ⟨reached, answered, ended, stopped, empty, kept⟩ := finished
    obtain ⟨ended', stopped', grown⟩ := (act_effect c p a).over ended stopped
    obtain ⟨empty', -, kept', -⟩ := (act_effect c p a).quiet empty (by simp [ended])
    exact ih ⟨reached.act a, grown answered, ended', stopped', empty', kept'.trans kept⟩

private theorem request_ne_of_mem_eraseP {producers : List Producer} {request : Nat}
    (distinct : (producers.map Producer.request).Nodup) {producer : Producer}
    (there : producer ∈ producers.eraseP (·.request = request)) : producer.request ≠ request := by
  induction producers with
  | nil => simp at there
  | cons first others ih =>
    rw [List.map_cons, List.nodup_cons] at distinct
    by_cases named : first.request = request
    · rw [List.eraseP_cons_of_pos (by simpa using named)] at there
      rintro rfl
      exact distinct.1 (named ▸ List.mem_map_of_mem there)
    · rw [List.eraseP_cons_of_neg (by simpa using named)] at there
      rcases List.mem_cons.mp there with rfl | later
      · exact named
      · exact ih distinct.2 later

/-- Every producer has a request of its own, of which all its chunks are. -/
structure Sole (producers : List Producer) : Prop where
  distinct : (producers.map Producer.request).Nodup
  named : ∀ producer ∈ producers, ∀ chunk ∈ producer.chunks, chunk.request = producer.request

theorem Reached.sole {c : PipelineConfig} {p : Pipeline} (reached : Reached c p) :
    Sole (p.ready ++ p.line ++ p.called) := by
  obtain ⟨actions, rfl⟩ := reached
  have seq := inSequence c actions
  exact ⟨seq.distinct, fun _ there => (seq.request_of_mem there).2⟩

theorem Sole.sublist {producers fewer : List Producer} (sole : Sole producers)
    (within : fewer.Sublist producers) : Sole fewer :=
  ⟨sole.distinct.sublist (within.map _), fun _ there => sole.named _ (within.subset there)⟩

theorem Reached.sole_ready {c : PipelineConfig} {p : Pipeline} (reached : Reached c p) :
    Sole p.ready :=
  reached.sole.sublist ((List.sublist_append_left _ _).trans (List.sublist_append_left _ _))

/-! ## A producer goes on -/

def awake (p : Pipeline) : List Producer := p.ready ++ p.called

def Action.feeds? : Action → Option Nat
  | .enter request _ | .lineUp request | .arrive request => some request
  | _ => none

/-- The producer of one request has put chunks into the queue or lined up. -/
structure Fed (request : Nat) (p q : Pipeline) : Prop where
  queue : p.queue <+: q.queue
  inFlight : q.inFlight = p.inFlight
  total : q.held.length + q.queue.length = p.held.length + p.queue.length
  others : ∀ producer ∈ q.awake, producer.request ≠ request → producer ∈ p.awake

theorem Fed.trans {request : Nat} {p q r : Pipeline} (pq : Fed request p q) (qr : Fed request q r) :
    Fed request p r := by
  refine ⟨pq.queue.trans qr.queue, qr.inFlight.trans pq.inFlight, qr.total.trans pq.total, ?_⟩
  exact fun producer there other => pq.others producer (qr.others producer there other) other

theorem Fed.load {request : Nat} {p q : Pipeline} (fed : Fed request p q) :
    q.load + 3 * (q.queue.length - p.queue.length) = p.load := by
  have grown := fed.queue.length_le
  have total := fed.total
  simp only [Pipeline.load, fed.inFlight]
  omega

theorem Fed.queue_eq {request : Nat} {p q : Pipeline} (fed : Fed request p q)
    (none : q.queue.length - p.queue.length = 0) : q.queue = p.queue :=
  (fed.queue.eq_of_length_le (by omega)).symm

section
variable {c : PipelineConfig} {p q : Pipeline} {a : Action} {request : Nat}

theorem Effect.fed (h : Effect c p a q) (feeds : a.feeds? = some request)
    (sole : Sole (p.ready ++ p.line ++ p.called)) : Fed request p q := by
  cases h with
  | nothing refused untaken =>
    exact ⟨List.prefix_refl _, rfl, rfl, fun _ there _ => there⟩
  | @enter _ count producer before after found named others =>
    obtain rfl := Option.some.inj feeds
    have same : ∀ chunk ∈ producer.chunks.drop (min count (p.room c)), chunk.request = producer.request :=
      fun chunk there => sole.named producer (by simp [found]) chunk (List.mem_of_mem_drop there)
    refine ⟨List.prefix_append _ _, rfl, ?_, ?_⟩
    · simp only [held, found, List.flatMap_append, List.flatMap_cons, List.length_append,
        List.length_take, List.length_drop, flatMap_chunks_ofChunks]
      omega
    · intro other there differs
      simp only [awake, found, List.mem_append, List.mem_cons] at there ⊢
      rcases there with (own | before | after) | called
      · exact absurd ((request_of_mem_ofChunks same own).1.trans named) differs
      · exact .inl (.inl before)
      · exact .inl (.inr (.inr after))
      · exact .inr called
  | @lineUp _ producer before after found named others full =>
    refine ⟨List.prefix_refl _, rfl, ?_, ?_⟩
    · simp only [held, found, List.flatMap_append, List.flatMap_cons, List.flatMap_nil,
        List.length_append, List.length_nil]
      omega
    · intro other there differs
      simp only [awake, found, List.mem_append, List.mem_cons] at there ⊢
      rcases there with (before | after) | called
      · exact .inl (.inl before)
      · exact .inl (.inr (.inr after))
      · exact .inr called
  | @arrive _ producer before after found named others =>
    obtain rfl := Option.some.inj feeds
    have same : ∀ chunk ∈ producer.later, chunk.request = producer.request :=
      fun chunk there => sole.named producer (by simp [found]) chunk (List.mem_cons_of_mem _ there)
    refine ⟨List.prefix_append _ _, rfl, ?_, ?_⟩
    · simp only [held, found, Producer.chunks, List.flatMap_append, List.flatMap_cons,
        List.length_append, List.length_cons, List.length_nil, flatMap_chunks_ofChunks]
      omega
    · intro other there differs
      simp only [awake, found, List.mem_append, List.mem_cons] at there ⊢
      rcases there with (own | ready) | before | after
      · exact absurd ((request_of_mem_ofChunks same own).1.trans named) differs
      · exact .inl ready
      · exact .inr (.inl before)
      · exact .inr (.inr (.inr after))
  | _ => simp [Action.feeds?] at feeds

theorem called_arrive (sole : Sole p.called) :
    ∀ producer ∈ (p.act c (.arrive request)).called, producer.request ≠ request := by
  intro producer there
  simp only [act] at there
  split at there
  · exact request_ne_of_mem_eraseP sole.distinct there
  · next missing =>
    have none := List.find?_eq_none.mp missing producer there
    simpa using none

theorem length_queue_arrive :
    (p.act c (.arrive request)).queue.length ≤ p.queue.length + 1 := by
  simp only [act]
  split
  · simp
  · exact Nat.le_succ _

theorem called_enter (count : Nat) : (p.act c (.enter request count)).called = p.called := by
  simp only [act]
  split <;> rfl

/-- A producer that has chunks left has put as many into the queue as it may, or there is no room. -/
theorem room_enter (sole : Sole p.ready) {count : Nat} {producer : Producer}
    (left : producer ∈ (p.act c (.enter request count)).ready) (named : producer.request = request) :
    (p.act c (.enter request count)).queue.length = p.queue.length + count ∨
      (p.act c (.enter request count)).room c = 0 := by
  simp only [act] at left ⊢
  split at left
  · next first found =>
    have more : producer ∈ Producer.ofChunks (first.chunks.drop (min count (p.room c))) := by
      rcases List.mem_append.mp left with own | other
      · exact own
      · exact absurd named (request_ne_of_mem_eraseP sole.distinct other)
    have enough : min count (p.room c) < first.chunks.length := by
      by_contra short
      rw [List.drop_eq_nil_of_le (by omega)] at more
      simp [Producer.ofChunks] at more
    simp only [room, List.length_append, List.length_take] at enough ⊢
    omega
  · next missing =>
    have none := List.find?_eq_none.mp missing producer left
    simp [named] at none

theorem ready_lineUp (sole : Sole p.ready) (full : p.room c = 0) :
    ∀ producer ∈ (p.act c (.lineUp request)).ready, producer.request ≠ request := by
  intro producer there
  simp only [act, full, if_true] at there
  split at there
  · exact request_ne_of_mem_eraseP sole.distinct there
  · next missing =>
    have none := List.find?_eq_none.mp missing producer there
    simpa using none

theorem called_lineUp : (p.act c (.lineUp request)).called = p.called := by
  simp only [act]
  split
  · split <;> rfl
  · rfl

theorem queue_lineUp : (p.act c (.lineUp request)).queue = p.queue := by
  simp only [act]
  split
  · split <;> rfl
  · rfl

/-! ## A worker takes a chunk or is done with one -/

theorem act_take {chunk : Chunk} {others : List Chunk} (first : p.queue = chunk :: others)
    (free : p.inFlight.length < c.workers) : p.act c .take = { p with
      queue := others
      called := p.called ++ p.line.take 1
      line := p.line.drop 1
      inFlight := p.inFlight ++ [⟨chunk, ⟨p.now + c.delay chunk.work, p.turns + 1⟩⟩]
      busy := p.busy + 1
      turns := p.turns + 1 } := by
  simp [act, first, free]

theorem load_take {chunk : Chunk} {others : List Chunk} (first : p.queue = chunk :: others)
    (free : p.inFlight.length < c.workers) : (p.act c .take).load + 4 = p.load := by
  have line : (p.line.take 1 ++ p.line.drop 1).flatMap Producer.chunks =
      p.line.flatMap Producer.chunks := by rw [List.take_append_drop]
  rw [List.flatMap_append] at line
  have counted := congrArg List.length line
  rw [act_take first free]
  simp only [load, held, first, List.flatMap_append, List.length_append, List.length_cons,
    List.length_nil] at counted ⊢
  omega

theorem act_finish (once : p.flightTurns.Nodup) {flight : Flight} (there : flight ∈ p.inFlight)
    (due : flight.timer.due ≤ p.now) : p.act c (.finish flight.timer.turn) = { p with
      inFlight := p.inFlight.eraseP (·.timer.turn = flight.timer.turn)
      busy := p.busy - 1
      finished := p.finished ++ [⟨p.now, flight.chunk⟩] } := by
  have found : p.inFlight.find? (·.timer.turn = flight.timer.turn) = some flight := by
    cases search : p.inFlight.find? (·.timer.turn = flight.timer.turn) with
    | none =>
      have none := List.find?_eq_none.mp search flight there
      simp at none
    | some other =>
      have named : other.timer.turn = flight.timer.turn := by simpa using List.find?_some search
      have same := List.inj_on_of_nodup_map once (List.mem_of_find?_eq_some search) there named
      rw [same]
  simp only [act, found, if_pos due]

end
end Shortlink.Pipeline
