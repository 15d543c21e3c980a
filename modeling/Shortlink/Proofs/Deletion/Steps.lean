import Shortlink.Deletion.Pipeline
/-!
# What an action can do

An action either changes nothing or has the one effect that its kind allows. Every invariant of the
pipeline is proved from this list, one case for each effect.
-/
namespace Shortlink.Pipeline

/-- The request that an action hands in, if it is accepted. -/
def accepts (p : Pipeline) : Action → List DeleteRequest
  | .submit r => if p.drain = .idle then [r] else []
  | _ => []

/-- The chunk that an action passes to the store: a worker that takes a chunk deletes it at once. -/
def hands (c : PipelineConfig) (p : Pipeline) : Action → List Chunk
  | .take => if p.inFlight.length < c.workers then p.queue.take 1 else []
  | _ => []

/-- The effects of actions. Where a producer or a flight is looked for, the list is split at the
first one found. -/
inductive Effect (c : PipelineConfig) (p : Pipeline) : Action → Pipeline → Prop where
  | nothing {a : Action} (refused : p.accepts a = []) (untaken : p.hands c a = []) : Effect c p a p
  | submit {r : DeleteRequest} (idle : p.drain = .idle) :
      Effect c p (.submit r) { p with
        ready := p.ready ++ Producer.ofChunks (chunksOf c p.requests r)
        requests := p.requests + 1 }
  | enter {request count : Nat} {producer : Producer} {before after : List Producer}
      (found : p.ready = before ++ producer :: after) (named : producer.request = request)
      (others : ∀ q ∈ before, q.request ≠ request) :
      Effect c p (.enter request count) { p with
        ready := Producer.ofChunks (producer.chunks.drop (min count (p.room c))) ++
          (before ++ after)
        queue := p.queue ++ producer.chunks.take (min count (p.room c)) }
  | lineUp {request : Nat} {producer : Producer} {before after : List Producer}
      (found : p.ready = before ++ producer :: after) (named : producer.request = request)
      (others : ∀ q ∈ before, q.request ≠ request) (full : p.room c = 0) :
      Effect c p (.lineUp request) { p with
        ready := before ++ after
        line := p.line ++ [producer] }
  | arrive {request : Nat} {producer : Producer} {before after : List Producer}
      (found : p.called = before ++ producer :: after) (named : producer.request = request)
      (others : ∀ q ∈ before, q.request ≠ request) :
      Effect c p (.arrive request) { p with
        called := before ++ after
        ready := Producer.ofChunks producer.later ++ p.ready
        queue := p.queue ++ [producer.next] }
  | take {chunk : Chunk} {rest : List Chunk} (first : p.queue = chunk :: rest)
      (free : p.inFlight.length < c.workers) :
      Effect c p .take { p with
        queue := rest
        called := p.called ++ p.line.take 1
        line := p.line.drop 1
        inFlight := p.inFlight ++ [⟨chunk, ⟨p.now + c.delay chunk.work, p.turns + 1⟩⟩]
        busy := p.busy + 1
        turns := p.turns + 1 }
  | finish {turn : Nat} {flight : Flight} {before after : List Flight}
      (found : p.inFlight = before ++ flight :: after) (due : flight.timer.due ≤ p.now) :
      Effect c p (.finish turn) { p with
        inFlight := before ++ after
        busy := p.busy - 1
        finished := p.finished ++ [⟨p.now, flight.chunk⟩] }
  | shutDown {grace : Nat} :
      Effect c p (.shutDown grace) { p.beginCall p.calls grace 0 with calls := p.calls + 1 }
  | announce {grace : Nat} :
      Effect c p (.announce grace) { p with
        announced := p.announced ++ [⟨p.calls, grace⟩]
        calls := p.calls + 1 }
  | beginAnnounced {call : AnnouncedCall} {others : List AnnouncedCall}
      (first : p.announced = call :: others) :
      Effect c p .beginAnnounced { p.beginCall call.call call.grace (p.turns + 1) with
        announced := others
        turns := p.turns + 1 }
  | expire {call : Nat} {timer : Timer} (waits : p.drain = .waiting call timer)
      (due : timer.due ≤ p.now) : Effect c p .expire (p.giveUp call)
  | drained {call : Nat} {timer : Timer} (waits : p.drain = .waiting call timer)
      (empty : p.isEmpty = true) :
      Effect c p .drained { p with
        phase := .stopped
        drain := .over
        outcomes := (call, .drained) :: p.outcomes }
  | wait {moment : Nat} : Effect c p (.wait moment) { p with now := max p.now moment }

private theorem split_of_find? {α : Type} {test : α → Bool} {xs : List α} {x : α}
    (h : xs.find? test = some x) :
    ∃ before after, xs = before ++ x :: after ∧ test x = true ∧ (∀ y ∈ before, test y = false) ∧
      xs.eraseP test = before ++ after := by
  obtain ⟨hx, before, after, rfl, hb⟩ := List.find?_eq_some_iff_append.mp h
  have hb' : ∀ y ∈ before, test y = false := by
    intro y hy
    simpa using hb y hy
  refine ⟨before, after, rfl, hx, hb', ?_⟩
  rw [List.eraseP_append_right _ (by simpa using hb'), List.eraseP_cons_of_pos hx]

theorem act_effect (c : PipelineConfig) (p : Pipeline) (a : Action) :
    Effect c p a (p.act c a) := by
  cases a with
  | submit r =>
    simp only [act]
    split
    · next idle => exact .submit idle
    · next busy => exact .nothing (by simp [accepts, busy]) rfl
  | enter request count =>
    simp only [act]
    split
    · next producer found =>
      obtain ⟨before, after, split, named, others, erased⟩ := split_of_find? found
      rw [erased]
      exact .enter split (by simpa using named) (by simpa using others)
    · exact .nothing rfl rfl
  | lineUp request =>
    simp only [act]
    split
    · next producer found =>
      obtain ⟨before, after, split, named, others, erased⟩ := split_of_find? found
      split
      · next full =>
        rw [erased]
        exact .lineUp split (by simpa using named) (by simpa using others) full
      · exact .nothing rfl rfl
    · exact .nothing rfl rfl
  | arrive request =>
    simp only [act]
    split
    · next producer found =>
      obtain ⟨before, after, split, named, others, erased⟩ := split_of_find? found
      rw [erased]
      exact .arrive split (by simpa using named) (by simpa using others)
    · exact .nothing rfl rfl
  | take =>
    simp only [act]
    split
    · next chunk rest first =>
      split
      · next free => exact .take first free
      · next busy => exact .nothing rfl (by simp [hands, busy])
    · next empty => exact .nothing rfl (by simp [hands, empty])
  | finish turn =>
    simp only [act]
    split
    · next flight found =>
      obtain ⟨before, after, split, -, -, erased⟩ := split_of_find? found
      split
      · next due =>
        rw [erased]
        exact .finish split due
      · exact .nothing rfl rfl
    · exact .nothing rfl rfl
  | shutDown grace => exact .shutDown
  | announce grace => exact .announce
  | beginAnnounced =>
    simp only [act]
    split
    · next call others first => exact .beginAnnounced first
    · exact .nothing rfl rfl
  | expire =>
    simp only [act]
    split
    · next call timer waits =>
      split
      · next due => exact .expire waits due
      · exact .nothing rfl rfl
    · exact .nothing rfl rfl
  | drained =>
    simp only [act]
    split
    · next call timer waits =>
      split
      · next empty => exact .drained waits empty
      · exact .nothing rfl rfl
    · exact .nothing rfl rfl
  | wait moment => exact .wait

/-! ## The beginning of a call -/

section
variable (p : Pipeline) (call grace turn : Nat)

theorem beginCall_of_idle (h : p.drain = .idle) :
    p.beginCall call grace turn =
      { p with phase := .draining, drain := .waiting call ⟨p.now + grace, turn⟩ } := by
  rw [beginCall, h]

theorem beginCall_of_not_idle (h : p.drain ≠ .idle) :
    p.beginCall call grace turn =
      { p with phase := .stopped, outcomes := (call, .drained) :: p.outcomes } := by
  unfold beginCall
  split
  · next idle => exact absurd idle h
  · rfl

@[simp] theorem beginCall_ready : (p.beginCall call grace turn).ready = p.ready := by
  unfold beginCall
  split <;> rfl

@[simp] theorem beginCall_line : (p.beginCall call grace turn).line = p.line := by
  unfold beginCall
  split <;> rfl

@[simp] theorem beginCall_called : (p.beginCall call grace turn).called = p.called := by
  unfold beginCall
  split <;> rfl

@[simp] theorem beginCall_queue : (p.beginCall call grace turn).queue = p.queue := by
  unfold beginCall
  split <;> rfl

@[simp] theorem beginCall_inFlight : (p.beginCall call grace turn).inFlight = p.inFlight := by
  unfold beginCall
  split <;> rfl

@[simp] theorem beginCall_busy : (p.beginCall call grace turn).busy = p.busy := by
  unfold beginCall
  split <;> rfl

@[simp] theorem beginCall_finished : (p.beginCall call grace turn).finished = p.finished := by
  unfold beginCall
  split <;> rfl

@[simp] theorem beginCall_lost : (p.beginCall call grace turn).lost = p.lost := by
  unfold beginCall
  split <;> rfl

@[simp] theorem beginCall_requests : (p.beginCall call grace turn).requests = p.requests := by
  unfold beginCall
  split <;> rfl

end
end Shortlink.Pipeline
