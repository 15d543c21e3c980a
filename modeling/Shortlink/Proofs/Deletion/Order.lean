import Shortlink.Proofs.Deletion.Course
/-!
# One request passes in order

The chunks of a single request pass through a pipeline one after another. A course gives the workers
their turns in the order in which they took their chunks, so a store that takes no time is done with
the chunks in the order in which they stand in the request.
-/
namespace Shortlink

namespace Pipeline

/-- The turns of the timers in flight. -/
def flightTurns (p : Pipeline) : List Nat := p.inFlight.map fun flight => flight.timer.turn

/-- The chunks of one request are spread over the pipeline in order, and those that workers have
taken can be done at once. -/
structure InLine (chunks : List Chunk) (p : Pipeline) : Prop where
  order : p.lost = [] → p.recorded ++ p.flying ++ p.queue ++ p.held = chunks
  single : (p.ready ++ p.line ++ p.called).length ≤ 1
  rising : p.flightTurns.Pairwise (· < ·)
  known : ∀ turn ∈ p.flightTurns, 0 < turn ∧ turn ≤ p.turns
  due : ∀ flight ∈ p.inFlight, flight.timer.due ≤ p.now
  unannounced : p.announced = []
  deadline : ∀ call timer, p.drain = .waiting call timer → timer.turn = 0

def Action.passes : Action → Bool
  | .submit _ | .announce _ | .finish _ => false
  | _ => true

section
variable {c : PipelineConfig} {p q : Pipeline} {a : Action} {chunks : List Chunk}

theorem Effect.flightTurns (h : Effect c p a q) (passes : a.passes = true) :
    q.flightTurns ⊆ p.flightTurns ++ [p.turns + 1] ∧ p.turns ≤ q.turns := by
  have same : p.flightTurns ⊆ p.flightTurns ++ [p.turns + 1] := List.subset_append_left _ _
  cases h with
  | take first free =>
    refine ⟨?_, Nat.le_succ _⟩
    simp [Pipeline.flightTurns]
  | finish found due => simp [Action.passes] at passes
  | shutDown =>
    refine ⟨?_, ?_⟩
    · simp [Pipeline.flightTurns]
    · simp only [beginCall]
      split <;> exact Nat.le_refl _
  | beginAnnounced first =>
    refine ⟨?_, Nat.le_succ _⟩
    simp [Pipeline.flightTurns]
  | expire waits due => exact ⟨by simp [Pipeline.flightTurns, giveUp], Nat.le_refl _⟩
  | _ => exact ⟨same, Nat.le_refl _⟩

theorem beginCall_now (p : Pipeline) (call grace turn : Nat) :
    (p.beginCall call grace turn).now = p.now := by
  rw [beginCall]
  split <;> rfl

private theorem beginCall_announced (p : Pipeline) (call grace turn : Nat) :
    (p.beginCall call grace turn).announced = p.announced := by
  rw [beginCall]
  split <;> rfl

theorem beginCall_turns (p : Pipeline) (call grace turn : Nat) :
    (p.beginCall call grace turn).turns = p.turns := by
  rw [beginCall]
  split <;> rfl

private theorem eq_nil_of_single {before after line called : List Producer} {producer : Producer}
    (single : (before ++ producer :: after ++ line ++ called).length ≤ 1) :
    before = [] ∧ after = [] ∧ line = [] ∧ called = [] := by
  simp only [List.length_append, List.length_cons] at single
  refine ⟨?_, ?_, ?_, ?_⟩ <;> (apply List.length_eq_zero_iff.mp; omega)

theorem InLine.beginCall (inLine : InLine chunks p) (call grace : Nat) :
    InLine chunks (p.beginCall call grace 0) := by
  refine ⟨?_, ?_, ?_, ?_, ?_, ?_, ?_⟩
  · simpa [held, recorded, flying] using inLine.order
  · simpa using inLine.single
  · simpa [Pipeline.flightTurns] using inLine.rising
  · simpa [Pipeline.flightTurns, beginCall_turns] using inLine.known
  · simpa [beginCall_now] using inLine.due
  · rw [beginCall_announced]
    exact inLine.unannounced
  · intro call' timer waits
    by_cases idle : p.drain = .idle
    · rw [beginCall_of_idle _ _ _ _ idle, Drain.waiting.injEq] at waits
      rw [← waits.2]
    · rw [beginCall_of_not_idle _ _ _ _ idle] at waits
      exact inLine.deadline call' timer waits

theorem InLine.take (inLine : InLine chunks p) (instant : ∀ w, c.delay w = 0) {chunk : Chunk}
    {rest : List Chunk} (first : p.queue = chunk :: rest) :
    InLine chunks { p with
      queue := rest
      called := p.called ++ p.line.take 1
      line := p.line.drop 1
      inFlight := p.inFlight ++ [⟨chunk, ⟨p.now + c.delay chunk.work, p.turns + 1⟩⟩]
      busy := p.busy + 1
      turns := p.turns + 1 } := by
  have moved : p.ready ++ p.line.drop 1 ++ (p.called ++ p.line.take 1) =
      p.ready ++ p.line ++ p.called := by
    have single := inLine.single
    cases line : p.line with
    | nil => simp
    | cons producer others =>
      rw [line] at single
      have sizes : ([] ++ producer :: others ++ p.ready ++ p.called).length ≤ 1 := by
        simp only [List.length_append, List.length_cons, List.length_nil] at single ⊢
        omega
      obtain ⟨-, rfl, ready, called⟩ := eq_nil_of_single sizes
      simp [ready, called]
  refine { inLine with order := ?_, single := ?_, rising := ?_, known := ?_, due := ?_ }
  · intro kept
    have order := inLine.order kept
    rw [held, first] at order
    simp only [held, moved]
    rw [← order]
    simp [recorded, flying]
  · rw [moved]
    exact inLine.single
  · simp only [Pipeline.flightTurns, List.map_append, List.map_cons, List.map_nil]
    refine List.pairwise_append.mpr ⟨inLine.rising, List.pairwise_singleton _ _, ?_⟩
    intro turn before new last
    rw [List.mem_singleton] at last
    have old := (inLine.known turn before).2
    omega
  · intro turn there
    simp only [Pipeline.flightTurns, List.map_append, List.map_cons, List.map_nil,
      List.mem_append, List.mem_singleton] at there
    rcases there with old | new
    · have bounds := inLine.known turn old
      exact ⟨bounds.1, Nat.le_succ_of_le bounds.2⟩
    · subst new
      exact ⟨Nat.succ_pos _, Nat.le_refl _⟩
  · intro flight there
    rcases List.mem_append.mp there with old | new
    · exact inLine.due flight old
    · rw [List.mem_singleton.mp new, instant]
      exact Nat.le_refl _

/-- The chunks stay in line unless others are handed in, and until a worker is done. -/
theorem Effect.inLine (h : Effect c p a q) (instant : ∀ w, c.delay w = 0) (passes : a.passes = true)
    (inLine : InLine chunks p) : InLine chunks q := by
  cases h with
  | nothing refused untaken => exact inLine
  | submit idle => simp [Action.passes] at passes
  | @enter request count producer before after found named others =>
    -- there is one producer at most, so nobody else is ready, in line or called
    have single := inLine.single
    rw [found] at single
    obtain ⟨rfl, rfl, line, called⟩ := eq_nil_of_single single
    refine { inLine with order := ?_, single := ?_ }
    · intro kept
      have order := inLine.order kept
      simp only [held, found, line, called, List.nil_append, List.append_nil, List.flatMap_cons,
        List.flatMap_nil] at order
      simp only [held, line, called, List.append_nil, flatMap_chunks_ofChunks]
      rw [← order, List.append_assoc, List.append_assoc p.queue, List.take_append_drop]
      simp [recorded, flying]
    · simp only [line, called, List.append_nil]
      cases producer.chunks.drop (min count (p.room c)) <;> simp [Producer.ofChunks]
  | @lineUp request producer before after found named others full =>
    have single := inLine.single
    rw [found] at single
    obtain ⟨rfl, rfl, line, called⟩ := eq_nil_of_single single
    refine { inLine with order := ?_, single := ?_ }
    · intro kept
      have order := inLine.order kept
      simpa [held, found, line, called, recorded, flying] using order
    · simp [line, called]
  | @arrive request producer before after found named others =>
    have single := inLine.single
    have sizes : (before ++ producer :: after ++ p.ready ++ p.line).length ≤ 1 := by
      simp only [found, List.length_append, List.length_cons] at single ⊢
      omega
    obtain ⟨rfl, rfl, ready, line⟩ := eq_nil_of_single sizes
    refine { inLine with order := ?_, single := ?_ }
    · intro kept
      have order := inLine.order kept
      simp only [held, found, ready, line, List.nil_append, List.append_nil, List.flatMap_cons,
        List.flatMap_nil, Producer.chunks] at order
      simp only [held, ready, line, List.append_nil, flatMap_chunks_ofChunks]
      rw [← order]
      simp [recorded, flying]
    · simp only [ready, line, List.append_nil]
      cases producer.later <;> simp [Producer.ofChunks]
  | take first free => exact inLine.take (c := c) instant first
  | finish found due => simp [Action.passes] at passes
  | shutDown => exact { inLine.beginCall p.calls _ with }
  | announce => simp [Action.passes] at passes
  | beginAnnounced first => simp [inLine.unannounced] at first
  | @expire call timer waits due =>
    refine ⟨?_, by simp [giveUp], by simp [Pipeline.flightTurns, giveUp],
      by simp [Pipeline.flightTurns, giveUp], by simp [giveUp], inLine.unannounced, by simp [giveUp]⟩
    intro kept
    simp only [giveUp, List.append_eq_nil_iff] at kept
    obtain ⟨⟨⟨⟨⟨old, flying⟩, queue⟩, called⟩, line⟩, ready⟩ := kept
    have order := inLine.order old
    simpa [held, recorded, Pipeline.flying, giveUp, flying, queue, called, line, ready] using order
  | drained waits empty => exact { inLine with deadline := by simp }
  | wait =>
    refine { inLine with due := ?_ }
    intro flight there
    exact Nat.le_trans (inLine.due flight there) (Nat.le_max_left _ _)

/-- The worker of the lowest turn has the chunk that comes next, so the record grows in order. -/
theorem InLine.finish (inLine : InLine chunks p) {turn : Nat}
    (least : ∀ other ∈ p.flightTurns, turn ≤ other) :
    InLine chunks (p.act c (.finish turn)) ∧
      (p.act c (.finish turn)).flightTurns ⊆ p.flightTurns.filter (· ≠ turn) ∧
      (p.act c (.finish turn)).turns = p.turns := by
  by_cases there : turn ∈ p.flightTurns
  · obtain ⟨flight, others, flights, named⟩ :
        ∃ flight others, p.inFlight = flight :: others ∧ flight.timer.turn = turn := by
      cases flights : p.inFlight with
      | nil => simp [Pipeline.flightTurns, flights] at there
      | cons flight others =>
        refine ⟨flight, others, rfl, ?_⟩
        have rising := inLine.rising
        simp only [Pipeline.flightTurns, flights, List.map_cons, List.pairwise_cons,
          List.mem_cons, forall_eq_or_imp] at rising least there
        rcases there with same | later
        · exact same.symm
        · have before := rising.1 turn later
          omega
    have due := inLine.due flight (by simp [flights])
    have done : p.act c (.finish turn) = { p with
        inFlight := others
        busy := p.busy - 1
        finished := p.finished ++ [⟨p.now, flight.chunk⟩] } := by
      simp [act, flights, named, due]
    have within : others.map (fun flight => flight.timer.turn) ⊆ p.flightTurns := by
      simp [Pipeline.flightTurns, flights]
    have rising := inLine.rising
    simp only [Pipeline.flightTurns, flights, List.map_cons, List.pairwise_cons, named] at rising
    rw [done]
    refine ⟨{ inLine with order := ?_, rising := rising.2, known := ?_, due := ?_ }, ?_, rfl⟩
    · intro kept
      have order := inLine.order kept
      simpa [held, recorded, flying, flights] using order
    · exact fun other later => inLine.known other (within later)
    · exact fun other later => inLine.due other (by simp [flights, later])
    · intro other later
      have after := rising.1 other later
      exact List.mem_filter.mpr ⟨within later, by simpa using Nat.ne_of_gt after⟩
  · have unknown : ∀ flight ∈ p.inFlight, ¬ flight.timer.turn = turn := by
      intro flight flies same
      exact there (List.mem_map.mpr ⟨flight, flies, same⟩)
    have nothing : p.act c (.finish turn) = p := by
      have missing : p.inFlight.find? (·.timer.turn = turn) = none := by simpa using unknown
      simp [act, missing]
    rw [nothing]
    refine ⟨inLine, ?_, rfl⟩
    intro other flies
    refine List.mem_filter.mpr ⟨flies, ?_⟩
    have differs : other ≠ turn := fun same => there (same ▸ flies)
    simpa using differs

end
end Pipeline
end Shortlink
