import Mathlib.Data.List.Nodup
import Shortlink.Proofs.Deletion.Steps
/-!
# Where the chunks of a pipeline are

Each chunk of each accepted request is in one place: with its producer, in the queue, with a worker,
in the record of the store, or lost. Actions move chunks from place to place and neither make nor
drop one.
-/
namespace Shortlink.Pipeline

/-- The chunks that have not reached the queue. -/
def held (p : Pipeline) : List Chunk :=
  (p.ready ++ p.line ++ p.called).flatMap Producer.chunks

def flying (p : Pipeline) : List Chunk := p.inFlight.map Flight.chunk

/-- The chunks that the store has been done with, whether it deleted them or failed. -/
def recorded (p : Pipeline) : List Chunk := p.finished.map FinishedChunk.chunk

/-- The chunks in all places, one place after another. -/
def places (p : Pipeline) : List Chunk :=
  p.held ++ p.queue ++ p.flying ++ p.recorded ++ p.lost

def accepted (c : PipelineConfig) (p : Pipeline) : List Action → List DeleteRequest
  | [] => []
  | a :: rest => p.accepts a ++ accepted c (p.act c a) rest

def handed (c : PipelineConfig) (p : Pipeline) : List Action → List Chunk
  | [] => []
  | a :: rest => p.hands c a ++ handed c (p.act c a) rest

/-- The chunks of accepted requests, of which the first has the number `n`. -/
def chunksFrom (c : PipelineConfig) (n : Nat) : List DeleteRequest → List Chunk
  | [] => []
  | r :: rest => chunksOf c n r ++ chunksFrom c (n + 1) rest

theorem chunksFrom_append (c : PipelineConfig) (n : Nat) (rs ss : List DeleteRequest) :
    chunksFrom c n (rs ++ ss) = chunksFrom c n rs ++ chunksFrom c (n + rs.length) ss := by
  induction rs generalizing n with
  | nil => simp [chunksFrom]
  | cons r rs ih =>
    have hlen : n + 1 + rs.length = n + (rs.length + 1) := by omega
    simp only [List.cons_append, chunksFrom, ih, List.append_assoc, List.length_cons, hlen]

@[simp] theorem flatMap_chunks_ofChunks (cs : List Chunk) :
    (Producer.ofChunks cs).flatMap Producer.chunks = cs := by
  cases cs <;> simp [Producer.ofChunks, Producer.chunks]

private theorem count_take_drop (n : Nat) (chunks : List Chunk) (chunk : Chunk) :
    (chunks.take n).count chunk + (chunks.drop n).count chunk = chunks.count chunk := by
  rw [← List.count_append, List.take_append_drop]

private theorem count_chunks_take_drop (n : Nat) (line : List Producer) (chunk : Chunk) :
    ((line.take n).flatMap Producer.chunks).count chunk +
        ((line.drop n).flatMap Producer.chunks).count chunk =
      (line.flatMap Producer.chunks).count chunk := by
  rw [← List.count_append, ← List.flatMap_append, List.take_append_drop]

/-! ## One action -/

section
variable {c : PipelineConfig} {p q : Pipeline} {a : Action}

theorem Effect.requests (h : Effect c p a q) :
    q.requests = p.requests + (p.accepts a).length := by
  cases h with
  | nothing refused untaken => simp [refused]
  | submit idle => simp [accepts, idle]
  | _ => simp [accepts, giveUp]

/-- An action moves chunks from place to place and adds those of the request it hands in. -/
theorem Effect.count_places (h : Effect c p a q) (chunk : Chunk) :
    q.places.count chunk =
      p.places.count chunk + (chunksFrom c p.requests (p.accepts a)).count chunk := by
  cases h with
  | nothing refused untaken => simp [refused, chunksFrom]
  | submit idle =>
    simp only [places, held, flying, recorded, accepts, idle, chunksFrom, List.flatMap_append,
      List.count_append, flatMap_chunks_ofChunks, if_true, List.append_nil]
    omega
  | @enter request count producer before after found named others =>
    have moved := count_take_drop (min count (p.room c)) producer.chunks chunk
    simp only [places, held, flying, recorded, accepts, found, chunksFrom, List.flatMap_append,
      List.flatMap_cons, List.count_append, flatMap_chunks_ofChunks, List.count_nil]
    omega
  | lineUp found named others full =>
    simp only [places, held, flying, recorded, accepts, found, chunksFrom, List.flatMap_append,
      List.flatMap_cons, List.flatMap_nil, List.count_append, List.count_nil]
    omega
  | @arrive request producer before after found named others =>
    simp only [places, held, flying, recorded, accepts, found, chunksFrom, Producer.chunks,
      List.flatMap_append, List.flatMap_cons, List.count_append, flatMap_chunks_ofChunks,
      List.count_nil, List.count_cons]
    omega
  | @take next rest first free =>
    have moved := count_chunks_take_drop 1 p.line chunk
    simp only [places, held, flying, recorded, accepts, first, chunksFrom, List.flatMap_append,
      List.map_append, List.map_cons, List.map_nil, List.count_append, List.count_nil,
      List.count_cons]
    omega
  | finish found due =>
    simp only [places, held, flying, recorded, accepts, found, chunksFrom, List.flatMap_append,
      List.map_append, List.map_cons, List.map_nil, List.count_append, List.count_nil,
      List.count_cons]
    omega
  | expire waits due =>
    simp only [places, held, flying, recorded, accepts, giveUp, chunksFrom, List.flatMap_append,
      List.flatMap_nil, List.map_nil, List.append_nil, List.count_append, List.count_nil]
    omega
  | _ => simp [places, held, flying, recorded, accepts, chunksFrom]

private theorem Effect.count_hands (h : Effect c p a q) (chunk : Chunk) :
    (p.hands c a).count chunk + q.held.count chunk + q.queue.count chunk ≤
      p.held.count chunk + p.queue.count chunk +
        (chunksFrom c p.requests (p.accepts a)).count chunk := by
  cases h with
  | nothing refused untaken => simp [refused, untaken, chunksFrom]
  | submit idle =>
    simp only [held, hands, accepts, idle, chunksFrom, List.flatMap_append,
      List.count_append, flatMap_chunks_ofChunks, if_true, List.append_nil, List.count_nil]
    omega
  | @enter request count producer before after found named others =>
    have moved := count_take_drop (min count (p.room c)) producer.chunks chunk
    simp only [held, hands, accepts, found, chunksFrom, List.flatMap_append,
      List.flatMap_cons, List.count_append, flatMap_chunks_ofChunks, List.count_nil]
    omega
  | lineUp found named others full =>
    simp only [held, hands, accepts, found, chunksFrom, List.flatMap_append,
      List.flatMap_cons, List.flatMap_nil, List.count_append, List.count_nil]
    omega
  | @arrive request producer before after found named others =>
    simp only [held, hands, accepts, found, chunksFrom, Producer.chunks,
      List.flatMap_append, List.flatMap_cons, List.count_append, flatMap_chunks_ofChunks,
      List.count_nil, List.count_cons]
    omega
  | @take next rest first free =>
    have moved := count_chunks_take_drop 1 p.line chunk
    simp only [held, hands, accepts, first, free, chunksFrom, List.flatMap_append,
      List.count_append, List.count_nil, List.count_cons, if_true, List.take_succ_cons,
      List.take_zero]
    omega
  | expire waits due => simp [held, hands, accepts, giveUp, chunksFrom]
  | _ => simp [held, hands, accepts, chunksFrom]

private theorem Effect.count_flying (h : Effect c p a q) (chunk : Chunk) :
    q.flying.count chunk + q.recorded.count chunk ≤
      p.flying.count chunk + p.recorded.count chunk + (p.hands c a).count chunk := by
  cases h with
  | nothing refused untaken => simp [untaken]
  | take first free =>
    simp only [flying, recorded, hands, first, free, List.map_append, List.map_cons, List.map_nil,
      List.count_append, List.count_nil, List.count_cons, if_true, List.take_succ_cons,
      List.take_zero]
    omega
  | finish found due =>
    simp only [flying, recorded, hands, found, List.map_append, List.map_cons, List.map_nil,
      List.count_append, List.count_nil, List.count_cons]
    omega
  | expire waits due => simp [flying, recorded, hands, giveUp]
  | _ => simp [flying, recorded, hands]

end

/-! ## Runs -/

section
variable (c : PipelineConfig)

theorem run_cons (p : Pipeline) (a : Action) (rest : List Action) :
    run c p (a :: rest) = run c (p.act c a) rest := rfl

private theorem chunksFrom_accepted_cons (p : Pipeline) (a : Action) (rest : List Action) :
    chunksFrom c p.requests (accepted c p (a :: rest)) =
      chunksFrom c p.requests (p.accepts a) ++
        chunksFrom c (p.act c a).requests (accepted c (p.act c a) rest) := by
  rw [accepted, chunksFrom_append, (act_effect c p a).requests]

theorem count_places_run (p : Pipeline) (actions : List Action) (chunk : Chunk) :
    (run c p actions).places.count chunk =
      p.places.count chunk + (chunksFrom c p.requests (accepted c p actions)).count chunk := by
  induction actions generalizing p with
  | nil => simp [run, accepted, chunksFrom]
  | cons a rest ih =>
    have step := (act_effect c p a).count_places chunk
    rw [run_cons, ih, chunksFrom_accepted_cons, List.count_append]
    omega

theorem count_handed_run (p : Pipeline) (actions : List Action) (chunk : Chunk) :
    (handed c p actions).count chunk + (run c p actions).held.count chunk +
        (run c p actions).queue.count chunk ≤
      p.held.count chunk + p.queue.count chunk +
        (chunksFrom c p.requests (accepted c p actions)).count chunk := by
  induction actions generalizing p with
  | nil => simp [run, accepted, handed, chunksFrom]
  | cons a rest ih =>
    have step := (act_effect c p a).count_hands chunk
    have later := ih (p.act c a)
    rw [run_cons, handed, chunksFrom_accepted_cons, List.count_append, List.count_append]
    omega

theorem count_flying_run (p : Pipeline) (actions : List Action) (chunk : Chunk) :
    (run c p actions).flying.count chunk + (run c p actions).recorded.count chunk ≤
      p.flying.count chunk + p.recorded.count chunk + (handed c p actions).count chunk := by
  induction actions generalizing p with
  | nil => simp [run, handed]
  | cons a rest ih =>
    have step := (act_effect c p a).count_flying chunk
    have later := ih (p.act c a)
    rw [run_cons, handed, List.count_append]
    omega

end

/-! ## The chunks of accepted requests are distinct -/

theorem mem_chunksOf {c : PipelineConfig} {n : Nat} {r : DeleteRequest} {chunk : Chunk} :
    chunk ∈ chunksOf c n r ↔
      chunk.request = n ∧ (r.chunks c.sizes.chunk)[chunk.index]? = some chunk.work := by
  constructor
  · intro h
    obtain ⟨i, hi, rfl⟩ := List.mem_mapIdx.mp h
    exact ⟨rfl, List.getElem?_eq_getElem hi⟩
  · rintro ⟨hn, hwork⟩
    obtain ⟨hi, hwork⟩ := List.getElem?_eq_some_iff.mp hwork
    refine List.mem_mapIdx.mpr ⟨chunk.index, hi, ?_⟩
    rw [hwork, ← hn]

theorem mem_chunksFrom {c : PipelineConfig} {n : Nat} {rs : List DeleteRequest} {chunk : Chunk} :
    chunk ∈ chunksFrom c n rs ↔
      ∃ i r, rs[i]? = some r ∧ chunk.request = n + i ∧
        (r.chunks c.sizes.chunk)[chunk.index]? = some chunk.work := by
  induction rs generalizing n with
  | nil => simp [chunksFrom]
  | cons r rs ih =>
    rw [chunksFrom, List.mem_append, mem_chunksOf, ih]
    constructor
    · rintro (⟨hn, hwork⟩ | ⟨i, r', hr, hn, hwork⟩)
      · exact ⟨0, r, rfl, hn, hwork⟩
      · exact ⟨i + 1, r', hr, by omega, hwork⟩
    · rintro ⟨i, r', hr, hn, hwork⟩
      cases i with
      | zero =>
        cases hr
        exact .inl ⟨hn, hwork⟩
      | succ i => exact .inr ⟨i, r', hr, by omega, hwork⟩

private theorem nodup_chunksOf (c : PipelineConfig) (n : Nat) (r : DeleteRequest) :
    (chunksOf c n r).Nodup := by
  have indices : (chunksOf c n r).map Chunk.index =
      List.range (r.chunks c.sizes.chunk).length := by
    apply List.ext_getElem <;> simp [chunksOf]
  apply List.Nodup.of_map Chunk.index
  rw [indices]
  exact List.nodup_range

theorem nodup_chunksFrom (c : PipelineConfig) (n : Nat) (rs : List DeleteRequest) :
    (chunksFrom c n rs).Nodup := by
  induction rs generalizing n with
  | nil => exact List.nodup_nil
  | cons r rs ih =>
    refine List.nodup_append.mpr ⟨nodup_chunksOf c n r, ih (n + 1), ?_⟩
    rintro x hx y hy rfl
    obtain ⟨i, -, -, hlater, -⟩ := mem_chunksFrom.mp hy
    have hfirst := (mem_chunksOf.mp hx).1
    omega

end Shortlink.Pipeline
