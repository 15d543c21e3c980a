import Mathlib.Data.List.Infix
import Shortlink.Proofs.Deletion.Timeout
import Shortlink.Proofs.Store.Chunks
/-!
# The passage through the queue

The queue and the workers never hold more chunks than their sizes allow. Chunks leave the queue in
the order in which they enter it, and those of one request enter it in the order of the request,
however many producers wait and in whatever way they alternate.
-/
namespace Shortlink.Pipeline

/-- The chunks that an action puts at the end of the queue. -/
def enters (c : PipelineConfig) (p : Pipeline) (a : Action) : List Chunk :=
  (p.act c a).queue.drop p.queue.length

/-- The chunks that enter the queue in a run, in this order. -/
def entered (c : PipelineConfig) (p : Pipeline) : List Action → List Chunk
  | [] => []
  | a :: rest => p.enters c a ++ entered c (p.act c a) rest

/-! ## Places in the queue -/

/-- Every place of the queue is taken by one chunk, promised to one producer, or free, and nobody
waits in line for a free place. -/
structure Roomy (c : PipelineConfig) (p : Pipeline) : Prop where
  within : p.queue.length + p.called.length ≤ c.queueSize
  full : p.line ≠ [] → p.room c = 0

section
variable {c : PipelineConfig} {p q : Pipeline} {a : Action}

theorem Effect.roomy (h : Effect c p a q) (roomy : Roomy c p) : Roomy c q := by
  obtain ⟨within, full⟩ := roomy
  cases h with
  | @enter request count producer before after found named others =>
    refine ⟨?_, fun waits => ?_⟩
    · simp only [List.length_append, List.length_take, room]
      omega
    · have none := full waits
      simp only [room, List.length_append] at none ⊢
      omega
  | lineUp found named others crowded => exact ⟨within, fun _ => crowded⟩
  | arrive found named others =>
    simp only [found, room, List.length_append, List.length_cons] at within full
    refine ⟨?_, fun waits => ?_⟩
    · simp only [List.length_append, List.length_cons, List.length_nil]
      omega
    · have none := full waits
      simp only [room, List.length_append, List.length_cons, List.length_nil]
      omega
  | @take chunk rest first free =>
    simp only [first, room, List.length_cons] at within full
    cases line : p.line with
    | nil =>
      refine ⟨?_, by simp⟩
      simp only [List.take_nil, List.append_nil]
      omega
    | cons producer others =>
      -- the place of the chunk is promised to the first in line, so there is as little room as before
      have none := full (by simp [line])
      refine ⟨?_, fun _ => ?_⟩
      · simp only [List.length_append, List.take_succ_cons, List.take_zero, List.length_singleton]
        omega
      · simp only [room, List.length_append, List.take_succ_cons, List.take_zero,
          List.length_singleton]
        omega
  | shutDown => exact ⟨by simpa using within, by simpa [room] using full⟩
  | beginAnnounced first => exact ⟨by simpa using within, by simpa [room] using full⟩
  | expire waits due => exact ⟨Nat.zero_le _, by simp [giveUp]⟩
  | _ => exact ⟨within, full⟩

theorem Effect.queue (h : Effect c p a q) :
    p.queue ++ q.queue.drop p.queue.length = p.hands c a ++ q.queue ∨
      p.hands c a = [] ∧ ∃ call, q = p.giveUp call := by
  cases h with
  | nothing refused untaken =>
    left
    simp [untaken]
  | take first free =>
    left
    simp [hands, first, free]
  | @expire call timer waits due => exact .inr ⟨rfl, call, rfl⟩
  | _ =>
    left
    simp [hands]

end

section
variable (c : PipelineConfig)

theorem Roomy.run {p : Pipeline} (roomy : Roomy c p) (actions : List Action) :
    Roomy c (run c p actions) := by
  induction actions generalizing p with
  | nil => exact roomy
  | cons a rest ih => exact ih ((act_effect c p a).roomy roomy)

theorem roomy_run (actions : List Action) : Roomy c (Pipeline.run c {} actions) :=
  Roomy.run c ⟨Nat.zero_le _, by simp⟩ actions

private theorem handed_of_giveUp (p : Pipeline) (call : Nat) (more : List Action) :
    handed c (p.giveUp call) more = [] := by
  have quiet := quiet_run c (p := p.giveUp call) rfl rfl (by simp [giveUp, isEmpty]) more
  exact quiet.2.2.2.2

/-- First in, first out. -/
theorem handed_prefix_entered (p : Pipeline) (actions : List Action) :
    handed c p actions <+: p.queue ++ entered c p actions := by
  induction actions generalizing p with
  | nil => exact List.nil_prefix
  | cons a rest ih =>
    rw [handed, entered, ← List.append_assoc]
    rcases (act_effect c p a).queue with moved | ⟨untaken, call, gone⟩
    · rw [enters, moved, List.append_assoc]
      exact (List.prefix_append_right_inj _).mpr (ih _)
    · rw [untaken, gone, handed_of_giveUp]
      exact List.nil_prefix

end

/-! ## Producers in sequence -/

/-- Of each request the first chunks have entered the queue, and its producer, if there is one, has
the others. -/
structure InSequence (c : PipelineConfig) (requests : List DeleteRequest) (queued : List Chunk)
    (producers : List Producer) : Prop where
  distinct : (producers.map Producer.request).Nodup
  known : ∀ chunk ∈ queued, chunk.request < requests.length
  first : ∀ n r, requests[n]? = some r → queued.filter (·.request = n) <+: chunksOf c n r
  rest : ∀ producer ∈ producers, ∃ r, requests[producer.request]? = some r ∧
    queued.filter (·.request = producer.request) ++ producer.chunks =
      chunksOf c producer.request r

theorem request_of_mem_ofChunks {chunks : List Chunk} {n : Nat}
    (same : ∀ chunk ∈ chunks, chunk.request = n) {producer : Producer}
    (there : producer ∈ Producer.ofChunks chunks) :
    producer.request = n ∧ producer.chunks = chunks := by
  cases chunks with
  | nil => simp [Producer.ofChunks] at there
  | cons chunk others =>
    rw [Producer.ofChunks, List.mem_singleton] at there
    rw [there]
    exact ⟨same chunk List.mem_cons_self, rfl⟩

private theorem nodup_ofChunks {chunks : List Chunk} {n : Nat}
    (same : ∀ chunk ∈ chunks, chunk.request = n)
    {others : List Producer} (distinct : (others.map Producer.request).Nodup)
    (fresh : n ∉ others.map Producer.request) :
    ((Producer.ofChunks chunks ++ others).map Producer.request).Nodup := by
  cases chunks with
  | nil => exact distinct
  | cons chunk later =>
    have named : chunk.request = n := same chunk List.mem_cons_self
    rw [Producer.ofChunks, List.singleton_append, List.map_cons, List.nodup_cons]
    refine ⟨?_, distinct⟩
    rw [Producer.request, named]
    exact fresh

private theorem filter_request_append {chunks : List Chunk} {n : Nat}
    (same : ∀ chunk ∈ chunks, chunk.request = n) (queued : List Chunk) (m : Nat) :
    (queued ++ chunks).filter (·.request = m) =
      queued.filter (·.request = m) ++ if m = n then chunks else [] := by
  rw [List.filter_append]
  congr 1
  split
  · next this =>
    apply List.filter_eq_self.mpr
    intro chunk there
    simpa [this] using same chunk there
  · next other =>
    apply List.filter_eq_nil_iff.mpr
    intro chunk there
    simpa [same chunk there] using Ne.symm other

section
variable {c : PipelineConfig} {requests : List DeleteRequest} {queued : List Chunk}
  {producers others : List Producer} {producer : Producer}

private theorem InSequence.of_perm (seq : InSequence c requests queued producers)
    (same : others.Perm producers) : InSequence c requests queued others := by
  refine ⟨?_, seq.known, seq.first, fun producer there => seq.rest producer (same.mem_iff.mp there)⟩
  exact (same.map Producer.request).nodup_iff.mpr seq.distinct

theorem InSequence.request_of_mem (seq : InSequence c requests queued producers)
    (there : producer ∈ producers) :
    producer.request < requests.length ∧ ∀ chunk ∈ producer.chunks, chunk.request = producer.request := by
  obtain ⟨r, number, whole⟩ := seq.rest producer there
  refine ⟨(List.getElem?_eq_some_iff.mp number).1, ?_⟩
  intro chunk own
  have part : chunk ∈ chunksOf c producer.request r := by
    rw [← whole]
    exact List.mem_append_right _ own
  exact (mem_chunksOf.mp part).1

/-- A producer goes on with the chunk that comes next in its request. -/
theorem InSequence.feed (seq : InSequence c requests queued (producer :: others)) (count : Nat) :
    InSequence c requests (queued ++ producer.chunks.take count)
      (Producer.ofChunks (producer.chunks.drop count) ++ others) := by
  obtain ⟨number, same⟩ := seq.request_of_mem List.mem_cons_self
  have taken : ∀ chunk ∈ producer.chunks.take count, chunk.request = producer.request :=
    fun chunk there => same chunk (List.mem_of_mem_take there)
  have left : ∀ chunk ∈ producer.chunks.drop count, chunk.request = producer.request :=
    fun chunk there => same chunk (List.mem_of_mem_drop there)
  have distinct := seq.distinct
  rw [List.map_cons, List.nodup_cons] at distinct
  have entering := filter_request_append taken queued
  refine ⟨nodup_ofChunks left distinct.2 distinct.1, ?_, ?_, ?_⟩
  · intro chunk there
    rcases List.mem_append.mp there with old | new
    · exact seq.known chunk old
    · rw [taken chunk new]
      exact number
  · intro n r accepted
    rw [entering]
    by_cases this : n = producer.request
    · obtain ⟨r', accepted', whole⟩ := seq.rest producer List.mem_cons_self
      subst this
      cases accepted.symm.trans accepted'
      rw [if_pos rfl, ← whole]
      exact (List.prefix_append_right_inj _).mpr (List.take_prefix _ _)
    · rw [if_neg this, List.append_nil]
      exact seq.first n r accepted
  · intro other there
    rw [entering]
    rcases List.mem_append.mp there with next | there
    · obtain ⟨named, chunks⟩ := request_of_mem_ofChunks left next
      obtain ⟨r, accepted, whole⟩ := seq.rest producer List.mem_cons_self
      refine ⟨r, by rw [named]; exact accepted, ?_⟩
      rw [named, chunks, if_pos rfl, List.append_assoc, List.take_append_drop]
      exact whole
    · have differs : other.request ≠ producer.request := by
        intro same
        exact distinct.1 (same ▸ List.mem_map_of_mem there)
      rw [if_neg differs, List.append_nil]
      exact seq.rest other (List.mem_cons_of_mem _ there)

theorem InSequence.submit (seq : InSequence c requests queued producers) (r : DeleteRequest) :
    InSequence c (requests ++ [r]) queued
      (Producer.ofChunks (chunksOf c requests.length r) ++ producers) := by
  have fresh : queued.filter (·.request = requests.length) = [] := by
    rw [List.filter_eq_nil_iff]
    intro chunk there
    simpa using Nat.ne_of_lt (seq.known chunk there)
  have numbered : ∀ chunk ∈ chunksOf c requests.length r, chunk.request = requests.length :=
    fun chunk there => (mem_chunksOf.mp there).1
  have newest : (requests ++ [r])[requests.length]? = some r := by simp
  have older : ∀ n < requests.length, (requests ++ [r])[n]? = requests[n]? :=
    fun n before => List.getElem?_append_left before
  refine ⟨nodup_ofChunks numbered seq.distinct ?_, ?_, ?_, ?_⟩
  · intro there
    obtain ⟨producer, known, named⟩ := List.mem_map.mp there
    have before := (seq.request_of_mem known).1
    omega
  · intro chunk there
    have before := seq.known chunk there
    rw [List.length_append]
    omega
  · intro n r' accepted
    have bound : n < (requests ++ [r]).length := (List.getElem?_eq_some_iff.mp accepted).1
    rw [List.length_append, List.length_singleton] at bound
    by_cases this : n = requests.length
    · subst this
      rw [fresh]
      exact List.nil_prefix
    · rw [older n (by omega)] at accepted
      exact seq.first n r' accepted
  · intro producer there
    rcases List.mem_append.mp there with new | old
    · obtain ⟨named, chunks⟩ := request_of_mem_ofChunks numbered new
      refine ⟨r, by rw [named]; exact newest, ?_⟩
      rw [named, fresh, chunks, List.nil_append]
    · rw [older _ (seq.request_of_mem old).1]
      exact seq.rest producer old

end

section
variable {c : PipelineConfig} {p q : Pipeline} {a : Action} {requests : List DeleteRequest}
  {queued : List Chunk}

private theorem perm_of_moved (producer : Producer) (before after last : List Producer) :
    (before ++ after ++ producer :: last).Perm (before ++ producer :: (after ++ last)) := by
  have front : (before ++ after ++ producer :: last).Perm (producer :: (before ++ after ++ last)) :=
    List.perm_middle
  rw [List.append_assoc before after last] at front
  exact front.trans List.perm_middle.symm

theorem Effect.inSequence (h : Effect c p a q) (number : p.requests = requests.length)
    (seq : InSequence c requests queued (p.ready ++ p.line ++ p.called)) :
    InSequence c (requests ++ p.accepts a) (queued ++ q.queue.drop p.queue.length)
      (q.ready ++ q.line ++ q.called) := by
  cases h with
  | nothing refused untaken => simpa [refused] using seq
  | @submit r idle =>
    simp only [accepts, idle, if_true, List.drop_length, List.append_nil, number]
    refine (seq.submit r).of_perm ?_
    simp only [List.append_assoc]
    exact List.perm_append_comm_assoc _ _ _
  | @enter request count producer before after found named others =>
    have first : InSequence c requests queued
        (producer :: (before ++ after ++ p.line ++ p.called)) := by
      refine seq.of_perm ?_
      rw [found]
      simpa using List.perm_middle.symm
    simpa [accepts] using first.feed (min count (p.room c))
  | @lineUp request producer before after found named others full =>
    simp only [accepts, List.drop_length, List.append_nil]
    have moved := perm_of_moved producer before (after ++ p.line) p.called
    refine seq.of_perm ?_
    rw [found]
    simpa using moved
  | @arrive request producer before after found named others =>
    have first : InSequence c requests queued
        (producer :: (p.ready ++ p.line ++ (before ++ after))) := by
      refine seq.of_perm ?_
      rw [found, ← List.append_assoc _ before, ← List.append_assoc _ before]
      exact List.perm_middle.symm
    simpa [accepts, Producer.chunks] using first.feed 1
  | @take chunk rest first free =>
    have nothing : rest.drop p.queue.length = [] := by simp [first]
    simp only [accepts, nothing, List.append_nil]
    refine seq.of_perm ?_
    cases line : p.line with
    | nil => simp
    | cons producer others =>
      have moved := perm_of_moved producer p.ready (others ++ p.called) []
      simpa using moved
  | expire waits due =>
    simp only [accepts, giveUp, List.append_nil, List.drop_nil]
    exact ⟨List.nodup_nil, seq.known, seq.first, by simp⟩
  | _ => simpa [accepts] using seq

end

section
variable (c : PipelineConfig)

private theorem inSequence_run {p : Pipeline} {requests : List DeleteRequest} {queued : List Chunk}
    (number : p.requests = requests.length)
    (seq : InSequence c requests queued (p.ready ++ p.line ++ p.called)) (actions : List Action) :
    InSequence c (requests ++ accepted c p actions) (queued ++ entered c p actions)
      ((run c p actions).ready ++ (run c p actions).line ++ (run c p actions).called) := by
  induction actions generalizing p requests queued with
  | nil => simpa [accepted, entered, run] using seq
  | cons a rest ih =>
    have effect := act_effect c p a
    have counted : (p.act c a).requests = (requests ++ p.accepts a).length := by
      rw [effect.requests, number, List.length_append]
    rw [accepted, entered, ← List.append_assoc, ← List.append_assoc]
    exact ih counted (effect.inSequence number seq)

theorem inSequence (actions : List Action) :
    InSequence c (accepted c {} actions) (entered c {} actions)
      ((run c {} actions).ready ++ (run c {} actions).line ++ (run c {} actions).called) := by
  have start : InSequence c [] [] [] := ⟨List.nodup_nil, by simp, by simp, by simp⟩
  have seq := inSequence_run c (p := {}) rfl start actions
  rwa [List.nil_append, List.nil_append] at seq

end

/-- At every moment of every run workers hold at most as many chunks, and the queue holds at most as
many, as their sizes say. A chunk that is handed to the store has at least one code and at most as
many as its size says. Chunks are handed over in the order in which they entered the queue. The
chunks of a request enter it in the order of the request, and the codes that have been handed over
are the first codes of the request. -/
theorem passes_in_order (c : PipelineConfig) (actions : List Action) :
    let p := run c {} actions
    p.flying.length ≤ max 1 c.sizes.workers ∧ p.queue.length ≤ max 1 c.sizes.queue ∧
      (∀ chunk ∈ handed c {} actions,
        1 ≤ chunk.work.codes.length ∧ chunk.work.codes.length ≤ max 1 c.sizes.chunk) ∧
      handed c {} actions <+: entered c {} actions ∧
      ∀ number r, (accepted c {} actions)[number]? = some r →
        (entered c {} actions).filter (·.request = number) <+: chunksOf c number r ∧
        ((handed c {} actions).filter (·.request = number)).flatMap (·.work.codes) <+: r.codes := by
  intro p
  have order : handed c {} actions <+: entered c {} actions := handed_prefix_entered c {} actions
  refine ⟨?_, ?_, ?_, order, ?_⟩
  · rw [flying, List.length_map]
    exact (staffed_run c actions).bounded
  · exact Nat.le_trans (Nat.le_add_right _ _) (roomy_run c actions).within
  · intro chunk passed
    obtain ⟨r, -, part, -⟩ := request_of_handed c actions passed
    exact DeleteRequest.length_of_mem_chunks (List.mem_of_getElem? part)
  · intro number r accepted
    have first := (inSequence c actions).first number r accepted
    refine ⟨first, ?_⟩
    have passed := ((order.filter (·.request = number)).trans first).flatMap (·.work.codes)
    rwa [codes_chunksOf] at passed

end Shortlink.Pipeline
