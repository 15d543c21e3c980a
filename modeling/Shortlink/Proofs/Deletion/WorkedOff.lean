import Shortlink.Proofs.Deletion.Drain
/-!
# Pipelines that have worked off what they accepted

While no shutdown has begun, a pipeline can always work off what it has accepted. If it is done with
the chunks in the order in which they were asked for, its record is known.
-/
namespace Shortlink

/-- Whether a chunk was asked for before another one. -/
def Chunk.Before (a b : Chunk) : Prop :=
  a.request < b.request ∨ a.request = b.request ∧ a.index < b.index

private theorem Chunk.Before.asymm {a b : Chunk} (first : a.Before b) : ¬ b.Before a := by
  intro second
  simp only [Before] at first second
  omega

namespace Pipeline

private theorem pairwise_chunksOf (c : PipelineConfig) (n : Nat) (r : DeleteRequest) :
    (chunksOf c n r).Pairwise Chunk.Before := by
  rw [List.pairwise_iff_getElem]
  intro i j hi hj before
  simp only [chunksOf, List.getElem_mapIdx]
  exact .inr ⟨rfl, before⟩

theorem pairwise_chunksFrom (c : PipelineConfig) (n : Nat) (requests : List DeleteRequest) :
    (chunksFrom c n requests).Pairwise Chunk.Before := by
  induction requests generalizing n with
  | nil => exact .nil
  | cons r rest ih =>
    refine List.pairwise_append.mpr ⟨pairwise_chunksOf c n r, ih (n + 1), ?_⟩
    intro a first b later
    obtain ⟨i, -, -, number, -⟩ := mem_chunksFrom.mp later
    have here := (mem_chunksOf.mp first).1
    exact .inl (by omega)

/-- All that was accepted has been done, in the order in which it was asked for. -/
structure WorkedOff (c : PipelineConfig) (requests : List DeleteRequest) (p : Pipeline) : Prop where
  working : Working c requests p
  empty : p.isEmpty = true
  recorded : p.recorded = chunksFrom c 0 requests

section
variable {c : PipelineConfig} {p : Pipeline} {requests : List DeleteRequest}

theorem workedOff_new (c : PipelineConfig) : WorkedOff c [] {} :=
  ⟨⟨[], rfl, rfl, rfl⟩, rfl, rfl⟩

private theorem requests_run (c : PipelineConfig) (p : Pipeline) (actions : List Action) :
    (run c p actions).requests = p.requests + (accepted c p actions).length := by
  induction actions generalizing p with
  | nil => rfl
  | cons a rest ih =>
    rw [run_cons, ih, accepted, (act_effect c p a).requests, List.length_append, Nat.add_assoc]

private theorem Working.requests_eq (h : Working c requests p) : p.requests = requests.length := by
  obtain ⟨actions, rfl, rfl, -⟩ := h
  have total := requests_run c {} actions
  rwa [Nat.zero_add] at total

theorem Working.kept (h : Working c requests p) : p.lost = [] := by
  obtain ⟨actions, rfl, -, idle⟩ := h
  exact ((stage_run c actions).of_idle idle).2

theorem Working.workedOff (h : Working c requests p) (empty : p.isEmpty = true)
    (order : p.recorded.Pairwise Chunk.Before) : WorkedOff c requests p := by
  refine ⟨h, empty, ?_⟩
  have kept := h.kept
  obtain ⟨actions, rfl, rfl, -⟩ := h
  have all := recorded_perm c actions empty kept
  exact all.eq_of_pairwise (fun _ _ _ _ first second => absurd second first.asymm) order
    (pairwise_chunksFrom c 0 _)

theorem recorded_submit (r : DeleteRequest) : (p.act c (.submit r)).recorded = p.recorded := by
  simp only [act]
  split <;> rfl

/-- Put the next chunk into the queue, and delete it. -/
def forward (p : Pipeline) (request : Nat) : List Action :=
  [.enter request 1, .take, .finish (p.turns + 1)]

private theorem run_forward (instant : ∀ w, c.delay w = 0) {chunk : Chunk} {rest : List Chunk}
    (ready : p.ready = [⟨chunk, rest⟩]) (line : p.line = []) (called : p.called = [])
    (queue : p.queue = []) (flying : p.inFlight = []) :
    run c p (p.forward chunk.request) = { p with
      ready := Producer.ofChunks rest
      busy := p.busy + 1 - 1
      finished := p.finished ++ [⟨p.now, chunk⟩]
      turns := p.turns + 1 } := by
  have room : 0 < p.room c := by
    simp only [room, queue, called, PipelineConfig.queueSize, List.length_nil]
    omega
  have one : min 1 (p.room c) = 1 := by omega
  have workers : 0 < c.workers := by
    rw [PipelineConfig.workers]
    omega
  simp [forward, run, act, ready, line, called, queue, flying, Producer.request, Producer.chunks,
    one, workers, instant]

/-- A pipeline in which nothing but one producer is left can work off its chunks in order. -/
theorem exists_forward (instant : ∀ w, c.delay w = 0) {number : Nat} {chunks : List Chunk}
    (numbered : ∀ chunk ∈ chunks, chunk.request = number)
    (ready : p.ready = Producer.ofChunks chunks) (line : p.line = []) (called : p.called = [])
    (queue : p.queue = []) (flying : p.inFlight = []) :
    ∃ actions, (∀ a ∈ actions, a.isOwn = true) ∧ (run c p actions).isEmpty = true ∧
      (run c p actions).recorded = p.recorded ++ chunks := by
  induction chunks generalizing p with
  | nil => 
    refine ⟨[], by simp, ?_, by simp [run]⟩
    exact isEmpty_iff.mpr ⟨ready, line, called, queue, flying⟩
  | cons chunk rest ih =>
    -- one chunk passes through the whole pipeline before the next one leaves its producer
    have one : p.ready = [⟨chunk, rest⟩] := ready
    have step := run_forward instant one line called queue flying
    obtain ⟨actions, own, empty, recorded⟩ := ih
      (p := run c p (p.forward chunk.request))
      (fun other there => numbered other (List.mem_cons_of_mem _ there))
      (by rw [step]) (by rw [step]; exact line) (by rw [step]; exact called)
      (by rw [step]; exact queue) (by rw [step]; exact flying)
    refine ⟨p.forward chunk.request ++ actions, ?_, ?_, ?_⟩
    · intro a there
      rcases List.mem_append.mp there with first | later
      · simp only [forward, List.mem_cons, List.not_mem_nil, or_false] at first
        rcases first with rfl | rfl | rfl <;> rfl
      · exact own a later
    · rw [run_append]
      exact empty
    · rw [run_append, recorded, step]
      simp [Pipeline.recorded]

/-- Whatever else is handed in can be worked off as well. -/
theorem WorkedOff.exists_run (h : WorkedOff c requests p) (instant : ∀ w, c.delay w = 0)
    (r : DeleteRequest) : ∃ actions, (∀ a ∈ actions, a.isOwn = true) ∧
      WorkedOff c (requests ++ [r]) (run c (p.act c (.submit r)) actions) := by
  obtain ⟨ready, line, called, queue, flying⟩ := isEmpty_iff.mp h.empty
  have working := h.working.submit r
  have number := h.working.requests_eq
  have submitted : p.act c (.submit r) = { p with
      ready := p.ready ++ Producer.ofChunks (chunksOf c p.requests r)
      requests := p.requests + 1 } := if_pos h.working.idle
  obtain ⟨actions, own, empty, recorded⟩ := exists_forward (p := p.act c (.submit r)) instant
    (fun chunk there => (mem_chunksOf.mp there).1) (by rw [submitted]; simp only [ready]; rfl)
    (by rw [submitted]; exact line) (by rw [submitted]; exact called)
    (by rw [submitted]; exact queue) (by rw [submitted]; exact flying)
  refine ⟨actions, own, working.own own, empty, ?_⟩
  rw [recorded, submitted, chunksFrom_append, ← h.recorded, number]
  simp [chunksFrom, Pipeline.recorded]

end
end Pipeline
end Shortlink
