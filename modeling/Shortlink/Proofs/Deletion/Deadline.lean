import Shortlink.Proofs.Deletion.Punctual
import Shortlink.Proofs.Deletion.WorkedOff
/-!
# Draining ends within the work that is left

As long as no shutdown has begun, a course keeps to its roster, and every accepted chunk that is not
on record is still on its way. A first shutdown call that waits longer than the store takes for all
of them sees the last one done, and answers then.
-/
namespace Shortlink

namespace Pipeline

/-- How long the store takes for all chunks of these requests that are not on record. -/
def owed (c : PipelineConfig) (requests : List DeleteRequest) (p : Pipeline) : Nat :=
  (((chunksFrom c 0 requests).filter (· ∉ p.recorded)).map fun chunk => c.delay chunk.work).sum

/-- All chunks of these requests are on record, and nothing is on its way any more. -/
structure Cleared (c : PipelineConfig) (requests : List DeleteRequest) (p : Pipeline) : Prop where
  producers : p.ready ++ p.line ++ p.called = []
  queue : p.queue = []
  inFlight : p.inFlight = []
  recorded : p.recorded.Perm (chunksFrom c 0 requests)

section
variable {c : PipelineConfig} {requests : List DeleteRequest} {p q : Pipeline}

private theorem filter_not_mem_of_nodup {left done : List Chunk} (once : (left ++ done).Nodup) :
    (left ++ done).filter (· ∉ done) = left := by
  have apart := (List.nodup_append.mp once).2.2
  have kept : left.filter (· ∉ done) = left := by
    apply List.filter_eq_self.mpr
    intro chunk there
    simpa using fun known => apart chunk there chunk known rfl
  have gone : done.filter (· ∉ done) = [] := List.filter_eq_nil_iff.mpr (by simp)
  rw [List.filter_append, kept, gone, List.append_nil]

private theorem Working.unrecorded_perm (working : Working c requests p) :
    ((chunksFrom c 0 requests).filter (· ∉ p.recorded)).Perm (p.held ++ p.queue ++ p.flying) := by
  have kept := working.kept
  obtain ⟨actions, rfl, rfl, -⟩ := working
  have everywhere := places_perm c actions
  have once := everywhere.nodup_iff.mpr (nodup_chunksFrom c 0 (accepted c {} actions))
  rw [places, kept, List.append_nil] at everywhere once
  have left := everywhere.symm.filter (· ∉ (run c {} actions).recorded)
  rwa [filter_not_mem_of_nodup once] at left

private theorem Working.rest_le_owed (working : Working c requests p) :
    p.rest c ≤ p.owed c requests := by
  have same := (working.unrecorded_perm.map fun chunk => c.delay chunk.work).sum_nat
  obtain ⟨actions, rfl, rfl, -⟩ := working
  have soon := (timed_run c actions).soon
  have flying : ((run c {} actions).inFlight.map fun flight =>
      flight.timer.due - (run c {} actions).now).sum ≤
      ((run c {} actions).inFlight.map fun flight => c.delay flight.chunk.work).sum := by
    apply List.sum_le_sum
    intro flight there
    have due := soon flight there
    omega
  rw [owed, same]
  simp only [rest, Pipeline.flying, List.map_append, List.sum_append, List.map_map] at flying ⊢
  exact Nat.add_le_add_left flying _

theorem Working.goes (working : Working c requests p) (goes : Goes c p q) (idle : q.drain = .idle) :
    Working c requests q := by
  obtain ⟨actions, rfl, rfl, -⟩ := working
  obtain ⟨more, rfl, silent⟩ := goes
  refine ⟨actions ++ more, (run_append ..).symm, ?_, idle⟩
  rw [accepted_append, accepted_of_silent c silent, List.append_nil]

private theorem Finished.cleared {call : Nat} (finished : Finished c call q)
    (working : Working c requests p)
    (goes : Goes c p q) : Cleared c requests q := by
  obtain ⟨-, -, -, -, empty, kept⟩ := finished
  obtain ⟨actions, rfl, rfl, -⟩ := working
  obtain ⟨more, rfl, silent⟩ := goes
  rw [← run_append] at empty kept ⊢
  have all := recorded_perm c (actions ++ more) empty kept
  rw [accepted_append, accepted_of_silent c silent, List.append_nil] at all
  obtain ⟨ready, line, called, queue, inFlight⟩ := isEmpty_iff.mp empty
  exact ⟨by simp [ready, line, called], queue, inFlight, all⟩

end
end Pipeline

namespace Course
open Pipeline

/-- The courses of clients that have handed in these requests, and perhaps have announced shutdown
calls, and none of these has begun. -/
inductive Serving (c : PipelineConfig) : List DeleteRequest → Course → Prop where
  | start : Serving c [] (.start c)
  | submit {requests : List DeleteRequest} {s t : Course} (before : Serving c requests s)
      {r : DeleteRequest} (handedIn : s.submit c r = .ok t) : Serving c (requests ++ [r]) t
  | announce {requests : List DeleteRequest} {s : Course} (before : Serving c requests s)
      (grace : Nat) : Serving c requests (s.announce c grace)
  /-- As soon as time goes on, an announced call begins. -/
  | sleep {requests : List DeleteRequest} {s : Course} (before : Serving c requests s)
      (unannounced : s.pipeline.announced = []) (ms : Nat) : Serving c requests (s.sleep c ms)

/-- A course that keeps to its roster, and no shutdown call has begun. -/
structure Attended (c : PipelineConfig) (requests : List DeleteRequest) (s : Course) : Prop where
  planned : Planned c s
  crew : Crew c 0 s
  watchful : Watchful s
  working : Working c requests s.pipeline
  calls : s.pipeline.announced ≠ [] → .call ∈ s.agenda

section
variable {c : PipelineConfig} {requests : List DeleteRequest} {s t : Course}

private theorem attended_start (c : PipelineConfig) : Attended c [] (.start c) := by
  have dones : (start c).dones = [] := by simp [start, Course.dones, Turn.done?]
  refine ⟨⟨⟨[], rfl⟩, by simp [start, Pipeline.awake], by simp [dones], by simp [dones]⟩, ⟨?_, ?_, ?_⟩,
    ?_, ⟨[], rfl, rfl, rfl⟩, by simp [start]⟩
  · simp [start]
  · simp [start, List.count_replicate]
  · exact fun _ => rfl
  · exact fun _ => rfl

private theorem mem_ofChunks_chunksOf {n : Nat} {r : DeleteRequest} {producer : Producer}
    (there : producer ∈ Producer.ofChunks (chunksOf c n r)) :
    producer.request = n ∧ r.codes ≠ [] := by
  have same : ∀ chunk ∈ chunksOf c n r, chunk.request = n :=
    fun chunk part => (mem_chunksOf.mp part).1
  refine ⟨(request_of_mem_ofChunks same there).1, ?_⟩
  intro empty
  simp [chunksOf, DeleteRequest.chunks, empty, DeleteRequest.pieces, Producer.ofChunks] at there

theorem Attended.plan (attended : Attended c requests s) {p : Pipeline} {turns : List Turn}
    {more : List DeleteRequest} (working : Working c more p) (reached : Reached c p)
    (now : p.now = s.pipeline.now) (inFlight : p.inFlight = s.pipeline.inFlight)
    (queue : p.queue = s.pipeline.queue)
    (awake : ∀ producer ∈ p.awake, producer ∈ s.pipeline.awake ∨ .producer producer.request ∈ turns)
    (calls : p.announced ≠ [] → s.pipeline.announced ≠ [] ∨ .call ∈ turns)
    (outside : ∀ turn ∈ turns, turn.done? = none ∧ turn ≠ .worker ∧ turn ≠ .first) :
    Attended c more ({ s with pipeline := p }.plan turns) := by
  obtain ⟨planned, crew, watchful, -, before⟩ := attended
  have dones : ({ s with pipeline := p }.plan turns).dones = s.dones := by
    have none : turns.filterMap Turn.done? = [] :=
      List.filterMap_eq_nil_iff.mpr fun turn there => (outside turn there).1
    rw [Course.dones, Course.plan, List.filterMap_append, none, List.append_nil]
    rfl
  refine ⟨⟨reached, ?_, dones ▸ planned.once, ?_⟩,
    (crew.of_inFlight inFlight).plan turns fun turn there => (outside turn there).2, ?_, working, ?_⟩
  · intro producer there
    rcases awake producer there with known | new
    · exact (planned.awake producer known).imp_left (List.mem_append_left _)
    · exact .inl (List.mem_append_right _ new)
  · rw [dones, pipeline_plan, inFlight, now]
    exact planned.due
  · intro asleep
    exact queue.trans (watchful asleep)
  · intro announced
    rcases calls announced with known | new
    · exact List.mem_append_left _ (before known)
    · exact List.mem_append_right _ new

theorem Attended.submit (attended : Attended c requests s) {r : DeleteRequest}
    (handedIn : s.submit c r = .ok t) : Attended c (requests ++ [r]) t := by
  have idle := attended.working.idle
  have reached := attended.planned.reached.act (.submit r)
  have working := attended.working.submit r
  have submitted : run c s.pipeline [.submit r] = { s.pipeline with
      ready := s.pipeline.ready ++ Producer.ofChunks (chunksOf c s.pipeline.requests r)
      requests := s.pipeline.requests + 1 } := if_pos idle
  rw [Course.submit, if_pos idle] at handedIn
  obtain rfl := Except.ok.inj handedIn
  refine attended.plan working reached ?_ ?_ ?_ ?_ ?_ ?_
  · rw [submitted]
  · rw [submitted]
  · rw [submitted]
  · intro producer there
    simp only [submitted, Pipeline.awake, List.mem_append] at there ⊢
    rcases there with (ready | new) | called
    · exact .inl (.inl ready)
    · obtain ⟨named, some⟩ := mem_ofChunks_chunksOf new
      exact .inr (by simp [some, named])
    · exact .inl (.inr called)
  · rw [submitted]
    exact .inl
  · intro turn there
    split at there
    · simp at there
    · rw [List.mem_singleton] at there
      simp [there, Turn.done?]

theorem Attended.announce (attended : Attended c requests s) (grace : Nat) :
    Attended c requests (s.announce c grace) := by
  have goes : Goes c s.pipeline (s.pipeline.act c (.announce grace)) :=
    ⟨[.announce grace], rfl, by simp [Action.isSubmit]⟩
  have working := attended.working.goes goes attended.working.idle
  refine attended.plan working (attended.planned.reached.act (.announce grace)) rfl rfl rfl ?_ ?_ ?_
  · exact fun producer there => .inl there
  · exact fun _ => .inr (List.mem_singleton_self _)
  · simp [Turn.done?]

theorem Attended.sleep (attended : Attended c requests s) (silent : s.pipeline.announced = [])
    (ms : Nat) : Attended c requests (s.sleep c ms) := by
  obtain ⟨planned, crew, watchful, working, -⟩ := attended
  have underway : Underway c 0 s none :=
    .steady ⟨planned, crew, watchful, .unasked working.idle silent⟩ (fun asked => absurd rfl asked)
  cases underway.sleep ms with
  | steady steady soon =>
    obtain ⟨planned', crew', watchful', ample⟩ := steady
    cases ample with
    | unasked idle' silent' =>
      have worked := working.goes (goes_sleep s ms) idle'
      exact ⟨planned', crew', watchful', worked, fun announced => absurd silent' announced⟩

private theorem Serving.attended (serving : Serving c requests s) : Attended c requests s := by
  induction serving with
  | start => exact attended_start c
  | submit before handedIn ih => exact ih.submit handedIn
  | announce before grace ih => exact ih.announce grace
  | sleep before unannounced ms ih => exact ih.sleep unannounced ms

theorem Attended.announced (attended : Attended c requests s) {call : AnnouncedCall}
    {others : List AnnouncedCall} (first : s.pipeline.announced = call :: others)
    (longer : s.pipeline.owed c requests < call.grace) :
    Underway c (s.pipeline.now + s.pipeline.owed c requests) s (some call.call) := by
  obtain ⟨planned, crew, watchful, working, calls⟩ := attended
  have left := working.rest_le_owed
  have ample : Ample c s (some call.call) :=
    .announced working.idle first (calls (by simp [first])) (Nat.lt_of_le_of_lt left longer)
  exact .steady ⟨planned, crew, watchful, ample⟩ fun _ => Nat.add_le_add_left left _

theorem Attended.shutDown (attended : Attended c requests s) {grace : Nat}
    (longer : s.pipeline.owed c requests < grace) :
    Underway c (s.pipeline.now + s.pipeline.owed c requests)
        (s.act c (.shutDown grace :: s.pipeline.atOnce grace)) (some s.pipeline.calls) ∧
      (s.act c (.shutDown grace :: s.pipeline.atOnce grace)).pipeline.now = s.pipeline.now := by
  obtain ⟨planned, crew, watchful, working, -⟩ := attended
  have left := working.rest_le_owed
  have ample : s.pipeline.atOnce grace = [] := by
    have some : grace ≠ 0 := by omega
    simp [atOnce, some]
  rw [ample]
  have unmoved : Unmoved s.pipeline (s.act c [.shutDown grace]).pipeline :=
    { unmoved_beginCall s.pipeline s.pipeline.calls grace 0 with }
  have waits : (s.act c [.shutDown grace]).pipeline.drain =
      .waiting s.pipeline.calls ⟨s.pipeline.now + grace, 0⟩ := by
    simp only [Course.act, run, List.foldl_cons, List.foldl_nil, Pipeline.act]
    rw [beginCall_of_idle _ _ _ _ working.idle]
  have same := unmoved.rest c
  have now := unmoved.now
  refine ⟨.steady ⟨?_, crew.of_inFlight unmoved.inFlight, ?_, .waiting waits ?_⟩ fun _ => ?_, now⟩
  · exact planned.of_unmoved (planned.reached.act (.shutDown grace)) unmoved (List.Subset.refl _)
      (List.Subset.refl _) rfl
  · intro asleep
    rw [unmoved.queue]
    exact watchful asleep
  · simp only
    omega
  · omega

private theorem Underway.naps {limit : Nat} {first : Option Nat}
    (underway : Underway c limit s first)
    (naps : List Nat) : Underway c limit (naps.foldl (Course.sleep c) s) first := by
  induction naps generalizing s with
  | nil => exact underway
  | cons ms later ih => exact ih (underway.sleep ms)

private theorem goes_naps (s : Course) (naps : List Nat) :
    Goes c s.pipeline (naps.foldl (sleep c) s).pipeline := by
  induction naps generalizing s with
  | nil => exact .refl c _
  | cons ms later ih => exact (goes_sleep s ms).trans (ih (s.sleep c ms))

/-- Draining ends within the work that is left. The first shutdown call that begins after these
requests answers that the pipeline is drained, if its time is longer than the store takes for all
their chunks that are not on record, whether the store deletes them or fails. When it answers no
more than that time has passed, and neither the queue nor any producer has a chunk. It makes no
difference whether a client calls by itself or has announced the call, and then sleeps for a while
before it waits for the answer; a client that sleeps longer than that finds the pipeline drained. -/
theorem drains_within_work_left (serving : Serving c requests s) :
    let left := s.pipeline.owed c requests
    let limit := s.pipeline.now + left
    (∀ grace, left < grace →
      let ended := s.shutdown c grace
      ended.1 = some .drained ∧ ended.2.pipeline.now ≤ limit ∧
        Cleared c requests ended.2.pipeline) ∧
    ∀ call others, s.pipeline.announced = call :: others → left < call.grace → ∀ naps : List Nat,
      let t := naps.foldl (sleep c) s
      let joined := t.join c call.call
      joined.pipeline.outcome? call.call = some .drained ∧
        joined.pipeline.now ≤ max t.pipeline.now limit ∧ Cleared c requests joined.pipeline ∧
        (limit < t.pipeline.now →
          t.pipeline.outcome? call.call = some .drained ∧ Cleared c requests t.pipeline) := by
  intro left limit
  have attended := serving.attended
  refine ⟨?_, ?_⟩
  · intro grace longer ended
    obtain ⟨underway, begun⟩ := attended.shutDown longer
    obtain ⟨finished, now⟩ := underway.join
    rw [begun, Nat.max_eq_right (Nat.le_add_right _ _)] at now
    have begins : Goes c s.pipeline (s.pipeline.act c (.shutDown grace)) :=
      ⟨[.shutDown grace], rfl, by simp [Action.isSubmit]⟩
    have goes := begins.trans (goes_shutdown s grace)
    exact ⟨finished.outcome?, now, finished.cleared attended.working goes⟩
  · intro call others first longer naps t joined
    have underway := (attended.announced first longer).naps naps
    obtain ⟨finished, now⟩ := underway.join
    have goes := goes_naps (c := c) s naps
    refine ⟨finished.outcome?, now, ?_, fun late => ?_⟩
    · exact finished.cleared attended.working (goes.trans (goes_join t call.call))
    · have answered := underway.finished_of_lt late
      exact ⟨answered.outcome?, answered.cleared attended.working goes⟩

end

/-! ## A course with work left -/

def narrowConfig : PipelineConfig := ⟨⟨1, 1, 1⟩, fun work => 5 + work.codes.length⟩

def fourCodes : DeleteRequest :=
  ⟨⟨⟨List.replicate 32 ⟨2, by decide⟩, rfl⟩⟩, [⟨"a0"⟩, ⟨"a1"⟩, ⟨"a2"⟩, ⟨"a3"⟩]⟩

def fourHandedIn : Course :=
  ((start narrowConfig).act narrowConfig [.submit fourCodes]).plan [.producer 0]

/-- One of the codes has been deleted and another one is being deleted, one is in the queue and one
is with its producer, which waits in line. -/
def oneDeleted : Course := (fourHandedIn.sleep narrowConfig 7).announce narrowConfig 19

theorem drains_within_work_left_of_oneDeleted :
    oneDeleted.pipeline.now = 7 ∧ oneDeleted.pipeline.recorded.length = 1 ∧
      oneDeleted.pipeline.line.length = 1 ∧
      (oneDeleted.shutdown narrowConfig 19).1 = some .drained ∧
      (oneDeleted.shutdown narrowConfig 19).2.pipeline.now ≤ 25 ∧
      Cleared narrowConfig [fourCodes] (oneDeleted.shutdown narrowConfig 19).2.pipeline ∧
      ((oneDeleted.sleep narrowConfig 4).join narrowConfig 0).pipeline.outcome? 0 = some .drained ∧
      ((oneDeleted.sleep narrowConfig 4).join narrowConfig 0).pipeline.now ≤ 25 ∧
      Cleared narrowConfig [fourCodes]
        ((oneDeleted.sleep narrowConfig 4).join narrowConfig 0).pipeline := by
  have handedIn : (start narrowConfig).submit narrowConfig fourCodes = .ok fourHandedIn := rfl
  have serving : Serving narrowConfig [fourCodes] oneDeleted :=
    ((Serving.submit .start handedIn).sleep rfl 7).announce 19
  have owed : oneDeleted.pipeline.owed narrowConfig [fourCodes] = 18 := by decide +kernel
  have now : oneDeleted.pipeline.now = 7 := by decide +kernel
  have slept : (oneDeleted.sleep narrowConfig 4).pipeline.now = 11 := by decide +kernel
  have announced : oneDeleted.pipeline.announced = [⟨0, 19⟩] := by
    have none : (fourHandedIn.sleep narrowConfig 7).pipeline.announced.isEmpty = true := by
      decide +kernel
    have calls : (fourHandedIn.sleep narrowConfig 7).pipeline.calls = 0 := by decide +kernel
    show (fourHandedIn.sleep narrowConfig 7).pipeline.announced ++
      [⟨(fourHandedIn.sleep narrowConfig 7).pipeline.calls, 19⟩] = _
    rw [List.isEmpty_iff.mp none, calls]
    rfl
  obtain ⟨called, waited⟩ := drains_within_work_left serving
  have enough : oneDeleted.pipeline.owed narrowConfig [fourCodes] < 19 := by omega
  obtain ⟨answer, soon, cleared⟩ := called 19 enough
  obtain ⟨outcome, later, done, -⟩ := waited ⟨0, 19⟩ [] announced enough [4]
  rw [owed, now] at soon later
  refine ⟨now, by decide +kernel, by decide +kernel, answer, soon, cleared, outcome, ?_, done⟩
  have both : max (oneDeleted.sleep narrowConfig 4).pipeline.now (7 + 18) = 25 := by rw [slept]; rfl
  exact Nat.le_trans later (Nat.le_of_eq both)

end Course
end Shortlink
