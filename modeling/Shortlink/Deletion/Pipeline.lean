import Shortlink.Deletion.Request
/-!
# The deletion pipeline

Accepted requests are cut into chunks, which pass through one bounded queue to a fixed number of
workers. Each request has a producer that puts its chunks into the queue in order. When there is no
room, producers line up; a chunk that leaves the queue promises its place to the first in line, and
one promise is good for one chunk. The state changes only by actions. An action that is not possible
changes nothing, so every list of actions is a run.
-/
namespace Shortlink

/-- The sizes of a pipeline as they are configured. Each of them counts as one if it is zero. -/
structure PipelineSizes where
  chunk : Nat := 100
  queue : Nat := 100
  workers : Nat := 2
deriving DecidableEq

structure PipelineConfig where
  sizes : PipelineSizes
  /-- How long the store takes to delete a chunk, in milliseconds. -/
  delay : DeleteRequest → Nat

namespace PipelineConfig

def queueSize (c : PipelineConfig) : Nat := max 1 c.sizes.queue

def workers (c : PipelineConfig) : Nat := max 1 c.sizes.workers

end PipelineConfig

inductive PipelinePhase where
  | running
  /-- A shutdown has begun, and queued chunks are still worked off. -/
  | draining
  | stopped
deriving DecidableEq

def PipelinePhase.name : PipelinePhase → String
  | running => "running"
  | draining => "draining"
  | stopped => "stopped"

inductive DrainOutcome where
  | drained
  /-- The time ran out while so many chunks were being deleted. -/
  | timedOut (aborted : Nat)
deriving DecidableEq

structure Chunk where
  request : Nat
  /-- Its place among the parts of the request. -/
  index : Nat
  work : DeleteRequest
deriving DecidableEq

/-- Those chunks of one request that are not in the queue yet. There is at least one. -/
structure Producer where
  next : Chunk
  later : List Chunk

namespace Producer

def ofChunks : List Chunk → List Producer
  | [] => []
  | c :: cs => [⟨c, cs⟩]

def chunks (p : Producer) : List Chunk := p.next :: p.later

def request (p : Producer) : Nat := p.next.request

end Producer

/-- A moment to be waited for. Of two timers for one moment that of the lower turn goes off first. -/
structure Timer where
  due : Nat
  turn : Nat
deriving DecidableEq

/-- A chunk that a worker is deleting, and when that will be done. -/
structure Flight where
  chunk : Chunk
  timer : Timer

structure FinishedChunk where
  time : Nat
  chunk : Chunk

/-- What the first shutdown call is doing. Only that call waits for the workers. Requests are accepted
until it begins. -/
inductive Drain where
  | idle
  | waiting (call : Nat) (timer : Timer)
  | over
deriving DecidableEq

/-- A shutdown call that another task is going to make. -/
structure AnnouncedCall where
  call : Nat
  grace : Nat

structure Pipeline where
  now : Nat := 0
  phase : PipelinePhase := .running
  /-- Producers that neither wait for a place in the queue nor have been promised one. -/
  ready : List Producer := []
  /-- Producers that wait for a place in the queue, first come, first served. -/
  line : List Producer := []
  /-- Producers that have been promised a place in the queue. -/
  called : List Producer := []
  queue : List Chunk := []
  inFlight : List Flight := []
  /-- The workers count up before they delete a chunk and down after it. A worker that is stopped does
  not count down. -/
  busy : Nat := 0
  /-- In the order in which they were done. -/
  finished : List FinishedChunk := []
  lost : List Chunk := []
  drain : Drain := .idle
  announced : List AnnouncedCall := []
  outcomes : List (Nat × DrainOutcome) := []
  requests : Nat := 0
  calls : Nat := 0
  /-- The number of timers that have been set. -/
  turns : Nat := 0

namespace Pipeline

inductive Action where
  | submit (request : DeleteRequest)
  /-- The producer of a request puts up to so many chunks into the queue, as long as there is room. -/
  | enter (request count : Nat)
  /-- The producer of a request lines up because there is no room. -/
  | lineUp (request : Nat)
  /-- The producer of a request puts a chunk into its promised place. -/
  | arrive (request : Nat)
  /-- A free worker takes the first chunk of the queue, whose place is promised to the first in
  line. -/
  | take
  /-- A worker is done with the chunk of this turn. -/
  | finish (turn : Nat)
  /-- A caller shuts the pipeline down and waits for at most the grace time. -/
  | shutDown (grace : Nat)
  /-- A caller leaves the shutdown to another task. -/
  | announce (grace : Nat)
  | beginAnnounced
  | expire
  | drained
  | wait (moment : Nat)

/-- How many places of the queue are neither taken nor promised. -/
def room (c : PipelineConfig) (p : Pipeline) : Nat :=
  c.queueSize - (p.queue.length + p.called.length)

def isEmpty (p : Pipeline) : Bool :=
  p.ready.isEmpty && p.line.isEmpty && p.called.isEmpty && p.queue.isEmpty && p.inFlight.isEmpty

def chunksOf (c : PipelineConfig) (request : Nat) (r : DeleteRequest) : List Chunk :=
  (r.chunks c.sizes.chunk).mapIdx fun index work => ⟨request, index, work⟩

/-- A shutdown call begins. The first one starts to wait; any other finds no workers to wait for
and ends at once. -/
def beginCall (p : Pipeline) (call : Nat) (grace turn : Nat) : Pipeline :=
  match p.drain with
  | .idle => { p with phase := .draining, drain := .waiting call ⟨p.now + grace, turn⟩ }
  | _ => { p with phase := .stopped, outcomes := (call, .drained) :: p.outcomes }

def giveUp (p : Pipeline) (call : Nat) : Pipeline :=
  { p with
    phase := .stopped
    drain := .over
    outcomes := (call, .timedOut p.busy) :: p.outcomes
    lost := p.lost ++ p.inFlight.map Flight.chunk ++ p.queue ++
      p.called.flatMap Producer.chunks ++ p.line.flatMap Producer.chunks ++
      p.ready.flatMap Producer.chunks
    ready := []
    line := []
    called := []
    queue := []
    inFlight := [] }

def act (c : PipelineConfig) (p : Pipeline) : Action → Pipeline
  | .submit r =>
    if p.drain = .idle then
      { p with
        ready := p.ready ++ Producer.ofChunks (chunksOf c p.requests r)
        requests := p.requests + 1 }
    else p
  | .enter request count =>
    match p.ready.find? (·.request = request) with
    | some producer =>
      let n := min count (p.room c)
      { p with
        ready := Producer.ofChunks (producer.chunks.drop n) ++
          p.ready.eraseP (·.request = request)
        queue := p.queue ++ producer.chunks.take n }
    | none => p
  | .lineUp request =>
    match p.ready.find? (·.request = request) with
    | some producer =>
      if p.room c = 0 then
        { p with ready := p.ready.eraseP (·.request = request), line := p.line ++ [producer] }
      else p
    | none => p
  | .arrive request =>
    match p.called.find? (·.request = request) with
    | some producer =>
      { p with
        called := p.called.eraseP (·.request = request)
        ready := Producer.ofChunks producer.later ++ p.ready
        queue := p.queue ++ [producer.next] }
    | none => p
  | .take =>
    match p.queue with
    | chunk :: rest =>
      if p.inFlight.length < c.workers then
        { p with
          queue := rest
          called := p.called ++ p.line.take 1
          line := p.line.drop 1
          inFlight := p.inFlight ++ [⟨chunk, ⟨p.now + c.delay chunk.work, p.turns + 1⟩⟩]
          busy := p.busy + 1
          turns := p.turns + 1 }
      else p
    | [] => p
  | .finish turn =>
    match p.inFlight.find? (·.timer.turn = turn) with
    | some flight =>
      if flight.timer.due ≤ p.now then
        { p with
          inFlight := p.inFlight.eraseP (·.timer.turn = turn)
          busy := p.busy - 1
          finished := p.finished ++ [⟨p.now, flight.chunk⟩] }
      else p
    | none => p
  | .shutDown grace => { p.beginCall p.calls grace 0 with calls := p.calls + 1 }
  | .announce grace =>
    { p with announced := p.announced ++ [⟨p.calls, grace⟩], calls := p.calls + 1 }
  | .beginAnnounced =>
    match p.announced with
    | a :: others =>
      { p.beginCall a.call a.grace (p.turns + 1) with announced := others, turns := p.turns + 1 }
    | [] => p
  | .expire =>
    match p.drain with
    | .waiting call timer => if timer.due ≤ p.now then p.giveUp call else p
    | _ => p
  | .drained =>
    match p.drain with
    | .waiting call _ =>
      if p.isEmpty then
        { p with phase := .stopped, drain := .over, outcomes := (call, .drained) :: p.outcomes }
      else p
    | _ => p
  | .wait moment => { p with now := max p.now moment }

def run (c : PipelineConfig) (p : Pipeline) (actions : List Action) : Pipeline :=
  actions.foldl (act c) p

theorem run_append (c : PipelineConfig) (p : Pipeline) (as bs : List Action) :
    run c p (as ++ bs) = run c (run c p as) bs :=
  List.foldl_append

def outcome? (p : Pipeline) (call : Nat) : Option DrainOutcome := p.outcomes.lookup call

end Pipeline
end Shortlink
