import Shortlink.Deletion.Pipeline
import Shortlink.Error
/-!
# The course of a pipeline

While a caller waits, the pipeline goes on by itself. Whoever can go on stands on an agenda and gets
a turn, in which it does all it can: a producer fills the queue, a worker takes a chunk. Time goes
on when nobody has a turn. The work that is left bounds the number of turns, so the course of a
pipeline always comes to an end.
-/
namespace Shortlink

inductive Turn where
  /-- A worker that is free. -/
  | worker
  | first
  /-- The worker whose chunk has the timer of this turn is done. -/
  | done (timer : Nat)
  | producer (request : Nat)
  | call
  /-- The waiting shutdown call, whose time is over. -/
  | deadline
deriving DecidableEq

/-- What the first of the waiting workers does. It alone looks at the queue. -/
inductive Watch where
  | nobody
  | asleep
  /-- It has a turn on the agenda. -/
  | roused
deriving DecidableEq

structure Course where
  pipeline : Pipeline := {}
  agenda : List Turn := []
  /-- Requests whose producers have had a long turn and rest until the round is over. -/
  resting : List Nat := []
  watch : Watch := .nobody
  /-- How many workers wait behind the first one. -/
  behind : Nat := 0

namespace Pipeline

/-- A shutdown call without grace time gives up as it begins, if it is the first one. -/
def atOnce (p : Pipeline) (grace : Nat) : List Action :=
  if p.drain = .idle ∧ grace = 0 then [.expire] else []

def isDrained (p : Pipeline) : Bool :=
  match p.drain with
  | .waiting _ _ => p.isEmpty
  | _ => false

def nextMoment? (p : Pipeline) : Option Nat :=
  (p.inFlight.map (·.timer.due) ++ match p.drain with
    | .waiting _ timer => [timer.due]
    | _ => []).min?

def alarms (p : Pipeline) : List Turn :=
  let due := (p.inFlight.map Flight.timer).filter (·.due ≤ p.now)
  let done (timers : List Timer) : List Turn := timers.map fun timer => .done timer.turn
  match p.drain with
  | .waiting _ timer =>
    if timer.due ≤ p.now then
      done (due.filter (·.turn < timer.turn)) ++ .deadline :: done (due.filter (timer.turn < ·.turn))
    else done due
  | _ => done due

end Pipeline

namespace Course

def start (c : PipelineConfig) : Course := { agenda := List.replicate c.workers .worker }

def act (c : PipelineConfig) (s : Course) (actions : List Pipeline.Action) : Course :=
  { s with pipeline := s.pipeline.run c actions }

def plan (s : Course) (turns : List Turn) : Course := { s with agenda := s.agenda ++ turns }

def rouse (s : Course) : Course :=
  match s.watch with
  | .asleep => { s.plan [.first] with watch := .roused }
  | _ => s

/-- The first of the waiting workers takes a chunk and leaves its place to the next one, or it
sleeps because there is none. -/
def look (c : PipelineConfig) (s : Course) : Course :=
  if s.pipeline.queue.isEmpty then { s with watch := .asleep }
  else
    let called := (s.pipeline.line.take 1).map fun producer => Turn.producer producer.request
    let s := (s.act c [.take]).plan called
    if s.behind = 0 then { s with watch := .nobody }
    else { s.plan [.first] with watch := .roused, behind := s.behind - 1 }

def seek (c : PipelineConfig) (s : Course) : Course :=
  match s.watch with
  | .nobody => s.look c
  | _ => { s with behind := s.behind + 1 }

/-- The most chunks that a producer puts into the queue in one turn. -/
def longestTurn : Nat := 128

/-- A producer puts chunks into the queue. What it has left makes it rest or line up. -/
def feed (c : PipelineConfig) (s : Course) (request : Nat) : Course :=
  let before := s.pipeline.queue.length
  let arrived := s.pipeline.act c (.arrive request)
  let fed := arrived.act c (.enter request (longestTurn - (arrived.queue.length - before)))
  let count := fed.queue.length - before
  let s := { s with pipeline := fed }
  let s := if count = 0 then s else s.rouse
  if fed.ready.all (·.request ≠ request) then s
  else if count = longestTurn then { s with resting := s.resting ++ [request] }
  else s.act c [.lineUp request]

def take (c : PipelineConfig) (s : Course) : Turn → Course
  | .worker => s.seek c
  | .first => s.look c
  | .done timer => (s.act c [.finish timer]).seek c
  | .producer request => s.feed c request
  | .call =>
    match s.pipeline.announced with
    | a :: _ => s.act c (.beginAnnounced :: s.pipeline.atOnce a.grace)
    | [] => s
  | .deadline => s.act c [.expire]

def roundLength : Nat := 61

def takeTurns (c : PipelineConfig) : Nat → Course → Course
  | 0, s => s
  | n + 1, s =>
    match s.agenda with
    | [] => s
    | turn :: rest => takeTurns c n ({ s with agenda := rest }.take c turn)

def round (c : PipelineConfig) (s : Course) : Course :=
  let s := takeTurns c roundLength s
  { s.plan (s.resting.map Turn.producer) with resting := [] }

/-- What happens next at this moment, if anything does. When nobody has a turn, the first chunk that
takes no time is done; when there is none, a shutdown call may see that nothing is left. -/
def step? (c : PipelineConfig) (s : Course) : Option Course :=
  if ¬ s.agenda.isEmpty ∨ ¬ s.resting.isEmpty then some (s.round c)
  else match s.pipeline.inFlight.find? (·.timer.due ≤ s.pipeline.now) with
    | some flight => some (s.plan [.done flight.timer.turn])
    | none => if s.pipeline.isDrained then some (s.act c [.drained]) else none

/-- A bound on the steps that are left, now and later. A chunk costs its producer a turn and may
rouse a worker; taking it from the queue costs a turn and may call a producer and a worker; a turn
that is planned costs twice, so that each step makes the bound smaller. -/
def work (s : Course) : Nat :=
  let p := s.pipeline
  2 * s.agenda.length + 3 * s.resting.length +
    10 * ((p.ready ++ p.line ++ p.called).flatMap Producer.chunks).length +
    7 * p.queue.length + 3 * p.inFlight.length + 2

/-- Let everything happen that is possible at this moment, until the caller has what it waits for;
the last argument bounds the steps. -/
def settleWithin (c : PipelineConfig) (enough : Pipeline → Bool) (s : Course) : Nat → Course
  | 0 => s
  | steps + 1 =>
    if enough s.pipeline then s
    else match s.step? c with
      | none => s
      | some s => settleWithin c enough s steps

def advance (c : PipelineConfig) (s : Course) (moment : Nat) : Course :=
  let s := s.act c [.wait moment]
  s.plan s.pipeline.alarms

def goUntil (c : PipelineConfig) (moment bound : Nat) : Nat → Course → Course
  | 0, s => s.advance c moment
  | steps + 1, s =>
    let s := s.settleWithin c (fun _ => false) bound
    match s.pipeline.nextMoment? with
    | some t =>
      if t < moment then goUntil c moment bound steps (s.advance c t) else s.advance c moment
    | none => s.advance c moment

/-- Let the caller sleep for some milliseconds. A sleep of no length does not wait. -/
def sleep (c : PipelineConfig) (s : Course) (ms : Nat) : Course :=
  let bound := s.work
  if ms = 0 then s else goUntil c (s.pipeline.now + ms) bound bound s

def goTo (c : PipelineConfig) (call bound : Nat) : Nat → Course → Course
  | 0, s => s
  | steps + 1, s =>
    let s := s.settleWithin c (fun p => (p.outcome? call).isSome) bound
    if (s.pipeline.outcome? call).isSome then s
    else match s.pipeline.nextMoment? with
      | some t => goTo c call bound steps (s.advance c t)
      | none => s

def join (c : PipelineConfig) (s : Course) (call : Nat) : Course :=
  let bound := s.work
  goTo c call bound bound s

def shutdown (c : PipelineConfig) (s : Course) (grace : Nat) : Option DrainOutcome × Course :=
  let call := s.pipeline.calls
  let s := (s.act c (.shutDown grace :: s.pipeline.atOnce grace)).join c call
  (s.pipeline.outcome? call, s)

def announce (c : PipelineConfig) (s : Course) (grace : Nat) : Course :=
  (s.act c [.announce grace]).plan [.call]

/-- Hand in a request. It is refused once a shutdown has begun. -/
def submit (c : PipelineConfig) (s : Course) (r : DeleteRequest) : Except ServiceError Course :=
  if s.pipeline.drain = .idle then
    let turns := if r.codes.isEmpty then [] else [Turn.producer s.pipeline.requests]
    .ok ((s.act c [.submit r]).plan turns)
  else .error .closed

end Course
end Shortlink
