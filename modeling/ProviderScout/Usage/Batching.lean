import ProviderScout.Time.Duration
import ProviderScout.Usage.Tracker

/-!
Collecting events into batches. The consumer waits for an event, then gathers more until the batch
is full, its window has passed or something ends the gathering. A shutdown or the loss of all
senders makes it close the queue and write what is left. It breaks off, and loses all that was
reported and not written, if it cannot set room for a batch aside or no clock shows the end of a
window. Each of its steps is a function, so that any order of steps can be followed; the time is
that of a clock in nanoseconds.
-/

namespace ProviderScout

/-- How batches are cut. -/
structure Batching where
  size : Nat
  window : Duration
  size_pos : 0 < size

/-- The cut for a wanted size; a batch holds at least one event. -/
def Batching.ofSize (size : Nat) (window : Duration) : Batching :=
  ⟨Nat.max size 1, window, Nat.le_max_right size 1⟩

namespace Batching

/-- The largest batch for which room can be set aside. An event takes 120 bytes, and no address
exceeds 63 bits. -/
def maxSize : Nat := 9223372036854775807 / 120

/-- The first time that a clock cannot show. Its seconds take 63 bits. -/
def endOfTime : Nat := 9223372036854775808 * Duration.perSecond

/-- When the window of a batch is over whose first event is taken at a time. -/
def deadline? (cut : Batching) (clock : Nat) : Option Nat :=
  let deadline := clock + cut.window.nanos
  if deadline < endOfTime then some deadline else none

end Batching

/-- Where the consumer stands. -/
inductive Stage where
  /-- Has not done anything yet. -/
  | unstarted
  /-- Waits for the first event of a batch. -/
  | idle
  /-- Gathers a batch until the clock shows a time. -/
  | gathering (deadline : Nat)
  /-- Writes what is left in a closed queue. -/
  | draining
  | stopped
  /-- Has broken off. -/
  | failed
deriving DecidableEq

/-- The queue and its consumer. -/
structure Pipeline where
  queue : EventQueue
  /-- Whether anyone is left who may report events. -/
  hasSenders : Bool
  cancelled : Bool
  clock : Nat
  stage : Stage
  /-- The events of the batch in the making. -/
  batch : List UsageEvent

/-- What can happen to a pipeline. -/
inductive Action where
  /-- Someone reports an event. -/
  | send (e : UsageEvent)
  /-- The last one who may report is gone. -/
  | hangUp
  /-- The consumer is asked to stop. -/
  | cancel
  /-- Time passes. -/
  | wait (nanos : Nat)
  /-- The consumer sets room for a batch aside. -/
  | setUp
  /-- The consumer takes an event. -/
  | receive
  /-- The consumer finds its window over. -/
  | expire
  /-- The consumer finds that it is asked to stop. -/
  | heedCancel
  /-- The consumer finds the queue empty and nobody left who may report. -/
  | heedHangUp
  /-- The consumer takes an event of a closed queue, or stops if there is none. -/
  | drain
deriving DecidableEq

namespace Pipeline

def start : Pipeline := ⟨.empty, true, false, 0, .unstarted, []⟩

def written (stage : Stage) (p : Pipeline) : Pipeline × List UsageEvent :=
  ({ p with stage := stage, batch := [] }, p.batch)

def unwritten (p : Pipeline) : Pipeline × List UsageEvent := (p, [])

/-- Takes an event into the batch and hands the batch over when it is full. -/
def take (cut : Batching) (full more : Stage) (e : UsageEvent) (q : EventQueue) (p : Pipeline) :
    Pipeline × List UsageEvent :=
  let p := { p with queue := q, batch := p.batch ++ [e] }
  if p.batch.length < cut.size then unwritten { p with stage := more } else written full p

/-- Breaks off: the batch in the making and all that waits are lost. -/
def fail (p : Pipeline) : Pipeline :=
  { p with queue := p.queue.discard, stage := .failed, batch := [] }

def beginDrain (p : Pipeline) : Pipeline := { p with queue := p.queue.close, stage := .draining }

/-- What an action does, with the batch that is handed over to be stored, empty if none is. There
is no answer if the action is not possible. -/
def step (cut : Batching) (a : Action) (p : Pipeline) : Option (Pipeline × List UsageEvent) :=
  match a, p.stage with
  | .send e, _ => some (unwritten { p with queue := p.queue.send e })
  | .hangUp, _ => some (unwritten { p with hasSenders := false })
  | .cancel, _ => some (unwritten { p with cancelled := true })
  | .wait nanos, _ => some (unwritten { p with clock := p.clock + nanos })
  | .setUp, .unstarted =>
    some (unwritten (if cut.size ≤ Batching.maxSize then { p with stage := .idle } else p.fail))
  | .receive, .idle => p.queue.receive?.map fun (e, q) => match cut.deadline? p.clock with
    | some deadline => p.take cut .idle (.gathering deadline) e q
    | none => unwritten p.fail
  | .receive, .gathering deadline => p.queue.receive?.map fun (e, q) =>
    p.take cut .idle (.gathering deadline) e q
  | .expire, .gathering deadline => if deadline ≤ p.clock then some (written .idle p) else none
  | .heedCancel, .idle => if p.cancelled then some (unwritten p.beginDrain) else none
  | .heedCancel, .gathering _ => if p.cancelled then some (written .idle p) else none
  | .heedHangUp, .idle =>
    if !p.hasSenders && p.queue.waiting.isEmpty then some (unwritten p.beginDrain) else none
  | .heedHangUp, .gathering _ =>
    if !p.hasSenders && p.queue.waiting.isEmpty then some (written .idle p) else none
  | .drain, .draining => match p.queue.receive? with
    | some (e, q) => some (p.take cut .draining .draining e q)
    | none => some (written .stopped p)
  | _, _ => none

/-- Follows actions in order and answers the batches that were handed over; actions that are not
possible are passed over. -/
def run (cut : Batching) : List Action → Pipeline → Pipeline × List (List UsageEvent)
  | [], p => (p, [])
  | a :: rest, p => match p.step cut a with
    | none => run cut rest p
    | some (q, batch) =>
      let (r, batches) := run cut rest q
      (r, if batch.isEmpty then batches else batch :: batches)

/-- Takes everything that waits, and hands over a batch whose window is over. -/
def consume (cut : Batching) (p : Pipeline) : Pipeline × List (List UsageEvent) :=
  run cut (.setUp :: List.replicate p.queue.waiting.length .receive ++ [.expire]) p

/-- Stops the consumer, which hands over everything that is left unless it breaks off. -/
def shutDown (cut : Batching) (p : Pipeline) : Pipeline × List (List UsageEvent) :=
  let drains := List.replicate (p.queue.waiting.length + 1) Action.drain
  run cut ([.cancel, .setUp, .heedCancel, .heedCancel] ++ drains) p

end Pipeline

end ProviderScout
