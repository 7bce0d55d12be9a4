import EventEngine.Queue.Basic

/-!
# Queues shared by waiting consumers

Any number of consumers may wait on one queue, some of them for a bounded time. A consumer that
finds nothing sleeps. An enqueue wakes one sleeper and an abort wakes all; a sleeper that is woken,
or whose time is up, looks at the queue once more and returns, or sleeps on.
-/
namespace EventEngine

structure Consumer where
  /-- The end of a bounded wait, with the bound. -/
  limit : Option (Instant × Duration)
  awake : Bool := false
  deriving Repr

def Consumer.isExpired (c : Consumer) (now : Instant) : Bool :=
  match c.limit with
  | some (deadline, _) => deadline ≤ now
  | none => false

/-- A queue, the consumers waiting on it in order of arrival, and the time. -/
structure SharedQueue (α : Type) where
  queue : Queue α := {}
  waiting : List Consumer := []
  now : Instant := .start

namespace SharedQueue

variable {α : Type}

/-- Wake the first consumer that sleeps. -/
def wakeOne : List Consumer → List Consumer
  | [] => []
  | c :: rest => if c.awake then c :: wakeOne rest else { c with awake := true } :: rest

def wakeAll (consumers : List Consumer) : List Consumer :=
  consumers.map ({ · with awake := true })

/-- Append an event at the tail, and wake one consumer. -/
def enqueueTail (s : SharedQueue α) (a : α) : SharedQueue α :=
  { s with queue := s.queue.enqueueTail a, waiting := wakeOne s.waiting }

/-- Put an event at the head, and wake one consumer. -/
def enqueueHead (s : SharedQueue α) (a : α) : SharedQueue α :=
  { s with queue := s.queue.enqueueHead a, waiting := wakeOne s.waiting }

/-- Request an abort, and wake every consumer. -/
def abort (s : SharedQueue α) : SharedQueue α :=
  { s with queue := s.queue.abort, waiting := wakeAll s.waiting }

/-- What becomes of a consumer that has the queue to itself, until it returns or sleeps: `none`
sends it to sleep. A bounded wait that goes on without having been woken has timed out. -/
def look (c : Consumer) (q : Queue α) : Option (WaitResult α × Queue α) :=
  match c.limit with
  | none => q.wait
  | some (_, limit) =>
    if c.awake then Queue.waitForLoop limit q [] else some (q.lastLook limit)

/-- Look for a consumer that is awake or whose time is up, and once more if it is to sleep until a
deadline that is past. -/
def lookOut (now : Instant) (c : Consumer) (q : Queue α) : Option (WaitResult α × Queue α) :=
  match look c q with
  | some answer => some answer
  | none => if c.isExpired now then look { c with awake := false } q else none

/-- Let each consumer that is awake or expired look, in order of arrival. Yields the queue they
leave, the consumers that still wait, and the results of those that returned. -/
def lookAll (now : Instant) : Queue α → List Consumer →
    Queue α × List Consumer × List (WaitResult α)
  | q, [] => (q, [], [])
  | q, c :: rest =>
    if c.awake || c.isExpired now then
      match lookOut now c q with
      | some (result, left) =>
        let (q', waiting, results) := lookAll now left rest
        (q', waiting, result :: results)
      | none =>
        let (q', waiting, results) := lookAll now q rest
        (q', { c with awake := false } :: waiting, results)
    else
      let (q', waiting, results) := lookAll now q rest
      (q', c :: waiting, results)

/-- Let the consumers run until each has returned or sleeps. -/
def settle (s : SharedQueue α) : SharedQueue α × List (WaitResult α) :=
  let (queue, waiting, results) := lookAll s.now s.queue s.waiting
  ({ s with queue, waiting }, results)

/-- A consumer arrives and looks for the first time when the queue settles. -/
def join (s : SharedQueue α) (limit : Option (Instant × Duration)) : SharedQueue α :=
  { s with waiting := s.waiting ++ [{ limit, awake := true }] }

/-- What can be asked of the queue from outside. -/
inductive Request (α : Type) where
  | tail (a : α)
  | head (a : α)
  /-- Append all of these at the tail. -/
  | fill (values : List α)
  | tryTake
  | wait
  | waitFor (limit : Duration)
  /-- A consumer arrives that waits without a bound. -/
  | consumer
  /-- A consumer arrives that waits for at most `limit`. -/
  | consumerFor (limit : Duration)
  /-- Time passes. -/
  | expire (d : Duration)
  | abort
  | reset
  | clear
  /-- Take events until there is none. -/
  | drain
  | describe

/-- What a request answers. -/
inductive Response (α : Type) where
  | done
  | result (r : WaitResult α)
  /-- The wait is not begun, since it would not end. -/
  | wouldBlock
  | count (n : Nat)
  | values (vs : List α)
  | text (s : String)

/-- Perform a request, without letting the consumers run. A bounded wait whose end cannot be
represented fails at once; it is listed with the results of the consumers. -/
def perform (s : SharedQueue α) : Request α → SharedQueue α × Response α × List (WaitResult α)
  | .tail a => (s.enqueueTail a, .done, [])
  | .head a => (s.enqueueHead a, .done, [])
  | .fill values => (values.foldl enqueueTail s, .done, [])
  | .tryTake =>
    let (r, queue) := s.queue.tryDequeue
    ({ s with queue }, .result r, [])
  | .wait => match s.queue.wait with
    | some (r, queue) => ({ s with queue }, .result r, [])
    | none => (s, .wouldBlock, [])
  | .waitFor limit =>
    let (r, queue) := s.queue.waitFor s.now limit
    ({ s with queue }, .result r, [])
  | .consumer => (s.join none, .done, [])
  | .consumerFor limit => match s.now.add? limit with
    | some deadline => (s.join (some (deadline, limit)), .done, [])
    | none => (s, .done, [.overflow])
  | .expire d => ({ s with now := s.now.advance d }, .done, [])
  | .abort => (s.abort, .done, [])
  | .reset => ({ s with queue := s.queue.resetAbort }, .done, [])
  | .clear => ({ s with queue := s.queue.clear }, .count s.queue.length, [])
  | .drain => ({ s with queue := s.queue.clear }, .values s.queue.events, [])
  | .describe => (s, .text s.queue.text, [])

/-- Perform a request and let the consumers run. -/
def step (s : SharedQueue α) (r : Request α) :
    SharedQueue α × Response α × List (WaitResult α) :=
  let (s, response, early) := s.perform r
  let (s, results) := s.settle
  (s, response, early ++ results)

end SharedQueue
end EventEngine
