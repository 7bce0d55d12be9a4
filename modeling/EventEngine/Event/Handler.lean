import EventEngine.Config.Events
import EventEngine.Event.Action
import EventEngine.Metrics
import EventEngine.Queue.Basic

/-!
# Event handlers

A handler owns a queue of records and at most one worker thread that dispatches them in queue
order. A stop sets the queue's abort; the worker finishes the dispatch it is in, sees the abort,
and leaves, resetting the abort and discarding what is still queued.
-/
namespace EventEngine

variable {π : Type}

/-- Why a dispatch stands still. -/
inductive Pause where
  /-- It waits to be released. -/
  | blocked
  /-- It stops handler `h` and waits until its exits are no longer `exits`; then it may destroy it.
  -/
  | exit (h : HandlerId) (exits : Nat) (destroys : Bool)
  deriving DecidableEq, Repr

/-- What a worker thread is doing. -/
inductive Worker (π : Type) where
  /-- It waits for a record. -/
  | idle
  /-- It has taken a record and waits for the dispatch lock. -/
  | holding (record : Record π)
  /-- It is inside the dispatcher, with the rest of the script. -/
  | dispatching (record : Record π) (since : Instant) (script : List (Action π))
      (pause : Option Pause)

namespace Worker

/-- The record taken out of the queue and not done with. -/
def held : Worker π → Option (Record π)
  | idle => none
  | holding record => some record
  | dispatching record _ _ _ => some record

def isDispatching : Worker π → Bool
  | dispatching .. => true
  | _ => false

def isBlocked : Worker π → Bool
  | dispatching _ _ _ (some .blocked) => true
  | _ => false

end Worker

/-- The state of one handler. -/
structure Handler (π : Type) where
  config : HandlerConfig
  /-- The stack sizes with which the platform makes threads. -/
  canSpawn : Nat → Bool := fitsAddressSpace
  types : EventTypes := {}
  /-- The lock held around every dispatch. -/
  lock : Option LockId := none
  queue : Queue (Record π) := {}
  /-- Present from the start of the worker until its exit. -/
  worker : Option (Worker π) := none
  /-- A stop is pending; the exiting worker resets and clears the queue. -/
  stopRequested : Bool := false
  /-- Number of worker exits, a counter of 64 bits. -/
  exits : Nat := 0
  timeout : Option (TimeoutSetup π) := none
  /-- The alarm registered by the last start. -/
  timeoutAlarm : Option AlarmId := none
  /-- None until set, or until the first start adopts the shared clock. -/
  clock : Option ClockId := none
  /-- The clocks of the starts that are between their two sections. -/
  starts : List ClockId := []
  metrics : Metrics := {}
  /-- Number of records queued so far. -/
  issued : Nat := 0
  /-- Number of references to the handler; a destruction consumes one. -/
  handles : Nat := 1

namespace Handler

/-- Whether nobody can ask the handler for anything any more. -/
def isDestroyed (x : Handler π) : Bool := x.handles == 0

/-- Whether a worker is registered. -/
def isRunning (x : Handler π) : Bool := x.worker.isSome

def pending (x : Handler π) : Nat := x.queue.length

/-- The record that the worker has taken out of the queue and is not done with. -/
def held (x : Handler π) : Option (Record π) := x.worker.bind Worker.held

/-- The record that the next enqueue will queue. -/
def nextRecord (x : Handler π) (body : RecordBody π) : Record π := ⟨x.issued, body⟩

def enqueue (x : Handler π) (place : Place) (body : RecordBody π) : Handler π :=
  let record := x.nextRecord body
  match place with
  | .tail => { x with
      queue := x.queue.enqueueTail record
      metrics := x.metrics.recordEnqueued
      issued := x.issued + 1 }
  | .head => { x with
      queue := x.queue.enqueueHead record
      metrics := x.metrics.recordEnqueuedOob
      issued := x.issued + 1 }

def clear (x : Handler π) : Handler π :=
  { x with queue := x.queue.clear, metrics := x.metrics.recordCleared x.pending }

/-- What is in the way of making a worker. -/
def spawnFault (x : Handler π) : Option StartFailure :=
  threadFault x.canSpawn x.config.threadName x.config.stackSize x.config.name

/-- Take the shared clock unless one is set. -/
def adopt (x : Handler π) : Handler π := { x with clock := some (x.clock.getD sharedClock) }

/-- A start on clock `c` has come to the end of its first section. -/
def opened (x : Handler π) (c : ClockId) : Handler π := { x with starts := c :: x.starts }

/-- A start on clock `c` enters its second section. -/
def entered (x : Handler π) (c : ClockId) : Handler π := { x with starts := x.starts.erase c }

/-- Make ready for a new worker, which never inherits an abort. -/
def prepare (x : Handler π) : Handler π :=
  { x with queue := x.queue.resetAbort, stopRequested := false }

/-- Register a new worker. -/
def launch (x : Handler π) : Handler π :=
  { x with worker := some .idle, metrics := x.metrics.recordStart }

def requestStop (x : Handler π) : Handler π :=
  { x with queue := x.queue.abort, stopRequested := true }

/-- A reference to the handler is given up. -/
def release (x : Handler π) : Handler π := { x with handles := x.handles - 1 }

/-- What a stop leaves to the exiting worker: the abort is reset and the queue is cleared. -/
def completeStop (x : Handler π) : Handler π :=
  let x := { x with queue := x.queue.resetAbort }.clear
  { x with metrics := x.metrics.recordStop, stopRequested := false }

/-- The worker unregisters itself, completing a pending stop first. -/
def exit (x : Handler π) : Handler π :=
  let x := if x.stopRequested then x.completeStop else x
  { x with worker := none, exits := x.exits + 1 }

/-- Count a dispatch that came to its end. -/
def recordDispatch (x : Handler π) (body : RecordBody π) (elapsed : Duration) : Handler π :=
  { x with
    metrics := match body with
      | .event _ _ => x.metrics.recordDispatched elapsed
      | .timeout _ _ => x.metrics.recordTimeout elapsed }

def text (x : Handler π) : String :=
  "EventHandler \x7b name: " ++ Text.quoted x.config.name ++ ", types: " ++ x.types.text ++
    s!", pending: {x.pending}, running: {x.isRunning} \x7d"

end Handler
end EventEngine
