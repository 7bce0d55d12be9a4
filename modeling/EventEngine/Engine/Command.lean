import EventEngine.Engine.Moves

/-!
# Commands from outside

Commands are carried out one after another on a thread outside all handlers. After each, the threads
run until none can move. A stop that could not end is not begun.
-/
namespace EventEngine

/-- What is asked from outside. -/
inductive Command (π : Type) where
  | act (action : Action π)
  /-- Several actions, without letting the threads run in between. -/
  | batch (actions : List (Action π))
  | lock (l : LockId)
  | unlock (l : LockId)
  /-- Let a blocked dispatch continue. -/
  | release (h : HandlerId)
  /-- Another thread stops the handler; its waiting is not waited for. -/
  | stopAsync (h : HandlerId)
  | startClock (c : ClockId)
  | stopClock (c : ClockId)

namespace World

variable {π : Type}

/-- Whether some dispatch that holds the lock is blocked. -/
def isHeldByBlocked (w : World π) (l : LockId) : Bool :=
  w.handlers.any fun x => x.lock = some l && (x.worker.map Worker.isBlocked).getD false

/-- Whether a handler has records to dispatch and cannot get its dispatch lock. -/
def isStarved (w : World π) (x : Handler π) : Bool :=
  (!x.queue.isEmpty || x.held.isSome) &&
    match x.lock with
    | some l => w.holder l = some .outside || w.isHeldByBlocked l
    | none => false

/-- Whether a stop from outside would wait for something that only the outside can bring about. -/
def stopWouldBlock (w : World π) (h : HandlerId) : Bool :=
  match w.find? h with
  | none => false
  | some x => match x.worker with
    | none => false
    | some worker => worker.isBlocked || w.isStarved x

/-- The handler that an action would stop. -/
def stopTarget? : Action π → Option HandlerId
  | .stop h => some h
  | .destroy h => some h
  | _ => none

/-- Perform an action outside and wait for it to end. -/
def call (patience : Nat) (w : World π) (action : Action π) : World π × Reply :=
  match w.perform .outside action with
  | (w, .replied reply) => (w, reply)
  | (w, .panics) => (w, .done)
  | (w, .waits pause) =>
    let w := w.settle patience
    (w.pauseEnd? pause).getD (w, .wouldBlock)

def callAll (patience : Nat) (w : World π) : List (Action π) → World π × List Reply
  | [] => (w, [])
  | action :: rest =>
    let (w, reply) := w.call patience action
    let (w, replies) := w.callAll patience rest
    (w, reply :: replies)

/-- Let a blocked dispatch of a handler continue. -/
def release (w : World π) (h : HandlerId) : World π × Reply :=
  match (w.find? h).bind (·.worker) with
  | some (.dispatching record since script (some .blocked)) =>
    (w.resume h record since script .released, .done)
  | _ => (w, .notBlocked)

/-- Carry out a command, without letting the threads run afterwards. -/
def carryOut (patience : Nat) (w : World π) : Command π → World π × Reply
  | .act action =>
    if ((stopTarget? action).map w.stopWouldBlock).getD false then (w, .wouldBlock)
    else w.call patience action
  | .batch actions => (w.callAll patience actions).map id .all
  | .lock l =>
    if (w.holder l).isSome then (w, .wouldBlock)
    else (w.setHolder (some l) (some .outside), .done)
  | .unlock l =>
    if w.holder l = some .outside then (w.setHolder (some l) none, .done) else (w, .notHeld)
  | .release h => w.release h
  | .stopAsync h => match w.perform .outside (.stop h) with
    | (w, .replied reply) => (w, reply)
    | (w, _) => (w, .done)
  | .startClock c => match w.startClock c with
    | (w, .ok _) => (w, .done)
    | (w, .error e) => (w, startReply (.error e))
  | .stopClock c => (w.stopClock c, .done)

/-- Carry out a command, and let the threads run until none can move. -/
def step (patience : Nat) (w : World π) (command : Command π) : World π × Reply :=
  let (w, reply) := w.carryOut patience command
  (w.settle patience, reply)

end World
end EventEngine
