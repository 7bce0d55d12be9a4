import EventEngine.Engine.Perform

/-!
# Moves of the threads

Worker and timer threads move one at a time. A worker takes the next record, waits for the dispatch
lock, performs the script action by action, and leaves when it sees an abort or its dispatcher
panics. A timer thread fires the alarms of the batch that it has taken; threads of one clock move
independently.
-/
namespace EventEngine.World

variable {π : Type}

def setWorker (w : World π) (h : HandlerId) (worker : Worker π) : World π :=
  w.modify h ({ · with worker := some worker })

/-- The worker of a handler leaves, completing a pending stop. -/
def leave (w : World π) (h : HandlerId) (x : Handler π) : World π :=
  let left := w.modify h Handler.exit
  if x.stopRequested then
    let left := if x.queue.isEmpty then left else left.note (.cleared h x.queue.events)
    left.note (.stopped h)
  else left

def finishDispatch (w : World π) (h : HandlerId) (x : Handler π) (record : Record π)
    (since : Instant) : World π :=
  let w := w.modify h fun x =>
    { x.recordDispatch record.body (w.now.since since) with worker := some .idle }
  (w.setHolder x.lock none).note (.finished h record)

/-- A dispatcher panics: the lock is given back and the worker leaves. -/
def panicDispatch (w : World π) (h : HandlerId) (x : Handler π) (record : Record π) : World π :=
  let w := (w.setHolder x.lock none).note (.panicked h record)
  match w.find? h with
  | some x => w.leave h x
  | none => w

/-- Perform the first action of the rest of a script on the worker of `h`. -/
def dispatchAction (w : World π) (h : HandlerId) (x : Handler π) (record : Record π)
    (since : Instant) (action : Action π) (rest : List (Action π)) : World π :=
  match (w.setWorker h (.dispatching record since rest none)).perform (.worker h) action with
  | (w, .replied reply) => w.note (.replied h reply)
  | (w, .waits pause) => w.setWorker h (.dispatching record since rest (some pause))
  | (w, .panics) => w.panicDispatch h x record

/-- What a paused dispatch answers once its pause is over. -/
def pauseEnd? (w : World π) : Pause → Option (World π × Reply)
  | .blocked => none
  | .exit h exits destroys =>
    match w.find? h with
    | none => some (w, .destroyed)
    | some x =>
      if x.exits = exits then none
      else if destroys then some (w.concludeDestroy h)
      else some (w, .done)

/-- Go on with a dispatch of `h` after an action that had made it pause. -/
def resume (w : World π) (h : HandlerId) (record : Record π) (since : Instant)
    (script : List (Action π)) (reply : Reply) : World π :=
  (w.setWorker h (.dispatching record since script none)).note (.replied h reply)

/-- One move of the worker of `h`, if it can move. -/
def moveWorker (w : World π) (h : HandlerId) : Option (World π) := do
  let x ← w.find? h
  match ← x.worker with
  | .idle => match x.queue.wait with
    | none => none
    | some (.event record, queue) =>
      some (w.modify h ({ · with queue, worker := some (.holding record) }))
    | some (_, _) => some (w.leave h x)
  | .holding record =>
    if w.canDispatch x.lock then
      let w := w.setHolder x.lock (some (.worker h))
      let w := w.setWorker h (.dispatching record w.now record.body.script none)
      some (w.note (.began h record))
    else none
  | .dispatching record since (action :: rest) none =>
    some (w.dispatchAction h x record since action rest)
  | .dispatching record since [] none => some (w.finishDispatch h x record since)
  | .dispatching record since script (some pause) =>
    (w.pauseEnd? pause).map fun (w, reply) => w.resume h record since script reply

/-- An alarm of a handler fires: its timeout goes to the head of the queue, unless the alarm is not
the one registered. -/
def signalTimeout (w : World π) (h : HandlerId) (alarm : AlarmId) (deadline : Instant) : World π :=
  match w.find? h with
  | none => w
  | some x =>
    if x.timeoutAlarm = some alarm then
      match x.timeout with
      | some setup =>
        w.enqueue h x .head
          (.timeout setup ⟨alarm, deadline, .ofDeadline deadline w.now w.wallStart⟩)
      | none => w
    else w

/-- What the callback of an alarm does at once: that of a handler signals its timeout. -/
def deliver (w : World π) (f : Firing AlarmOwner) : World π :=
  match f.callback with
  | .handler h => w.signalTimeout h f.id f.deadline
  | .other => w

/-- One move of a timer thread of a clock, that of a generation, if it can move. -/
def moveTimer (w : World π) (c : ClockId) (generation : Nat) : Option (World π) := do
  let t ← (w.clock c).thread? w.now generation
  let (clock, firing, notices) := (w.clock c).move w.now t
  let w := w.setClock c clock notices
  match firing with
  | some f => some (w.deliver f)
  | none => some w

/-- One move of the first timer thread of a clock that can move. -/
def moveReady (w : World π) (c : ClockId) : Option (World π) := do
  let t ← (w.clock c).ready w.now
  w.moveTimer c t.generation

/-- The next move where threads move by themselves: timer threads first, in order of their clocks,
then workers. -/
def move? (w : World π) : Option (World π) :=
  ((List.range w.clocks.length).findSome? w.moveReady).or
    ((List.range w.handlers.length).findSome? w.moveWorker)

/-- Let the threads run until none can move, for at most `patience` moves. -/
def settle : (patience : Nat) → World π → World π
  | 0, w => w
  | patience + 1, w => match w.move? with
    | some w => settle patience w
    | none => w

end EventEngine.World
