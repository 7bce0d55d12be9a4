import EventEngine.Engine.World

/-!
# Performing actions

An action is answered at once, or makes its thread wait, or panics. A start has two sections: the
handler takes its clock and the clock is started; then the alarm is registered and the worker made.
A stop from another thread requests the stop and waits for the worker's exit; a stop from the
handler's own worker only requests it.
-/
namespace EventEngine

/-- How an action went. -/
inductive Progress where
  | replied (reply : Reply)
  | waits (pause : Pause)
  | panics

namespace World

variable {π : Type}

def startClock (w : World π) (c : ClockId) : World π × Except StartFailure Unit :=
  match (w.clock c).start with
  | .ok (clock, notices) => (w.setClock c clock notices, .ok ())
  | .error e => (w, .error e)

def stopClock (w : World π) (c : ClockId) : World π :=
  let (clock, notices) := (w.clock c).stop
  w.setClock c clock notices

def armTimeout (w : World π) (h : HandlerId) (x : Handler π) (c : ClockId) : World π :=
  match x.timeout with
  | none => w
  | some setup =>
    let (clock, id, notices) := (w.clock c).addPeriodic w.now (.handler h) setup.interval
    (w.setClock c clock notices).modify h ({ · with timeoutAlarm := some id })

/-- Remove the alarm that a handler has registered from a clock. -/
def disarmTimeout (w : World π) (h : HandlerId) (x : Handler π) (c : Option ClockId) : World π :=
  match x.timeoutAlarm with
  | none => w
  | some id =>
    let w := w.modify h ({ · with timeoutAlarm := none })
    match c with
    | none => w
    | some c =>
      let (clock, _, notices) := (w.clock c).remove id
      w.setClock c clock notices

/-- Make a worker for a handler that has none, or take its alarm back. A panic leaves the alarm. -/
def spawnWorker (w : World π) (h : HandlerId) (c : ClockId) : World π × Except StartFailure Unit :=
  match w.find? h with
  | none => (w, .ok ())
  | some x => match x.spawnFault with
    | none => ((w.modify h Handler.launch).note (.started h), .ok ())
    | some (.failed e) =>
      ((w.disarmTimeout h x (some c)).note (.spawnFailed h), .error (.failed e))
    | some (.crashed message) => (w.note (.spawnPanicked h), .error (.crashed message))

/-- The first section of a start: the handler takes its clock, which is started, and stays so. -/
def beginStart (w : World π) (h : HandlerId) (x : Handler π) :
    World π × Except StartFailure ClockId :=
  let c := x.clock.getD sharedClock
  match (w.modify h Handler.adopt).startClock c with
  | (w, .error e) => (w, .error e)
  | (w, .ok _) => (w, .ok c)

/-- The second section of a start on clock `c`: a handler without a worker gets one. -/
def endStart (w : World π) (h : HandlerId) (c : ClockId) : World π × Except StartFailure Unit :=
  match w.find? h with
  | none => (w, .ok ())
  | some x =>
    if x.isRunning then (w, .ok ())
    else ((w.modify h Handler.prepare).armTimeout h x c).spawnWorker h c

/-- Start a handler's worker unless it has one. -/
def start (w : World π) (h : HandlerId) (x : Handler π) : World π × Except StartFailure Unit :=
  match w.beginStart h x with
  | (w, .error e) => (w, .error e)
  | (w, .ok c) => w.endStart h c

/-- Ask a handler's worker to stop, and remove its alarm first. Yields what the caller waits for:
nothing without a worker, or on the worker itself. -/
def requestStop (w : World π) (who : Caller) (h : HandlerId) (x : Handler π) (destroys : Bool) :
    World π × Option Pause :=
  if x.isRunning then
    let w := ((w.disarmTimeout h x x.clock).modify h Handler.requestStop).note (.abortRequested h)
    if who = .worker h then (w.note (.stopRequestedByItself h), none)
    else (w, some (.exit h x.exits destroys))
  else (w, none)

/-- The panic of destroying a handler that still has a worker. -/
def liveWorkerMessage (x : Handler π) : String :=
  s!"event handler {x.config.name} destroyed with a live worker"

/-- Release a handler after it has been stopped, with the reference that was used. The handler must
not have a worker. -/
def concludeDestroy (w : World π) (h : HandlerId) : World π × Reply :=
  match w.find? h with
  | none => (w, .destroyed)
  | some x =>
    if x.isRunning then (w, .crashed (liveWorkerMessage x))
    else ((w.modify h Handler.release).note (.destroyed h), .done)

def enqueue (w : World π) (h : HandlerId) (x : Handler π) (place : Place) (body : RecordBody π) :
    World π :=
  (w.modify h (·.enqueue place body)).note (.enqueued h place (x.nextRecord body))

/-- Signal an event: its type has to be registered. -/
def signal (w : World π) (h : HandlerId) (x : Handler π) (place : Place) (e : Event π) :
    World π × Except EventError Unit :=
  match x.types.resolve e.typeName with
  | .ok registration => (w.enqueue h x place (.event registration e), .ok ())
  | .error error => (w.note (.refused h error), .error error)

def clear (w : World π) (h : HandlerId) (x : Handler π) : World π :=
  if x.queue.isEmpty then w else (w.modify h Handler.clear).note (.cleared h x.queue.events)

def replyOf (result : Except EventError Unit) : Progress :=
  match result with
  | .ok _ => .replied .done
  | .error e => .replied (.failed e)

def startReply (result : Except StartFailure Unit) : Reply :=
  match result with
  | .ok _ => .done
  | .error (.failed e) => .failed e
  | .error (.crashed message) => .crashed message

def threadName (w : World π) (who : Caller) : String :=
  match who with
  | .outside => "main"
  | .worker h => threadNameOf (w.nameOf h)

/-- Do something with a handler, if there is still a reference to it. -/
def withHandler (w : World π) (h : HandlerId) (f : Handler π → World π × Progress) :
    World π × Progress :=
  match w.find? h with
  | some x => f x
  | none => (w, .replied .destroyed)

def perform (w : World π) (who : Caller) : Action π → World π × Progress
  | .start h => w.withHandler h fun x => (w.start h x).map id (.replied ∘ startReply)
  | .stop h => w.withHandler h fun x => match w.requestStop who h x false with
    | (w, some pause) => (w, .waits pause)
    | (w, none) => (w, .replied .done)
  | .destroy h => w.withHandler h fun x => match w.requestStop who h x true with
    | (w, some pause) => (w, .waits pause)
    | (w, none) => (w.concludeDestroy h).map id .replied
  | .signal h place typeName payload script => w.withHandler h fun x =>
    (w.signal h x place ⟨typeName, payload, script⟩).map id replyOf
  | .clear h => w.withHandler h fun x => (w.clear h x, .replied (.count x.pending))
  | .isRunning h => w.withHandler h fun x => (w, .replied (.flag x.isRunning))
  | .isCurrent h => w.withHandler h fun x =>
    (w, .replied (.flag (x.isRunning && who = .worker h)))
  | .pending h => w.withHandler h fun x => (w, .replied (.count x.pending))
  | .name h => w.withHandler h fun x => (w, .replied (.text x.config.name))
  | .setTimeout h interval context script => w.withHandler h fun _ =>
    ((w.modify h ({ · with timeout := some ⟨interval, context, script⟩ })).note
      (.timeoutConfigured h interval), .replied .done)
  | .setClock h c => w.withHandler h fun _ =>
    (w.modify h ({ · with clock := some c }), .replied .done)
  | .describe h => w.withHandler h fun x => (w, .replied (.text x.text))
  | .types h => w.withHandler h fun x =>
    (w, .replied (.types x.types.names x.types.length x.types.isEmpty))
  | .containsType h typeName => w.withHandler h fun x =>
    (w, .replied (.flag (x.types.contains typeName)))
  | .advance d => (w.advance d, .replied .done)
  | .threadName => (w, .replied (.text (w.threadName who)))
  | .isLockFree lock => (w, .replied (.flag (w.holder lock).isNone))
  | .block => (w, .waits .blocked)
  | .panic => (w, .panics)

end World
end EventEngine
