import EventEngine.Alarm.Schedule
import EventEngine.Config.Events

/-!
# Alarm clocks

A clock keeps a schedule and has at most one timer thread that serves it. The thread sleeps until
the earliest deadline; an alarm that becomes the earliest, a removal and a stop wake it. A stop
begins a new generation: threads of an older one finish the batch that they have taken, and end.
-/
namespace EventEngine

/-- What a timer thread is doing. -/
inductive TimerPhase (α : Type) where
  /-- Asleep until the instant, or for good. -/
  | asleep (wakeAt : Option Instant)
  /-- Awake, with the rest of the batch it has taken. -/
  | awake (batch : List (Firing α))
  deriving Repr

/-- A timer thread, with the generation that it belongs to: the number of stops before its start, a
counter of 64 bits. -/
structure Timer (α : Type) where
  generation : Nat
  phase : TimerPhase α
  deriving Repr

/-- A schedule with the threads that serve it. -/
structure Clock (α : Type) where
  config : ClockConfig := {}
  /-- The stack sizes with which the platform makes threads. -/
  canSpawn : Nat → Bool := fitsAddressSpace
  alarms : Schedule α := []
  nextId : AlarmId := 1
  generation : Nat := 0
  /-- Whether a thread is registered; it may have died. -/
  isRunning : Bool := false
  timers : List (Timer α) := []

/-- What happens on a clock. -/
inductive ClockNotice where
  | started (threadName : String)
  | stopped (threadName : String)
  | added (id : AlarmId) (deadline : Instant) (period : Option Duration)
  | removed (id : AlarmId)
  /-- A batch was taken at an instant: the ids with the deadlines that they had. -/
  | taken (now : Instant) (batch : List (AlarmId × Instant))
  | skipped (id : AlarmId) (count : UInt32)
  | fired (id : AlarmId)
  deriving DecidableEq, Repr

def ClockNotice.logLine : ClockNotice → Option LogLine
  | started name => some ⟨.info, s!"Alarm clock started ({name})"⟩
  | stopped name => some ⟨.info, s!"Alarm clock stopped ({name})"⟩
  | added id _ period =>
    some ⟨.debug, s!"Alarm {id.text} added (period: {Duration.optionText period})"⟩
  | removed id => some ⟨.debug, s!"Alarm {id.text} removed"⟩
  | taken _ _ => none
  | skipped id count => some ⟨.debug, s!"Alarm {id.text} skipped {count.toNat} missed periods"⟩
  | fired id => some ⟨.trace, s!"Alarm {id.text} fired"⟩

namespace TimerPhase

variable {α : Type}

def wake : TimerPhase α → TimerPhase α
  | asleep _ => awake []
  | awake batch => awake batch

def isAsleep : TimerPhase α → Bool
  | asleep _ => true
  | awake _ => false

end TimerPhase

namespace Clock

variable {α : Type}

def wakeOne : List (Timer α) → List (Timer α)
  | [] => []
  | t :: rest =>
    if t.phase.isAsleep then { t with phase := t.phase.wake } :: rest else t :: wakeOne rest

def wakeAll (timers : List (Timer α)) : List (Timer α) :=
  timers.map fun t => { t with phase := t.phase.wake }

def alarmCount (c : Clock α) : Nat := c.alarms.length

def nextDeadline (c : Clock α) : Option Instant := c.alarms.nextDeadline

/-- What is in the way of making a timer thread. -/
def spawnFault (c : Clock α) : Option StartFailure :=
  threadFault c.canSpawn c.config.workerName c.config.stackSize "alarm clock"

def start (c : Clock α) : Except StartFailure (Clock α × List ClockNotice) :=
  if c.isRunning then .ok (c, [])
  else match c.spawnFault with
    | none =>
      .ok ({ c with isRunning := true, timers := c.timers ++ [⟨c.generation, .awake []⟩] },
        [.started c.config.threadName])
    | some failure => .error failure

/-- Stop the timer thread. Alarms are kept and resume firing on the next start. -/
def stop (c : Clock α) : Clock α × List ClockNotice :=
  if c.isRunning then
    ({ c with isRunning := false, generation := c.generation + 1, timers := wakeAll c.timers },
      [.stopped c.config.threadName])
  else (c, [])

/-- Issue an id and schedule an alarm under it. -/
def add (c : Clock α) (callback : α) (deadline : Instant) (period : Option Duration) :
    Clock α × AlarmId × List ClockNotice :=
  let alarm : Alarm α := ⟨c.nextId, deadline, period, callback⟩
  ({ c with
      alarms := c.alarms.insert alarm
      nextId := c.nextId + 1
      timers := if c.alarms.comesFirst alarm then wakeOne c.timers else c.timers },
    c.nextId, [.added c.nextId deadline period])

def addOnce (c : Clock α) (callback : α) (deadline : Instant) :
    Clock α × AlarmId × List ClockNotice :=
  c.add callback deadline none

/-- Schedule a periodic alarm, first due one period from now. -/
def addPeriodic (c : Clock α) (now : Instant) (callback : α) (period : Duration) :
    Clock α × AlarmId × List ClockNotice :=
  let period := Alarm.clampPeriod period
  c.add callback (now.deadlineAfter period) (some period)

/-- Remove an alarm; false if it was already gone. -/
def remove (c : Clock α) (id : AlarmId) : Clock α × Bool × List ClockNotice :=
  if c.alarms.hasId id then
    ({ c with alarms := c.alarms.remove id, timers := wakeOne c.timers }, true, [.removed id])
  else (c, false, [])

/-- Take the alarms that are due. -/
def take (c : Clock α) (now : Instant) : Clock α × List (Firing α) × List ClockNotice :=
  let due := c.alarms.due now
  ({ c with alarms := c.alarms.afterTaking now }, due.map Alarm.firing,
    .taken now (due.map fun a => (a.id, a.deadline)) ::
      (c.alarms.misses now).map fun m => .skipped m.1 m.2)

def setPhase (c : Clock α) (generation : Nat) (phase : TimerPhase α) : Clock α :=
  { c with
    timers := c.timers.map fun t => if t.generation = generation then { t with phase } else t }

/-- The thread of a generation ends. -/
def dropTimer (c : Clock α) (generation : Nat) : Clock α :=
  { c with timers := c.timers.filter (·.generation != generation) }

def Timer.canMove (now : Instant) (t : Timer α) : Bool :=
  match t.phase with
  | .asleep (some wakeAt) => wakeAt ≤ now
  | .asleep none => false
  | .awake _ => true

/-- One move of a timer thread: it wakes up, fires the next alarm of its batch, takes a batch, goes
to sleep, or ends because its generation is over. Yields the alarm to be fired, if any. -/
def move (c : Clock α) (now : Instant) (t : Timer α) :
    Clock α × Option (Firing α) × List ClockNotice :=
  match t.phase with
  | .asleep _ => (c.setPhase t.generation (.awake []), none, [])
  | .awake (firing :: rest) =>
    (c.setPhase t.generation (.awake rest), some firing, [.fired firing.id])
  | .awake [] =>
    if t.generation = c.generation then
      match c.take now with
      | (_, [], _) => (c.setPhase t.generation (.asleep c.nextDeadline), none, [])
      | (taken, batch, notices) => (taken.setPhase t.generation (.awake batch), none, notices)
    else (c.dropTimer t.generation, none, [])

/-- The thread of a generation, if it can move. -/
def thread? (c : Clock α) (now : Instant) (generation : Nat) : Option (Timer α) :=
  c.timers.find? fun t => t.generation = generation && Timer.canMove now t

/-- The first thread that can move. -/
def ready (c : Clock α) (now : Instant) : Option (Timer α) :=
  c.timers.find? (Timer.canMove now)

def text (c : Clock α) : String :=
  "AlarmClock \x7b thread_name: " ++ Text.quoted c.config.threadName ++
    s!", alarms: {c.alarmCount}, running: {c.isRunning} \x7d"

end Clock
end EventEngine
