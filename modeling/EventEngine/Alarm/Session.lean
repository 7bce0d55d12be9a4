import EventEngine.Alarm.Clock

/-!
# A clock with scripted callbacks

A session drives one clock from outside, and its alarms run scripts that act on the same clock from
the timer thread. A script may add and remove alarms, start and stop the clock, or panic; a panic
ends the thread and loses the rest of its batch.
-/
namespace EventEngine

/-- What is done to the clock, from outside or by a callback. Alarms are called by labels: a label
names the last alarm added under it. -/
inductive ClockAction where
  | add (label : String) (deadline : Instant) (script : List ClockAction)
  | addPeriodic (label : String) (period : Duration) (script : List ClockAction)
  | remove (label : String)
  | count
  | next
  | running
  | start
  | stop
  | describe
  /-- Compare the ids of two labels. -/
  | compare (label other : String)
  /-- Only in a script: the callback does not return. -/
  | panic

/-- What an action answers. -/
inductive ClockReply where
  | done
  | failed (error : EventError)
  | added (id : AlarmId)
  | flag (b : Bool)
  | count (n : Nat)
  | deadline (t : Option Instant)
  | text (s : String)
  | noSuchLabel
  deriving DecidableEq, Repr

/-- An alarm's callback: the label that it was added under, and its script. -/
structure ScriptedCallback where
  label : String
  script : List ClockAction

/-- One firing, with what its script answered. -/
structure FiringReport where
  label : String
  id : AlarmId
  deadline : Instant
  replies : List ClockReply
  deriving DecidableEq, Repr

/-- A clock, the time, and what has happened so far, the latest first. -/
structure ClockSession where
  now : Instant := .start
  clock : Clock ScriptedCallback := {}
  labels : List (String × AlarmId) := []
  notices : List ClockNotice := []
  fired : List FiringReport := []

def AlarmId.compareText (a b : AlarmId) : String :=
  let order := if a < b then "Less" else if a = b then "Equal" else "Greater"
  s!"AlarmId({a}) {order} AlarmId({b})"

namespace ClockSession

/-- The last alarm added under a label. -/
def find? (s : ClockSession) (label : String) : Option AlarmId := s.labels.lookup label

def withClock (s : ClockSession) (clock : Clock ScriptedCallback) (notices : List ClockNotice) :
    ClockSession :=
  { s with clock, notices := notices.reverse ++ s.notices }

/-- Note an alarm that was added under a label. -/
def labelled (s : ClockSession) (label : String)
    (added : Clock ScriptedCallback × AlarmId × List ClockNotice) : ClockSession × ClockReply :=
  let (clock, id, notices) := added
  ({ s.withClock clock notices with labels := (label, id) :: s.labels }, .added id)

/-- Perform an action; no reply means that it panicked. -/
def perform (s : ClockSession) : ClockAction → ClockSession × Option ClockReply
  | .add label deadline script =>
    (s.labelled label (s.clock.addOnce ⟨label, script⟩ deadline)).map id some
  | .addPeriodic label period script =>
    (s.labelled label (s.clock.addPeriodic s.now ⟨label, script⟩ period)).map id some
  | .remove label => match s.find? label with
    | some id =>
      let (clock, removed, notices) := s.clock.remove id
      (s.withClock clock notices, some (.flag removed))
    | none => (s, some .noSuchLabel)
  | .count => (s, some (.count s.clock.alarmCount))
  | .next => (s, some (.deadline s.clock.nextDeadline))
  | .running => (s, some (.flag s.clock.isRunning))
  | .start => match s.clock.start with
    | .ok (clock, notices) => (s.withClock clock notices, some .done)
    | .error (.failed e) => (s, some (.failed e))
    | .error (.crashed _) => (s, none)
  | .stop =>
    let (clock, notices) := s.clock.stop
    (s.withClock clock notices, some .done)
  | .describe => (s, some (.text s.clock.text))
  | .compare label other => match s.find? label, s.find? other with
    | some a, some b => (s, some (.text (AlarmId.compareText a b)))
    | _, _ => (s, some .noSuchLabel)
  | .panic => (s, none)

/-- Perform a script up to its end or to a panic. Yields the replies, and whether it panicked. -/
def performAll (s : ClockSession) : List ClockAction → ClockSession × List ClockReply × Bool
  | [] => (s, [], false)
  | a :: rest => match s.perform a with
    | (s, none) => (s, [], true)
    | (s, some reply) =>
      let (s, replies, panicked) := s.performAll rest
      (s, reply :: replies, panicked)

/-- Run the callback of a firing on the thread of a generation. -/
def fire (s : ClockSession) (generation : Nat) (f : Firing ScriptedCallback) : ClockSession :=
  let (s, replies, panicked) := s.performAll f.callback.script
  let s := { s with fired := ⟨f.callback.label, f.id, f.deadline, replies⟩ :: s.fired }
  if panicked then { s with clock := s.clock.dropTimer generation } else s

/-- One move of a timer thread, if one can move. -/
def tick? (s : ClockSession) : Option ClockSession :=
  (s.clock.ready s.now).map fun t =>
    let (clock, firing, notices) := s.clock.move s.now t
    let s := s.withClock clock notices
    match firing with
    | some f => s.fire t.generation f
    | none => s

/-- Let the timer threads run until none can move, for at most `patience` moves. -/
def settle : (patience : Nat) → ClockSession → ClockSession
  | 0, s => s
  | patience + 1, s => match s.tick? with
    | some s => settle patience s
    | none => s

/-- What is done from outside. -/
inductive Step where
  | act (a : ClockAction)
  /-- Move the clock in one jump. -/
  | advance (d : Duration)

/-- A step, without letting the timer threads run. -/
def begin (s : ClockSession) : Step → ClockSession × ClockReply
  | .act a => (s.perform a).map id (·.getD .done)
  | .advance d => ({ s with now := s.now.advance d }, .done)

/-- A step, after which the timer threads run until none can move. -/
def step (patience : Nat) (s : ClockSession) (what : Step) : ClockSession × ClockReply :=
  let (s, reply) := s.begin what
  (s.settle patience, reply)

end ClockSession
end EventEngine
