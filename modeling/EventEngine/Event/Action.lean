import EventEngine.Alarm.Schedule
import EventEngine.Event.Types

/-!
# Events, timeouts and what their dispatchers do

A dispatcher runs a script of actions on its handler's worker thread. Handlers, clocks and locks are
called by number. An event carries a payload that the engine only passes on.
-/
namespace EventEngine

/-- Handlers are numbered in order of creation. -/
abbrev HandlerId := Nat

/-- Clocks are numbered in order of creation; clock 0 is shared by all handlers without their own.
-/
abbrev ClockId := Nat

/-- The clock of handlers that have none of their own. -/
def sharedClock : ClockId := 0

/-- Dispatch locks are numbered. -/
abbrev LockId := Nat

/-- Where a record joins a queue. -/
inductive Place where
  | tail
  | head
  deriving DecidableEq, Repr

/-- What a dispatcher, or a thread outside, does. -/
inductive Action (π : Type) where
  | start (h : HandlerId)
  | stop (h : HandlerId)
  | destroy (h : HandlerId)
  /-- Signal an event of a type, with a payload and the script that its dispatcher will run. -/
  | signal (h : HandlerId) (place : Place) (typeName : String) (payload : π)
      (script : List (Action π))
  | clear (h : HandlerId)
  | isRunning (h : HandlerId)
  /-- Whether the action runs on the worker thread of `h`. -/
  | isCurrent (h : HandlerId)
  | pending (h : HandlerId)
  | name (h : HandlerId)
  /-- Configure the periodic timeout: its interval, its context and its dispatcher's script. -/
  | setTimeout (h : HandlerId) (interval : Duration) (context : π) (script : List (Action π))
  | setClock (h : HandlerId) (c : ClockId)
  | describe (h : HandlerId)
  | types (h : HandlerId)
  | containsType (h : HandlerId) (typeName : String)
  /-- Let time pass. -/
  | advance (d : Duration)
  | threadName
  | isLockFree (lock : LockId)
  /-- Only in a script: wait until released. -/
  | block
  /-- Only in a script: the dispatcher does not return. -/
  | panic

inductive Reply where
  | done
  | failed (error : EventError)
  /-- The action panicked, and the panic was caught. -/
  | crashed (message : String)
  | count (n : Nat)
  | flag (b : Bool)
  | text (s : String)
  | types (names : List String) (length : Nat) (isEmpty : Bool)
  | released
  /-- The handler has been destroyed. -/
  | destroyed
  /-- The request is not carried out, since it would not end. -/
  | wouldBlock
  | notHeld
  | notBlocked
  | all (replies : List Reply)

/-- An event: its type's name, its payload, and the script of its dispatch. -/
structure Event (π : Type) where
  typeName : String
  payload : π
  script : List (Action π)

structure TimeoutSetup (π : Type) where
  interval : Duration
  context : π
  script : List (Action π)

/-- A timeout that came due: the alarm that fired, the deadline that it had, and the wall time of
that deadline. -/
structure TimeoutEvent where
  alarm : AlarmId
  deadline : Instant
  expiration : WallTime
  deriving DecidableEq, Repr

/-- What is queued: an event with the registration that will process it, or a timeout with the
configuration in force when its alarm fired. -/
inductive RecordBody (π : Type) where
  | event (registration : Registration) (event : Event π)
  | timeout (setup : TimeoutSetup π) (event : TimeoutEvent)

/-- A queued record. Each handler numbers its records in the order in which they are queued. -/
structure Record (π : Type) where
  serial : Nat
  body : RecordBody π

namespace RecordBody

variable {π : Type}

def script : RecordBody π → List (Action π)
  | event _ e => e.script
  | timeout setup _ => setup.script

def typeName : RecordBody π → String
  | event registration _ => registration.name
  | timeout _ _ => timeoutTypeName

end RecordBody
end EventEngine
