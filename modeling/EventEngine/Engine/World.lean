import EventEngine.Alarm.Clock
import EventEngine.Event.Handler

/-!
# Worlds

A world holds the time, the clocks, the dispatch locks and the handlers, and the history of what has
happened. Log lines and dispatch journals are read off the history.

A step is what one thread does between two releases of a lock; what lies below that is left out, and
so is the time that it takes, since time passes by steps of its own. A dispatcher is the script of
its calls; the data that it works on are the payload of the event, of any type. Nobody waits for the
timer thread of a stopped clock, which may go on with its batch at any later time.
-/
namespace EventEngine

inductive AlarmOwner where
  /-- The start of a handler: the alarm signals its timeout. -/
  | handler (h : HandlerId)
  /-- Anyone else. What the callback does to clocks and handlers, and its panic, are steps of their
  own, taken while its thread has not gone on with its batch. -/
  | other
  deriving DecidableEq, Repr

/-- A thread that acts. -/
inductive Caller where
  | outside
  | worker (h : HandlerId)
  deriving DecidableEq, Repr

/-- Something that happened. -/
inductive Occurrence (π : Type) where
  | clock (c : ClockId) (notice : ClockNotice)
  | timeoutConfigured (h : HandlerId) (interval : Duration)
  | started (h : HandlerId)
  | spawnFailed (h : HandlerId)
  /-- Making the worker panicked. -/
  | spawnPanicked (h : HandlerId)
  | refused (h : HandlerId) (error : EventError)
  | enqueued (h : HandlerId) (place : Place) (record : Record π)
  /-- The dispatch of a record begins. -/
  | began (h : HandlerId) (record : Record π)
  /-- An action of the dispatch in progress has been answered. -/
  | replied (h : HandlerId) (reply : Reply)
  /-- The dispatch of a record came to its end. -/
  | finished (h : HandlerId) (record : Record π)
  /-- The dispatch of a record ended by a panic. -/
  | panicked (h : HandlerId) (record : Record π)
  /-- Records were discarded. -/
  | cleared (h : HandlerId) (records : List (Record π))
  | abortRequested (h : HandlerId)
  | stopRequestedByItself (h : HandlerId)
  | stopped (h : HandlerId)
  | destroyed (h : HandlerId)

def Occurrence.logLine {π : Type} (nameOf : HandlerId → String) : Occurrence π → Option LogLine
  | clock _ notice => notice.logLine
  | timeoutConfigured h interval => say .debug h s!"timeout every {interval.text}"
  | started h => some ⟨.info, s!"Event handler {nameOf h} started"⟩
  | spawnFailed h => say .error h s!"worker spawn failed: {spawnFailure}"
  | spawnPanicked _ => none
  | refused h e => say .error h e.message
  | enqueued _ _ _ => none
  | began h record => say .trace h s!"dispatching {record.body.typeName}"
  | replied _ _ => none
  | finished _ _ => none
  | panicked h _ => say .error h "dispatcher panicked"
  | cleared h records => say .debug h s!"cleared {records.length} events"
  | abortRequested _ => some ⟨.trace, "Event queue abort requested"⟩
  | stopRequestedByItself h =>
    say .warn h "stop requested from its own worker; exiting after this event"
  | stopped h => some ⟨.info, s!"Event handler {nameOf h} stopped"⟩
  | destroyed h => some ⟨.debug, s!"Event handler {nameOf h} destroyed"⟩
where
  /-- A message about one handler. -/
  say (level : Level) (h : HandlerId) (what : String) : Option LogLine :=
    some ⟨level, s!"Event handler {nameOf h}: {what}"⟩

/-- The state of everything. -/
structure World (π : Type) where
  now : Instant := .start
  /-- The wall time at instant zero. -/
  wallStart : WallTime := .atStart
  clocks : List (Clock AlarmOwner) := [{}]
  /-- Who holds each dispatch lock. -/
  locks : List (Option Caller) := []
  handlers : List (Handler π) := []
  /-- What has happened, the latest first. -/
  history : List (Occurrence π) := []

namespace World

variable {π : Type}

def note (w : World π) (o : Occurrence π) : World π := { w with history := o :: w.history }

/-- A handler to which there is still a reference. -/
def find? (w : World π) (h : HandlerId) : Option (Handler π) :=
  (w.handlers[h]?).filter (!·.isDestroyed)

def modify (w : World π) (h : HandlerId) (f : Handler π → Handler π) : World π :=
  { w with handlers := w.handlers.modify h f }

def nameOf (w : World π) (h : HandlerId) : String :=
  match w.handlers[h]? with
  | some x => x.config.name
  | none => ""

def advance (w : World π) (d : Duration) : World π := { w with now := w.now.advance d }

def clock (w : World π) (c : ClockId) : Clock AlarmOwner := w.clocks.getD c {}

/-- Replace a clock, and note what happened on it. -/
def setClock (w : World π) (c : ClockId) (clock : Clock AlarmOwner)
    (notices : List ClockNotice) : World π :=
  { w with
    clocks := w.clocks.set c clock
    history := (notices.map (.clock c)).reverse ++ w.history }

def holder (w : World π) (lock : LockId) : Option Caller := w.locks.getD lock none

/-- Whether a handler with this dispatch lock, or none, could dispatch. -/
def canDispatch (w : World π) (lock : Option LockId) : Bool :=
  match lock with
  | some l => (w.holder l).isNone
  | none => true

/-- Give a lock to a thread, or give it back. -/
def setHolder (w : World π) (lock : Option LockId) (who : Option Caller) : World π :=
  match lock with
  | some l => { w with locks := w.locks.set l who }
  | none => w

section Views

variable (w : World π) (o : Occurrence π) (h : HandlerId) (f : Handler π → Handler π) (c : ClockId)
  (k : Clock AlarmOwner) (notices : List ClockNotice) (lock : Option LockId) (who : Option Caller)

@[simp] theorem handlers_note : (w.note o).handlers = w.handlers := rfl
@[simp] theorem history_note : (w.note o).history = o :: w.history := rfl
@[simp] theorem find?_note : (w.note o).find? = w.find? := rfl
@[simp] theorem clock_note : (w.note o).clock = w.clock := rfl
@[simp] theorem locks_note : (w.note o).locks = w.locks := rfl

@[simp] theorem clocks_modify : (w.modify h f).clocks = w.clocks := rfl
@[simp] theorem history_modify : (w.modify h f).history = w.history := rfl
@[simp] theorem clock_modify : (w.modify h f).clock = w.clock := rfl
@[simp] theorem locks_modify : (w.modify h f).locks = w.locks := rfl

@[simp] theorem handlers_setClock : (w.setClock c k notices).handlers = w.handlers := rfl
@[simp] theorem locks_setClock : (w.setClock c k notices).locks = w.locks := rfl
@[simp] theorem clocks_setClock : (w.setClock c k notices).clocks = w.clocks.set c k := rfl

@[simp] theorem handlers_setHolder : (w.setHolder lock who).handlers = w.handlers := by
  cases lock <;> rfl
@[simp] theorem clocks_setHolder : (w.setHolder lock who).clocks = w.clocks := by
  cases lock <;> rfl
@[simp] theorem now_setHolder : (w.setHolder lock who).now = w.now := by
  cases lock <;> rfl
@[simp] theorem history_setHolder : (w.setHolder lock who).history = w.history := by
  cases lock <;> rfl
@[simp] theorem find?_setHolder : (w.setHolder lock who).find? = w.find? := by
  cases lock <;> rfl

@[simp] theorem handlers_modify (g : HandlerId) :
    (w.modify h f).handlers[g]? = if h = g then (w.handlers[g]?).map f else w.handlers[g]? := by
  simp only [modify, List.getElem?_modify]
  split <;> cases w.handlers[g]? <;> rfl

/-- Of a clock that does not exist nothing is kept. -/
theorem clock_setClock (c' : ClockId) :
    (w.setClock c k notices).clock c' =
      if c = c' ∧ c < w.clocks.length then k else w.clock c' := by
  simp only [clock, clocks_setClock, List.getD_eq_getElem?_getD, List.getElem?_set]
  grind

theorem find?_eq_some {w : World π} {h : HandlerId} {x : Handler π} :
    w.find? h = some x ↔ w.handlers[h]? = some x ∧ x.isDestroyed = false := by
  simp [find?, Option.filter_eq_some_iff]

end Views

/-- The log lines of the history, the latest first. -/
def logLines (w : World π) : List LogLine := w.history.filterMap (Occurrence.logLine w.nameOf)

end World
end EventEngine
