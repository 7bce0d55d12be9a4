import EventEngine.Diagnostics
import EventEngine.Time.Instant

/-!
# Event queues

Producers append at the tail, or put an event in front at the head. A waiting dequeue takes the head
unless an abort is outstanding; an abort stays set until it is reset, and leaves the events queued.
-/
namespace EventEngine

/-- Pending events, the next one first, and the abort flag. -/
structure Queue (α : Type) where
  events : List α := []
  aborted : Bool := false
  deriving Repr

/-- What a dequeue brought back. -/
inductive WaitResult (α : Type) where
  | event (value : α)
  | failed (error : EventError)
  /-- The end of the wait cannot be represented as an instant. -/
  | overflow
  deriving DecidableEq, Repr

/-- The text of the fault raised when the end of a wait cannot be represented. -/
def overflowMessage : String := "overflow when adding duration to instant"

namespace Queue

variable {α : Type}

def enqueueTail (q : Queue α) (a : α) : Queue α := { q with events := q.events ++ [a] }

/-- Put an event at the head; it is the next one dequeued. -/
def enqueueHead (q : Queue α) (a : α) : Queue α := { q with events := a :: q.events }

def abort (q : Queue α) : Queue α := { q with aborted := true }

/-- Clear a previous abort so that waits block normally again. -/
def resetAbort (q : Queue α) : Queue α := { q with aborted := false }

def clear (q : Queue α) : Queue α := { q with events := [] }

def length (q : Queue α) : Nat := q.events.length

def isEmpty (q : Queue α) : Bool := q.events.isEmpty

/-- Take the head without blocking. An abort makes no difference. -/
def tryDequeue (q : Queue α) : WaitResult α × Queue α :=
  match q.events with
  | [] => (.failed .nonePending, q)
  | a :: rest => (.event a, { q with events := rest })

/-- One look of a wait at the queue: `none` sends it to sleep. An abort takes precedence over
pending events and leaves them queued. -/
def wait (q : Queue α) : Option (WaitResult α × Queue α) :=
  if q.aborted then some (.failed .waitAbort, q)
  else match q.events with
    | [] => none
    | a :: rest => some (.event a, { q with events := rest })

/-- A wait that looks at `q` and then, whenever it is woken, at the next of these queues: `none` if
it sleeps after the last. -/
def waitLoop (q : Queue α) : List (Queue α) → Option (WaitResult α × Queue α)
  | [] => q.wait
  | next :: later => q.wait.or (waitLoop next later)

/-- The error of a wait that saw neither an event nor an abort for the whole of `limit`. -/
def timedOut (limit : Duration) : EventError := .waitError ("no event within " ++ limit.text)

/-- The last look of a bounded wait, once its time is up; a producer may have raced the timeout. -/
def lastLook (q : Queue α) (limit : Duration) : WaitResult α × Queue α :=
  if q.aborted then (.failed .waitAbort, q)
  else match q.events with
    | [] => (.failed (timedOut limit), q)
    | a :: rest => (.event a, { q with events := rest })

/-- How a sleep of a bounded wait ended, and the queue that it found then. -/
inductive Waking (α : Type) where
  | notified (found : Queue α)
  | expired (found : Queue α)

/-- A bounded wait from the top of its loop, with the ends of its sleeps: `none` if it sleeps after
the last. -/
def waitForLoop (limit : Duration) (q : Queue α) (wakings : List (Waking α)) :
    Option (WaitResult α × Queue α) :=
  if q.aborted then some (.failed .waitAbort, q)
  else match q.events, wakings with
    | a :: rest, _ => some (.event a, { q with events := rest })
    | [], [] => none
    | [], .notified found :: later => waitForLoop limit found later
    | [], .expired found :: _ => some (found.lastLook limit)

/-- Wait for at most `limit` from `now`, with nothing arriving meanwhile: the first sleep lasts
until the end of the wait. This end is computed first. -/
def waitFor (q : Queue α) (now : Instant) (limit : Duration) : WaitResult α × Queue α :=
  match now.add? limit with
  | none => (.overflow, q)
  | some _ => match waitForLoop limit q [] with
    | some answer => answer
    | none => q.lastLook limit

def text (q : Queue α) : String :=
  s!"EventQueue \x7b pending: {q.length}, abort: {q.aborted} \x7d"

@[simp] theorem events_enqueueTail (q : Queue α) (a : α) :
    (q.enqueueTail a).events = q.events ++ [a] := rfl

@[simp] theorem events_enqueueHead (q : Queue α) (a : α) :
    (q.enqueueHead a).events = a :: q.events := rfl

@[simp] theorem aborted_enqueueTail (q : Queue α) (a : α) :
    (q.enqueueTail a).aborted = q.aborted := rfl

@[simp] theorem aborted_enqueueHead (q : Queue α) (a : α) :
    (q.enqueueHead a).aborted = q.aborted := rfl

@[simp] theorem events_abort (q : Queue α) : q.abort.events = q.events := rfl

@[simp] theorem events_resetAbort (q : Queue α) : q.resetAbort.events = q.events := rfl

@[simp] theorem events_clear (q : Queue α) : q.clear.events = [] := rfl

/-- The last look is a look that does not sleep. -/
theorem lastLook_eq (q : Queue α) (limit : Duration) :
    q.lastLook limit = q.wait.getD (.failed (timedOut limit), q) := by
  obtain ⟨events, aborted⟩ := q
  cases aborted <;> cases events <;> rfl

/-- Before its first sleep a bounded wait does what an unbounded one does. -/
theorem waitForLoop_nil (limit : Duration) (q : Queue α) : waitForLoop limit q [] = q.wait := by
  obtain ⟨events, aborted⟩ := q
  cases aborted <;> cases events <;> rfl

theorem waitForLoop_notified (limit : Duration) (q found : Queue α) (later : List (Waking α)) :
    waitForLoop limit q (.notified found :: later) =
      q.wait.or (waitForLoop limit found later) := by
  obtain ⟨events, aborted⟩ := q
  cases aborted <;> cases events <;> rfl

theorem waitForLoop_expired (limit : Duration) (q found : Queue α) (later : List (Waking α)) :
    waitForLoop limit q (.expired found :: later) = q.wait.or (some (found.lastLook limit)) := by
  obtain ⟨events, aborted⟩ := q
  cases aborted <;> cases events <;> rfl

/-- A bounded wait during which nothing arrives is one look. -/
theorem waitFor_eq (q : Queue α) (now : Instant) (limit : Duration) :
    q.waitFor now limit = match now.add? limit with
      | none => (.overflow, q)
      | some _ => q.wait.getD (.failed (timedOut limit), q) := by
  unfold waitFor
  cases now.add? limit with
  | none => rfl
  | some deadline =>
    simp only [waitForLoop_nil, lastLook_eq]
    cases q.wait with
    | none => rfl
    | some answer => rfl

end Queue
end EventEngine
