import EventEngine.Time.Instant

/-!
# Handler metrics

A handler counts what passes through it in words of 64 bits, which wrap around.
-/
namespace EventEngine

/-- The counters of one handler. -/
structure Metrics where
  /-- Events appended at the tail. -/
  enqueued : UInt64 := 0
  /-- Events put at the head, timeouts included. -/
  enqueuedOob : UInt64 := 0
  /-- Events handed to a registered dispatcher. -/
  dispatched : UInt64 := 0
  /-- Timeouts handed to the timeout dispatcher. -/
  timeouts : UInt64 := 0
  /-- Events discarded by a clear. -/
  cleared : UInt64 := 0
  /-- Worker thread starts. -/
  starts : UInt64 := 0
  /-- Worker thread stops. -/
  stops : UInt64 := 0
  /-- Total time spent inside dispatchers, in microseconds. -/
  dispatchMicros : UInt64 := 0
  deriving DecidableEq, Repr

namespace Metrics

/-- Count an event appended at the tail. -/
def recordEnqueued (m : Metrics) : Metrics := { m with enqueued := m.enqueued + 1 }

/-- Count an event put at the head. -/
def recordEnqueuedOob (m : Metrics) : Metrics := { m with enqueuedOob := m.enqueuedOob + 1 }

/-- Count an event that its dispatcher has processed, and the time that took. -/
def recordDispatched (m : Metrics) (elapsed : Duration) : Metrics :=
  { m with
    dispatched := m.dispatched + 1
    dispatchMicros := m.dispatchMicros + .ofNat elapsed.micros }

/-- Count a timeout that its dispatcher has processed, and the time that took. -/
def recordTimeout (m : Metrics) (elapsed : Duration) : Metrics :=
  { m with
    timeouts := m.timeouts + 1
    dispatchMicros := m.dispatchMicros + .ofNat elapsed.micros }

def recordCleared (m : Metrics) (count : Nat) : Metrics :=
  { m with cleared := m.cleared + .ofNat count }

def recordStart (m : Metrics) : Metrics := { m with starts := m.starts + 1 }

def recordStop (m : Metrics) : Metrics := { m with stops := m.stops + 1 }

/-- Dispatches of either kind. -/
def dispatches (m : Metrics) : UInt64 := m.dispatched + m.timeouts

/-- Average time per dispatch, timeouts included, in microseconds; zero before the first. -/
def averageMicros (m : Metrics) : Float :=
  if m.dispatches = 0 then 0.0 else m.dispatchMicros.toFloat / m.dispatches.toFloat

/-- Events enqueued but neither dispatched nor cleared, timeouts included; never below zero. -/
def outstanding (m : Metrics) : UInt64 :=
  let received := m.enqueued + m.enqueuedOob
  let handled := m.dispatches + m.cleared
  if handled ≤ received then received - handled else 0

end Metrics
end EventEngine
