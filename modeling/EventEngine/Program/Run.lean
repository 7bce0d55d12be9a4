import EventEngine.Program.CommandLine
import EventEngine.Program.Report
import EventEngine.Program.Settings

/-!
# Runs

A run starts both subsystems, feeds them with a fixed mix of events, with the same pause after each,
until its time is over, stops them and reports. Time goes from one moment at which something is due
to the next: an alarm, an event, or the end. An alarm that is due at the end still fires; an event
is produced only before it.
-/
namespace EventEngine

namespace Producer

/-- The pause after each event: the length of the run divided by the number of events, down to the
nanosecond. Only the last 32 bits of that number count; there is no pause where they are zero. -/
def pause? (runMillis events : Nat) : Option Duration :=
  let parts := max events 1 % 4294967296
  if parts = 0 then none else some ⟨(Duration.ofMillis runMillis).nanos / parts⟩

def noPauseMessage : String := "divide by zero error when dividing duration by scalar"

/-- The event with a number. -/
def event (n : Nat) : SubsystemRequest :=
  let peer := UInt32.ofNat (n % 8)
  match n % 5 with
  | 0 => .tellWallet .tail (.deposit (.ofNat (100 + n)))
  | 1 => .tellWallet .tail (.withdrawal (.ofNat (40 + n % 90)))
  | 2 => .tellPeers .tail (.connected peer)
  | 3 => .tellPeers .tail (.disconnected peer)
  | _ => .tellPeers .tail (.newBlock (.ofNat n))

end Producer

/-- A run in progress. -/
structure Run where
  subsystems : Subsystems
  /-- Number of events produced so far. -/
  produced : Nat := 0
  /-- Number of events to produce. -/
  events : Nat
  pause : Duration
  finish : Instant

namespace Run

/-- When the next event is due, unless all are produced or the run is over by then. -/
def nextEvent? (r : Run) : Option Instant :=
  let due := Instant.start.advance ⟨r.produced * r.pause.nanos⟩
  if r.produced < r.events && due < r.finish then some due else none

def earlier (a : Instant) : Option Instant → Instant
  | some b => if b < a then b else a
  | none => a

/-- The next moment at which something is due. -/
def nextMoment (r : Run) : Instant :=
  earlier (earlier r.finish r.nextEvent?) (r.subsystems.clock sharedClock).nextDeadline

/-- Let time pass up to a moment, and let the threads run. -/
def moveTo (patience : Nat) (r : Run) (t : Instant) : Run :=
  { r with
    subsystems := World.settle patience (r.subsystems.advance (t.since r.subsystems.now)) }

/-- Produce the next event, and let the threads run. -/
def produce (patience : Nat) (r : Run) : Run :=
  { r with
    subsystems := (r.subsystems.step patience (Producer.event r.produced)).1
    produced := r.produced + 1 }

/-- Produce the event that is due, or go on to the next moment, unless the run is over. -/
def step? (patience : Nat) (r : Run) : Option Run :=
  match r.nextEvent? with
  | some due =>
    if due ≤ r.subsystems.now then some (r.produce patience)
    else some (r.moveTo patience r.nextMoment)
  | none =>
    if r.subsystems.now < r.finish then some (r.moveTo patience r.nextMoment) else none

/-- Go on until the run is over, for a number of steps at most. -/
def go (patience : Nat) : (steps : Nat) → Run → Run
  | 0, r => r
  | steps + 1, r => match r.step? patience with
    | some r => go patience steps r
    | none => r

/-- A number of steps that is enough: two for each event, one for each alarm, of which there is at
most one in a millisecond, and one for the end. -/
def enough (r : Run) : Nat := 2 * r.events + r.finish.nanos / 1000000 + 1

end Run

inductive Ending where
  | refusedSettings (error : ConfigError)
  | notStarted (error : EventError)
  /-- A start panicked. -/
  | startCrashed (message : String)
  /-- There was no pause, and the run panicked. -/
  | crashed
  | completed (summary : Summary)

/-- What is printed where a run did not complete. -/
def Ending.complaint : Ending → Option String
  | refusedSettings e => some ("Error: " ++ e.message)
  | notStarted e => some ("Error: " ++ e.message)
  | startCrashed message => some message
  | crashed => some Producer.noPauseMessage
  | completed _ => none

def Ending.exitCode : Ending → Nat
  | refusedSettings _ => 1
  | notStarted _ => 1
  | startCrashed _ => 101
  | crashed => 101
  | completed _ => 0

/-- Something that a run puts out. -/
inductive Output where
  | log (line : LogLine)
  | text (s : String)
  deriving DecidableEq, Repr

/-- A run that has ended, with what it put out and when. -/
structure Outcome where
  ending : Ending
  output : List (Instant × Output) := []

namespace Outcome

def messages (o : Outcome) : List LogLine :=
  o.output.filterMap fun (_, out) => match out with
    | .log line => some line
    | .text _ => none

def opening : Instant × Output := (.start, .log ⟨.info, "Starting walletcore v0.1.0"⟩)

def closing : Output := .log ⟨.info, "Walletcore stopped"⟩

/-- The warning about a withdrawal that the ledger refuses. -/
def refusal (amount : UInt64) : LogLine := ⟨.warn, s!"Withdrawal of {amount} exceeds balance"⟩

/-- The amounts of the withdrawals that were refused, in order. -/
def refused (l : Ledger) : List (Occurrence Payload) → List UInt64
  | [] => []
  | o :: rest =>
    let later := refused (Subsystems.observeWallet o l) rest
    match o with
    | .began _ ⟨_, .event _ ⟨_, .wallet (.withdrawal amount), _⟩⟩ =>
      if l.refuses (.withdrawal amount) then amount :: later else later
    | _ => later

/-- The end of a run whose time is over: both subsystems are stopped, and the report is made. -/
def conclude (patience : Nat) (json : Bool) (r : Run) : Outcome :=
  let stopped := (r.subsystems.step patience .stopAll).1
  let summary := Summary.ofSubsystems stopped
  let warnings := (refused {} stopped.history.reverse).map (Output.log ∘ refusal)
  let report := if json then [.text summary.json] else summary.messages.map Output.log
  { ending := .completed summary
    output := opening :: (warnings ++ report ++ [closing]).map fun out => (stopped.now, out) }

def ofSettings (patience : Nat) (settings : Settings) (json : Bool)
    (canSpawn : Nat → Bool := fitsAddressSpace) : Outcome :=
  let tick := Duration.ofMillis settings.run.timeoutMillis
  let created := Subsystems.create settings.events settings.events.alarmClock tick canSpawn
  match created.startAll patience with
  | (_, .failed e) => { ending := .notStarted e, output := [opening] }
  | (_, .crashed message) => { ending := .startCrashed message, output := [opening] }
  | (started, _) =>
    match Producer.pause? settings.run.runMillis settings.run.events with
    | none => { ending := .crashed, output := [opening] }
    | some pause =>
      let r : Run := {
        subsystems := World.settle patience started
        events := settings.run.events
        pause
        finish := Instant.start.advance (.ofMillis settings.run.runMillis) }
      conclude patience json (r.go patience r.enough)

/-- Run as a command line asks for, with the environment and what stands at the path of the
settings. -/
def ofCommandLine (patience : Nat) (line : CommandLine) (env : Environment) (state : FileState)
    (canSpawn : Nat → Bool := fitsAddressSpace) : Outcome :=
  match Settings.load env (line.config.map fun path => (path, state)) with
  | .error e => { ending := .refusedSettings e }
  | .ok settings =>
    let runMillis := line.runMillis.getD settings.run.runMillis
    ofSettings patience { settings with run := { settings.run with runMillis } } line.json canSpawn

end Outcome

def logFileName (t : WallTime) : String := "walletcore." ++ t.date.text ++ ".log"

end EventEngine
