import EventEngine.Diagnostics

/-!
# Settings of the clock and the handlers

Each thread has a name and a stack size. Validation refuses values with which no thread could be
made; the first refusal in the order of the settings is reported.
-/
namespace EventEngine

/-- Longest thread name, in characters. -/
def maxThreadName : Nat := 32

/-- The first `maxThreadName` characters of a name. -/
def threadNameOf (name : String) : String := String.ofList (name.toList.take maxThreadName)

/-- Whether a stack fits into an address space of 2^47 bytes. -/
def fitsAddressSpace (stackSize : Nat) : Bool := stackSize < 140737488355328

/-- The reason given where a thread could not be made. -/
def spawnFailure : String := "Resource temporarily unavailable (os error 11)"

/-- Why a start was not carried out. -/
inductive StartFailure where
  | failed (error : EventError)
  /-- Making the thread panicked. -/
  | crashed (message : String)
  deriving DecidableEq, Repr

def hasNul (name : String) : Bool := name.toList.contains '\x00'

/-- The panic of making a thread with a NUL character in its name. -/
def nulMessage (name : String) : String :=
  let bytes := name.toUTF8.toList
  s!"thread name may not contain interior null bytes: NulError({bytes.idxOf 0}, {bytes})"

/-- What is in the way of making a thread, where `canSpawn` tells the stack sizes that the platform
grants. The name is looked at first. -/
def threadFault (canSpawn : Nat → Bool) (name : String) (stackSize : Nat) (whose : String) :
    Option StartFailure :=
  if hasNul name then some (.crashed (nulMessage name))
  else if canSpawn stackSize then none
  else some (.failed (.notStarted (whose ++ ": " ++ spawnFailure)))

structure ClockConfig where
  threadName : String := "alarm-clock"
  stackSize : Nat := 131072
  deriving DecidableEq, Repr

structure HandlerConfig where
  name : String
  stackSize : Nat := 524288
  /-- Events the queue holds before it first grows. -/
  queueCapacity : Nat := 64
  deriving DecidableEq, Repr

structure EventsConfig where
  alarmClock : ClockConfig := {}
  /-- Looked up by handler name; the first of a name counts. -/
  handlers : List HandlerConfig := []
  deriving DecidableEq, Repr

namespace ClockConfig

/-- The name that the timer thread gets. -/
def workerName (c : ClockConfig) : String := threadNameOf c.threadName

/-- Refuse an empty stack. -/
def validate (c : ClockConfig) : Except ConfigError Unit :=
  if c.stackSize = 0 then .error (.invalidValue "alarm_clock.stack_size" "must be positive")
  else .ok ()

def text (c : ClockConfig) : String :=
  "AlarmClockConfig \x7b thread_name: " ++ Text.quoted c.threadName ++
    s!", stack_size: {c.stackSize} \x7d"

end ClockConfig

namespace HandlerConfig

def threadName (c : HandlerConfig) : String := threadNameOf c.name

/-- Refuse a blank name and an empty stack. -/
def validate (c : HandlerConfig) : Except ConfigError Unit :=
  if Text.isBlankText c.name then .error (.invalidValue "handlers.name" "must not be empty")
  else if c.stackSize = 0 then
    .error (.invalidValue ("handlers." ++ c.name ++ ".stack_size") "must be positive")
  else .ok ()

end HandlerConfig

namespace EventsConfig

def handler? (c : EventsConfig) (name : String) : Option HandlerConfig :=
  c.handlers.find? (·.name == name)

/-- The settings of a named handler, or the defaults. -/
def handlerOrDefault (c : EventsConfig) (name : String) : HandlerConfig :=
  (c.handler? name).getD { name }

/-- The clock is checked first, then the handlers in order. -/
def validate (c : EventsConfig) : Except ConfigError Unit := do
  c.alarmClock.validate
  c.handlers.forM HandlerConfig.validate

end EventsConfig
end EventEngine
