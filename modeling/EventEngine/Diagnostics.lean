import EventEngine.Text

/-!
# What is reported

What can go wrong with a queue, a handler or its settings, each cause with its wording, and the
lines of the log. Lines are written `LEVEL message`.
-/
namespace EventEngine

/-! ## Event errors -/

/-- Outcome of a queue or dispatch operation. -/
inductive EventStatus where
  | success
  | waitAbort
  | waitError
  | notStarted
  | unknownType
  | nonePending
  deriving DecidableEq, Repr

def EventStatus.text : EventStatus → String
  | success => "success"
  | waitAbort => "wait_abort"
  | waitError => "wait_error"
  | notStarted => "not_started"
  | unknownType => "unknown_type"
  | nonePending => "none_pending"

/-- Errors raised by event queues and handlers. -/
inductive EventError where
  /-- The consumer was asked to stop waiting. -/
  | waitAbort
  /-- The wait ended without an event or an abort request. -/
  | waitError (reason : String)
  /-- A thread could not be spawned. -/
  | notStarted (reason : String)
  /-- No dispatcher is registered for the event's type. -/
  | unknownType (name : String)
  /-- The queue is empty. -/
  | nonePending
  deriving DecidableEq, Repr

namespace EventError

def status : EventError → EventStatus
  | waitAbort => .waitAbort
  | waitError _ => .waitError
  | notStarted _ => .notStarted
  | unknownType _ => .unknownType
  | nonePending => .nonePending

def message : EventError → String
  | waitAbort => "Event wait aborted"
  | waitError reason => "Event wait failed: " ++ reason
  | notStarted reason => "Thread not started: " ++ reason
  | unknownType name => "Unknown event type: " ++ name
  | nonePending => "No event pending"

/-- The error in words: its cause, and the reason quoted. -/
def text : EventError → String
  | waitAbort => "WaitAbort"
  | waitError reason => "WaitError(" ++ Text.quoted reason ++ ")"
  | notStarted reason => "NotStarted(" ++ Text.quoted reason ++ ")"
  | unknownType name => "UnknownType(" ++ Text.quoted name ++ ")"
  | nonePending => "NonePending"

end EventError

/-! ## Configuration errors -/

/-- Errors raised while loading or validating configuration. -/
inductive ConfigError where
  | notFound (path : String)
  | invalidValue (field message : String)
  | envVarNotSet (name : String)
  /-- The file exists and cannot be read as text. -/
  | io (reason : String)
  /-- The text is not well-formed, or does not have the expected shape. -/
  | malformed (reason : String)
  deriving DecidableEq, Repr

def ConfigError.message : ConfigError → String
  | notFound path => "Config file not found: " ++ path
  | invalidValue field message => "Invalid value for " ++ field ++ ": " ++ message
  | envVarNotSet name => "Environment variable not set: " ++ name
  | io reason => "IO error: " ++ reason
  | malformed reason => "TOML parse error: " ++ reason

/-! ## Log lines -/

inductive Level where
  | trace
  | debug
  | info
  | warn
  | error
  deriving DecidableEq, Repr

def Level.text : Level → String
  | trace => "TRACE"
  | debug => "DEBUG"
  | info => "INFO"
  | warn => "WARN"
  | error => "ERROR"

structure LogLine where
  level : Level
  message : String
  deriving DecidableEq, Repr

def LogLine.text (line : LogLine) : String := line.level.text ++ " " ++ line.message

end EventEngine
