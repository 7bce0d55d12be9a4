import EventEngine.Config.Load

/-!
# Settings of a run

A run reads the settings of its handlers and its own parameters from one document, or takes the
defaults where it is given none.
-/
namespace EventEngine

structure RunConfig where
  /-- Length of the run in milliseconds. -/
  runMillis : Nat := 1000
  /-- Period of the wallet's timeout in milliseconds. -/
  timeoutMillis : Nat := 100
  /-- Events produced over the run. -/
  events : Nat := 200
  deriving DecidableEq, Repr

structure Settings where
  events : EventsConfig := {}
  run : RunConfig := {}
  deriving DecidableEq, Repr

def RunConfig.decode (v : Toml.Value) : Except Mismatch RunConfig := do
  let fields ← v.decodeRecord ["run_ms", "timeout_ms", "events"]
  let standard : RunConfig := {}
  return {
    runMillis := ← fields.optional "run_ms" (·.decodeCount) standard.runMillis
    timeoutMillis := ← fields.optional "timeout_ms" (·.decodeCount) standard.timeoutMillis
    events := ← fields.optional "events" (·.decodeCount) standard.events }

namespace Settings

def decode (v : Toml.Value) : Except Mismatch Settings := do
  let fields ← v.decodeRecord ["events", "demo"]
  return {
    events := ← fields.optional "events" EventsConfig.decode {}
    run := ← fields.optional "demo" RunConfig.decode {} }

/-- The settings of the handlers are checked first. -/
def validate (s : Settings) : Except ConfigError Unit := do
  s.events.validate
  if s.run.timeoutMillis = 0 then .error (.invalidValue "demo.timeout_ms" "must be positive")

/-- Load and check settings; without a file they are the defaults. -/
def load (env : Environment) (source : Option (String × FileState)) :
    Except ConfigError Settings := do
  let settings ← match source with
    | some (path, state) => loadFile decode env path state
    | none => .ok {}
  settings.validate
  return settings

end Settings
end EventEngine
