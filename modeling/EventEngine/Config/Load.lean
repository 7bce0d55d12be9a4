import EventEngine.Config.Events
import EventEngine.Config.Expansion
import EventEngine.Toml.Document

/-!
# Loading settings

Settings are a TOML document in which references to the environment are expanded first. A record of
settings is written as a table, where keys that it does not know are ignored, or as an array of its
fields in order, where the last ones may be missing. A date is read as a table without any known
key.
-/
namespace EventEngine

/-- Why a value is not the setting that is expected. -/
inductive Mismatch where
  | expected (shape : String)
  | missing (field : String)
  /-- An array has more items than the record has fields. -/
  | surplus
  deriving DecidableEq, Repr

def Mismatch.message : Mismatch → String
  | expected shape => "expected " ++ shape
  | missing field => "missing field " ++ field
  | surplus => "too many items"

namespace Toml

namespace Value

def decodeText : Value → Except Mismatch String
  | string s => .ok s
  | _ => .error (.expected "a string")

/-- The value of an integer that is not negative. -/
def decodeCount : Value → Except Mismatch Nat
  | integer n => if 0 ≤ n then .ok n.toNat else .error (.expected "an integer that is not negative")
  | _ => .error (.expected "an integer")

def items? : Value → Option (List Value)
  | array items => some items
  | tables items => some (items.map (table .declared))
  | _ => none

/-- The items of an array, each decoded. -/
def decodeList {α : Type} (decode : Value → Except Mismatch α) (v : Value) :
    Except Mismatch (List α) :=
  match v.items? with
  | some items => items.mapM decode
  | none => .error (.expected "an array")

def decodeRecord (fields : List String) (v : Value) : Except Mismatch Entries :=
  match v with
  | table _ entries => .ok entries
  | datetime => .ok []
  | v => match v.items? with
    | some items => if fields.length < items.length then .error .surplus else .ok (fields.zip items)
    | none => .error (.expected "a table")

end Value

namespace Entries

/-- The value of a field that has to be given. -/
def required {α : Type} (entries : Entries) (field : String)
    (decode : Value → Except Mismatch α) : Except Mismatch α :=
  match entries.get? field with
  | some v => decode v
  | none => .error (.missing field)

def optional {α : Type} (entries : Entries) (field : String)
    (decode : Value → Except Mismatch α) (otherwise : α) : Except Mismatch α :=
  match entries.get? field with
  | some v => decode v
  | none => .ok otherwise

end Entries
end Toml

def ClockConfig.decode (v : Toml.Value) : Except Mismatch ClockConfig := do
  let fields ← v.decodeRecord ["thread_name", "stack_size"]
  let standard : ClockConfig := {}
  return {
    threadName := ← fields.optional "thread_name" (·.decodeText) standard.threadName
    stackSize := ← fields.optional "stack_size" (·.decodeCount) standard.stackSize }

def HandlerConfig.decode (v : Toml.Value) : Except Mismatch HandlerConfig := do
  let fields ← v.decodeRecord ["name", "stack_size", "queue_capacity"]
  let standard : HandlerConfig := { name := ← fields.required "name" (·.decodeText) }
  return { standard with
    stackSize := ← fields.optional "stack_size" (·.decodeCount) standard.stackSize
    queueCapacity := ← fields.optional "queue_capacity" (·.decodeCount) standard.queueCapacity }

def EventsConfig.decode (v : Toml.Value) : Except Mismatch EventsConfig := do
  let fields ← v.decodeRecord ["alarm_clock", "handlers"]
  return {
    alarmClock := ← fields.optional "alarm_clock" ClockConfig.decode {}
    handlers := ← fields.optional "handlers" (·.decodeList HandlerConfig.decode) [] }

def decodeTexts : Toml.Value → Except Mismatch (List (String × String))
  | .table _ entries => entries.mapM fun (key, v) => return (key, ← v.decodeText)
  | _ => .error (.expected "a table")

/-! ## Texts and files -/

inductive FileState where
  | missing
  /-- A directory, or a file that cannot be read. -/
  | unreadable (reason : String)
  | file (bytes : ByteArray)

/-- Load settings from a text. -/
def loadText {α : Type} (decode : Toml.Value → Except Mismatch α) (env : Environment)
    (text : String) : Except ConfigError α := do
  match Toml.document (← Expansion.expand env text) with
  | .error fault => .error (.malformed fault.message)
  | .ok entries => match decode (.table .declared entries) with
    | .error mismatch => .error (.malformed mismatch.message)
    | .ok a => .ok a

def FileState.text (path : String) : FileState → Except ConfigError String
  | missing => .error (.notFound path)
  | unreadable reason => .error (.io reason)
  | file bytes => match String.fromUTF8? bytes with
    | some text => .ok text
    | none => .error (.io "stream did not contain valid UTF-8")

def loadFile {α : Type} (decode : Toml.Value → Except Mismatch α) (env : Environment)
    (path : String) (state : FileState) : Except ConfigError α := do
  loadText decode env (← state.text path)

end EventEngine
