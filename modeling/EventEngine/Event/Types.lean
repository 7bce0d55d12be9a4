import EventEngine.Diagnostics

/-!
# Event types

A handler knows its event types by name. The first registration of a name counts; later ones are
ignored with a warning. Timeouts have a type of their own that is registered with no one.
-/
namespace EventEngine

/-- One registered event type: its name, and a tag that tells its dispatcher. -/
structure Registration where
  name : String
  tag : String
  deriving DecidableEq, Repr

def Registration.text (r : Registration) : String :=
  "EventType \x7b name: " ++ Text.quoted r.name ++ " \x7d"

def timeoutTypeName : String := "Timeout Event"

/-- The event types of one handler, each name once. -/
structure EventTypes where
  table : List Registration := []
  deriving DecidableEq, Repr

namespace EventTypes

/-- The registration of a name. -/
def find? (types : EventTypes) (name : String) : Option Registration :=
  types.table.find? (·.name == name)

def contains (types : EventTypes) (name : String) : Bool := (types.find? name).isSome

/-- Register a type, unless its name is taken. -/
def register (types : EventTypes) (r : Registration) : EventTypes :=
  if types.contains r.name then types else ⟨types.table ++ [r]⟩

/-- Register types in order. -/
def ofList (registrations : List Registration) : EventTypes :=
  registrations.foldl register {}

/-- The names registered again after their first registration, in order, from a given table on. -/
def repeated (types : EventTypes) : List Registration → List String
  | [] => []
  | r :: rest =>
    let later := repeated (types.register r) rest
    if types.contains r.name then r.name :: later else later

/-- The warning for a name that is registered again. -/
def duplicateWarning (name : String) : LogLine := ⟨.warn, s!"Duplicate event type {name} ignored"⟩

/-- What registering types in order logs. -/
def warnings (registrations : List Registration) : List LogLine :=
  (repeated {} registrations).map duplicateWarning

/-- The registration that an event of a type belongs to. -/
def resolve (types : EventTypes) (name : String) : Except EventError Registration :=
  match types.find? name with
  | some r => .ok r
  | none => .error (.unknownType name)

def length (types : EventTypes) : Nat := types.table.length

def isEmpty (types : EventTypes) : Bool := types.table.isEmpty

/-- Registered names, sorted. -/
def names (types : EventTypes) : List String :=
  (types.table.map (·.name)).mergeSort (fun a b => decide (a ≤ b))

def text (types : EventTypes) : String :=
  "EventTypes \x7b types: " ++ Text.quotedList types.names ++ " \x7d"

end EventTypes
end EventEngine
