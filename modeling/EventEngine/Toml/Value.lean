/-!
# TOML values

What a TOML document holds, as far as settings need it: the numbers of floats and the fields of
dates are checked when they are read and not kept.
-/
namespace EventEngine.Toml

/-- Why a text is not a TOML document. -/
inductive Fault where
  /-- What stands at this many characters before the end of the text cannot stand there. -/
  | unexpected (remaining : Nat)
  | duplicateKey (key : String)
  /-- A key is used as a table and names something else. -/
  | notATable (key : String)
  | tooDeep
  | outOfRange
  deriving DecidableEq, Repr

def Fault.message : Fault → String
  | unexpected remaining => s!"unexpected text at {remaining} characters before the end"
  | duplicateKey key => s!"duplicate key {key}"
  | notATable key => s!"{key} is not a table that can be extended"
  | tooDeep => "recursion limit exceeded"
  | outOfRange => "value is out of range"

/-- How a table came about, which decides how it can be extended. -/
inductive TableKind where
  /-- By a header of its own, or as the whole document. -/
  | declared
  /-- As a parent in the header of another table. -/
  | implied
  /-- As a parent in a dotted key. -/
  | dotted
  /-- Between braces: it cannot be extended. -/
  | closed
  deriving DecidableEq, Repr

inductive Value where
  | string (s : String)
  | integer (n : Int)
  | float
  | boolean (b : Bool)
  | datetime
  | array (items : List Value)
  | table (kind : TableKind) (entries : List (String × Value))
  /-- An array of tables that headers have begun, each with its entries. -/
  | tables (items : List (List (String × Value)))

/-- The entries of a table, each key once. -/
abbrev Entries := List (String × Value)

def Entries.get? (entries : Entries) (key : String) : Option Value := entries.lookup key

/-- Replace the value of a key, or add it at the end. -/
def Entries.put : Entries → String → Value → Entries
  | [], key, v => [(key, v)]
  | (k, old) :: rest, key, v =>
    if k = key then (k, v) :: rest else (k, old) :: Entries.put rest key v

def Entries.remove (entries : Entries) (key : String) : Entries := entries.filter (·.1 != key)

end EventEngine.Toml
