import EventEngine.Toml.Number

/-!
# Keys and values

A dotted key names the tables around its entry. An array or a table between braces holds values of
any kind, itself included, down to a fixed depth; so reading a value recurses on the depth that is
left, and reading the parts of one on the text.
-/
namespace EventEngine.Toml

/-- Levels of nesting, of values and of the tables a key names, that are too many. -/
def depthLimit : Nat := 80

/-- The key of an entry, behind the keys of the tables around it. -/
structure Key where
  parents : List String
  name : String
  deriving DecidableEq, Repr

/-- What a key without quotes consists of. -/
def isBare (c : Char) : Bool := c.isAlphanum || c = '-' || c = '_'

def keyPart : Reader String
  | '"' :: rest => do
    let (cs, rest) ← shortString ('"' :: rest)
    return (String.ofList cs, rest)
  | '\x27' :: rest => do
    let (cs, rest) ← shortString ('\x27' :: rest)
    return (String.ofList cs, rest)
  | s =>
    if (s.takeWhile isBare).isEmpty then unexpected s
    else .ok (String.ofList (s.takeWhile isBare), s.dropWhile isBare)

/-- Read the parts of a key, with points between them and blanks around each. -/
def keyParts : (fuel : Nat) → Reader Key
  | 0, s => unexpected s
  | fuel + 1, s => do
    let (part, rest) ← keyPart (skipSpace s)
    match skipSpace rest with
    | '.' :: rest =>
      let (key, rest) ← keyParts fuel rest
      return ({ key with parents := part :: key.parents }, rest)
    | rest => return ({ parents := [], name := part }, rest)

def key : Reader Key := fun s => do
  let (k, rest) ← keyParts (s.length + 1) s
  if k.parents.length + 1 < depthLimit then return (k, rest) else .error .tooDeep

/-! ## Entries under dotted keys -/

/-- Change the entries of the table that a path leads to, making the tables that are missing.
A dotted key cannot reach into a table that has a header of its own; nothing can reach into a table
between braces. The last table of an array of tables stands for the array. -/
def within {α : Type} (made : TableKind)
    (change : TableKind → Entries → Except Fault (α × Entries)) :
    (path : List String) → TableKind → Entries → Except Fault (α × Entries)
  | [], kind, entries => change kind entries
  | key :: path, _, entries => match entries.get? key with
    | none => do
      let (a, inner) ← within made change path made []
      return (a, entries.put key (.table made inner))
    | some (.table kind inner) =>
      if kind = .closed then .error (.notATable key)
      else if made = .dotted && kind = .declared then .error (.duplicateKey key)
      else do
        let (a, inner) ← within made change path kind inner
        return (a, entries.put key (.table kind inner))
    | some (.tables items) => match items.getLast? with
      | some last => do
        let (a, last) ← within made change path .declared last
        return (a, entries.put key (.tables (items.dropLast ++ [last])))
      | none => .error (.notATable key)
    | some _ => .error (.notATable key)

/-- Add an entry under a key that is not taken. The tables that a dotted key names belong to dotted
keys alone. -/
def Entries.assign (entries : Entries) (key : Key) (v : Value) : Except Fault Entries := do
  let ((), entries) ← within .dotted (fun kind inner =>
    if (kind = .dotted) = key.parents.isEmpty then .error (.duplicateKey key.name)
    else match inner.get? key.name with
      | some _ => .error (.duplicateKey key.name)
      | none => .ok ((), inner.put key.name v)) key.parents .declared entries
  return entries

/-! ## Values -/

/-- Read values with commas between them, up to the closing bracket. A comma may follow the last. -/
def arrayRest (item : Reader Value) : (fuel : Nat) → Reader (List Value)
  | 0, s => unexpected s
  | fuel + 1, s => do
    let ((), s) ← skipBlank s
    match s with
    | ']' :: rest => return ([], rest)
    | s =>
      let (v, s) ← item s
      let ((), s) ← skipBlank s
      match s with
      | ',' :: rest =>
        let (vs, rest) ← arrayRest item fuel rest
        return (v :: vs, rest)
      | ']' :: rest => return ([v], rest)
      | s => unexpected s

def entry (item : Reader Value) : Reader (Key × Value) := fun s => do
  let (k, s) ← key s
  let ((), s) ← expect '=' s
  let (v, s) ← item (skipSpace s)
  return ((k, v), s)

/-- Read entries with commas between them, up to the closing brace, adding to those before. -/
def inlineEntries (item : Reader Value) : (fuel : Nat) → Entries → Reader Entries
  | 0, _, s => unexpected s
  | fuel + 1, entries, s => do
    let ((k, v), s) ← entry item s
    let entries ← entries.assign k v
    match skipSpace s with
    | ',' :: rest => inlineEntries item fuel entries rest
    | '}' :: rest => return (entries, rest)
    | s => unexpected s

/-- Read the entries of a table between braces, behind the opening one. -/
def inlineRest (item : Reader Value) : Reader Entries := fun s =>
  match skipSpace s with
  | '}' :: rest => .ok ([], rest)
  | s => inlineEntries item (s.length + 1) [] s

/-- Read a value that holds no others. -/
def scalar : Reader Value
  | 't' :: 'r' :: 'u' :: 'e' :: rest => .ok (.boolean true, rest)
  | 'f' :: 'a' :: 'l' :: 's' :: 'e' :: rest => .ok (.boolean false, rest)
  | c :: rest =>
    if c = '"' || c = '\x27' then do
      let (cs, rest) ← string (c :: rest)
      return (.string (String.ofList cs), rest)
    else numberOrDate (c :: rest)
  | [] => unexpected []

/-- Read a value, with levels of nesting left. -/
def nestedValue : (levels : Nat) → Reader Value
  | levels, '[' :: rest => match levels with
    | 0 => .error .tooDeep
    | levels + 1 => do
      let (items, rest) ← arrayRest (nestedValue levels) (rest.length + 1) rest
      return (.array items, rest)
  | levels, '{' :: rest => match levels with
    | 0 => .error .tooDeep
    | levels + 1 => do
      let (entries, rest) ← inlineRest (nestedValue levels) rest
      return (.table .closed entries, rest)
  | _, s => scalar s

def value : Reader Value := nestedValue (depthLimit - 1)

end EventEngine.Toml
