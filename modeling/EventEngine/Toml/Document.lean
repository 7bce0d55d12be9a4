import EventEngine.Toml.Reader

/-!
# TOML documents

A document is read line by line. A header begins a table, which then takes the entries up to the
next header; only when that comes, or the end, does the table join the document.
-/
namespace EventEngine.Toml

/-- What begins a table: the key it stands under, alone or as one more in an array of tables. -/
structure Header where
  key : Key
  inArray : Bool

/-- A document while it is read. -/
structure Draft where
  /-- The tables that are complete. -/
  finished : Entries := []
  /-- The entries so far of the table that is being read. -/
  current : Entries := []
  /-- The header of that table; the document itself has none. -/
  header : Option Header := none

namespace Draft

def close (d : Draft) : Except Fault Entries :=
  match d.header with
  | none => .ok d.current
  | some { key, inArray } => do
    let ((), entries) ← within .implied (fun _ outer => match outer.get? key.name, inArray with
      | some (.tables items), true => .ok ((), outer.put key.name (.tables (items ++ [d.current])))
      | none, true => .ok ((), outer.put key.name (.tables [d.current]))
      | none, false => .ok ((), outer.put key.name (.table .declared d.current))
      | some _, _ => .error (.duplicateKey key.name)) key.parents .declared d.finished
    return entries

/-- Begin a table. Its place has to be free, or hold a table that only headers of its inner tables
have named; those inner tables stay in it. -/
def beginTable (d : Draft) (key : Key) : Except Fault Draft := do
  let (current, finished) ← within .implied (fun _ outer => match outer.get? key.name with
    | none => .ok ([], outer)
    | some (.table .implied inner) => .ok (inner, outer.remove key.name)
    | some _ => .error (.duplicateKey key.name)) key.parents .declared (← d.close)
  return { finished, current, header := some { key, inArray := false } }

/-- Begin one more table of an array of tables. -/
def beginElement (d : Draft) (key : Key) : Except Fault Draft := do
  let ((), finished) ← within .implied (fun _ outer => match outer.get? key.name with
    | none => .ok ((), outer)
    | some (.tables _) => .ok ((), outer)
    | some _ => .error (.duplicateKey key.name)) key.parents .declared (← d.close)
  return { finished, header := some { key, inArray := true } }

/-- Add an entry to the table that is being read. -/
def assign (d : Draft) (key : Key) (v : Value) : Except Fault Draft := do
  return { d with current := ← d.current.assign key v }

end Draft

/-- Read the lines of a document. -/
def lines : (fuel : Nat) → Draft → List Char → Except Fault Draft
  | 0, _, s => unexpected s
  | fuel + 1, d, s => match skipSpace s with
    | [] => .ok d
    | '#' :: rest => do
      let ((), rest) ← lineRest ('#' :: rest)
      lines fuel d rest
    | '[' :: '[' :: rest => do
      let (k, rest) ← key rest
      let ((), rest) ← expect ']' rest
      let ((), rest) ← expect ']' rest
      let ((), rest) ← lineRest rest
      lines fuel (← d.beginElement k) rest
    | '[' :: rest => do
      let (k, rest) ← key rest
      let ((), rest) ← expect ']' rest
      let ((), rest) ← lineRest rest
      lines fuel (← d.beginTable k) rest
    | s => match lineEnd? s with
      | some rest => lines fuel d rest
      | none => do
        let ((k, v), rest) ← entry value s
        let ((), rest) ← lineRest rest
        lines fuel (← d.assign k v) rest

/-- Skip the mark that may stand before a text to show its encoding. -/
def skipMark : List Char → List Char
  | '\uFEFF' :: rest => rest
  | s => s

def document (text : String) : Except Fault Entries := do
  (← lines (text.toList.length + 1) {} (skipMark text.toList)).close

end EventEngine.Toml
