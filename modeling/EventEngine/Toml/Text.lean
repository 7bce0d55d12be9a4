import EventEngine.Toml.Value

/-!
# TOML text

The lexical parts of a document: blanks, comments, line ends, and the four kinds of strings.
A reader takes what it reads off the front of the text, and fails where the text cannot go on.
-/
namespace EventEngine.Toml

/-- Reads something off the front of a text, leaving the rest. -/
abbrev Reader (α : Type) := List Char → Except Fault (α × List Char)

/-- The failure of not finding what has to stand here. -/
def unexpected {α : Type} (s : List Char) : Except Fault α := .error (.unexpected s.length)

def expect (c : Char) : Reader Unit
  | [] => unexpected []
  | d :: rest => if d = c then .ok ((), rest) else unexpected (d :: rest)

def isSpace (c : Char) : Bool := c = ' ' || c = '\t'

/-- What may stand in a comment, and in a literal string besides the apostrophe: no control
character but the tab. -/
def isPlain (c : Char) : Bool := c = '\t' || (0x20 ≤ c.toNat && c.toNat ≠ 0x7f)

/-- What stands for itself in a basic string. -/
def isBasic (c : Char) : Bool := isPlain c && c ≠ '"' && c ≠ '\\'

/-- What stands for itself in a literal string. -/
def isLiteral (c : Char) : Bool := isPlain c && c ≠ '\x27'

def isHexDigit (c : Char) : Bool :=
  c.isDigit || ('a' ≤ c && c ≤ 'f') || ('A' ≤ c && c ≤ 'F')

/-- The value of a digit, hexadecimal ones included. -/
def digitValue (c : Char) : Nat :=
  if c.isDigit then c.toNat - '0'.toNat
  else if 'a' ≤ c && c ≤ 'f' then c.toNat - 'a'.toNat + 10
  else c.toNat - 'A'.toNat + 10

/-- The number that digits write in a base. -/
def digitsValue (base : Nat) (digits : List Char) : Nat :=
  digits.foldl (fun n c => n * base + digitValue c) 0

def skipSpace (s : List Char) : List Char := s.dropWhile isSpace

/-- The text behind a line end, if it begins with one: a line feed, or a carriage return and a line
feed. -/
def lineEnd? : List Char → Option (List Char)
  | '\n' :: rest => some rest
  | '\r' :: '\n' :: rest => some rest
  | _ => none

def skipComment : List Char → List Char
  | '#' :: rest => rest.dropWhile isPlain
  | s => s

/-- Read the rest of a line that holds nothing but blanks and a comment. -/
def lineRest : Reader Unit := fun s =>
  match skipComment (skipSpace s) with
  | [] => .ok ((), [])
  | rest => match lineEnd? rest with
    | some next => .ok ((), next)
    | none => unexpected rest

/-- Skip blanks, line ends, and comments that end with their line. -/
def skipLines : (fuel : Nat) → Reader Unit
  | 0, s => .ok ((), s)
  | fuel + 1, s =>
    match skipSpace s with
    | '#' :: rest => match lineEnd? (rest.dropWhile isPlain) with
      | some next => skipLines fuel next
      | none => unexpected (rest.dropWhile isPlain)
    | rest => match lineEnd? rest with
      | some next => skipLines fuel next
      | none => .ok ((), rest)

/-- Skip blanks, comments and line ends between the parts of an array. -/
def skipBlank : Reader Unit := fun s => skipLines (s.length + 1) s

/-- Skip blanks and line ends. -/
def skipSpaceAndLines : (fuel : Nat) → List Char → List Char
  | 0, s => s
  | fuel + 1, s => match lineEnd? (skipSpace s) with
    | some next => skipSpaceAndLines fuel next
    | none => skipSpace s

/-- The character that a number stands for, unless it is out of range. -/
def charOf (n : Nat) : Except Fault Char :=
  if h : n.isValidChar then .ok ⟨n.toUInt32, by
    have lt : n < UInt32.size := by
      rcases h with h | h
      · exact Nat.lt_trans h (by decide)
      · exact Nat.lt_trans h.2 (by decide)
    simpa [UInt32.isValidChar, Nat.mod_eq_of_lt lt] using h⟩
  else .error .outOfRange

/-- Read a character given by `count` hexadecimal digits. -/
def hexChar (count : Nat) : Reader Char := fun s =>
  let digits := s.take count
  if digits.length = count && digits.all isHexDigit then do
    return (← charOf (digitsValue 16 digits), s.drop count)
  else unexpected s

/-- Read what follows the backslash of an escape. -/
def escape : Reader Char
  | 'b' :: rest => .ok ('\x08', rest)
  | 'f' :: rest => .ok ('\x0c', rest)
  | 'n' :: rest => .ok ('\n', rest)
  | 'r' :: rest => .ok ('\r', rest)
  | 't' :: rest => .ok ('\t', rest)
  | '"' :: rest => .ok ('"', rest)
  | '\\' :: rest => .ok ('\\', rest)
  | 'u' :: rest => hexChar 4 rest
  | 'U' :: rest => hexChar 8 rest
  | s => unexpected s

/-- Read a basic string behind its opening quote, up to its closing one. -/
def basicRest : (fuel : Nat) → Reader (List Char)
  | 0, s => unexpected s
  | fuel + 1, s => match s with
    | '"' :: rest => .ok ([], rest)
    | '\\' :: rest => do
      let (c, rest) ← escape rest
      let (cs, rest) ← basicRest fuel rest
      return (c :: cs, rest)
    | c :: rest => if isBasic c then do
        let (cs, rest) ← basicRest fuel rest
        return (c :: cs, rest)
      else unexpected s
    | [] => unexpected s

/-- Read a literal string behind its opening apostrophe. -/
def literalRest : Reader (List Char) := fun s => do
  let ((), rest) ← expect '\x27' (s.dropWhile isLiteral)
  return (s.takeWhile isLiteral, rest)

/-- Read the quotes at the end of a multi-line string, of which the last three close it. At most two
more may stand before them. -/
def closing (quote : Char) (s : List Char) : Option (List Char × List Char) :=
  let run := (s.takeWhile (· == quote)).length
  if run < 3 then none
  else
    let kept := min 2 (run - 3)
    some (List.replicate kept quote, s.drop (kept + 3))

/-- The text behind an escaped line end: a backslash has been read, blanks may follow, then a line
end, and all blanks and line ends after it are skipped. -/
def escapedLineEnd? (s : List Char) : Option (List Char) :=
  (lineEnd? (skipSpace s)).map fun next => skipSpaceAndLines (next.length + 1) next

/-- Read a multi-line basic string behind its opening quotes. A line end is read as a line feed. -/
def multiBasicRest : (fuel : Nat) → Reader (List Char)
  | 0, s => unexpected s
  | fuel + 1, s => match closing '"' s with
    | some end_ => .ok end_
    | none => match s with
      | '\\' :: rest => match escapedLineEnd? rest with
        | some next => multiBasicRest fuel next
        | none => do
          let (c, rest) ← escape rest
          let (cs, rest) ← multiBasicRest fuel rest
          return (c :: cs, rest)
      | c :: rest => match lineEnd? s with
        | some next => do
          let (cs, rest) ← multiBasicRest fuel next
          return ('\n' :: cs, rest)
        | none => if isBasic c || c = '"' then do
            let (cs, rest) ← multiBasicRest fuel rest
            return (c :: cs, rest)
          else unexpected s
      | [] => unexpected s

/-- Read a multi-line literal string behind its opening apostrophes. -/
def multiLiteralRest : (fuel : Nat) → Reader (List Char)
  | 0, s => unexpected s
  | fuel + 1, s => match closing '\x27' s with
    | some end_ => .ok end_
    | none => match s with
      | c :: rest => match lineEnd? s with
        | some next => do
          let (cs, rest) ← multiLiteralRest fuel next
          return ('\n' :: cs, rest)
        | none => if isPlain c then do
            let (cs, rest) ← multiLiteralRest fuel rest
            return (c :: cs, rest)
          else unexpected s
      | [] => unexpected s

/-- Skip the line end that may follow the opening of a multi-line string. -/
def skipFirstLineEnd (s : List Char) : List Char := (lineEnd? s).getD s

def shortString : Reader (List Char)
  | '"' :: rest => basicRest (rest.length + 1) rest
  | '\x27' :: rest => literalRest rest
  | s => unexpected s

def string : Reader (List Char)
  | '"' :: '"' :: '"' :: rest =>
    multiBasicRest (rest.length + 1) (skipFirstLineEnd rest)
  | '\x27' :: '\x27' :: '\x27' :: rest =>
    multiLiteralRest (rest.length + 1) (skipFirstLineEnd rest)
  | s => shortString s

end EventEngine.Toml
