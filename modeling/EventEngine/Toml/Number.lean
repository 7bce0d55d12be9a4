import EventEngine.Toml.Text

/-!
# TOML numbers and dates

Integers have 64 bits and a sign. Floats and dates are read for their form and their range; their
values are not kept. A sign, a digit, or the letter of a special float decides which forms are
tried: a date or a time first, then a float, then an integer.
-/
namespace EventEngine.Toml

/-- Read a run of digits with single underscores between them, leaving the underscores out. -/
def digitRun (isDigit : Char → Bool) : Reader (List Char)
  | [] => unexpected []
  | c :: rest => if isDigit c then more [c] rest else unexpected (c :: rest)
where
  /-- Read on behind a digit; the digits read so far stand in reverse. -/
  more (read : List Char) : Reader (List Char)
    | [] => .ok (read.reverse, [])
    | '_' :: c :: rest => if isDigit c then more (c :: read) rest else unexpected (c :: rest)
    | ['_'] => unexpected []
    | c :: rest => if isDigit c then more (c :: read) rest else .ok (read.reverse, c :: rest)

/-- Read a decimal digit run that has no leading zero, or a zero alone. -/
def decimalRun : Reader (List Char)
  | '0' :: rest => .ok (['0'], rest)
  | s => digitRun Char.isDigit s

/-- Read a sign, which is positive where none stands. -/
def sign : List Char → Bool × List Char
  | '-' :: rest => (true, rest)
  | '+' :: rest => (false, rest)
  | s => (false, s)

/-- The integers that have 64 bits. -/
def Value.ofInt? (n : Int) : Except Fault Value :=
  if -9223372036854775808 ≤ n && n < 9223372036854775808 then .ok (.integer n)
  else .error .outOfRange

/-- Whether a number `digits × 10 ^ exponent` is so large that the nearest double is infinite. The
largest double has 309 digits. -/
def overflows (digits : Nat) (exponent : Int) : Bool :=
  let places := exponent + (toString digits).length
  let limit := Nat.pow 2 1024 - Nat.pow 2 970
  if digits = 0 || places < 300 then false
  else if places > 310 then true
  else if exponent < 0 then limit * Nat.pow 10 exponent.natAbs ≤ digits
  else limit ≤ digits * Nat.pow 10 exponent.natAbs

/-- Read the exponent of a float behind its letter. -/
def exponentRest : Reader Int := fun s => do
  let (negative, s) := sign s
  let (digits, s) ← digitRun Char.isDigit s
  let n : Int := digitsValue 10 digits
  return (if negative then -n else n, s)

/-- Read the exponent of a float, which is zero where none stands. -/
def exponent : Reader Int
  | 'e' :: rest => exponentRest rest
  | 'E' :: rest => exponentRest rest
  | s => .ok (0, s)

/-- A float behind its sign, unless it is infinite. Negative infinity is accepted. -/
def Value.ofDecimal (negative : Bool) (digits : List Char) (exponent : Int) : Except Fault Value :=
  if !negative && overflows (digitsValue 10 digits) exponent then .error .outOfRange else .ok .float

/-- Read a decimal integer or a float behind its sign. -/
def decimal (negative : Bool) : Reader Value := fun s => do
  let (whole, rest) ← decimalRun s
  match rest with
  | '.' :: rest =>
    let (fraction, rest) ← digitRun Char.isDigit rest
    let (e, rest) ← exponent rest
    return (← Value.ofDecimal negative (whole ++ fraction) (e - fraction.length), rest)
  | c :: _ =>
    if c = 'e' || c = 'E' then
      let (e, rest) ← exponent rest
      return (← Value.ofDecimal negative whole e, rest)
    else finish whole rest
  | [] => finish whole rest
where
  /-- The integer that has been read. -/
  finish (whole : List Char) : Reader Value := fun rest => do
    let n : Int := digitsValue 10 whole
    return (← Value.ofInt? (if negative then -n else n), rest)

/-- Read an integer in a base with a prefix of its own, behind that. -/
def basedRest (base : Nat) (isDigit : Char → Bool) : Reader Value := fun s => do
  let (digits, rest) ← digitRun isDigit s
  return (← Value.ofInt? (digitsValue base digits), rest)

/-- Read a number. Only one without a sign can have a base of its own. -/
def number : Reader Value
  | '0' :: 'x' :: rest => basedRest 16 isHexDigit rest
  | '0' :: 'o' :: rest => basedRest 8 (fun c => '0' ≤ c && c ≤ '7') rest
  | '0' :: 'b' :: rest => basedRest 2 (fun c => c = '0' || c = '1') rest
  | s =>
    let (negative, rest) := sign s
    match rest with
    | 'i' :: 'n' :: 'f' :: rest => .ok (.float, rest)
    | 'n' :: 'a' :: 'n' :: rest => .ok (.float, rest)
    | _ => decimal negative rest

/-! ## Dates and times -/

/-- The number that the next `count` characters write, if they are digits. -/
def fixedDigits? (count : Nat) (s : List Char) : Option (Nat × List Char) :=
  let digits := s.take count
  if digits.length = count && digits.all Char.isDigit then
    some (digitsValue 10 digits, s.drop count)
  else none

/-- Read a number of two digits within bounds. -/
def twoDigits (low high : Nat) : Reader Nat := fun s =>
  match fixedDigits? 2 s with
  | some (n, rest) => if low ≤ n && n ≤ high then .ok (n, rest) else .error .outOfRange
  | none => unexpected s

def daysOf (year month : Nat) : Nat :=
  if month = 2 then
    if year % 4 = 0 && (year % 100 ≠ 0 || year % 400 = 0) then 29 else 28
  else if month = 4 || month = 6 || month = 9 || month = 11 then 30
  else 31

/-- Read month and day behind `yyyy-`. -/
def dateRest (year : Nat) : Reader Unit := fun s => do
  let (month, s) ← twoDigits 1 12 s
  let ((), s) ← expect '-' s
  let (_, s) ← twoDigits 1 (daysOf year month) s
  return ((), s)

/-- The text behind the hour of a time, if one stands here. -/
def hour? (s : List Char) : Option (List Char) :=
  match fixedDigits? 2 s with
  | some (h, ':' :: rest) => if h < 24 then some rest else none
  | _ => none

/-- Skip the fraction of a second, if one stands here. -/
def skipFraction : List Char → List Char
  | '.' :: c :: rest => if c.isDigit then rest.dropWhile Char.isDigit else '.' :: c :: rest
  | s => s

/-- Read minute and second behind an hour. A leap second is allowed. -/
def timeRest : Reader Unit := fun s => do
  let (_, s) ← twoDigits 0 59 s
  let ((), s) ← expect ':' s
  let (_, s) ← twoDigits 0 60 s
  return ((), skipFraction s)

/-- Read the distance from universal time, if one stands here. -/
def offset : Reader Unit
  | 'Z' :: rest => .ok ((), rest)
  | 'z' :: rest => .ok ((), rest)
  | c :: rest =>
    if c = '+' || c = '-' then do
      let (_, rest) ← twoDigits 0 23 rest
      let ((), rest) ← expect ':' rest
      let (_, rest) ← twoDigits 0 59 rest
      return ((), rest)
    else .ok ((), c :: rest)
  | [] => .ok ((), [])

/-- Read the time of a date, if one stands here. -/
def timeOfDay : Reader Unit
  | c :: rest =>
    if c = 'T' || c = 't' || c = ' ' then
      match hour? rest with
      | some rest => do
        let ((), rest) ← timeRest rest
        offset rest
      | none => .ok ((), c :: rest)
    else .ok ((), c :: rest)
  | [] => .ok ((), [])

def numberOrDate : Reader Value := fun s =>
  match fixedDigits? 4 s with
  | some (year, '-' :: rest) => do
    let ((), rest) ← dateRest year rest
    let ((), rest) ← timeOfDay rest
    return (.datetime, rest)
  | _ => match hour? s with
    | some rest => do
      let ((), rest) ← timeRest rest
      return (.datetime, rest)
    | none => number s

end EventEngine.Toml
