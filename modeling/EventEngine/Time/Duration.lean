/-!
# Durations

A duration counts whole nanoseconds. It is read and written as seconds and the nanoseconds of the
last second, and it is shown in the largest unit that gives a non-zero integer part.
-/
namespace EventEngine

/-- A length of time in nanoseconds. -/
structure Duration where
  nanos : Nat
  deriving DecidableEq, Repr

namespace Duration

def nanosPerSecond : Nat := 1000000000

/-- The duration of `secs` seconds and `nanos` nanoseconds. -/
def ofParts (secs nanos : Nat) : Duration := ⟨secs * nanosPerSecond + nanos⟩

def ofMillis (ms : Nat) : Duration := ⟨ms * 1000000⟩

def secs (d : Duration) : Nat := d.nanos / nanosPerSecond

/-- Nanoseconds beyond the whole seconds. -/
def subsecNanos (d : Duration) : Nat := d.nanos % nanosPerSecond

/-- Whole microseconds, rounded down. -/
def micros (d : Duration) : Nat := d.nanos / 1000

@[simp] theorem nanos_ofParts (s n : Nat) : (ofParts s n).nanos = s * 1000000000 + n := rfl

@[simp] theorem nanos_ofMillis (ms : Nat) : (ofMillis ms).nanos = ms * 1000000 := rfl

/-- Drop the zeros at the end of a list of digits. -/
def trimZeros (digits : List Char) : List Char :=
  (digits.reverse.dropWhile (· == '0')).reverse

/-- `whole`, then the fraction `part / 10 ^ places` without its trailing zeros, then the unit. -/
def decimal (whole part places : Nat) (unit : String) : String :=
  let digits := (Nat.repr part).toList
  let fraction := trimZeros (List.replicate (places - digits.length) '0' ++ digits)
  let point := if fraction.isEmpty then "" else "."
  Nat.repr whole ++ point ++ String.ofList fraction ++ unit

/-- The duration in the largest of the units s, ms, µs and ns with a non-zero integer part;
zero is `0ns`. -/
def text (d : Duration) : String :=
  let rest := d.subsecNanos
  if 0 < d.secs then decimal d.secs rest 9 "s"
  else if 1000000 ≤ rest then decimal (rest / 1000000) (rest % 1000000) 6 "ms"
  else if 1000 ≤ rest then decimal (rest / 1000) (rest % 1000) 3 "µs"
  else decimal rest 0 0 "ns"

/-- An optional duration: `Some(100ms)`, or `None`. -/
def optionText : Option Duration → String
  | some d => "Some(" ++ d.text ++ ")"
  | none => "None"

end Duration
end EventEngine
