import EventEngine.Time.Duration

/-!
# Instants

Monotonic time is counted in nanoseconds from the start of a run. The last instant is a little less
than 2^63 seconds away: adding past it fails, deadlines saturate instead, and wall time is an offset
of monotonic time.
-/
namespace EventEngine

/-- A point of monotonic time, in nanoseconds from the start. -/
structure Instant where
  nanos : Nat
  deriving DecidableEq, Repr

namespace Instant

instance : LE Instant := ⟨fun a b => a.nanos ≤ b.nanos⟩
instance : LT Instant := ⟨fun a b => a.nanos < b.nanos⟩
instance (a b : Instant) : Decidable (a ≤ b) := inferInstanceAs (Decidable (a.nanos ≤ b.nanos))
instance (a b : Instant) : Decidable (a < b) := inferInstanceAs (Decidable (a.nanos < b.nanos))

theorem le_def {a b : Instant} : a ≤ b ↔ a.nanos ≤ b.nanos := Iff.rfl
theorem lt_def {a b : Instant} : a < b ↔ a.nanos < b.nanos := Iff.rfl

def start : Instant := ⟨0⟩

/-- The last instant that can be represented. -/
def last : Instant := ⟨9223372036854775807 * 1000000000 + 999999999⟩

/-- The instant `secs` seconds and `nanos` nanoseconds after the start. -/
def ofParts (secs nanos : Nat) : Instant := ⟨secs * 1000000000 + nanos⟩

def secs (t : Instant) : Nat := t.nanos / 1000000000

/-- Nanoseconds beyond the whole seconds. -/
def subsecNanos (t : Instant) : Nat := t.nanos % 1000000000

/-- `t + d`, if it can be represented. -/
def add? (t : Instant) (d : Duration) : Option Instant :=
  if t.nanos + d.nanos ≤ last.nanos then some ⟨t.nanos + d.nanos⟩ else none

/-- `t + d`, stopping at the last instant. -/
def advance (t : Instant) (d : Duration) : Instant :=
  ⟨min (t.nanos + d.nanos) last.nanos⟩

/-- How far `t` lies after `earlier`; zero if it does not. -/
def since (t earlier : Instant) : Duration := ⟨t.nanos - earlier.nanos⟩

/-- A hundred years: the step taken where a period is too long to be added. -/
def farFuture : Duration := .ofParts (100 * 365 * 24 * 60 * 60) 0

/-- `t + period`; if that cannot be represented a far-future instant, and failing that `t`. -/
def deadlineAfter (t : Instant) (period : Duration) : Instant :=
  match t.add? period with
  | some deadline => deadline
  | none => (t.add? farFuture).getD t

theorem le_advance {t : Instant} (le : t ≤ last) (d : Duration) : t ≤ t.advance d :=
  Nat.le_min.mpr ⟨Nat.le_add_right _ _, le⟩

theorem advance_le_last (t : Instant) (d : Duration) : t.advance d ≤ last := Nat.min_le_right _ _

theorem le_deadlineAfter (t : Instant) (period : Duration) : t ≤ t.deadlineAfter period := by
  unfold deadlineAfter add?
  split <;> rename_i h
  · split at h
    · cases h; exact Nat.le_add_right _ _
    · cases h
  · split
    · exact Nat.le_add_right _ _
    · exact Nat.le_refl _

theorem le_last_of_add? {t u : Instant} {d : Duration} (added : t.add? d = some u) : u ≤ last := by
  unfold add? at added
  split at added
  · next le =>
    cases added
    exact le
  · cases added

/-- What can be added later can be added now. -/
theorem isSome_add?_of_le {t u : Instant} {d : Duration} (le : t ≤ u)
    (added : (u.add? d).isSome = true) : (t.add? d).isSome = true := by
  have le : t.nanos ≤ u.nanos := le
  unfold add? at added ⊢
  split at added
  · rw [if_pos (by omega)]
    rfl
  · cases added

theorem deadlineAfter_le_last {t : Instant} (le : t ≤ last) (period : Duration) :
    t.deadlineAfter period ≤ last := by
  unfold deadlineAfter
  split
  · next added => exact le_last_of_add? added
  · cases far : t.add? farFuture with
    | none => exact le
    | some u => exact le_last_of_add? far

end Instant

/-- A wall-clock time, in nanoseconds since the Unix epoch. -/
structure WallTime where
  nanos : Nat
  deriving DecidableEq, Repr

namespace WallTime

/-- The wall time at instant zero, where nothing else is said: 1 700 000 000 s after the Unix epoch.
-/
def atStart : WallTime := ⟨1700000000 * 1000000000⟩

/-- Wall and monotonic time advance together, from the wall time `zero` at instant zero. -/
def ofInstant (t : Instant) (zero : WallTime := atStart) : WallTime := ⟨zero.nanos + t.nanos⟩

/-- Whole seconds since the Unix epoch. -/
def secs (t : WallTime) : Nat := t.nanos / 1000000000

/-- Nanoseconds beyond the whole seconds. -/
def subsecNanos (t : WallTime) : Nat := t.nanos % 1000000000

/-- The longest lateness that can be taken off a wall time: 2^63 - 1 milliseconds. -/
def maxLateness : Duration := .ofMillis 9223372036854775807

/-- The wall time of `deadline`, seen at `now`: the wall time of `now` less the lateness. A lateness
that cannot be taken off counts as none. -/
def ofDeadline (deadline now : Instant) (zero : WallTime := atStart) : WallTime :=
  let late := now.since deadline
  let lateness := if late.nanos ≤ maxLateness.nanos then late.nanos else 0
  ⟨(ofInstant now zero).nanos - lateness⟩

end WallTime
end EventEngine
