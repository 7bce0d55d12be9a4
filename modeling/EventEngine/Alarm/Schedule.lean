import EventEngine.Time.Instant

/-!
# Schedules

A schedule is a list of alarms in order of deadline, alarms of one deadline in order of id. Taking
what is due removes one-shot alarms and moves periodic ones to the first instant of their grid that
is still ahead, so that a clock that fell behind does not fire in a burst.
-/
namespace EventEngine

/-- Alarms are numbered from 1 in the order in which a clock issues them. The counter has 64 bits,
so that ids stand for different alarms as long as a clock has issued fewer than 2^64 of them. -/
abbrev AlarmId := Nat

def AlarmId.text (id : AlarmId) : String := s!"alarm-{id}"

/-- Ids that were issued differ in 64 bits just if they differ, up to 2^64 of them. -/
theorem AlarmId.ofNat_inj {a b next : AlarmId} (few : next ≤ UInt64.size) (ha : a < next)
    (hb : b < next) : UInt64.ofNat a = UInt64.ofNat b ↔ a = b := by
  rw [← UInt64.toNat_inj, UInt64.toNat_ofNat_of_lt' (Nat.lt_of_lt_of_le ha few),
    UInt64.toNat_ofNat_of_lt' (Nat.lt_of_lt_of_le hb few)]

structure Alarm (α : Type) where
  id : AlarmId
  deadline : Instant
  /-- None for an alarm that fires once. -/
  period : Option Duration
  /-- What the alarm runs when it fires. -/
  callback : α
  deriving DecidableEq, Repr

/-- An alarm taken out to be fired, with the deadline that it had. -/
structure Firing (α : Type) where
  id : AlarmId
  deadline : Instant
  callback : α
  deriving DecidableEq, Repr

/-- Scheduled alarms, the earliest first. -/
abbrev Schedule (α : Type) := List (Alarm α)

variable {α : Type}

namespace Alarm

/-- Order by deadline, then by id. -/
def notAfter (a b : Alarm α) : Bool :=
  a.deadline < b.deadline || (a.deadline = b.deadline && a.id ≤ b.id)

def firing (a : Alarm α) : Firing α := ⟨a.id, a.deadline, a.callback⟩

/-- Shortest period of a periodic alarm. -/
def minPeriod : Duration := .ofMillis 1

/-- A requested period, at least `minPeriod`. -/
def clampPeriod (period : Duration) : Duration := ⟨max period.nanos minPeriod.nanos⟩

end Alarm

namespace Schedule

/-- Insert an alarm behind everything that does not come after it. -/
def insert (a : Alarm α) : Schedule α → Schedule α
  | [] => [a]
  | b :: rest => if b.notAfter a then b :: insert a rest else a :: b :: rest

/-- Whether inserting `a` makes it the earliest alarm. -/
def comesFirst (a : Alarm α) : Schedule α → Bool
  | [] => true
  | b :: _ => !b.notAfter a

def nextDeadline (s : Schedule α) : Option Instant := s.head?.map (·.deadline)

/-- From `next`, step by `period` until past `now`, counting the steps in a word of 32 bits. Where a
step leads nowhere later, time has ended and the last instant reached is kept. -/
def catchUp (now : Instant) (period : Duration) (next : Instant) (skipped : UInt32) :
    Instant × UInt32 :=
  if _ahead : next ≤ now then
    if _moves : next < next.deadlineAfter period then
      catchUp now period (next.deadlineAfter period) (skipped + 1)
    else (next, skipped)
  else (next, skipped)
termination_by now.nanos + 1 - next.nanos
decreasing_by
  simp only [Instant.le_def, Instant.lt_def] at _ahead _moves
  omega

/-- How many whole periods lead from `next` past `now`, or as far as instants can be represented. -/
def wholePeriods (now : Instant) (period : Duration) (next : Instant) : Nat :=
  if next ≤ now then
    min ((now.nanos - next.nanos) / period.nanos + 1)
      ((Instant.last.nanos - next.nanos) / period.nanos)
  else 0

/-- Where catching up from `next` leads to. The whole periods are passed over at once, since an
alarm with a short period may have missed billions of them. -/
def caughtUp (now : Instant) (period : Duration) (next : Instant) : Instant × UInt32 :=
  let periods := wholePeriods now period next
  catchUp now period ⟨next.nanos + periods * period.nanos⟩ (.ofNat periods)

/-- The next deadline of a periodic alarm that was due at `deadline`, taken at `now`. -/
def following (now : Instant) (period : Duration) (deadline : Instant) : Instant :=
  (caughtUp now period (deadline.deadlineAfter period)).1

/-- The number of periods passed over, if the alarm's next deadline has been missed too. -/
def missed (now : Instant) (period : Duration) (deadline : Instant) : Option UInt32 :=
  let next := deadline.deadlineAfter period
  if next ≤ now then some (caughtUp now period next).2 else none

/-- Put a periodic alarm back, past `now`; drop a one-shot alarm. -/
def reschedule (now : Instant) (rest : Schedule α) (a : Alarm α) : Schedule α :=
  match a.period with
  | some period => insert { a with deadline := following now period a.deadline } rest
  | none => rest

def due (now : Instant) (s : Schedule α) : List (Alarm α) := s.takeWhile (·.deadline ≤ now)

/-- The schedule once the alarms due at `now` are taken. -/
def afterTaking (now : Instant) (s : Schedule α) : Schedule α :=
  (s.due now).foldl (reschedule now) (s.dropWhile (·.deadline ≤ now))

/-- The due alarms that missed periods, each with their number. -/
def misses (now : Instant) (s : Schedule α) : List (AlarmId × UInt32) :=
  (s.due now).filterMap fun a => do
    let period ← a.period
    let count ← missed now period a.deadline
    return (a.id, count)

def remove (id : AlarmId) (s : Schedule α) : Schedule α := s.filter (·.id != id)

def hasId (id : AlarmId) (s : Schedule α) : Bool := s.any (·.id == id)

section CatchUp

variable {now next : Instant} {period : Duration} {k : Nat}

theorem catchUp_of_moves (come : next ≤ now) (moves : next < next.deadlineAfter period)
    (skipped : UInt32) : catchUp now period next skipped =
      catchUp now period (next.deadlineAfter period) (skipped + 1) := by
  rw [catchUp, dif_pos come, dif_pos moves]

theorem catchUp_of_ends (ends : ¬ next < next.deadlineAfter period) (skipped : UInt32) :
    catchUp now period next skipped = (next, skipped) := by
  rw [catchUp]
  split
  · rfl
  · rfl

theorem catchUp_of_ahead (ahead : ¬ next ≤ now) (skipped : UInt32) :
    catchUp now period next skipped = (next, skipped) := by
  rw [catchUp, dif_neg ahead]

/-- Whole periods that are passed over begin by `now`, and end where they can be represented. -/
theorem of_lt_wholePeriods (lt : k < wholePeriods now period next) :
    0 < period.nanos ∧ next.nanos + k * period.nanos ≤ now.nanos ∧
      next.nanos + (k + 1) * period.nanos ≤ Instant.last.nanos := by
  unfold wholePeriods at lt
  split at lt
  · next come =>
    obtain ⟨begins, ends⟩ := Nat.lt_min.mp lt
    have pos : 0 < period.nanos := by
      refine Nat.pos_of_ne_zero fun none => ?_
      rw [none, Nat.div_zero] at ends
      exact absurd ends (Nat.not_lt_zero k)
    have begins : k * period.nanos ≤ now.nanos - next.nanos :=
      (Nat.le_div_iff_mul_le pos).mp (Nat.le_of_lt_succ begins)
    have ends : (k + 1) * period.nanos ≤ Instant.last.nanos - next.nanos :=
      (Nat.le_div_iff_mul_le pos).mp ends
    have positive : 0 < (k + 1) * period.nanos := Nat.mul_pos (Nat.succ_pos k) pos
    rw [Instant.le_def] at come
    exact ⟨pos, by omega, by omega⟩
  · exact absurd lt (Nat.not_lt_zero k)

/-- A catch-up can be begun after some of the whole periods. -/
theorem catchUp_of_le_wholePeriods (le : k ≤ wholePeriods now period next) :
    catchUp now period ⟨next.nanos + k * period.nanos⟩ (.ofNat k) = catchUp now period next 0 := by
  induction k with
  | zero => simp
  | succ k ih =>
    obtain ⟨pos, come, fits⟩ := of_lt_wholePeriods le
    have step : (⟨next.nanos + k * period.nanos⟩ : Instant).deadlineAfter period =
        ⟨next.nanos + (k + 1) * period.nanos⟩ := by
      rw [Nat.succ_mul, ← Nat.add_assoc] at fits ⊢
      rw [Instant.deadlineAfter, Instant.add?, if_pos fits]
    have moves : (⟨next.nanos + k * period.nanos⟩ : Instant) <
        (⟨next.nanos + k * period.nanos⟩ : Instant).deadlineAfter period := by
      rw [step]
      exact Nat.add_lt_add_left (Nat.mul_lt_mul_of_pos_right (Nat.lt_succ_self k) pos) _
    rw [← ih (Nat.le_of_succ_le le), catchUp_of_moves come moves, step, UInt32.ofNat_add]
    rfl

theorem caughtUp_eq_catchUp (now : Instant) (period : Duration) (next : Instant) :
    caughtUp now period next = catchUp now period next 0 :=
  catchUp_of_le_wholePeriods (Nat.le_refl _)

theorem following_eq (now : Instant) (period : Duration) (deadline : Instant) :
    following now period deadline = (catchUp now period (deadline.deadlineAfter period) 0).1 :=
  congrArg Prod.fst (caughtUp_eq_catchUp ..)

theorem missed_eq (now : Instant) (period : Duration) (deadline : Instant) :
    missed now period deadline = if deadline.deadlineAfter period ≤ now then
      some (catchUp now period (deadline.deadlineAfter period) 0).2 else none := by
  rw [missed, caughtUp_eq_catchUp]

end CatchUp

end Schedule
end EventEngine
