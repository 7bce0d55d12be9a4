import EventEngine.Proofs.Clocks.Taking
import Mathlib.Data.Set.Card
import Mathlib.Order.Interval.Finset.Nat

/-!
# Counting missed periods

A taking that comes late reports how many points of the grid of a periodic alarm have gone by since
the alarm was due. The points are counted one by one in a word of 32 bits. So the report is exact as
long as fewer than 2^32 periods have passed. With the shortest period these are less than fifty
days.
-/
namespace EventEngine

variable {α : Type}

/-- The number of missed periods that the notice reports of the alarm. -/
def ClockNotice.missed? (id : AlarmId) : ClockNotice → Option UInt32
  | skipped id' count => if id' = id then some count else none
  | _ => none

/-- The numbers of missed periods that a taking reports of the alarm. -/
def Clock.reports (c : Clock α) (now : Instant) (id : AlarmId) : List UInt32 :=
  (c.take now).2.2.filterMap (ClockNotice.missed? id)

namespace Instant

variable {t₀ now : Instant} {p : Duration}

/-- The points of the grid, the first one apart, that have come. -/
def pointsPast (t₀ : Instant) (p : Duration) (now : Instant) : Set Nat :=
  {k | 1 ≤ k ∧ t₀.gridPoint p k ≤ now}

theorem ncard_pointsPast (pos : 0 < p.nanos) (begun : t₀ ≤ now) :
    (t₀.pointsPast p now).ncard = (now.nanos - t₀.nanos) / p.nanos := by
  have interval : t₀.pointsPast p now = Finset.Icc 1 ((now.nanos - t₀.nanos) / p.nanos) := by
    ext k
    simp [pointsPast, gridPoint_le_iff pos begun]
  rw [interval, Set.ncard_coe_finset, Nat.card_Icc, Nat.add_sub_cancel]

end Instant

namespace Schedule

variable {s : Schedule α} {a : Alarm α} {now d : Instant} {p : Duration}

/-- The number that is reported is that of the points, wrapped around at 2^32. -/
theorem missed_of_fits (pos : 0 < p.nanos) (due : d ≤ now)
    (fits : d.gridAfter p now ≤ Instant.last) : missed now p d =
      if (now.nanos - d.nanos) / p.nanos = 0 then none
      else some (.ofNat ((now.nanos - d.nanos) / p.nanos)) := by
  have come : d.gridPoint p 0 ≤ now := (d.gridPoint_zero p).symm ▸ due
  have le := Instant.gridPoint_succ_le pos come
  have first : d.deadlineAfter p = d.gridPoint p 1 := by
    have step := Instant.deadlineAfter_gridPoint (Nat.le_trans le fits)
    rwa [d.gridPoint_zero] at step
  rw [missed_eq, first]
  by_cases none : (now.nanos - d.nanos) / p.nanos = 0
  · have ahead : ¬ d.gridPoint p 1 ≤ now := by
      rw [Instant.gridPoint_le_iff pos due]
      omega
    rw [if_neg ahead, if_pos none]
  · have past : d.gridPoint p 1 ≤ now :=
      (Instant.gridPoint_le_iff pos due).mpr (Nat.pos_of_ne_zero none)
    rw [if_pos past, if_neg none, catchUp_gridPoint pos due fits _ 0 rfl le]
    simp

/-- The number that is reported of an alarm when it is taken. -/
theorem reports_eq_filterMap (c : Clock α) (now : Instant) (id : AlarmId) :
    c.reports now id = (c.alarms.due now).filterMap fun a =>
      if a.id = id then a.period.bind fun p => missed now p a.deadline else none := by
  have notices : (c.take now).2.2 =
      .taken now ((c.alarms.due now).map fun a => (a.id, a.deadline)) ::
        (c.alarms.misses now).map fun m => .skipped m.1 m.2 := rfl
  rw [Clock.reports, notices, List.filterMap_cons_none rfl, List.filterMap_map, misses,
    List.filterMap_filterMap]
  refine List.filterMap_congr fun a _ => ?_
  cases periodic : a.period with
  | none => simp
  | some p => cases counted : missed now p a.deadline <;> simp [counted, ClockNotice.missed?]

/-- No other alarm has the id. -/
theorem Ordered.reports_eq {c : Clock α} (ordered : c.alarms.Ordered) (member : a ∈ c.alarms)
    (due : a.deadline ≤ now) (periodic : a.period = some p) :
    c.reports now a.id = (missed now p a.deadline).toList := by
  have distinct : (ids (c.alarms.due now)).Nodup :=
    ordered.distinct.sublist ((List.takeWhile_sublist _).map _)
  obtain ⟨before, after, split⟩ := List.append_of_mem (mem_due ordered.sorted member due)
  simp only [ids, split, List.map_append, List.map_cons, List.nodup_append, List.nodup_cons,
    List.mem_map, List.mem_cons] at distinct
  obtain ⟨-, ⟨absent, -⟩, apart⟩ := distinct
  have early : ∀ b ∈ before, b.id ≠ a.id := fun b member => apart _ ⟨b, member, rfl⟩ _ (.inl rfl)
  have late : ∀ b ∈ after, b.id ≠ a.id := fun b member same => absent ⟨b, member, same⟩
  rw [reports_eq_filterMap, split, List.filterMap_append, List.filterMap_cons,
    List.filterMap_eq_nil_iff.mpr fun b member => if_neg (early b member),
    List.filterMap_eq_nil_iff.mpr fun b member => if_neg (late b member), if_pos rfl, periodic,
    Option.bind_some]
  cases missed now p a.deadline <;> rfl

end Schedule

/-- If the points of the grid can be represented up to the first one ahead, a taking reports how
many have gone by since the alarm was due, and nothing where it is none. The number is a word of 32
bits: it is right just if fewer than 2^32 periods have passed. -/
theorem Clock.missed_periods_exact_iff {c : Clock α} {a : Alarm α} {p : Duration} {now : Instant}
    (ordered : c.alarms.Ordered) (member : a ∈ c.alarms) (periodic : a.period = some p)
    (due : a.deadline ≤ now) (fits : a.deadline.gridAfter p now ≤ Instant.last) :
    let elapsed := now.nanos - a.deadline.nanos
    let missed := (a.deadline.pointsPast p now).ncard
    let reports := c.reports now a.id
    missed = elapsed / p.nanos ∧
      reports = (if missed = 0 then [] else [.ofNat missed]) ∧
      ((reports.map UInt32.toNat).sum = missed ↔ elapsed < 2 ^ 32 * p.nanos) := by
  intro elapsed missed reports
  have long := ordered.periods a member p periodic
  have pos : 0 < p.nanos := Nat.lt_of_lt_of_le (by decide) long
  have counted : missed = elapsed / p.nanos := Instant.ncard_pointsPast pos due
  have reported : reports = if missed = 0 then [] else [.ofNat missed] := by
    have own : reports = _ := ordered.reports_eq member due periodic
    rw [own, Schedule.missed_of_fits pos due fits, counted]
    split <;> rfl
  have wrapped : (reports.map UInt32.toNat).sum = missed % 2 ^ 32 := by
    rw [reported]
    by_cases none : missed = 0
    · simp [none]
    · simp [none]
  have few : elapsed < 2 ^ 32 * p.nanos ↔ missed < 2 ^ 32 := by
    rw [counted, Nat.div_lt_iff_lt_mul pos]
  refine ⟨counted, reported, ?_⟩
  rw [wrapped, few]
  constructor
  · intro same
    have lt := Nat.mod_lt missed (show 0 < 2 ^ 32 by decide)
    omega
  · exact Nat.mod_eq_of_lt

/-- An alarm every millisecond is taken 2^32 milliseconds late. It has missed 2^32 periods, and none
is reported. -/
theorem Clock.missed_periods_wrap_around :
    let a : Alarm Char := ⟨1, ⟨1000000⟩, some (.ofMillis 1), 'a'⟩
    let c : Clock Char := { alarms := [a], nextId := 2 }
    let now : Instant := ⟨1000000 + 2 ^ 32 * 1000000⟩
    c.alarms.Ordered ∧ a.deadline ≤ now ∧ a.deadline.gridAfter (.ofMillis 1) now ≤ Instant.last ∧
      (a.deadline.pointsPast (.ofMillis 1) now).ncard = 2 ^ 32 ∧ c.reports now 1 = [0] := by
  intro a c now
  have ordered : c.alarms.Ordered := by
    refine ⟨by decide, by decide, ?_⟩
    simp only [c, a, List.forall_mem_cons]
    exact ⟨by rintro _ ⟨⟩; decide, nofun⟩
  have due : a.deadline ≤ now := by decide
  have fits : a.deadline.gridAfter (.ofMillis 1) now ≤ Instant.last := by decide
  obtain ⟨counted, reported, -⟩ :=
    missed_periods_exact_iff (a := a) ordered (List.mem_singleton.mpr rfl) rfl due fits
  have many : (now.nanos - a.deadline.nanos) / (Duration.ofMillis 1).nanos = 2 ^ 32 := by decide
  rw [many] at counted
  rw [counted] at reported
  exact ⟨ordered, due, fits, counted, reported⟩

end EventEngine
