import EventEngine.Proofs.Clocks.Grid
import Mathlib.Logic.Function.Iterate

/-!
# What a taking does

A taking fires what is due, in order, and nothing else. Of the alarms that it fires it drops those
that fire once. A periodic one it puts back at the first instant still ahead that repeated steps
lead to. There are two ways for the steps to leave the grid: a period that cannot be added becomes a
hundred years, and where these cannot be added either, the alarm stays where it is. -/
namespace EventEngine

variable {α : Type}

namespace Instant

variable {t : Instant} {p : Duration} {j k : Nat}

theorem gridPoint_zero (t : Instant) (p : Duration) : t.gridPoint p 0 = t := by
  simp [gridPoint]

/-- The instant that `k` steps lead to. -/
def steps (t : Instant) (p : Duration) (k : Nat) : Instant := (fun u => u.deadlineAfter p)^[k] t

/-- Neither the period nor a hundred years can be added. -/
def AtEnd (t : Instant) (p : Duration) : Prop := t.add? p = none ∧ t.add? farFuture = none

theorem steps_succ (t : Instant) (p : Duration) (k : Nat) :
    t.steps p (k + 1) = (t.steps p k).deadlineAfter p :=
  Function.iterate_succ_apply' ..

theorem steps_mono (le : j ≤ k) : t.steps p j ≤ t.steps p k := by
  induction le with
  | refl => exact Nat.le_refl _
  | step _ ih =>
    rw [steps_succ]
    exact Nat.le_trans ih (le_deadlineAfter _ p)

/-- A step adds the period, or a hundred years where that fails, or nothing where both fail. -/
theorem deadlineAfter_cases (t : Instant) (p : Duration) :
    t.add? p = some (t.deadlineAfter p) ∨ t.add? farFuture = some (t.deadlineAfter p) ∨
      (t.AtEnd p ∧ t.deadlineAfter p = t) := by
  unfold deadlineAfter AtEnd
  cases period : t.add? p with
  | some u => exact .inl rfl
  | none =>
    cases far : t.add? farFuture with
    | some u => exact .inr (.inl rfl)
    | none => exact .inr (.inr ⟨⟨rfl, rfl⟩, rfl⟩)

theorem nanos_of_add? {u : Instant} {d : Duration} (added : t.add? d = some u) :
    u.nanos = t.nanos + d.nanos := by
  unfold add? at added
  split at added
  · exact congrArg nanos (Option.some.inj added).symm
  · cases added

/-- A step that leads anywhere leads on by the shortest period at least. -/
theorem deadlineAfter_moves_or_ends (long : Alarm.minPeriod.nanos ≤ p.nanos) (t : Instant) :
    t.nanos + Alarm.minPeriod.nanos ≤ (t.deadlineAfter p).nanos ∨
      (t.AtEnd p ∧ t.deadlineAfter p = t) := by
  rcases t.deadlineAfter_cases p with added | added | ends
  · exact .inl (nanos_of_add? added ▸ Nat.add_le_add_left long _)
  · exact .inl (nanos_of_add? added ▸ Nat.add_le_add_left (by decide) _)
  · exact .inr ends

theorem AtEnd.deadlineAfter (ends : t.AtEnd p) : t.deadlineAfter p = t := by
  rw [Instant.deadlineAfter, ends.1, ends.2]
  rfl

theorem atEnd_of_not_moves (long : Alarm.minPeriod.nanos ≤ p.nanos)
    (stays : ¬ t < t.deadlineAfter p) : t.AtEnd p := by
  rcases deadlineAfter_moves_or_ends long t with moves | ⟨ends, -⟩
  · have positive : 0 < Alarm.minPeriod.nanos := by decide
    exact absurd (show t.nanos < _ by omega) stays
  · exact ends

/-- From the end of time no step leads on. -/
theorem AtEnd.steps_le (ends : (t.steps p j).AtEnd p) (k : Nat) : t.steps p k ≤ t.steps p j := by
  have stays : ∀ i, t.steps p (j + i) = t.steps p j := by
    intro i
    induction i with
    | zero => rfl
    | succ i ih => rw [← Nat.add_assoc, steps_succ, ih, ends.deadlineAfter]
  rcases Nat.le_total k j with le | le
  · exact steps_mono le
  · obtain ⟨i, rfl⟩ := Nat.exists_eq_add_of_le le
    exact stays i ▸ Nat.le_refl _

/-- After `k` steps from `t`, each of which leads on from an instant that has come by `now`, the
instant `u` is ahead, or it is the end of time. -/
structure CatchesUp (now : Instant) (p : Duration) (t u : Instant) (k : Nat) : Prop where
  reached : u = t.steps p k
  behind : ∀ j < k, t.steps p j ≤ now ∧ t.steps p j < t.steps p (j + 1)
  done : now < u ∨ u.AtEnd p

namespace CatchesUp

variable {now u : Instant}

/-- Few steps are needed. -/
theorem steps_le (catches : CatchesUp now p t u k) (long : Alarm.minPeriod.nanos ≤ p.nanos) :
    k ≤ (now.nanos - t.nanos) / Alarm.minPeriod.nanos + 1 := by
  have far : ∀ j ≤ k, t.nanos + j * Alarm.minPeriod.nanos ≤ (t.steps p j).nanos := by
    intro j le
    induction j with
    | zero => simp [steps]
    | succ j ih =>
      have before := ih (Nat.le_of_succ_le le)
      have moves := (catches.behind j le).2
      rw [steps_succ] at moves ⊢
      rcases deadlineAfter_moves_or_ends long (t.steps p j) with on | ⟨-, same⟩
      · rw [Nat.succ_mul]
        omega
      · rw [same] at moves
        exact absurd moves (Nat.lt_irrefl _)
  rcases k with _ | k
  · exact Nat.zero_le _
  · have come := (catches.behind k (Nat.lt_succ_self k)).1
    have before := far k (Nat.le_succ k)
    have positive : 0 < Alarm.minPeriod.nanos := by decide
    rw [le_def] at come
    exact Nat.succ_le_succ ((Nat.le_div_iff_mul_le positive).mpr (by omega))

/-- The instant is not ahead just if time has ended on the way there. -/
theorem le_iff (catches : CatchesUp now p t u k) :
    u ≤ now ↔ ∃ j, t.steps p j ≤ now ∧ (t.steps p j).AtEnd p := by
  constructor
  · intro come
    have ends := catches.done.resolve_left (Nat.not_lt.mpr come)
    exact ⟨k, catches.reached ▸ come, catches.reached ▸ ends⟩
  · rintro ⟨j, come, ends⟩
    rw [catches.reached]
    exact Nat.le_trans (ends.steps_le k) come

end CatchesUp
end Instant

namespace Schedule

variable {now d : Instant} {p : Duration} {k : Nat}

theorem catchUp_catchesUp (long : Alarm.minPeriod.nanos ≤ p.nanos) (next : Instant)
    (skipped : UInt32) : ∃ k, Instant.CatchesUp now p next (catchUp now p next skipped).1 k := by
  induction next, skipped using catchUp.induct now p with
  | case1 next skipped come moves ih =>
    obtain ⟨k, reached, behind, done⟩ := ih
    rw [catchUp_of_moves come moves]
    refine ⟨k + 1, reached, fun j lt => ?_, done⟩
    rcases j with _ | j
    · exact ⟨come, moves⟩
    · exact behind j (Nat.lt_of_succ_lt_succ lt)
  | case2 next skipped come ends =>
    rw [catchUp_of_ends ends]
    exact ⟨0, rfl, fun _ lt => absurd lt (Nat.not_lt_zero _),
      .inr (Instant.atEnd_of_not_moves long ends)⟩
  | case3 next skipped ahead =>
    rw [catchUp_of_ahead ahead]
    exact ⟨0, rfl, fun _ lt => absurd lt (Nat.not_lt_zero _), .inl (Nat.lt_of_not_le ahead)⟩

/-- The next deadline of a periodic alarm that is due is found by catching up. -/
theorem following_catchesUp (long : Alarm.minPeriod.nanos ≤ p.nanos) (due : d ≤ now) :
    ∃ k, Instant.CatchesUp now p d (following now p d) k := by
  rw [← catchUp_eq_following due 0]
  exact catchUp_catchesUp long d 0

/-- As long as the grid can be represented, the next deadline is the first point of it ahead. -/
theorem following_first (pos : 0 < p.nanos) (due : d ≤ now)
    (behind : ∀ j < k, d.gridPoint p j ≤ now) (ahead : now < d.gridPoint p k)
    (fits : d.gridPoint p k ≤ Instant.last) : following now p d = d.gridPoint p k := by
  have first : d.gridAfter p now = d.gridPoint p k := by
    refine Instant.le_antisymm (Instant.gridAfter_le due ahead) (Instant.gridPoint_mono ?_)
    by_contra fewer
    have come := behind _ (Nat.lt_of_not_le fewer)
    exact absurd (Instant.lt_gridAfter pos) (Nat.not_lt.mpr come)
  have come : d.gridPoint p 0 ≤ now := (d.gridPoint_zero p).symm ▸ due
  have found := following_gridPoint pos due come (first ▸ fits)
  rw [d.gridPoint_zero] at found
  exact found.trans first

variable {s : Schedule α} {a b : Alarm α}

/-- An alarm that fires once is gone once it is taken. -/
theorem Ordered.once_gone (ordered : s.Ordered) (member : a ∈ s) (due : a.deadline ≤ now)
    (once : a.period = none) : a.id ∉ (s.afterTaking now).ids := by
  intro present
  obtain ⟨b, hb, same⟩ := mem_ids.mp present
  obtain ⟨a', member', left⟩ := ordered.mem_afterTaking.mp hb
  obtain rfl := ordered.eq_of_id member' member ((Alarm.id_of_after left).symm.trans same)
  simp [Alarm.after_of_due due, Alarm.renewed, once] at left

/-- A periodic alarm that is due goes on. -/
theorem Ordered.goes_on (ordered : s.Ordered) (member : a ∈ s) (due : a.deadline ≤ now)
    (periodic : a.period = some p) :
    { a with deadline := following now p a.deadline } ∈ s.afterTaking now := by
  refine ordered.mem_afterTaking.mpr ⟨a, member, ?_⟩
  rw [Alarm.after_of_due due, Alarm.renewed, periodic, Option.map_some]

end Schedule

/-- The firing is of an earlier deadline, or of the same deadline under a smaller id. -/
def Firing.Before (f g : Firing α) : Prop :=
  f.deadline < g.deadline ∨ (f.deadline = g.deadline ∧ f.id < g.id)

/-- The next deadline of a periodic alarm that was due at `d`, taken at `now`. -/
structure Instant.Resumes (now : Instant) (p : Duration) (d next : Instant) : Prop where
  /-- It is found after a bounded number of steps, and no earlier step leads past `now`. -/
  found : ∃ k ≤ (now.nanos - d.nanos) / Alarm.minPeriod.nanos + 1, CatchesUp now p d next k
  /-- It is the first point of the grid ahead, if this point can be represented. -/
  grid : ∀ k, (∀ j < k, d.gridPoint p j ≤ now) → now < d.gridPoint p k → d.gridPoint p k ≤ last →
    next = d.gridPoint p k ∧ now < next ∧ next.nanos ≤ now.nanos + p.nanos
  /-- It is not ahead just if time has ended on the way there. -/
  ends : next ≤ now ↔ ∃ j, d.steps p j ≤ now ∧ (d.steps p j).AtEnd p

theorem Instant.following_resumes {now d : Instant} {p : Duration}
    (long : Alarm.minPeriod.nanos ≤ p.nanos) (due : d ≤ now) :
    Resumes now p d (Schedule.following now p d) := by
  have positive : 0 < Alarm.minPeriod.nanos := by decide
  obtain ⟨k, catches⟩ := Schedule.following_catchesUp long due
  refine ⟨⟨k, catches.steps_le long, catches⟩, fun k behind ahead fits => ?_, catches.le_iff⟩
  have found := Schedule.following_first (Nat.lt_of_lt_of_le positive long) due behind ahead fits
  refine ⟨found, found ▸ ahead, ?_⟩
  rw [found]
  rcases k with _ | k
  · rw [gridPoint_zero] at ahead
    exact absurd ahead (Nat.not_lt.mpr due)
  · rw [nanos_gridPoint_succ]
    exact Nat.add_le_add_right (behind k (Nat.lt_succ_self k)) _

namespace Clock

/-- A taking fires the alarms that are due, in order and with the deadlines that they had. It leaves
the other alarms alone, drops those of the due alarms that fire once, and puts the periodic ones
back, each once and under its id, where it resumes. -/
theorem take_spec {c : Clock α} (ordered : c.alarms.Ordered) (now : Instant) :
    let alarms := (c.take now).1.alarms
    let firings := (c.take now).2.1
    firings = (c.alarms.filter (·.deadline ≤ now)).map Alarm.firing ∧
      firings.Pairwise Firing.Before ∧ alarms.Ordered ∧
      (∀ b ∈ alarms, ∃ a ∈ c.alarms, b.id = a.id) ∧
      ∀ a ∈ c.alarms,
        (now < a.deadline → a ∈ alarms) ∧
        (a.deadline ≤ now → a.period = none → a.id ∉ alarms.ids) ∧
        ∀ p, a.deadline ≤ now → a.period = some p →
          ∃ next, { a with deadline := next } ∈ alarms ∧ Instant.Resumes now p a.deadline next := by
  intro alarms firings
  have due : firings = (c.alarms.filter (·.deadline ≤ now)).map Alarm.firing :=
    congrArg (List.map Alarm.firing) (Schedule.due_eq_filter ordered.sorted).1
  refine ⟨due, ?_, ordered.afterTaking, fun b member => ?_, fun a member => ⟨?_, ?_, ?_⟩⟩
  · rw [due, List.pairwise_map]
    exact ordered.ascending.sublist List.filter_sublist
  · obtain ⟨a, ha, left⟩ := ordered.mem_afterTaking.mp member
    exact ⟨a, ha, Alarm.id_of_after left⟩
  · intro late
    exact ordered.mem_afterTaking.mpr ⟨a, member, Alarm.after_of_not_due (Nat.not_le.mpr late)⟩
  · exact ordered.once_gone member
  · intro p come periodic
    have long := ordered.periods a member p periodic
    exact ⟨_, ordered.goes_on member come periodic, Instant.following_resumes long come⟩

/-- An alarm every 2 ms was due at 5 ms. At 9 ms it goes on at 11 ms. -/
theorem take_missed_periods :
    let a : Alarm Char := ⟨2, ⟨5000000⟩, some (.ofMillis 2), 'a'⟩
    let c : Clock Char :=
      { alarms := [a, ⟨3, ⟨5000000⟩, none, 'b'⟩, ⟨1, ⟨10000000⟩, none, 'c'⟩], nextId := 4 }
    c.alarms.Ordered ∧
      (c.take ⟨9000000⟩).2.1 = [⟨2, ⟨5000000⟩, 'a'⟩, ⟨3, ⟨5000000⟩, 'b'⟩] ∧
      { a with deadline := ⟨11000000⟩ } ∈ (c.take ⟨9000000⟩).1.alarms ∧
      3 ∉ (c.take ⟨9000000⟩).1.alarms.ids := by
  intro a c
  have ordered : c.alarms.Ordered := by
    refine ⟨by decide, by decide, ?_⟩
    simp only [c, a, List.forall_mem_cons]
    exact ⟨by rintro _ ⟨⟩; decide, nofun, nofun, nofun⟩
  obtain ⟨-, -, -, -, each⟩ := take_spec ordered ⟨9000000⟩
  obtain ⟨-, -, periodic⟩ := each a (by simp [c])
  obtain ⟨-, once, -⟩ := each ⟨3, ⟨5000000⟩, none, 'b'⟩ (by simp [c])
  obtain ⟨next, goes_on, resumes⟩ := periodic (.ofMillis 2) (by decide) rfl
  have point : a.deadline.gridPoint (.ofMillis 2) 3 = ⟨11000000⟩ := by decide
  have later := (resumes.grid 3 (by decide) (by decide) (by decide)).1
  rw [later, point] at goes_on
  exact ⟨ordered, by decide, goes_on, once (by decide) rfl⟩

end Clock
end EventEngine
