import EventEngine.Proofs.Clocks.Timelines

/-!
# Sleep targets

The schedule of a clock stays ordered through every step. At most one timer thread sleeps, and it
sleeps until the earliest deadline that there is: whoever changes this deadline wakes the thread,
and the flag of an insertion says whether it has changed.
-/
namespace EventEngine

variable {α : Type} {kind : Clock α → Alarm α → Prop} {k k' : Clock α}

namespace Clock

/-- What a step can do to the schedule. -/
theorem Step.schedule (step : Step kind k k') :
    k'.alarms = k.alarms ∨
    (∃ a, kind k a ∧ a.id = k.nextId ∧ k'.alarms = k.alarms.insert a) ∨
    (∃ id, k'.alarms = k.alarms.remove id) ∨
    ∃ now, k'.alarms = k.alarms.afterTaking now := by
  cases step with
  | start started => obtain ⟨-, rfl⟩ | ⟨-, -, rfl⟩ := start_cases started <;> exact .inl rfl
  | stop => obtain ⟨-, same⟩ | ⟨-, same⟩ := stop_cases k <;> exact .inl (by rw [same])
  | add callback deadline period allowed => exact .inr (.inl ⟨_, allowed, rfl, rfl⟩)
  | remove id =>
    obtain same | same := remove_cases k id
    · exact .inl (by rw [same])
    · exact .inr (.inr (.inl ⟨id, by rw [same]⟩))
  | @move now timer member =>
    have moved := move_cases k now timer
    generalize k.move now timer = result at moved
    cases moved with
    | take _ _ _ => exact .inr (.inr (.inr ⟨now, rfl⟩))
    | _ => exact .inl rfl
  | drop generation => exact .inl rfl

/-- Every step keeps the schedule in order. -/
theorem Step.ordered (step : Step Timeline.Lasting k k') (sound : k.Sound)
    (ordered : k.alarms.Ordered) : k'.alarms.Ordered := by
  obtain same | ⟨a, long, new, same⟩ | ⟨id, same⟩ | ⟨now, same⟩ := step.schedule <;> rw [same]
  · exact ordered
  · refine ordered.insert (fun present => ?_) long
    obtain ⟨b, member, known⟩ := Schedule.mem_ids.mp present
    exact Nat.lt_irrefl _ (new ▸ known ▸ sound.ids b member)
  · exact ordered.sublist List.filter_sublist
  · exact ordered.afterTaking

/-- Whoever sleeps does so until the earliest deadline. -/
def Watches (k : Clock α) : Prop :=
  ∀ timer ∈ k.timers, ∀ wakeAt, timer.phase = .asleep wakeAt → wakeAt = k.nextDeadline

theorem watches_of_awake (awake : ∀ timer ∈ k.timers, timer.phase.isAsleep = false) :
    k.Watches := by
  intro timer member wakeAt sleeps
  simpa [sleeps, TimerPhase.isAsleep] using awake timer member

/-- No two threads sleep, so that waking one leaves none asleep. -/
theorem Sound.awake_wakeOne (sound : k.Sound) :
    ∀ timer ∈ Clock.wakeOne k.timers, timer.phase.isAsleep = false := by
  have generations := sound.generations
  have current := sound.awake
  generalize k.timers = timers at generations current ⊢
  induction timers with
  | nil => exact nofun
  | cons first rest ih =>
    obtain ⟨later, generations'⟩ := List.pairwise_cons.mp generations
    unfold Clock.wakeOne
    split
    · next sleeping =>
      intro timer member
      rcases List.mem_cons.mp member with rfl | member
      · exact TimerPhase.isAsleep_wake _
      · by_contra asleep
        have same := current first (by simp) sleeping
        have same' := current timer (by simp [member]) (by simpa using asleep)
        have lt : first.generation < timer.generation :=
          later timer.generation (List.mem_map_of_mem member)
        omega
    · next awake =>
      intro timer member
      rcases List.mem_cons.mp member with rfl | member
      · simpa using awake
      · exact ih generations' (fun t ht => current t (by simp [ht])) timer member

/-- A thread of the present generation is the only one that could sleep. -/
theorem Sound.awake_setPhase (sound : k.Sound) {batch : List (Firing α)} :
    ∀ timer ∈ (k.setPhase k.generation (.awake batch)).timers, timer.phase.isAsleep = false := by
  intro timer' member'
  obtain ⟨timer, member, rfl⟩ := List.mem_map.mp member'
  split
  · rfl
  · next stale =>
    by_contra asleep
    exact stale (sound.awake timer member (by simpa using asleep))

theorem Watches.setPhase (watches : k.Watches) {generation : Nat} {phase : TimerPhase α}
    (target : ∀ wakeAt, phase = .asleep wakeAt → wakeAt = k.nextDeadline) :
    (k.setPhase generation phase).Watches := by
  intro timer' member' wakeAt sleeps
  obtain ⟨timer, member, rfl⟩ := List.mem_map.mp member'
  split at sleeps
  · exact target wakeAt sleeps
  · exact watches timer member wakeAt sleeps

theorem Watches.dropTimer (watches : k.Watches) (generation : Nat) :
    (k.dropTimer generation).Watches :=
  fun timer member => watches timer (List.mem_filter.mp member).1

/-- No step leaves a thread asleep past the earliest deadline, or waiting for one that is gone. -/
theorem Step.watches (step : Step kind k k') (sound : k.Sound) (watches : k.Watches) :
    k'.Watches := by
  cases step with
  | start started =>
    obtain ⟨-, rfl⟩ | ⟨-, -, rfl⟩ := start_cases started
    · exact watches
    · intro timer member wakeAt sleeps
      rcases List.mem_append.mp member with member | member
      · exact watches timer member wakeAt sleeps
      · obtain rfl := List.mem_singleton.mp member
        cases sleeps
  | stop =>
    obtain ⟨-, same⟩ | ⟨-, same⟩ := stop_cases k <;> rw [same]
    · exact watches
    · exact watches_of_awake (by simp [wakeAll])
  | add callback deadline period =>
    by_cases first :
        k.alarms.comesFirst ⟨k.nextId, deadline, period, callback⟩ = true
    · refine watches_of_awake ?_
      simp only [Clock.add, first, if_true]
      exact sound.awake_wakeOne
    · have unchanged := Schedule.nextDeadline_insert ((Bool.not_eq_true _).mp first)
      intro timer member wakeAt sleeps
      simp only [Clock.add, first] at member
      exact (watches timer member wakeAt sleeps).trans unchanged.symm
  | remove id =>
    obtain same | same := remove_cases k id <;> rw [same]
    · exact watches
    · exact watches_of_awake sound.awake_wakeOne
  | @move now timer member =>
    have moved := move_cases k now timer
    generalize k.move now timer = result at moved
    cases moved with
    | wake _ => exact watches.setPhase (by simp)
    | fire _ => exact watches.setPhase (by simp)
    | ends _ _ => exact watches.dropTimer _
    | sleep _ _ _ =>
      refine watches.setPhase fun wakeAt sleeps => ?_
      cases sleeps
      rfl
    | take _ current _ =>
      rw [current]
      -- the thread that takes the batch is the only one that could sleep, and it does not
      exact watches_of_awake sound.awake_setPhase
  | drop generation => exact watches.dropTimer generation

end Clock

namespace Timeline

variable {t : Timeline α}

theorem Reachable.ordered (reach : Reachable t) : t.clock.alarms.Ordered :=
  (reach.clock (P := fun k => k.alarms.Ordered) (fun _ _ => Schedule.ordered_nil)
    fun _ _ sound ordered step => step.ordered sound ordered).2

theorem Reachable.watches (reach : Reachable t) : t.clock.Watches :=
  (reach.clock (fun _ _ => nofun) fun _ _ sound watches step => step.watches sound watches).2

/-- On every clock, whatever its callbacks do, the alarms are in strict order of deadline and id,
each under an id of its own that has been issued, and no period is shorter than a millisecond. So
the first deadline is the earliest, the flag of an insertion says whether the new alarm is the
first, and an insertion without the flag moves neither the earliest deadline nor what a sleeping
thread has to wait for. -/
theorem schedule_ordered (reach : Reachable t) :
    t.clock.alarms.Pairwise Alarm.Before ∧
    t.clock.alarms.ids.Nodup ∧
    (∀ id ∈ t.clock.alarms.ids, id < t.clock.nextId) ∧
    (∀ a ∈ t.clock.alarms, ∀ period, a.period = some period →
      (Duration.ofMillis 1).nanos ≤ period.nanos) ∧
    (∀ deadline, t.clock.nextDeadline = some deadline ↔
      (∃ a ∈ t.clock.alarms, a.deadline = deadline) ∧
        ∀ a ∈ t.clock.alarms, deadline ≤ a.deadline) ∧
    (∀ a ∉ t.clock.alarms,
      (t.clock.alarms.comesFirst a = true ↔ (t.clock.alarms.insert a).head? = some a) ∧
      (t.clock.alarms.comesFirst a = false →
        (t.clock.alarms.insert a).nextDeadline = t.clock.nextDeadline)) ∧
    ∀ timer ∈ t.clock.timers, ∀ wakeAt, timer.phase = .asleep wakeAt →
      wakeAt = t.clock.nextDeadline := by
  have ordered : t.clock.alarms.Ordered := reach.ordered
  refine ⟨ordered.ascending, ordered.distinct, fun id issued => ?_, ordered.periods,
    fun _ => ordered.nextDeadline_eq_some, fun a fresh => ?_, reach.watches⟩
  · obtain ⟨a, member, rfl⟩ := Schedule.mem_ids.mp issued
    exact reach.sound.ids a member
  · exact ⟨Schedule.comesFirst_iff fresh, Schedule.nextDeadline_insert⟩

/-- A periodic alarm that was asked for with no period fires, and adds two alarms of one instant.
Its thread goes to sleep until it is due again. -/
theorem ordered_after_callback :
    let script : List ClockAction := [.add "b" (.ofParts 1 0) [], .add "c" (.ofParts 1 0) []]
    let t := (ClockSession.steps 20 {}
      [.act .start, .act (.addPeriodic "a" ⟨0⟩ script), .advance (.ofMillis 1)]).timeline
    t.Reachable ∧ t.clock.alarms.ids = [1, 2, 3] ∧ t.clock.alarms.Pairwise Alarm.Before ∧
      t.clock.timers.map (·.phase.isAsleep) = [true] ∧
      ∀ timer ∈ t.clock.timers, ∀ wakeAt, timer.phase = .asleep wakeAt →
        wakeAt = some (.ofParts 0 2000000) := by
  intro script t
  have reach : Reachable t := ClockSession.reachable_new.run (ClockSession.steps_run ..)
  have target : t.clock.nextDeadline = some (.ofParts 0 2000000) := by decide +kernel
  obtain ⟨ascending, -, -, -, -, -, watches⟩ := schedule_ordered reach
  rw [target] at watches
  exact ⟨reach, by decide +kernel, ascending, by decide +kernel, watches⟩

end Timeline
end EventEngine
