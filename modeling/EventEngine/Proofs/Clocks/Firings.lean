import EventEngine.Proofs.Clocks.Grid
import EventEngine.Proofs.Clocks.Logs
import Mathlib.Data.List.Flatten

/-!
# Firings and batches

Each timer thread of a clock fires the batch that it has taken in order. Whoever stops a clock waits
for its thread, unless that thread is its own: then a thread whose generation is over can fire the
rest of its batch beside the next one. In any order of their moves the firings of an alarm, with
what is still to be fired of it, are what the batches contain of it, unless a callback panics, which
loses the rest of the batch of its thread. -/
namespace EventEngine

variable {α : Type}

namespace Clock

variable {k k' : Clock α} {id : AlarmId} {now : Instant} {timer : Timer α}

/-- The deadlines of an alarm among firings. -/
def deadlinesOf (id : AlarmId) (firings : List (Firing α)) : List Instant :=
  (firings.filter (·.id = id)).map (·.deadline)

/-- The deadlines that are still to be fired of an alarm. -/
def pending (k : Clock α) (id : AlarmId) : List Instant := deadlinesOf id k.taken

theorem deadlinesOf_append (firings firings' : List (Firing α)) :
    deadlinesOf id (firings ++ firings') = deadlinesOf id firings ++ deadlinesOf id firings' := by
  simp [deadlinesOf]

/-- A batch contains an alarm at most once. -/
theorem deadlinesOf_due {s : Schedule α} (distinct : s.ids.Nodup) :
    deadlinesOf id (s.map Alarm.firing) =
      ((s.map fun a => (a.id, a.deadline)).lookup id).toList := by
  induction s with
  | nil => rfl
  | cons a rest ih =>
    obtain ⟨absent, distinct⟩ := List.nodup_cons.mp distinct
    rw [List.map_cons, List.map_cons, List.lookup_cons]
    by_cases named : a.id = id
    · subst named
      have nothing := ih distinct
      rw [Schedule.lookup_of_absent absent] at nothing
      simp only [deadlinesOf] at nothing
      simp [deadlinesOf, Alarm.firing, nothing]
    · rw [beq_false_of_ne (Ne.symm named), ← ih distinct]
      simp [deadlinesOf, Alarm.firing, named]

theorem taken_wakeOne (timers : List (Timer α)) :
    (wakeOne timers).flatMap (·.phase.batch) = timers.flatMap (·.phase.batch) := by
  induction timers with
  | nil => rfl
  | cons t rest ih =>
    unfold wakeOne
    split
    · simp
    · rw [List.flatMap_cons, ih, List.flatMap_cons]

/-- A move of a thread fires the first of what the thread has taken, or, where nothing is left of
it, may take what is due. -/
theorem Sound.taken_move (sound : k.Sound) (member : timer ∈ k.timers) :
    (∃ front back, k.taken = front ++ (k.move now timer).2.1.toList ++ back ∧
      (k.move now timer).1.taken = front ++ back ∧
      ∀ notice ∈ (k.move now timer).2.2, notice.isQuiet = true) ∨
    ((k.move now timer).2.1 = none ∧ timer.phase.batch = [] ∧
      (k.move now timer).1.taken = k.taken ++ (k.alarms.due now).map Alarm.firing ∧
      (k.move now timer).2.2 = (k.take now).2.2) := by
  obtain ⟨front, back, among⟩ := List.append_of_mem member
  have split : k.taken =
      front.flatMap (·.phase.batch) ++ timer.phase.batch ++ back.flatMap (·.phase.batch) := by
    simp [taken, among]
  have left : ∀ phase : TimerPhase α, (k.setPhase timer.generation phase).taken =
      front.flatMap (·.phase.batch) ++ phase.batch ++ back.flatMap (·.phase.batch) := by
    intro phase
    rw [sound.setPhase_among among]
    simp [taken]
  have moved := move_cases k now timer
  generalize k.move now timer = result at moved
  cases moved with
  | wake sleeping =>
    refine .inl ⟨front.flatMap (·.phase.batch), back.flatMap (·.phase.batch), ?_, ?_,
      List.forall_mem_nil _⟩
    · simpa [sleeping, TimerPhase.batch] using split
    · simpa [TimerPhase.batch] using left (.awake [])
  | @fire f rest batch =>
    refine .inl ⟨front.flatMap (·.phase.batch), rest ++ back.flatMap (·.phase.batch), ?_, ?_, ?_⟩
    · simpa [batch, TimerPhase.batch] using split
    · simpa [TimerPhase.batch] using left (.awake rest)
    · simp [ClockNotice.isQuiet]
  | ends empty _ =>
    refine .inl ⟨front.flatMap (·.phase.batch), back.flatMap (·.phase.batch), ?_, ?_,
      List.forall_mem_nil _⟩
    · simpa [empty, TimerPhase.batch] using split
    · rw [sound.dropTimer_among among]
      simp [taken]
  | sleep empty _ _ =>
    refine .inl ⟨front.flatMap (·.phase.batch), back.flatMap (·.phase.batch), ?_, ?_,
      List.forall_mem_nil _⟩
    · simpa [empty, TimerPhase.batch] using split
    · simpa [TimerPhase.batch] using left (.asleep k.nextDeadline)
  | take empty current _ =>
    obtain rfl := sound.last among current
    refine .inr ⟨rfl, by rw [empty, TimerPhase.batch], ?_, rfl⟩
    have taken_phase : ((k.take now).1.setPhase timer.generation
        (.awake ((k.alarms.due now).map Alarm.firing))).taken =
          (k.setPhase timer.generation (.awake ((k.alarms.due now).map Alarm.firing))).taken := rfl
    rw [taken_phase, left, split, empty]
    simp [TimerPhase.batch]

/-- Only timer threads take and fire. -/
theorem taken_start {notices : List ClockNotice} (started : k.start = .ok (k', notices)) :
    k'.taken = k.taken := by
  obtain ⟨-, rfl⟩ | ⟨-, -, rfl⟩ := start_cases started
  · rfl
  · simp [taken, TimerPhase.batch]

theorem taken_stop (k : Clock α) : k.stop.1.taken = k.taken := by
  obtain ⟨-, same⟩ | ⟨-, same⟩ := stop_cases k <;> rw [same]
  simp [taken, wakeAll, List.flatMap_map]

theorem taken_add (callback : α) (deadline : Instant) (period : Option Duration) :
    (k.add callback deadline period).1.taken = k.taken := by
  simp only [Clock.add, taken]
  split
  · exact taken_wakeOne _
  · rfl

theorem taken_remove (id : AlarmId) : (k.remove id).1.taken = k.taken := by
  obtain same | same := remove_cases k id <;> rw [same]
  exact taken_wakeOne _

/-- A thread that ends by a panic leaves the batches of the others. -/
theorem taken_dropTimer (k : Clock α) (generation : Nat) :
    (k.dropTimer generation).taken.Sublist k.taken :=
  List.filter_sublist.flatMap _

/-- Nothing is lost with a thread that has fired all that it has taken. -/
theorem taken_dropTimer_of_fired {generation : Nat}
    (fired : ∀ t ∈ k.timers, t.generation = generation → t.phase.batch = []) :
    (k.dropTimer generation).taken = k.taken := by
  unfold dropTimer taken
  generalize k.timers = timers at fired
  induction timers with
  | nil => rfl
  | cons t rest ih =>
    obtain ⟨first, fired⟩ := List.forall_mem_cons.mp fired
    rw [List.filter_cons, List.flatMap_cons, ← ih fired]
    split
    · rfl
    · next gone => rw [first (by simpa using gone), List.nil_append]

end Clock

namespace Timeline

variable {t u : Timeline α} {id : AlarmId} {timer : Timer α}

/-- Where no timer thread moves, nothing is taken and nothing is fired. -/
theorem Tended.fires (tended : Tended t u) :
    u.clock.taken = t.clock.taken ∧ ∀ id, u.batches id = t.batches id := by
  cases tended with
  | advance d => exact ⟨rfl, fun _ => rfl⟩
  | @start k notices started =>
    have told : (t.turn k notices).notices = notices.reverse ++ t.notices := rfl
    refine ⟨Clock.taken_start started, fun id => batches_of_untaken told ?_⟩
    unfold Clock.start at started
    split at started
    · cases started
      exact nofun
    · split at started
      · cases started
        simp [ClockNotice.batchOf?]
      · cases started
  | stop =>
    have told : t.stop.notices = t.clock.stop.2.reverse ++ t.notices := rfl
    refine ⟨Clock.taken_stop t.clock, fun id => batches_of_untaken told ?_⟩
    unfold Clock.stop
    split <;> simp [ClockNotice.batchOf?]
  | addOnce callback deadline =>
    exact ⟨Clock.taken_add .., fun id => batches_cons rfl rfl⟩
  | addPeriodic callback period =>
    exact ⟨Clock.taken_add .., fun id => batches_cons rfl rfl⟩
  | remove gone =>
    have told : (t.remove gone).notices = (t.clock.remove gone).2.2.reverse ++ t.notices := rfl
    refine ⟨Clock.taken_remove gone, fun id => batches_of_untaken told ?_⟩
    unfold Clock.remove
    split <;> simp [ClockNotice.batchOf?]

theorem fires_of_tended (tended : Relation.ReflTransGen Tended t u) :
    u.clock.taken = t.clock.taken ∧ ∀ id, u.batches id = t.batches id := by
  induction tended with
  | refl => exact ⟨rfl, fun _ => rfl⟩
  | tail _ step ih =>
    obtain ⟨taken, batches⟩ := step.fires
    exact ⟨taken.trans ih.1, fun id => (batches id).trans (ih.2 id)⟩

/-- A move of a thread fires one of what is still to be fired, or, where nothing is left of what it
has taken, may take a batch, which contains an alarm at most once. -/
theorem move_fires (reach : Reachable t) (member : timer ∈ t.clock.timers) (id : AlarmId) :
    ((t.move timer).batches id = t.batches id ∧
      ∃ front back, t.clock.pending id =
          front ++ Clock.deadlinesOf id (t.clock.move t.now timer).2.1.toList ++ back ∧
        (t.move timer).clock.pending id = front ++ back) ∨
    ((t.clock.move t.now timer).2.1 = none ∧ timer.phase.batch = [] ∧
      ∃ new, new.length ≤ 1 ∧ (t.move timer).batches id = t.batches id ++ new ∧
        (t.move timer).clock.pending id = t.clock.pending id ++ new.map (·.2)) := by
  have told : (t.move timer).notices = (t.clock.move t.now timer).2.2.reverse ++ t.notices := rfl
  have same : (t.move timer).clock = (t.clock.move t.now timer).1 := rfl
  have distinct : (Schedule.ids (t.clock.alarms.due t.now)).Nodup :=
    reach.ordered.distinct.sublist ((List.takeWhile_sublist _).map _)
  rw [Clock.pending, Clock.pending, same]
  rcases reach.sound.taken_move member with
    ⟨front, back, before, after, quiet⟩ | ⟨silent, empty, taken, notices⟩
  · refine .inl ⟨batches_of_untaken told fun notice member => ?_,
      Clock.deadlinesOf id front, Clock.deadlinesOf id back, ?_, ?_⟩
    · exact ClockNotice.batchOf?_of_quiet (quiet notice (List.mem_reverse.mp member))
    · rw [before, Clock.deadlinesOf_append, Clock.deadlinesOf_append]
    · rw [after, Clock.deadlinesOf_append]
  · rw [notices, Clock.take, List.reverse_cons, List.append_assoc] at told
    refine .inr ⟨silent, empty, _, ?_, batches_of_taken told fun notice skipped => ?_, ?_⟩
    · rw [List.length_map]
      exact Option.length_toList_le
    · obtain ⟨miss, -, rfl⟩ := List.mem_map.mp (List.mem_reverse.mp skipped)
      rfl
    · rw [taken, Clock.deadlinesOf_append, Clock.deadlinesOf_due distinct]
      simp [Function.comp_def]

end Timeline
end EventEngine
