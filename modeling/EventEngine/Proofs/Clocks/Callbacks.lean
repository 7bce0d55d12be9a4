import EventEngine.Proofs.Clocks.Owners

/-!
# What a clock makes of callbacks

A clock never looks at the callbacks of its alarms. If each callback is replaced by another one,
chosen by the id of the alarm, then everything that the clock does is the same, up to this
replacement.
-/
namespace EventEngine

variable {α β : Type}

def Alarm.map (f : AlarmId → α → β) (a : Alarm α) : Alarm β :=
  ⟨a.id, a.deadline, a.period, f a.id a.callback⟩

def Firing.map (f : AlarmId → α → β) (a : Firing α) : Firing β :=
  ⟨a.id, a.deadline, f a.id a.callback⟩

def TimerPhase.map (f : AlarmId → α → β) : TimerPhase α → TimerPhase β
  | asleep wakeAt => asleep wakeAt
  | awake batch => awake (batch.map (Firing.map f))

def Timer.map (f : AlarmId → α → β) (t : Timer α) : Timer β := ⟨t.generation, t.phase.map f⟩

def Clock.map (f : AlarmId → α → β) (k : Clock α) : Clock β where
  config := k.config
  canSpawn := k.canSpawn
  alarms := k.alarms.map (Alarm.map f)
  nextId := k.nextId
  generation := k.generation
  isRunning := k.isRunning
  timers := k.timers.map (Timer.map f)

variable {f : AlarmId → α → β}

@[simp] theorem TimerPhase.isAsleep_map (p : TimerPhase α) : (p.map f).isAsleep = p.isAsleep := by
  cases p <;> rfl

@[simp] theorem TimerPhase.wake_map (p : TimerPhase α) : (p.map f).wake = p.wake.map f := by
  cases p <;> rfl

@[simp] theorem TimerPhase.batch_map (p : TimerPhase α) :
    (p.map f).batch = p.batch.map (Firing.map f) := by
  cases p <;> rfl

namespace Schedule

variable {a : Alarm α} {s : Schedule α} {now : Instant}

theorem insert_map : insert (a.map f) (s.map (Alarm.map f)) = (insert a s).map (Alarm.map f) := by
  induction s with
  | nil => rfl
  | cons b rest ih =>
    have same : (b.map f).notAfter (a.map f) = b.notAfter a := rfl
    simp only [List.map_cons, insert, same]
    split
    · rw [ih, List.map_cons]
    · rfl

theorem comesFirst_map : comesFirst (a.map f) (s.map (Alarm.map f)) = comesFirst a s := by
  cases s <;> rfl

theorem nextDeadline_map : nextDeadline (s.map (Alarm.map f)) = nextDeadline s := by
  cases s <;> rfl

theorem due_map : due now (s.map (Alarm.map f)) = (due now s).map (Alarm.map f) :=
  List.takeWhile_map ..

theorem reschedule_map : reschedule now (s.map (Alarm.map f)) (a.map f) =
    (reschedule now s a).map (Alarm.map f) := by
  have same : (a.map f).period = a.period := rfl
  unfold reschedule
  rw [same]
  split
  · exact insert_map (a := { a with deadline := following now _ a.deadline })
  · rfl

theorem afterTaking_map :
    afterTaking now (s.map (Alarm.map f)) = (afterTaking now s).map (Alarm.map f) := by
  have rescheduled : ∀ (due rest : Schedule α),
      (due.map (Alarm.map f)).foldl (reschedule now) (rest.map (Alarm.map f)) =
        (due.foldl (reschedule now) rest).map (Alarm.map f) := by
    intro due
    induction due with
    | nil => exact fun _ => rfl
    | cons a due ih =>
      intro rest
      rw [List.map_cons, List.foldl_cons, reschedule_map, ih, List.foldl_cons]
  have late : (s.map (Alarm.map f)).dropWhile (·.deadline ≤ now) =
      (s.dropWhile (·.deadline ≤ now)).map (Alarm.map f) := List.dropWhile_map ..
  rw [afterTaking, due_map, late, rescheduled, afterTaking]

theorem misses_map : misses now (s.map (Alarm.map f)) = misses now s := by
  rw [misses, due_map, List.filterMap_map, misses]
  rfl

theorem remove_map {id : AlarmId} :
    remove id (s.map (Alarm.map f)) = (remove id s).map (Alarm.map f) :=
  List.filter_map ..

theorem hasId_map {id : AlarmId} : hasId id (s.map (Alarm.map f)) = hasId id s := by
  rw [hasId, List.any_map, hasId]
  rfl

end Schedule

namespace Clock

variable {k : Clock α} {now : Instant}

theorem wakeOne_map (timers : List (Timer α)) :
    wakeOne (timers.map (Timer.map f)) = (wakeOne timers).map (Timer.map f) := by
  induction timers with
  | nil => rfl
  | cons t rest ih =>
    have same : (t.map f).phase.isAsleep = t.phase.isAsleep := t.phase.isAsleep_map
    simp only [List.map_cons, wakeOne, same]
    split
    · simp [Timer.map]
    · rw [ih, List.map_cons]

theorem wakeAll_map (timers : List (Timer α)) :
    wakeAll (timers.map (Timer.map f)) = (wakeAll timers).map (Timer.map f) := by
  simp [wakeAll, Timer.map]

theorem start_map : (k.map f).start = k.start.map fun started => (started.1.map f, started.2) := by
  have config : (k.map f).config = k.config := rfl
  have running : (k.map f).isRunning = k.isRunning := rfl
  have fault : (k.map f).spawnFault = k.spawnFault := rfl
  unfold start
  rw [config, running, fault]
  split
  · rfl
  · cases k.spawnFault with
    | none => simp [Except.map, Clock.map, Timer.map, TimerPhase.map]
    | some failure => rfl

theorem stop_map : (k.map f).stop = k.stop.map (Clock.map f) id := by
  have running : (k.map f).isRunning = k.isRunning := rfl
  unfold stop
  rw [running]
  split
  · simp [Clock.map, wakeAll_map]
  · rfl

/-- An alarm that is added under the next id has to have the callback for this id. -/
theorem add_map (callback : α) (deadline : Instant) (period : Option Duration) :
    (k.map f).add (f k.nextId callback) deadline period =
      (k.add callback deadline period).map (Clock.map f) id := by
  have first := Schedule.comesFirst_map (f := f) (a := ⟨k.nextId, deadline, period, callback⟩)
    (s := k.alarms)
  have inserted := Schedule.insert_map (f := f) (a := ⟨k.nextId, deadline, period, callback⟩)
    (s := k.alarms)
  simp only [Alarm.map] at first inserted
  simp only [add, Clock.map, Prod.map_apply, id_eq, inserted, first, wakeOne_map]
  split <;> rfl

theorem addPeriodic_map (now : Instant) (callback : α) (period : Duration) :
    (k.map f).addPeriodic now (f k.nextId callback) period =
      (k.addPeriodic now callback period).map (Clock.map f) id :=
  add_map callback ..

theorem remove_map (alarm : AlarmId) :
    (k.map f).remove alarm = (k.remove alarm).map (Clock.map f) id := by
  have known : (k.map f).alarms.hasId alarm = k.alarms.hasId alarm := Schedule.hasId_map
  unfold remove
  rw [known]
  split
  · have removed : Schedule.remove alarm (k.alarms.map (Alarm.map f)) =
        (k.alarms.remove alarm).map (Alarm.map f) := Schedule.remove_map
    simp [Clock.map, removed, wakeOne_map]
  · rfl

theorem map_map {γ : Type} (g : AlarmId → β → γ) :
    (k.map f).map g = k.map fun id callback => g id (f id callback) := by
  have batches : (TimerPhase.map g ∘ TimerPhase.map f : TimerPhase α → TimerPhase γ) =
      TimerPhase.map fun id callback => g id (f id callback) := by
    funext p
    cases p with
    | asleep wakeAt => rfl
    | awake batch => exact congrArg TimerPhase.awake (List.map_map ..)
  simp only [Clock.map, List.map_map, mk.injEq, true_and]
  refine ⟨rfl, List.map_congr_left fun t _ => ?_⟩
  exact congrArg (Timer.mk t.generation) (congrFun batches t.phase)

/-- Nothing differs where every alarm gets the callback that it has. -/
theorem map_eq_self {f : AlarmId → α → α} (alarms : ∀ a ∈ k.alarms, f a.id a.callback = a.callback)
    (taken : ∀ a ∈ k.taken, f a.id a.callback = a.callback) : k.map f = k := by
  have scheduled : k.alarms.map (Alarm.map f) = k.alarms := by
    refine (List.map_congr_left fun a member => ?_).trans (List.map_id _)
    exact congrArg (Alarm.mk a.id a.deadline a.period) (alarms a member)
  have threads : k.timers.map (Timer.map f) = k.timers := by
    refine (List.map_congr_left fun t member => ?_).trans (List.map_id _)
    obtain ⟨generation, wakeAt | batch⟩ := t
    · rfl
    · have fires : batch.map (Firing.map f) = batch := by
        refine (List.map_congr_left fun a inBatch => ?_).trans (List.map_id _)
        exact congrArg (Firing.mk a.id a.deadline) (taken a (mem_taken.mpr ⟨_, member, inBatch⟩))
      simp [Timer.map, TimerPhase.map, fires]
  rw [Clock.map, scheduled, threads]

/-! ## Moves of the timer threads -/

theorem setPhase_map (generation : Nat) (phase : TimerPhase α) :
    (k.map f).setPhase generation (phase.map f) = (k.setPhase generation phase).map f := by
  simp only [setPhase, Clock.map, List.map_map, mk.injEq, true_and]
  refine List.map_congr_left fun t _ => ?_
  have same : (t.map f).generation = t.generation := rfl
  simp only [Function.comp_apply, same]
  split <;> rfl

theorem dropTimer_map (generation : Nat) :
    (k.map f).dropTimer generation = (k.dropTimer generation).map f := by
  simp only [dropTimer, Clock.map, List.filter_map, mk.injEq, true_and]
  rfl

theorem take_map : (k.map f).take now =
    ((k.take now).1.map f, (k.take now).2.1.map (Firing.map f), (k.take now).2.2) := by
  have due : (k.map f).alarms.due now = (k.alarms.due now).map (Alarm.map f) := Schedule.due_map
  have left : (k.map f).alarms.afterTaking now = (k.alarms.afterTaking now).map (Alarm.map f) :=
    Schedule.afterTaking_map
  have missed : (k.map f).alarms.misses now = k.alarms.misses now := Schedule.misses_map
  simp only [take, due, left, missed, List.map_map]
  rfl

/-- A thread makes the same move, whatever the callbacks are. -/
theorem move_map (t : Timer α) : (k.map f).move now (t.map f) =
    ((k.move now t).1.map f, (k.move now t).2.1.map (Firing.map f), (k.move now t).2.2) := by
  obtain ⟨generation, phase⟩ := t
  have setPhase : ∀ (k : Clock α) (phase : TimerPhase α),
      (k.map f).setPhase generation (phase.map f) = (k.setPhase generation phase).map f :=
    fun k phase => setPhase_map generation phase
  cases phase with
  | asleep wakeAt => exact Prod.ext (setPhase k (.awake [])) rfl
  | awake batch =>
    cases batch with
    | cons firing rest => exact Prod.ext (setPhase k (.awake rest)) rfl
    | nil =>
      have current : (k.map f).generation = k.generation := rfl
      simp only [move, Timer.map, TimerPhase.map, List.map_nil, current, take_map]
      split
      · rcases taken : k.take now with ⟨k', _ | ⟨firing, rest⟩, notices⟩
        · have wakeAt : (k.map f).nextDeadline = k.nextDeadline := Schedule.nextDeadline_map
          rw [wakeAt]
          exact Prod.ext (setPhase k (.asleep k.nextDeadline)) rfl
        · exact Prod.ext (setPhase k' (.awake (firing :: rest))) rfl
      · rw [dropTimer_map]
        rfl

theorem thread?_map {generation : Nat} :
    (k.map f).thread? now generation = (k.thread? now generation).map (Timer.map f) := by
  have same : ∀ t : Timer α, Timer.canMove now (t.map f) = Timer.canMove now t := by
    intro t
    rcases t with ⟨generation, (_ | wakeAt) | batch⟩ <;> rfl
  rw [thread?, show (k.map f).timers = k.timers.map (Timer.map f) from rfl, List.find?_map, thread?]
  congr 2
  funext t
  rw [Function.comp_apply, same]
  rfl

theorem taken_map : (k.map f).taken = k.taken.map (Firing.map f) := by
  simp [taken, Clock.map, List.flatMap_map, List.map_flatMap, Timer.map]

/-- A clock knows of the same ids, with the other callbacks. -/
theorem knows_map {id : AlarmId} {owner : β} :
    (k.map f).Knows id owner ↔ ∃ callback, k.Knows id callback ∧ f id callback = owner := by
  constructor
  · rintro (⟨a, scheduled, rfl, rfl⟩ | ⟨a, taken, rfl, rfl⟩)
    · obtain ⟨b, known, rfl⟩ := List.mem_map.mp scheduled
      exact ⟨b.callback, .inl ⟨b, known, rfl, rfl⟩, rfl⟩
    · rw [taken_map] at taken
      obtain ⟨b, known, rfl⟩ := List.mem_map.mp taken
      exact ⟨b.callback, .inr ⟨b, known, rfl, rfl⟩, rfl⟩
  · rintro ⟨callback, ⟨a, scheduled, rfl, rfl⟩ | ⟨a, taken, rfl, rfl⟩, rfl⟩
    · exact .inl ⟨a.map f, List.mem_map_of_mem scheduled, rfl, rfl⟩
    · refine .inr ⟨a.map f, ?_, rfl, rfl⟩
      rw [taken_map]
      exact List.mem_map_of_mem taken

theorem Sole.map {id : AlarmId} {owner : α} (sole : k.Sole id owner) (f : AlarmId → α → β) :
    (k.map f).Sole id (f id owner) := by
  refine ⟨⟨sole.1.1, fun a scheduled named => ?_⟩, fun a taken named => ?_⟩
  · obtain ⟨b, known, rfl⟩ := List.mem_map.mp scheduled
    exact congrArg₂ f named (sole.1.2 b known named)
  · rw [taken_map] at taken
    obtain ⟨b, known, rfl⟩ := List.mem_map.mp taken
    exact congrArg₂ f named (sole.2 b known named)

/-- What the next move of the thread of a generation will fire. -/
def nextFiring? (k : Clock α) (now : Instant) (generation : Nat) : Option (Firing α) :=
  (k.thread? now generation).bind fun t => (k.move now t).2.1

theorem nextFiring?_eq_some {generation : Nat} {fired : Firing α} :
    k.nextFiring? now generation = some fired ↔
      ∃ t, k.thread? now generation = some t ∧ (k.move now t).2.1 = some fired :=
  Option.bind_eq_some_iff

theorem nextFiring?_map {generation : Nat} :
    (k.map f).nextFiring? now generation = (k.nextFiring? now generation).map (Firing.map f) := by
  rw [nextFiring?, thread?_map, Option.bind_map, nextFiring?, Option.map_bind]
  congr 1
  funext t
  rw [Function.comp_apply, move_map, Function.comp_apply]

end Clock
end EventEngine
