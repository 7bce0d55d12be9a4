import EventEngine.Proofs.Clocks.CatchUp
import EventEngine.Proofs.Clocks.Wakeups

/-!
# Looking late

A clock that nobody adds to or removes from goes where the time takes it: whether it was stopped and
started again, how often it looked, and in how many jumps time passed makes no difference to the
schedule, once the clock has caught up.
-/
namespace EventEngine

variable {α : Type}

namespace Schedule

variable {s : Schedule α} {now : Instant}

/-- A taking with nothing due leaves everything. -/
theorem afterTaking_of_due_nil (nothing : s.due now = []) : s.afterTaking now = s := by
  have late := due_append_late now s
  rw [nothing, List.nil_append] at late
  rw [afterTaking, nothing, late]
  rfl

theorem due_eq_nil (ahead : ∀ deadline, s.nextDeadline = some deadline → ¬ deadline ≤ now) :
    s.due now = [] := by
  cases s with
  | nil => rfl
  | cons a rest =>
    have late : ¬ a.deadline ≤ now := ahead a.deadline rfl
    simp [due, late]

end Schedule

namespace Timeline

variable {t u v w : Timeline α}

/-- A step in which nobody adds or removes an alarm leaves the schedule, or takes what is due. -/
theorem Idle.alarms (step : Idle t u) : u.clock.alarms = t.clock.alarms ∨
    (u.clock.alarms = t.clock.alarms.afterTaking t.now ∧ u.now = t.now) := by
  cases step with
  | advance d => exact .inl rfl
  | start started =>
    obtain ⟨-, rfl⟩ | ⟨-, -, rfl⟩ := Clock.start_cases started
    · exact .inl rfl
    · exact .inl rfl
  | stop =>
    obtain ⟨-, same⟩ | ⟨-, same⟩ := Clock.stop_cases t.clock
    · exact .inl (congrArg (·.alarms) same)
    · exact .inl (congrArg (·.alarms) same)
  | @move timer member =>
    have moved := Clock.move_cases t.clock t.now timer
    have same : t.move timer =
      t.turn (t.clock.move t.now timer).1 (t.clock.move t.now timer).2.2 := rfl
    rw [same]
    generalize t.clock.move t.now timer = result at moved
    cases moved with
    | take _ _ _ => exact .inr ⟨rfl, rfl⟩
    | _ => exact .inl rfl
  | panic generation => exact .inl rfl

/-- Whatever has been taken on the way, a taking at the end of an idle run or later leaves what it
would have left at its beginning. -/
theorem IdleRun.afterTaking (reach : Reachable v) (run : IdleRun v w) {later : Instant}
    (le : w.now ≤ later) :
    w.clock.alarms.afterTaking later = v.clock.alarms.afterTaking later := by
  induction run with
  | refl => rfl
  | @tail t u before step ih =>
    have reach' := reach.run (IdleRun.run before)
    have passed : t.now ≤ u.now := ((Next.idle step).now_le reach'.now_le).1
    have le' : t.now ≤ later := Nat.le_trans passed le
    rw [← ih le']
    obtain same | ⟨same, -⟩ := step.alarms
    · rw [same]
    · rw [same]
      exact reach'.ordered.afterTaking_afterTaking le'

/-- The thread of the present generation is alive. -/
def Served (t : Timeline α) : Prop := t.clock.generation ∈ t.clock.timers.map (·.generation)

/-- The clock is served, and no thread of it has anything left to do. -/
def CaughtUp (t : Timeline α) : Prop := t.Served ∧ t.clock.ready t.now = none

/-- On a clock that has caught up nothing is due. -/
theorem CaughtUp.due_eq_nil (reach : Reachable t) (caughtUp : t.CaughtUp) :
    t.clock.alarms.due t.now = [] := by
  obtain ⟨served, idle⟩ := caughtUp
  obtain ⟨timer, member, current⟩ := List.mem_map.mp served
  have stuck : Clock.Timer.canMove t.now timer = false := by
    simpa using List.find?_eq_none.mp idle timer member
  refine Schedule.due_eq_nil fun deadline next come => ?_
  cases phase : timer.phase with
  | awake batch => simp [Clock.Timer.canMove, phase] at stuck
  | asleep wakeAt =>
    have target : wakeAt = some deadline := (reach.watches timer member wakeAt phase).trans next
    simp only [Clock.Timer.canMove, phase, target, decide_eq_false_iff_not] at stuck
    exact stuck come

/-! ## Catching up -/

/-- Any number of moves of timer threads, at one instant. -/
abbrev Moves : Timeline α → Timeline α → Prop :=
  Relation.ReflTransGen fun t u => ∃ timer ∈ t.clock.timers, u = t.move timer

theorem mem_setPhase {k : Clock α} {timer : Timer α} (member : timer ∈ k.timers)
    (phase : TimerPhase α) :
    { timer with phase } ∈ (k.setPhase timer.generation phase).timers :=
  List.mem_map.mpr ⟨timer, member, if_pos rfl⟩

/-- The thread of the present generation, done with its batch, takes what is due. -/
theorem move_takes {timer : Timer α} (current : timer.generation = t.clock.generation)
    (done : timer.phase = .awake []) :
    (t.move timer).clock.alarms = t.clock.alarms.afterTaking t.now := by
  have moved := Clock.move_cases t.clock t.now timer
  have same : (t.move timer).clock = (t.clock.move t.now timer).1 := rfl
  rw [same]
  generalize t.clock.move t.now timer = result at moved
  cases moved with
  | wake sleeping => simp [done] at sleeping
  | fire firing => simp [done] at firing
  | ends _ stale => exact absurd current stale
  | sleep _ _ nothing => exact (Schedule.afterTaking_of_due_nil nothing).symm
  | take _ _ _ => rfl

/-- The thread fires the rest of its batch, and then takes what is due. -/
theorem takes_after_batch (batch : List (Firing α)) {timer : Timer α}
    (member : timer ∈ t.clock.timers) (current : timer.generation = t.clock.generation)
    (phase : timer.phase = .awake batch) :
    ∃ u, Moves t u ∧ u.now = t.now ∧
      u.clock.alarms = t.clock.alarms.afterTaking t.now := by
  induction batch generalizing t timer with
  | nil => exact ⟨t.move timer, .single ⟨timer, member, rfl⟩, rfl, move_takes current phase⟩
  | cons f rest ih =>
    have fires : (t.move timer).clock = t.clock.setPhase timer.generation (.awake rest) := by
      simp [Timeline.move, Clock.move, turn, phase]
    have member' := mem_setPhase member (.awake rest)
    obtain ⟨u, moves, now, alarms⟩ := ih (t := t.move timer) (fires ▸ member')
      (by rw [fires]; exact current) rfl
    refine ⟨u, .head ⟨timer, member, rfl⟩ moves, now, ?_⟩
    rw [alarms, fires]
    rfl

/-- A served clock comes to take what is due by moves of its threads alone. -/
theorem Served.takes (served : t.Served) :
    ∃ u, Moves t u ∧ u.now = t.now ∧ u.clock.alarms = t.clock.alarms.afterTaking t.now := by
  obtain ⟨timer, member, current⟩ := List.mem_map.mp served
  cases phase : timer.phase with
  | awake batch => exact takes_after_batch batch member current phase
  | asleep wakeAt =>
    have wakes : (t.move timer).clock = t.clock.setPhase timer.generation (.awake []) := by
      simp [Timeline.move, Clock.move, turn, phase]
    have member' := mem_setPhase member (.awake [])
    obtain ⟨u, moves, now, alarms⟩ := takes_after_batch (t := t.move timer) []
      (wakes ▸ member') (by rw [wakes]; exact current) rfl
    refine ⟨u, .head ⟨timer, member, rfl⟩ moves, now, ?_⟩
    rw [alarms, wakes]
    rfl

/-- Time passes in jumps. -/
def jumps (t : Timeline α) (ds : List Duration) : Timeline α := ds.foldl advance t

theorem jumps_run (t : Timeline α) (ds : List Duration) : IdleRun t (t.jumps ds) := by
  induction ds generalizing t with
  | nil => exact .refl
  | cons d ds ih => exact .head (.advance t d) (ih _)

theorem clock_jumps (t : Timeline α) (ds : List Duration) : (t.jumps ds).clock = t.clock := by
  induction ds generalizing t with
  | nil => rfl
  | cons d ds ih => exact ih _

/-- A clock that was stopped is served once it is started again. -/
theorem served_restart {ds : List Duration} {k : Clock α} {notices : List ClockNotice}
    (started : (v.stop.jumps ds).clock.start = .ok (k, notices)) :
    ((v.stop.jumps ds).turn k notices).Served := by
  have stopped : (v.stop.jumps ds).clock.isRunning = false := by
    rw [clock_jumps]
    obtain ⟨stopped, same⟩ | ⟨-, same⟩ := Clock.stop_cases v.clock
    · exact (congrArg (·.isRunning) same).trans stopped
    · exact congrArg (·.isRunning) same
  obtain ⟨running, -⟩ | ⟨-, -, rfl⟩ := Clock.start_cases started
  · simp [stopped] at running
  · simp [Served, turn]

/-- It makes no difference to the schedule how often the clock looks. Taking what is due at an
instant and again at a later one, or at the same, leaves what the later taking alone leaves; both
fire the same alarms, and an alarm that fires once is fired once in both. So where nobody adds or
removes an alarm, the schedule of a clock that has caught up depends on the time alone, and a clock
whose thread is alive comes to it; among them a clock that was stopped, and started again after any
number of jumps. -/
theorem catching_up_independent :
    (∀ (s : Schedule α) (t₁ t₂ : Instant), s.Ordered → t₁ ≤ t₂ →
      (s.afterTaking t₁).afterTaking t₂ = s.afterTaking t₂ ∧
      (s.afterTaking t₂).afterTaking t₂ = s.afterTaking t₂ ∧
      (∀ id, id ∈ Schedule.ids (s.due t₁) ++ Schedule.ids ((s.afterTaking t₁).due t₂) ↔
        id ∈ Schedule.ids (s.due t₂)) ∧
      ∀ a ∈ s, a.period = none →
        (Schedule.ids (s.due t₁) ++ Schedule.ids ((s.afterTaking t₁).due t₂)).count a.id =
          (if a.deadline ≤ t₂ then 1 else 0) ∧
        (Schedule.ids (s.due t₂)).count a.id = if a.deadline ≤ t₂ then 1 else 0) ∧
    (∀ v w : Timeline α, Reachable v → IdleRun v w →
      (w.CaughtUp → w.clock.alarms = v.clock.alarms.afterTaking w.now) ∧
      (w.Served → ∃ u, Moves w u ∧ u.now = w.now ∧
        u.clock.alarms = v.clock.alarms.afterTaking w.now)) ∧
    ∀ (v : Timeline α) (ds : List Duration) (k : Clock α) (notices : List ClockNotice),
      Reachable v → (v.stop.jumps ds).clock.start = .ok (k, notices) →
      ∃ u, Moves ((v.stop.jumps ds).turn k notices) u ∧ u.now = (v.stop.jumps ds).now ∧
        ∀ w, IdleRun v w → w.now = u.now → w.CaughtUp → u.clock.alarms = w.clock.alarms := by
  have caughtUp : ∀ v w : Timeline α, Reachable v → IdleRun v w → w.CaughtUp →
      w.clock.alarms = v.clock.alarms.afterTaking w.now := by
    intro v w reach run caughtUp
    have nothing := caughtUp.due_eq_nil (reach.run (IdleRun.run run))
    rw [← IdleRun.afterTaking reach run (Nat.le_refl _), Schedule.afterTaking_of_due_nil nothing]
  have takes : ∀ v w : Timeline α, Reachable v → IdleRun v w → w.Served → ∃ u, Moves w u ∧
      u.now = w.now ∧ u.clock.alarms = v.clock.alarms.afterTaking w.now := by
    intro v w reach run served
    obtain ⟨u, moves, now, alarms⟩ := served.takes
    exact ⟨u, moves, now, alarms.trans (IdleRun.afterTaking reach run (Nat.le_refl _))⟩
  refine ⟨?_, fun v w reach run => ⟨caughtUp v w reach run, takes v w reach run⟩, ?_⟩
  · intro s t₁ t₂ ordered le
    refine ⟨ordered.afterTaking_afterTaking le, ordered.afterTaking_afterTaking (Nat.le_refl _),
      ordered.mem_due_due le, fun a member once => ?_⟩
    exact ⟨ordered.count_due_due le member once, ordered.count_due member⟩
  · intro v ds k notices reach started
    have restart : IdleRun v ((v.stop.jumps ds).turn k notices) :=
      .head (.stop v) ((jumps_run v.stop ds).tail (.start started))
    obtain ⟨u, moves, now, alarms⟩ := takes v _ reach restart (served_restart started)
    refine ⟨u, moves, now, fun w run same done => ?_⟩
    rw [alarms, caughtUp v w reach run done, same, now]

/-- Let the timer threads run until none can move, for at most `patience` moves, where callbacks do
nothing. -/
def settle : (patience : Nat) → Timeline α → Timeline α
  | 0, t => t
  | patience + 1, t => match t.clock.ready t.now with
    | some timer => settle patience (t.move timer)
    | none => t

theorem settle_run (patience : Nat) (t : Timeline α) : IdleRun t (t.settle patience) := by
  induction patience generalizing t with
  | zero => exact .refl
  | succ patience ih =>
    unfold settle
    split
    · next timer ready => exact .head (.move (List.mem_of_find?_eq_some ready)) (ih _)
    · exact .refl

/-- A clock is stopped at once, and started again after four seconds and six more. What it comes to
is what it would have come to in ten seconds without a stop, and what one that had looked after four
would have: its periodic alarm is due at twelve. -/
theorem same_after_restart :
    let v := (ClockSession.steps 20 {} [.act (.add "once" (.ofParts 1 0) []),
      .act (.addPeriodic "often" (.ofParts 3 0) []), .act .start]).timeline
    let stopped := v.stop.jumps [.ofParts 4 0, .ofParts 6 0]
    let w := (v.advance (.ofParts 10 0)).settle 20
    ∃ k notices u, stopped.clock.start = .ok (k, notices) ∧ Moves (stopped.turn k notices) u ∧
      u.clock.alarms = w.clock.alarms ∧
      (v.clock.alarms.afterTaking (.ofParts 4 0)).afterTaking (.ofParts 10 0) =
        v.clock.alarms.afterTaking (.ofParts 10 0) ∧
      w.clock.alarms.map (fun a => (a.id, a.deadline)) = [(2, .ofParts 12 0)] := by
  intro v stopped w
  have reach : Reachable v := ClockSession.reachable_new.run (ClockSession.steps_run ..)
  have run : IdleRun v w := .head (.advance v _) (settle_run 20 _)
  have served : w.clock.generation ∈ w.clock.timers.map (·.generation) := by decide +kernel
  have idle : (w.clock.ready w.now).isNone = true := by decide +kernel
  have now : w.now = stopped.now := by decide +kernel
  have starts : stopped.clock.start.toBool = true := by decide +kernel
  cases started : stopped.clock.start with
  | error e => simp [started, Except.toBool] at starts
  | ok result =>
    obtain ⟨k, notices⟩ := result
    obtain ⟨u, moves, now', same⟩ := catching_up_independent.2.2 v _ k notices reach started
    have twice := catching_up_independent.1 v.clock.alarms (.ofParts 4 0) (.ofParts 10 0)
      reach.ordered (by decide)
    refine ⟨k, notices, u, rfl, moves, ?_, twice.1, by decide +kernel⟩
    exact same w run (now.trans now'.symm) ⟨served, Option.isNone_iff_eq_none.mp idle⟩

end Timeline
end EventEngine
