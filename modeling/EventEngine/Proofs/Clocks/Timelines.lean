import EventEngine.Alarm.Session
import EventEngine.Proofs.Clocks.Order

/-!
# Timelines

A timeline is a clock with the time and the log of what has happened on it. A step is one atomic
thing: time passes, someone starts or stops the clock, adds an alarm or removes one, a timer thread
moves, or a callback panics and ends its thread. What a callback does to the clock is a step like
any other, while the rest of the batch of its thread is still to be fired. Steps come in any order;
a session is one such order.
-/
namespace EventEngine

variable {α : Type}

/-- A clock, the time, and what has happened on the clock, the latest first. -/
structure Timeline (α : Type) where
  now : Instant := .start
  clock : Clock α := {}
  notices : List ClockNotice := []

namespace Timeline

/-- Replace the clock, and note what happened on it. -/
def turn (t : Timeline α) (clock : Clock α) (notices : List ClockNotice) : Timeline α :=
  { t with clock, notices := notices.reverse ++ t.notices }

def advance (t : Timeline α) (d : Duration) : Timeline α := { t with now := t.now.advance d }

def stop (t : Timeline α) : Timeline α := t.turn t.clock.stop.1 t.clock.stop.2

def addOnce (t : Timeline α) (callback : α) (deadline : Instant) : Timeline α :=
  let (clock, _, notices) := t.clock.addOnce callback deadline
  t.turn clock notices

def addPeriodic (t : Timeline α) (callback : α) (period : Duration) : Timeline α :=
  let (clock, _, notices) := t.clock.addPeriodic t.now callback period
  t.turn clock notices

def remove (t : Timeline α) (id : AlarmId) : Timeline α :=
  let (clock, _, notices) := t.clock.remove id
  t.turn clock notices

def move (t : Timeline α) (timer : Timer α) : Timeline α :=
  let (clock, _, notices) := t.clock.move t.now timer
  t.turn clock notices

/-- A callback panics, which ends its thread and loses the rest of the batch. -/
def panic (t : Timeline α) (generation : Nat) : Timeline α :=
  t.turn (t.clock.dropTimer generation) []

/-- A step in which nobody adds or removes an alarm. -/
inductive Idle : Timeline α → Timeline α → Prop where
  | advance (t : Timeline α) (d : Duration) : Idle t (t.advance d)
  | start {t : Timeline α} {clock : Clock α} {notices : List ClockNotice} :
      t.clock.start = .ok (clock, notices) → Idle t (t.turn clock notices)
  | stop (t : Timeline α) : Idle t t.stop
  /-- A sleeping thread may wake up at any time. -/
  | move {t : Timeline α} {timer : Timer α} : timer ∈ t.clock.timers → Idle t (t.move timer)
  /-- Any thread may end by a panic at any time. -/
  | panic (t : Timeline α) (generation : Nat) : Idle t (t.panic generation)

/-- One step of some thread. -/
inductive Next : Timeline α → Timeline α → Prop where
  | idle {t u : Timeline α} : Idle t u → Next t u
  | addOnce (t : Timeline α) (callback : α) (deadline : Instant) :
      Next t (t.addOnce callback deadline)
  | addPeriodic (t : Timeline α) (callback : α) (period : Duration) :
      Next t (t.addPeriodic callback period)
  | remove (t : Timeline α) (id : AlarmId) : Next t (t.remove id)

/-- Any number of steps, in any order. -/
abbrev Run : Timeline α → Timeline α → Prop := Relation.ReflTransGen Next

/-- Any number of steps in which nobody adds or removes an alarm. -/
abbrev IdleRun : Timeline α → Timeline α → Prop := Relation.ReflTransGen Idle

/-- Some run from a new clock leads here. -/
def Reachable (t : Timeline α) : Prop :=
  ∃ (config : ClockConfig) (canSpawn : Nat → Bool) (now : Instant), now ≤ Instant.last ∧
    Run { now, clock := { config, canSpawn } } t

variable {t u v w : Timeline α}

theorem Reachable.next (reach : Reachable t) (step : Next t u) : Reachable u := by
  obtain ⟨config, canSpawn, now, le, run⟩ := reach
  exact ⟨config, canSpawn, now, le, run.tail step⟩

theorem Reachable.run (reach : Reachable t) (run : Run t u) : Reachable u := by
  obtain ⟨config, canSpawn, now, le, before⟩ := reach
  exact ⟨config, canSpawn, now, le, before.trans run⟩

theorem IdleRun.run (run : IdleRun t u) : Run t u := run.lift id fun _ _ => .idle

/-- What holds of new clocks and is kept by every step from a reachable timeline holds of every
reachable timeline. -/
theorem Reachable.induct {P : Timeline α → Prop}
    (new : ∀ config canSpawn now, now ≤ Instant.last → P { now, clock := { config, canSpawn } })
    (next : ∀ t u, Reachable t → P t → Next t u → P u) (reach : Reachable t) : P t := by
  obtain ⟨config, canSpawn, now, le, run⟩ := reach
  induction run with
  | refl => exact new config canSpawn now le
  | tail before step ih => exact next _ _ ⟨config, canSpawn, now, le, before⟩ ih step

/-! ## Steps of the clock -/

/-- The alarm is not periodic, or its period is long enough. -/
def Lasting (_ : Clock α) (a : Alarm α) : Prop :=
  ∀ period, a.period = some period → Alarm.minPeriod.nanos ≤ period.nanos

theorem lasting_clampPeriod {k : Clock α} {id : AlarmId} {deadline : Instant} {callback : α}
    (period : Duration) :
    Lasting k ⟨id, deadline, some (Alarm.clampPeriod period), callback⟩ := by
  intro period' same
  obtain rfl := Option.some.inj same
  exact Nat.le_max_right _ _

/-- In a step nothing happens to the clock, or it makes a step. -/
theorem Next.clock (step : Next t u) :
    u.clock = t.clock ∨ Clock.Step Lasting t.clock u.clock := by
  cases step with
  | idle idle =>
    cases idle with
    | advance d => exact .inl rfl
    | start started => exact .inr (.start started)
    | stop => exact .inr (.stop _)
    | move member => exact .inr (.move t.now member)
    | panic generation => exact .inr (.drop _ generation)
  | addOnce callback deadline => exact .inr (.add _ _ _ _ nofun)
  | addPeriodic callback period => exact .inr (.add _ callback _ _ (lasting_clampPeriod period))
  | remove id => exact .inr (.remove _ id)

/-- What sound clocks keep through their steps holds of every reachable clock. -/
theorem Reachable.clock {P : Clock α → Prop} (new : ∀ config canSpawn, P { config, canSpawn })
    (step : ∀ k k', k.Sound → P k → Clock.Step Lasting k k' → P k') (reach : Reachable t) :
    t.clock.Sound ∧ P t.clock := by
  refine reach.induct (P := fun t => t.clock.Sound ∧ P t.clock)
    (fun config canSpawn _ _ => ⟨Clock.sound_new config canSpawn, new config canSpawn⟩) ?_
  intro t u _ ⟨sound, holds⟩ next
  rcases next.clock with same | stepped
  · exact same ▸ ⟨sound, holds⟩
  · exact ⟨stepped.sound sound, step _ _ sound holds stepped⟩

theorem Reachable.sound (reach : Reachable t) : t.clock.Sound :=
  (reach.clock (P := fun _ => True) (fun _ _ => trivial) fun _ _ _ _ _ => trivial).1

/-! ## Time -/

theorem Next.now_le (step : Next t u) (now_le : t.now ≤ Instant.last) :
    t.now ≤ u.now ∧ u.now ≤ Instant.last := by
  have same : t.now ≤ t.now ∧ t.now ≤ Instant.last := ⟨Nat.le_refl _, now_le⟩
  cases step with
  | idle idle =>
    cases idle with
    | advance d => exact ⟨Instant.le_advance now_le d, Instant.advance_le_last _ d⟩
    | start _ => exact same
    | stop => exact same
    | move _ => exact same
    | panic generation => exact same
  | addOnce callback deadline => exact same
  | addPeriodic callback period => exact same
  | remove id => exact same

theorem Reachable.now_le (reach : Reachable t) : t.now ≤ Instant.last :=
  reach.induct (P := fun t => t.now ≤ Instant.last) (fun _ _ _ le => le)
    fun _ _ _ le step => (step.now_le le).2

end Timeline

/-! ## Sessions are runs -/

namespace ClockSession

variable {s s' : ClockSession}

/-- The timeline of a session. -/
def timeline (s : ClockSession) : Timeline ScriptedCallback := ⟨s.now, s.clock, s.notices⟩

/-- Every action is at most one step. -/
theorem perform_run (s : ClockSession) (action : ClockAction) :
    Timeline.Run s.timeline (s.perform action).1.timeline := by
  cases action with
  | add label deadline script => exact .single (.addOnce s.timeline ⟨label, script⟩ deadline)
  | addPeriodic label period script =>
    exact .single (.addPeriodic s.timeline ⟨label, script⟩ period)
  | remove label =>
    simp only [perform]
    split
    · next id _ => exact .single (.remove s.timeline id)
    · exact .refl
  | start =>
    simp only [perform]
    split
    · next started => exact .single (.idle (.start (t := s.timeline) started))
    · exact .refl
    · exact .refl
  | stop => exact .single (.idle (.stop s.timeline))
  | compare label other =>
    simp only [perform]
    split <;> exact .refl
  | _ => exact .refl

theorem performAll_run (s : ClockSession) (actions : List ClockAction) :
    Timeline.Run s.timeline (s.performAll actions).1.timeline := by
  induction actions generalizing s with
  | nil => exact .refl
  | cons action rest ih =>
    have performed := perform_run s action
    unfold performAll
    split
    · next panicked =>
      rw [panicked] at performed
      exact performed
    · next answered =>
      rw [answered] at performed
      exact performed.trans (ih _)

/-- A firing is the steps of its script, and perhaps a panic. -/
theorem fire_run (s : ClockSession) (generation : Nat) (f : Firing ScriptedCallback) :
    Timeline.Run s.timeline (s.fire generation f).timeline := by
  have performed := performAll_run s f.callback.script
  simp only [fire]
  split
  · exact performed.tail (.idle (.panic _ generation))
  · exact performed

theorem tick_run (ticked : s.tick? = some s') : Timeline.Run s.timeline s'.timeline := by
  obtain ⟨timer, ready, rfl⟩ := Option.map_eq_some_iff.mp ticked
  have member : timer ∈ s.clock.timers := List.mem_of_find?_eq_some ready
  have moved : Timeline.Run s.timeline (s.withClock (s.clock.move s.now timer).1
      (s.clock.move s.now timer).2.2).timeline := .single (.idle (.move member))
  simp only
  split
  · exact moved.trans (fire_run ..)
  · exact moved

theorem settle_run (patience : Nat) (s : ClockSession) :
    Timeline.Run s.timeline (s.settle patience).timeline := by
  induction patience generalizing s with
  | zero => exact .refl
  | succ patience ih =>
    unfold settle
    split
    · next ticked => exact (tick_run ticked).trans (ih _)
    · exact .refl

/-- What is done from outside, and all that the timer threads do until none can move, is a run. -/
theorem step_run (patience : Nat) (s : ClockSession) (what : Step) :
    Timeline.Run s.timeline (s.step patience what).1.timeline := by
  refine Relation.ReflTransGen.trans ?_ (settle_run ..)
  cases what with
  | act action => exact perform_run s action
  | advance d => exact .single (.idle (.advance _ d))

def steps (patience : Nat) (s : ClockSession) (whats : List Step) : ClockSession :=
  whats.foldl (fun s what => (s.step patience what).1) s

theorem steps_run (patience : Nat) (s : ClockSession) (whats : List Step) :
    Timeline.Run s.timeline (s.steps patience whats).timeline := by
  induction whats generalizing s with
  | nil => exact .refl
  | cons what rest ih => exact (step_run patience s what).trans (ih _)

theorem reachable_new : ({} : ClockSession).timeline.Reachable :=
  ⟨{}, fitsAddressSpace, .start, by decide, .refl⟩

end ClockSession
end EventEngine
