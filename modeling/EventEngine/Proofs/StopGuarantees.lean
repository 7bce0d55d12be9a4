import EventEngine.Proofs.AfterStop
import EventEngine.Proofs.Exits
import EventEngine.Proofs.LifeCycle
import EventEngine.Proofs.TimeoutGrid

/-!
# What a stop guarantees

A stop divides its work: the caller forgets the alarm and aborts the queue, and the worker on its
exit resets the abort, clears the queue and counts the stop. Whoever waits for the exit finds it all
done, once for each worker, however many stops were asked for and whatever a dispatch in progress
still signals. Then nothing happens to the handler but what others ask for, until it is started.
-/
namespace EventEngine

variable {π : Type} {h : HandlerId}

open Occurrence

namespace World

variable {c : ClockId} {id : AlarmId} {s u v w : World π} {x y : Handler π}

/-! ## Stops are counted once for each worker -/

theorem Run.stops_le (run : Run v w) : v.stops h ≤ w.stops h := run.countP_story_le _

/-- Without a start of a worker, no stop is counted but that of the worker at work, and only once it
is gone. -/
theorem Run.stops_add_le (reach : Reachable v) (run : Run v w)
    (same : w.startups h = v.startups h) (hx : v.outline? h = some x)
    (hy : w.outline? h = some y) :
    w.stops h + (if y.isRunning then 1 else 0) ≤ v.stops h + if x.isRunning then 1 else 0 := by
  induction run generalizing y with
  | refl =>
    obtain rfl := Option.some.inj (hx.symm.trans hy)
    exact Nat.le_refl _
  | @tail u w before step ih =>
    have le := Run.startups_le (h := h) before
    have le' := Run.startups_le (h := h) (.single step)
    rcases step.evolves h with still | ⟨z, notes, y', hz, turn, hy', told⟩
    · have kept := ih (by omega) (still.1.symm.trans hy)
      rwa [World.stops, still.2]
    · obtain rfl := Option.some.inj (hy.symm.trans hy')
      have kept := ih (by omega) hz
      have balance := turn.balance ((reach.run before).barred_outline hz)
      have stops : w.stops h = notes.countP isStopped + u.stops h := by
        rw [World.stops, told, List.countP_append, World.stops]
      have started : w.startups h = notes.countP isStarted + u.startups h := by
        rw [World.startups, told, List.countP_append, World.startups]
      omega

/-- While one worker is there, its handler's counter of stops does not change. -/
theorem Run.metrics_stops (reach : Reachable v) (run : Run v w)
    (same : w.startups h = v.startups h) (hx : v.handlers[h]? = some x)
    (hy : w.handlers[h]? = some y) (kept : y.isRunning = x.isRunning) :
    y.metrics.stops = x.metrics.stops := by
  have le := run.stops_add_le reach same (outline?_eq_some.mpr ⟨x, hx, rfl⟩)
    (outline?_eq_some.mpr ⟨y, hy, rfl⟩)
  have ge := Run.stops_le (h := h) run
  rw [x.isRunning_outline, y.isRunning_outline, kept] at le
  have stops : w.stops h = v.stops h := by omega
  have counted : y.metrics.stops = .ofNat (w.stops h) := ((reach.run run).counts hy).stops
  have counted' : x.metrics.stops = .ofNat (v.stops h) := (reach.counts hx).stops
  rw [counted, counted', stops]

end World

namespace Handler

variable {x x' : Handler π} {notes : List (Occurrence π)}

/-- A start that comes to the making of a worker leaves the settings of the timeout as they are. -/
theorem Turn.timeout_of_launch (turn : Turn h x notes x') (launched : notes.countP isLaunch ≠ 0) :
    x'.timeout = x.timeout := by
  cases turn with
  | start id _ _ => rfl
  | crash id _ _ => rfl
  | panic record since _ => simp [List.countP_append, isLaunch] at launched
  | leave _ _ => exact absurd countP_isLaunch_exitStory launched
  | _ => exact absurd rfl launched

/-- What the exit of a worker does that was asked to stop. -/
theorem exit_of_asked (asked : x.stopRequested = true) :
    x.exit.queue = {} ∧ x.exit.metrics.stops = x.metrics.stops + 1 ∧
      x.exit.metrics.cleared = x.metrics.cleared + .ofNat x.pending := by
  rw [exit, if_pos asked]
  exact ⟨rfl, rfl, rfl⟩

end Handler

namespace World

variable {c : ClockId} {id : AlarmId} {s u v w : World π} {x y : Handler π}

/-! ## Nothing happens to a handler that was stopped -/

/-- Until a worker is started, the handler has none, its queue is not aborted and no stop is pending
on it, no record of it is dispatched and its counter of stops stays where it is. Nothing is queued
but what has been accepted in the meantime. -/
def LeftAtRest (v : World π) (h : HandlerId) (stops : UInt64) : Prop :=
  ∀ u, Run v u → u.startups h = v.startups h → ∃ y, u.handlers[h]? = some y ∧
    y.isRunning = false ∧ y.queue.aborted = false ∧ y.stopRequested = false ∧
    y.metrics.stops = stops ∧ dispatched (u.story h) = dispatched (v.story h) ∧
    (accepted (u.story h) = accepted (v.story h) → y.queue.events = [])

theorem leftAtRest_of_exit (reach : Reachable v) (outlined : v.outline? h = some x.exit)
    (asked : x.stopRequested = true) : v.LeftAtRest h (x.metrics.stops + 1) := by
  have vacant : v.Vacant h := by
    intro y outlined'
    obtain rfl := Option.some.inj (outlined.symm.trans outlined')
    exact Handler.isRunning_exit
  intro u run same
  have vacant' := vacant.run run same
  obtain ⟨_, outlined'⟩ := Option.isSome_iff_exists.mp
    (run.outline_isSome (by rw [outlined]; rfl))
  obtain ⟨y, hy, rfl⟩ := outline?_eq_some.mp outlined'
  have idle : y.isRunning = false := y.isRunning_outline ▸ vacant' _ outlined'
  obtain ⟨aborted, present⟩ := (reach.run run).barred hy
  have unasked : y.stopRequested = false := by
    refine (Bool.not_eq_true _).mp fun asked' => ?_
    exact absurd (idle.symm.trans (present asked')) nofun
  refine ⟨y, hy, idle, aborted.trans unasked, unasked, ?_, ?_, fun quiet => ?_⟩
  · obtain ⟨z, hz, exit⟩ := outline?_eq_some.mp outlined
    have left : z.isRunning = false := by rw [← z.isRunning_outline, exit, Handler.isRunning_exit]
    calc y.metrics.stops = z.metrics.stops :=
          run.metrics_stops reach same hz hy (idle.trans left.symm)
      _ = x.exit.metrics.stops := congrArg (·.metrics.stops) exit
      _ = x.metrics.stops + 1 := (Handler.exit_of_asked asked).2.1
  · have kept := vacant.doomed.served_run reach run same
    rwa [vacant.served, vacant'.served] at kept
  · have clean : ∀ record ∈ x.exit.unserved, (fun _ => true) record = false := by
      rw [Handler.unserved_exit asked]
      nofun
    obtain ⟨z, hz, nothing⟩ := run.unserved outlined clean (by rw [quiet])
    obtain rfl := Option.some.inj (outlined'.symm.trans hz)
    refine List.eq_nil_iff_forall_not_mem.mpr fun record member => ?_
    have unserved : record ∈ y.outline.unserved := by
      rw [y.unserved_outline]
      exact List.mem_append_right _ member
    exact absurd (nothing record unserved) nofun

/-! ## The alarm is gone -/

theorem Run.spent (run : Run v w) (spent : (v.clock c).Spent id) : (w.clock c).Spent id := by
  induction run with
  | refl => exact spent
  | tail _ step ih => exact (step.ticks.steps c).spent ih

/-- A call that removes the alarm of a handler leaves none under its id. -/
theorem Drops.spent (drops : v.Drops h c id) (issued : id < (v.clock c).nextId) (step : Next v w)
    (dropped : ∀ a ∈ (w.clock c).alarms, ¬ v.Drops h c a.id) : (w.clock c).Spent id := by
  refine ⟨Nat.lt_of_lt_of_le issued (step.ticks.steps c).nextId_le, ?_⟩
  rintro a member rfl
  exact dropped a member drops

theorem Installs.bond?_of_running {c : ClockId} (installs : Installs w h x c v)
    (running : x.isRunning = true) :
    v.bond? h = w.bond? h := by
  cases installs with
  | running _ => rfl
  | launched idle _ => simp [Handler.isRunning, idle] at running
  | refused idle _ => simp [Handler.isRunning, idle] at running
  | crashed idle _ => simp [Handler.isRunning, idle] at running

theorem bond?_start_of_running {c : ClockId} (found : w.find? h = some x)
    (running : x.isRunning = true) (clock : x.clock = some c) :
    (w.start h x).1.bond? h = some (x.timeoutAlarm, some c) := by
  have adopted : (w.adopted h).bond? h = some (x.timeoutAlarm, some c) := by
    rw [bond?_eq (find?_eq_some.mp (find?_adopted found)).1, Handler.bond]
    simp [Handler.adopt, clock]
  have started := starts found
  generalize (w.start h x).1 = w' at started
  cases started with
  | failed _ => exact adopted
  | opened _ installs => exact (installs.bond?_of_running running).trans adopted

/-- Who acts on a handler finds the worker, the alarm and the clock that it had before. -/
theorem Calm.same_bond {t : World π} {z : Handler π} (calm : Calm v t)
    (hx : v.handlers[h]? = some x) (found : t.find? h = some z) :
    z.isRunning = x.isRunning ∧ z.timeoutAlarm = x.timeoutAlarm ∧ z.clock = x.clock := by
  have same : z.outline = x.outline := Option.some.inj
    ((outline?_eq_some.mpr ⟨z, (find?_eq_some.mp found).1, rfl⟩ : t.outline? h = _).symm.trans
      ((calm.still h).1.trans (outline?_eq_some.mpr ⟨x, hx, rfl⟩)))
  refine ⟨?_, ?_, ?_⟩
  · rw [← z.isRunning_outline, same, x.isRunning_outline]
  · rw [← z.timeoutAlarm_outline, same, x.timeoutAlarm_outline]
  · rw [← z.clock_outline, same, x.clock_outline]

/-- As long as a handler runs and keeps its clock, it has the alarm registered that it had, or the
alarm is gone. -/
theorem KeepsClock.bond_or_spent (keeps : KeepsClock h v w)
    (hx : v.handlers[h]? = some x) (running : x.isRunning = true)
    (registered : x.timeoutAlarm = some id) (clock : x.clock = some c)
    (issued : id < (v.clock c).nextId) :
    w.bond? h = some (some id, some c) ∨ (w.clock c).Spent id := by
  obtain ⟨step, kept, -⟩ := keeps
  have seen : ∀ {t : World π} {z : Handler π}, Calm v t → t.find? h = some z →
      z.isRunning = true ∧ z.timeoutAlarm = some id ∧ z.clock = some c := by
    intro t z before found
    obtain ⟨running', registered', clock'⟩ := before.same_bond hx found
    exact ⟨running'.trans running, registered'.trans registered, clock'.trans clock⟩
  cases step.concerns h with
  | others same _ =>
    refine .inl (same.trans ?_)
    rw [bond?_eq hx, Handler.bond, registered, clock]
  | start before found after =>
    obtain ⟨running', registered', clock'⟩ := seen before found
    refine .inl ((after.still h).bond?.trans ?_)
    rw [bond?_start_of_running found running' clock', registered']
  | @beginStart t z k notices before found started after =>
    obtain ⟨-, registered', clock'⟩ := seen before found
    refine .inl ((after.still h).bond?.trans ?_)
    simp [bond?, World.adopted, (find?_eq_some.mp found).1, Handler.bond, Handler.adopt,
      Handler.opened, registered', clock']
  | @endStart t z c' before found pending after =>
    obtain ⟨running', registered', clock'⟩ := seen before found
    have entered := find?_entered found c'
    refine .inl ((after.still h).bond?.trans ?_)
    rw [(installs entered c').bond?_of_running running', bond?_eq (find?_eq_some.mp entered).1,
      Handler.bond]
    exact congrArg some (Prod.ext registered' clock')
  | @stop t who z destroys before found running' after =>
    obtain ⟨-, registered', clock'⟩ := seen before found
    refine .inr ⟨Nat.lt_of_lt_of_le issued (step.ticks.steps c).nextId_le, ?_⟩
    rintro a member rfl
    rw [after.clock, mem_alarms_requestStop] at member
    exact member.2 ⟨running', registered', clock'⟩
  | @setClock t z c' before found after =>
    obtain ⟨-, registered', -⟩ := seen before found
    have given : w.bond? h = some (some id, some c') := by
      rw [(after.still h).bond?]
      simp [bond?, (find?_eq_some.mp found).1, Handler.bond, registered']
    obtain ⟨y, hy, bond_y⟩ := Option.map_eq_some_iff.mp given
    obtain ⟨registered_y, -⟩ := Prod.mk.inj bond_y
    have same := kept x y hx hy (by rw [registered]; rfl)
    refine .inl ?_
    rw [bond?_eq hy, Handler.bond, registered_y, same, clock]

theorem run_of_keepsClock (keeps : Relation.ReflTransGen (KeepsClock h) v w) : Run v w :=
  Relation.ReflTransGen.mono (fun _ _ => KeepsClock.step) _ _ keeps

/-- The alarm that the start of a worker has registered has been issued by the clock that the
handler has now, if no other start was in progress on another one. -/
theorem Next.issued_of_launch {s₀ : World π} (reach : Reachable s₀) (step : Next s₀ s)
    (launched : s.launches h ≠ s₀.launches h)
    (onClock : ∀ y, s₀.handlers[h]? = some y → y.OnClock)
    (hx : s.handlers[h]? = some x) (registered : x.timeoutAlarm = some id)
    (clock : x.clock = some c) (there : c < s.clocks.length) : id < (s.clock c).nextId := by
  rcases step.evolves h with still | ⟨y, notes, y', hy, turn, hy', told⟩
  · exact absurd still.launches launched
  have launch : notes.countP isLaunch ≠ 0 := by
    intro unlaunched
    apply launched
    rw [World.launches, told, List.countP_append, unlaunched, Nat.zero_add, World.launches]
  obtain rfl : x.outline = y' :=
    Option.some.inj ((outline?_eq_some.mpr ⟨x, hx, rfl⟩ : s.outline? h = _).symm.trans hy')
  obtain ⟨y, hy₀, rfl⟩ := outline?_eq_some.mp hy
  have configured := configured_of_registered (reach.next step) hx (by rw [registered]; rfl)
  rw [← x.timeout_outline, turn.timeout_of_launch launch, y.timeout_outline] at configured
  obtain ⟨setup, timeout⟩ := Option.isSome_iff_exists.mp configured
  obtain ⟨c', -, arms, kept⟩ := step.arms launched hy₀ timeout
  obtain rfl : c' = c := Option.some.inj ((kept (onClock y hy₀) x hx).symm.trans clock)
  have arms := arms (Run.length_clocks (.single step) ▸ there)
  obtain ⟨z, found, new⟩ := registered?_eq_some.mp arms.registered
  obtain rfl := Option.some.inj (hx.symm.trans (find?_eq_some.mp found).1)
  obtain rfl := Option.some.inj (registered.symm.trans new)
  rw [arms.nextId]
  exact Nat.lt_succ_self _

/-- As long as the worker that was started goes on and keeps its clock, it has the alarm registered
that its start has registered, or the alarm is gone. -/
theorem bond_or_spent_of_keepsClock (hx : s.handlers[h]? = some x)
    (registered : x.timeoutAlarm = some id) (clock : x.clock = some c)
    (issued : id < (s.clock c).nextId) (keeps : Relation.ReflTransGen (KeepsClock h) s v)
    (same : v.startups h = s.startups h) (running : ¬ v.Vacant h) :
    v.bond? h = some (some id, some c) ∨ (v.clock c).Spent id := by
  induction keeps with
  | refl =>
    refine .inl ?_
    rw [bond?_eq hx, Handler.bond, registered, clock]
  | @tail u v before keeps ih =>
    have run : Run s u := run_of_keepsClock before
    have le := Run.startups_le (h := h) run
    have le' := Run.startups_le (h := h) (.single keeps.step)
    have running' : ¬ u.Vacant h := fun vacant =>
      running (vacant.run (.single keeps.step) (by omega))
    rcases ih (by omega) running' with bond | spent
    · obtain ⟨y, hy, same⟩ := Option.map_eq_some_iff.mp bond
      obtain ⟨registered', clock'⟩ := Prod.mk.inj same
      have issued' := Nat.lt_of_lt_of_le issued (Run.nextId_le run)
      refine keeps.bond_or_spent hy ?_ registered' clock' issued'
      refine (Bool.not_eq_false _).mp fun idle => running' fun z hz => ?_
      obtain ⟨_, hy', rfl⟩ := outline?_eq_some.mp hz
      obtain rfl := Option.some.inj (hy.symm.trans hy')
      exact y.isRunning_outline.trans idle
    · exact .inr ((keeps.step.ticks.steps c).spent spent)

/-- The alarm that the start of a worker has registered is the one that a stop would remove now, if
the worker is still there and has kept its clock, or it is gone. -/
theorem drops_or_spent_of_launch {s₀ : World π} {z : Handler π} (reach : Reachable s₀)
    (step : Next s₀ s) (launched : s.launches h ≠ s₀.launches h)
    (onClock : ∀ y, s₀.handlers[h]? = some y → y.OnClock)
    (hz : s.handlers[h]? = some z) (registered : z.timeoutAlarm = some id)
    (clock : z.clock = some c) (there : c < s.clocks.length)
    (keeps : Relation.ReflTransGen (KeepsClock h) s v)
    (same : v.startups h = s.startups h) (found : v.find? h = some x)
    (running : x.isRunning = true) :
    (v.Drops h c id ∧ id < (v.clock c).nextId) ∨ (v.clock c).Spent id := by
  have issued := step.issued_of_launch reach launched onClock hz registered clock there
  have hx := (find?_eq_some.mp found).1
  have present : ¬ v.Vacant h := fun vacant => vacant.absurd hx running
  refine (bond_or_spent_of_keepsClock hz registered clock issued keeps same present).imp_left ?_
  intro bond
  obtain ⟨y, hy, bond⟩ := Option.map_eq_some_iff.mp bond
  obtain rfl := Option.some.inj (hx.symm.trans hy)
  obtain ⟨registered', clock'⟩ := Prod.mk.inj bond
  exact ⟨⟨x, found, running, registered', clock'⟩,
    Nat.lt_of_lt_of_le issued (Run.nextId_le (run_of_keepsClock keeps))⟩

/-- The alarm that the start of a worker has registered is not scheduled any more once the worker
has been asked to stop, if the handler has kept its clock as long as it had the alarm, and no start
was in progress on another one. -/
theorem Calls.alarm_gone {s₀ : World π} {z : Handler π} (reach : Reachable s₀) (step : Next s₀ s)
    (launched : s.launches h ≠ s₀.launches h)
    (onClock : ∀ y, s₀.handlers[h]? = some y → y.OnClock)
    (hz : s.handlers[h]? = some z) (registered : z.timeoutAlarm = some id)
    (clock : z.clock = some c) (keeps : Relation.ReflTransGen (KeepsClock h) s v)
    (same : v.startups h = s.startups h)
    (stops : Calls (.stop h) v w) (found : v.find? h = some x) (running : x.isRunning = true)
    (run : Run w u) : ∀ a ∈ (u.clock c).alarms, a.id ≠ id := by
  intro a member
  have there : c < s.clocks.length := by
    have last := lt_length_of_mem member
    rwa [Run.length_clocks (((run_of_keepsClock keeps).tail stops.next).trans run)] at last
  have spent : (w.clock c).Spent id := by
    rcases drops_or_spent_of_launch reach step launched onClock hz registered clock there keeps same
      found running with ⟨drops, issued⟩ | spent
    · exact drops.spent issued stops.next fun a member =>
        ((stops.mem_alarms nofun fun t who => mem_alarms_stop who).mp member).2
    · exact (stops.next.ticks.steps c).spent spent
  exact (run.spent spent).2 a member

/-! ## What a stop guarantees -/

/-- After the call of a stop, a handler with a worker is as it was, except that the stop is pending
on it and its alarm is forgotten. -/
theorem Calls.outline_stop (stops : Calls (.stop h) v w) (found : v.find? h = some x)
    (running : x.isRunning = true) : w.outline? h = some x.outline.stopRequest := by
  obtain ⟨t, who, before, after⟩ := stops.calm nofun
  obtain ⟨y, found', same⟩ := (before.still h).find? found
  have running' : y.isRunning = true := by
    rw [← y.isRunning_outline, same, x.isRunning_outline, running]
  have asked := find?_requestStop found' running' who false
  rw [← perform_stop t who found'] at asked
  rw [(after.still h).1, ← same]
  exact outline?_eq_some.mpr ⟨_, (find?_eq_some.mp asked).1, rfl⟩

/-- The exit that ends the waiting for a stop: `e₀` and `e` are the worlds before and after it. Who
waits for it finds the handler at rest. -/
structure CompletesStop (h : HandlerId) (x : Handler π) (e₀ e : World π) : Prop where
  step : Next e₀ e
  stopped : ∃ y z, e₀.handlers[h]? = some y ∧ e.handlers[h]? = some z ∧ z.isRunning = false ∧
    z.queue = {} ∧ z.metrics.stops = x.metrics.stops + 1 ∧
    z.metrics.cleared = y.metrics.cleared + .ofNat y.pending
  atRest : e.LeftAtRest h (x.metrics.stops + 1)

/-- After the call of a stop the worker is there and the stop is pending on it, or it has left since
then, and the stop was completed. -/
theorem Run.stays_or_completes (reach : Reachable w) (run : Run w u)
    (called : w.outline? h = some x.outline.stopRequest) (running : x.isRunning = true) :
    (∃ y, u.find? h = some y ∧ y.exits = x.exits ∧ y.isRunning = true ∧ y.stopRequested = true ∧
      u.launches h = w.launches h) ∨
    ∃ e₀ e, Run w e₀ ∧ Run e u ∧ e.launches h = w.launches h ∧ CompletesStop h x e₀ e := by
  have running' : x.outline.stopRequest.isRunning = true := x.isRunning_outline.trans running
  rcases run.stays_or_leaves called running' rfl with
    ⟨y, hy, exits, working, asked, launches⟩ | ⟨e₀, e, y, before, leaves, after, launches, hy,
      working, asked, hz⟩
  · have alive := (reach.run run).alive y hy working
    obtain ⟨y, there, rfl⟩ := outline?_eq_some.mp hy
    exact .inl ⟨y, find?_eq_some.mpr ⟨there, alive⟩, exits, y.isRunning_outline ▸ working, asked,
      launches⟩
  · right
    have reach₀ : Reachable e₀ := reach.run before
    obtain ⟨x', called, same⟩ := outline?_eq_some.mp called
    obtain ⟨y, there, rfl⟩ := outline?_eq_some.mp hy
    obtain ⟨z, there', left⟩ := outline?_eq_some.mp hz
    obtain ⟨cleared, counted, discarded⟩ := y.outline.exit_of_asked asked
    have launches₀ : e₀.launches h = w.launches h := by
      have le := Run.launches_le (h := h) before
      have le' := (leaves.evolves h).launches_le
      omega
    have stops₀ : y.metrics.stops = x.metrics.stops := by
      have kept : y.isRunning = x'.isRunning := by
        rw [← y.isRunning_outline, working, ← x'.isRunning_outline, same, running']
      calc y.metrics.stops = x'.metrics.stops :=
            before.metrics_stops reach (before.startups_eq launches₀) called there kept
        _ = x.outline.stopRequest.metrics.stops := congrArg (·.metrics.stops) same
        _ = x.metrics.stops := rfl
    have idle : z.isRunning = false := by rw [← z.isRunning_outline, left, Handler.isRunning_exit]
    refine ⟨e₀, e, before, after, launches, leaves, ⟨y, z, there, there', idle, ?_, ?_, ?_⟩, ?_⟩
    · exact (congrArg (·.queue) left).trans cleared
    · rw [← stops₀]
      exact (congrArg (·.metrics.stops) left).trans counted
    · exact (congrArg (·.metrics.cleared) left).trans discarded
    · have atRest := leftAtRest_of_exit (reach₀.next leaves) hz asked
      rw [← stops₀]
      exact atRest

/-- Between the call of a stop and its return the worker has left, and the stop was completed. -/
theorem Calls.completes (reach : Reachable v) (stops : Calls (.stop h) v w)
    (found : v.find? h = some x) (running : x.isRunning = true) (run : Run w u)
    (returned : (u.pauseEnd? (.exit h x.exits false)).isSome = true) :
    ∃ e₀ e, Run w e₀ ∧ Run e u ∧ e.launches h = w.launches h ∧ CompletesStop h x e₀ e := by
  have called := stops.outline_stop found running
  rcases run.stays_or_completes (reach.next stops.next) called running with
    ⟨y, found', waiting, -⟩ | left
  · -- the worker would still be there
    simp [pauseEnd?, found', waiting] at returned
  · exact left

/-- A stop of a handler without a worker changes nothing and is answered at once. With a worker it
makes every thread but this worker wait, and whenever the waiting ends, the exit that it waits for
lies between. Until then the counter of stops is where it has been since the start of the worker.
The alarm that this start has registered is not scheduled from the call on, if the handler has kept
its clock as long as it had the alarm, and no start was in progress on another one. -/
theorem stop_guarantees (reach : Reachable v) (found : v.find? h = some x)
    (running : x.isRunning = true) :
    (∀ (t : World π) y who, t.find? h = some y →
      (y.isRunning = false → t.perform who (.stop h) = (t, .replied .done)) ∧
      (y.isRunning = true → who ≠ .worker h →
        (t.perform who (.stop h)).2 = .waits (.exit h y.exits false))) ∧
    (∀ s y, Reachable s → Run s v → s.startups h = v.startups h → s.handlers[h]? = some y →
      y.metrics.stops = x.metrics.stops) ∧
    ∀ w, Calls (.stop h) v w →
      (∀ u, Run w u → (u.pauseEnd? (.exit h x.exits false)).isSome = true →
        ∃ e₀ e, Run w e₀ ∧ Run e u ∧ e.launches h = w.launches h ∧ CompletesStop h x e₀ e) ∧
      ∀ s₀ s y id c, Reachable s₀ → Next s₀ s → s.launches h ≠ s₀.launches h →
        (∀ y₀, s₀.handlers[h]? = some y₀ → y₀.OnClock) →
        s.handlers[h]? = some y → y.timeoutAlarm = some id → y.clock = some c →
        Relation.ReflTransGen (KeepsClock h) s v → v.startups h = s.startups h →
        ∀ u, Run w u → ∀ a ∈ (u.clock c).alarms, a.id ≠ id := by
  have hx := (find?_eq_some.mp found).1
  refine ⟨fun t y who found' => ⟨?_, ?_⟩, ?_, fun w stops => ⟨?_, ?_⟩⟩
  · intro idle
    simp [perform, withHandler, found', requestStop, idle]
  · intro running' other
    simp [perform, withHandler, found', requestStop, running', other]
  · intro s y reach₀ run same hy
    refine (run.metrics_stops reach₀ same.symm hy hx ?_).symm
    refine running.trans (Eq.symm ((Bool.not_eq_false _).mp fun idle => ?_))
    -- no worker comes without a start
    have vacant : s.Vacant h := by
      intro z hz
      obtain ⟨_, hy', rfl⟩ := outline?_eq_some.mp hz
      obtain rfl := Option.some.inj (hy.symm.trans hy')
      exact y.isRunning_outline.trans idle
    exact (vacant.run run same.symm).absurd hx running
  · exact fun u run returned => stops.completes reach found running run returned
  · intro s₀ s y id c reach₀ step launched onClock hy registered clock keeps same u run
    exact stops.alarm_gone reach₀ step launched onClock hy registered clock keeps same found running
      run

/-- The first dispatch queues an event, stops its own handler and queues another one. A stop that
comes meanwhile from outside waits for the same exit: there is one stop and two events are
discarded. -/
theorem stop_on_own_stop :
    let v := (single Nat).steps 20 [.act (.setTimeout 0 (.ofParts 1 0) 0 []), .act (.start 0),
      .act (.signal 0 .tail "A" 1
        [.signal 0 .tail "A" 2 [], .stop 0, .block, .signal 0 .tail "A" 3 []])]
    let w := (v.perform .outside (.stop 0)).1
    let u := w.steps 20 [.release 0]
    ∃ x, v.find? 0 = some x ∧ x.isRunning = true ∧ x.stopRequested = true ∧ x.pending = 1 ∧
      (v.perform .outside (.stop 0)).2 = .waits (.exit 0 x.exits false) ∧
      (∃ e₀ e, Run w e₀ ∧ Run e u ∧ e.launches 0 = w.launches 0 ∧ CompletesStop 0 x e₀ e) ∧
      (u.handlers[0]?).map (fun y => (y.isRunning, y.pending, y.metrics.stops, y.metrics.cleared)) =
        some (false, 0, 1, 2) := by
  intro v w u
  have reach : Reachable v := single_fresh.reachable.steps 20 _
  have seen : (v.find? 0).map (fun x => (x.isRunning, x.stopRequested, x.pending, x.exits)) =
      some (true, true, 1, 0) := by decide +kernel
  obtain ⟨x, found, shown⟩ := Option.map_eq_some_iff.mp seen
  simp only [Prod.mk.injEq] at shown
  obtain ⟨running, asked, pending, exits⟩ := shown
  obtain ⟨answers, -, returns⟩ := stop_guarantees reach found running
  have returned : (u.pauseEnd? (.exit 0 x.exits false)).isSome = true := by
    rw [exits]
    decide +kernel
  exact ⟨x, found, running, asked, pending, (answers v x .outside found).2 running nofun,
    (returns w (.outside v)).1 u (steps_run 20 w _) returned, by decide +kernel⟩

end World
end EventEngine
