import EventEngine.Proofs.Clocks.Startable

/-!
# Primed handlers can be timed out

From every reachable world in which a handler is primed, some run queues a timeout on it without a
start of its worker. The threads of a stopped clock fire what they have taken and end. A clock
without threads, once started again, takes every alarm whose deadline has come.
-/
namespace EventEngine

variable {π : Type}

namespace Clock

variable {α : Type} {k : Clock α} {now : Instant} {t : Timer α} {timers : List (Timer α)}

theorem stop_spec (k : Clock α) : k.stop.1.isRunning = false ∧ k.stop.1.config = k.config ∧
    k.stop.1.alarms = k.alarms ∧ k.stop.1.taken = k.taken := by
  obtain ⟨stopped, same⟩ | ⟨-, same⟩ := stop_cases k <;> rw [same]
  · exact ⟨stopped, rfl, rfl, rfl⟩
  · exact ⟨rfl, rfl, rfl, by simp [taken, wakeAll, List.flatMap_map]⟩

/-! ## Stopped clocks -/

/-- What threads have still to do once their generation is over: to fire their batches and end. -/
def work : List (Timer α) → Nat
  | [] => 0
  | t :: rest => t.phase.batch.length + 1 + work rest

theorem Sound.stale (sound : k.Sound) (stopped : k.isRunning = false) (member : t ∈ k.timers) :
    t.generation ≠ k.generation := by
  intro current
  have running := sound.serves (current ▸ List.mem_map_of_mem member)
  exact Bool.noConfusion (stopped.symm.trans running)

/-- Every thread of a stopped clock is at work. -/
theorem Sound.canMove_of_stopped (sound : k.Sound) (stopped : k.isRunning = false)
    (member : t ∈ k.timers) (now : Instant) : Timer.canMove now t = true := by
  have stale := sound.stale stopped member
  have awake : t.phase.isAsleep = false :=
    Bool.eq_false_iff.mpr fun asleep => stale (sound.awake t member asleep)
  unfold Timer.canMove
  split
  · next sleeping => simp [sleeping, TimerPhase.isAsleep] at awake
  · next sleeping => simp [sleeping, TimerPhase.isAsleep] at awake
  · rfl

/-- A move of the first one leaves less to do, and fires what was taken. -/
theorem Sound.move_stopped (sound : k.Sound) (stopped : k.isRunning = false)
    (first : k.timers = t :: timers) (now : Instant) :
    ∃ timers', (k.move now t).1 = { k with timers := timers' } ∧
      work timers' < work k.timers ∧
      k.taken = (k.move now t).2.1.toList ++ timers'.flatMap (·.phase.batch) := by
  have stale := sound.stale stopped (by simp [first] : t ∈ k.timers)
  have among : k.timers = [] ++ t :: timers := first
  have moved := move_cases k now t
  generalize k.move now t = result at moved
  cases moved with
  | wake sleeping =>
    exact absurd (sound.awake t (by simp [first]) (by simp [sleeping, TimerPhase.isAsleep])) stale
  | @fire f rest firing =>
    refine ⟨_, sound.setPhase_among among _, ?_, ?_⟩
    · simp [work, first, firing, TimerPhase.batch]
    · simp [taken, first, firing, TimerPhase.batch]
  | ends empty _ =>
    refine ⟨_, sound.dropTimer_among among, ?_, ?_⟩
    · simp [work, first]
    · simp [taken, first, empty, TimerPhase.batch]
  | sleep _ current _ => exact absurd current stale
  | take _ current _ => exact absurd current stale

/-! ## Clocks that have just been started -/

/-- A new thread takes every alarm whose deadline has come. -/
theorem Sound.takes (sound : k.Sound) (new : k.timers = [⟨k.generation, .awake []⟩]) {a : Alarm α}
    (scheduled : a ∈ k.alarms) (come : a.deadline ≤ now) :
    ∃ t ∈ k.timers, Timer.canMove now t = true ∧ a.firing ∈ (k.move now t).1.taken := by
  refine ⟨⟨k.generation, .awake []⟩, by simp [new], rfl, ?_⟩
  have due : a ∈ k.alarms.due now := Schedule.mem_due sound.sorted scheduled come
  have moved := move_cases k now ⟨k.generation, .awake []⟩
  generalize k.move now ⟨k.generation, .awake []⟩ = result at moved
  cases moved with
  | wake sleeping => cases sleeping
  | fire firing => cases firing
  | ends _ stale => exact absurd rfl stale
  | sleep _ _ none => simp [none] at due
  | take _ _ _ =>
    refine mem_taken.mpr ⟨⟨k.generation, .awake ((k.alarms.due now).map Alarm.firing)⟩, ?_, ?_⟩
    · simp [Clock.setPhase, Clock.take, new]
    · exact List.mem_map_of_mem due

end Clock

namespace World

variable {h g : HandlerId} {c : ClockId} {u v w : World π} {x : Handler π}

/-- A run that starts no worker of `h` and leaves its alarm registered. -/
structure Bides (h : HandlerId) (v w : World π) : Prop where
  run : Run v w
  launches : w.launches h = v.launches h
  registered : w.registered? h = v.registered? h
  timeouts : v.timeouts h ≤ w.timeouts h

theorem Bides.refl : Bides h w w := ⟨.refl, rfl, rfl, Nat.le_refl _⟩

theorem Bides.trans (first : Bides h u v) (second : Bides h v w) : Bides h u w where
  run := first.run.trans second.run
  launches := second.launches.trans first.launches
  registered := second.registered.trans first.registered
  timeouts := Nat.le_trans first.timeouts second.timeouts

theorem Bides.of_step (step : Next v w) (same : w.handlers[h]? = v.handlers[h]?)
    (told : w.story h = v.story h) : Bides h v w where
  run := .single step
  launches := launches_congr told
  registered := by rw [registered?, find?, same, ← find?, ← registered?]
  timeouts := Nat.le_of_eq (timeouts_congr told).symm

theorem bides_stopClock (w : World π) (c : ClockId) : Bides h w (w.stopClock c) :=
  .of_step (.stopClock w c) rfl (story_setClock ..)

theorem bides_startClock (w : World π) (c : ClockId) : Bides h w (w.startClock c).1 := by
  refine .of_step (.startClock w c) ?_ ?_
  · unfold World.startClock
    split <;> rfl
  · unfold World.startClock
    split
    · exact story_setClock ..
    · rfl

theorem bides_advance (w : World π) (d : Duration) : Bides h w (w.advance d) :=
  .of_step (.act w (.advance d)) rfl rfl

/-! ## What an alarm that fires does -/

theorem registered?_modify {f : Handler π → Handler π}
    (keeps : ∀ y, (f y).isDestroyed = y.isDestroyed ∧ (f y).timeoutAlarm = y.timeoutAlarm) :
    (w.modify g f).registered? h = w.registered? h := by
  unfold registered? find?
  rw [handlers_modify]
  split
  · cases w.handlers[h]? with
    | none => rfl
    | some y => simp [Option.filter_some, keeps y, apply_ite (Option.bind · Handler.timeoutAlarm)]
  · rfl

theorem registered?_enqueue {place : Place} {body : RecordBody π} :
    (w.enqueue g x place body).registered? h = w.registered? h :=
  registered?_modify fun _ => by cases place <;> exact ⟨rfl, rfl⟩

theorem timeouts_enqueue_le {place : Place} {body : RecordBody π} :
    w.timeouts h ≤ (w.enqueue g x place body).timeouts h := by
  rw [enqueue, timeouts, timeouts, story_note]
  split
  · exact (List.sublist_cons_self _ _).countP_le
  · exact Nat.le_refl _

theorem bides_moveTimer {generation : Nat}
    (moved : w.moveTimer c generation = some v) : Bides h w v := by
  obtain ⟨t, ready, rfl⟩ := moveTimer_eq_some.mp moved
  have ticked : (w.ticked c t).story h = w.story h := story_setClock ..
  have launches : (w.ticked c t).launches h = w.launches h := launches_congr ticked
  have timeouts : (w.ticked c t).timeouts h = w.timeouts h := timeouts_congr ticked
  have step : Next w _ := .timer moved
  cases fires : ((w.clock c).move w.now t).2.1 with
  | none =>
    rw [fires] at step
    exact .of_step step rfl ticked
  | some f =>
    rw [fires] at step
    have delivered := delivers (w.ticked c t) f
    simp only [Option.map_some, Option.getD_some] at step ⊢
    generalize (w.ticked c t).deliver f = v at delivered step
    cases delivered with
    | ignored => exact .of_step step rfl ticked
    | queued _ _ _ _ =>
      exact ⟨.single step, launches_enqueue.trans launches, registered?_enqueue,
        timeouts ▸ timeouts_enqueue_le⟩

/-- The alarm that a handler has registered queues a timeout on it. -/
theorem deliver_of_registered (reach : Reachable w) {f : Firing AlarmOwner}
    (same : v.handlers[h]? = w.handlers[h]?) (callback : f.callback = .handler h)
    (registered : v.registered? h = some f.id) : ∃ x setup, v.deliver f = v.enqueue h x .head
      (.timeout setup ⟨f.id, f.deadline, .ofDeadline f.deadline v.now v.wallStart⟩) := by
  obtain ⟨x, found, registered⟩ := registered?_eq_some.mp registered
  have hx : w.handlers[h]? = some x := same ▸ (find?_eq_some.mp found).1
  obtain ⟨setup, configured⟩ := Option.isSome_iff_exists.mp
    (configured_of_registered reach hx (by simp [registered]))
  exact ⟨x, setup, by simp [deliver, callback, signalTimeout, found, registered, configured]⟩

/-- The alarm that a handler has registered times it out. -/
theorem timeouts_deliver (reach : Reachable w) {f : Firing AlarmOwner}
    (same : v.handlers[h]? = w.handlers[h]?) (callback : f.callback = .handler h)
    (registered : v.registered? h = some f.id) : v.timeouts h < (v.deliver f).timeouts h := by
  obtain ⟨x, setup, queued⟩ := deliver_of_registered reach same callback registered
  rw [queued, enqueue, timeouts, timeouts, story_note_self rfl, List.countP_cons_of_pos rfl]
  exact Nat.lt_succ_self _

/-! ## Threads of a stopped clock -/

theorem lt_length_of_thread {t : Timer AlarmOwner} (member : t ∈ (w.clock c).timers) :
    c < w.clocks.length := by
  refine Nat.lt_of_not_le fun beyond => ?_
  rw [clock_of_length_le beyond] at member
  cases member

/-- What a move of a thread that can move leads to. -/
theorem moveTimer_of_thread (reach : Reachable w) {t : Timer AlarmOwner}
    (member : t ∈ (w.clock c).timers) (moves : Clock.Timer.canMove w.now t = true) :
    ∃ v, w.moveTimer c t.generation = some v ∧ v.clock c = ((w.clock c).move w.now t).1 ∧
      ∀ f, ((w.clock c).move w.now t).2.1 = some f → f.callback = .handler h →
        w.registered? h = some f.id → w.timeouts h < v.timeouts h := by
  have there := lt_length_of_thread member
  have thread := (reach.sound c).thread? member moves
  have ticked : (w.ticked c t).clock c = ((w.clock c).move w.now t).1 := by
    rw [World.ticked, clock_setClock, if_pos ⟨rfl, there⟩]
  have quiet : (w.ticked c t).timeouts h = w.timeouts h := (still_setClock ..).timeouts
  refine ⟨_, moveTimer_eq_some.mpr ⟨t, thread, rfl⟩, ?_, fun f fires callback registered => ?_⟩
  · cases ((w.clock c).move w.now t).2.1 with
    | none => exact ticked
    | some f => exact (clock_congr (clocks_deliver ..) c).trans ticked
  · rw [fires, ← quiet]
    exact timeouts_deliver reach rfl callback registered

/-- In some run that starts no worker of `h`, a timer thread of clock `c` comes to time `h` out. -/
def TimesOut (w : World π) (c : ClockId) (h : HandlerId) : Prop :=
  ∃ u v generation, Bides h w u ∧ u.moveTimer c generation = some v ∧ u.timeouts h < v.timeouts h

theorem Bides.timesOut (bides : Bides h v w) (times : w.TimesOut c h) : v.TimesOut c h := by
  obtain ⟨u, u', generation, bides', moved, fired⟩ := times
  exact ⟨u, u', generation, bides.trans bides', moved, fired⟩

/-- The threads of a stopped clock fire what they have taken and end. -/
theorem drain (reach : Reachable w) (stopped : (w.clock c).isRunning = false) :
    ∃ u, Bides h w u ∧ u.clock c = { w.clock c with timers := [] } ∧
      ∀ f ∈ (w.clock c).taken, f.callback = .handler h → w.registered? h = some f.id →
        w.TimesOut c h := by
  generalize left : Clock.work (w.clock c).timers = n
  induction n using Nat.strongRecOn generalizing w with
  | ind n ih =>
    cases first : (w.clock c).timers with
    | nil =>
      refine ⟨w, .refl, by rw [← first], fun f member => ?_⟩
      simp [Clock.taken, first] at member
    | cons t timers =>
      have sound := reach.sound c
      have member : t ∈ (w.clock c).timers := by simp [first]
      have moves := sound.canMove_of_stopped stopped member w.now
      obtain ⟨timers', ticks, less, taken⟩ := sound.move_stopped stopped first w.now
      obtain ⟨v, moved, clock_v, fires_v⟩ := moveTimer_of_thread (h := h) reach member moves
      rw [ticks] at clock_v
      have bides : Bides h w v := bides_moveTimer moved
      have still_stopped : (v.clock c).isRunning = false := by rw [clock_v]; exact stopped
      have less : Clock.work (v.clock c).timers < n := by rw [clock_v, ← left]; exact less
      obtain ⟨u, bides', drained, fired⟩ := ih _ less (reach.run bides.run) still_stopped rfl
      refine ⟨u, bides.trans bides', by rw [drained, clock_v], ?_⟩
      intro f member callback registered
      rw [taken, List.mem_append, Option.mem_toList] at member
      rcases member with fires | later
      · exact ⟨w, v, _, .refl, moved, fires_v f fires callback registered⟩
      · have later' : f ∈ (v.clock c).taken := by rw [clock_v]; exact later
        exact bides.timesOut (fired f later' callback (bides.registered.trans registered))

/-! ## Clocks that are started again -/

theorem clock_stopClock (w : World π) (c : ClockId) :
    (w.stopClock c).clock c = (w.clock c).stop.1 := by
  unfold World.stopClock
  rw [clock_setClock]
  split
  · rfl
  · next missing =>
    rw [clock_of_length_le (Nat.le_of_not_lt fun there => missing ⟨rfl, there⟩)]
    rfl

/-- What has been taken can be fired, whether or not the clock runs. -/
theorem timesOut_of_taken (reach : Reachable w) {f : Firing AlarmOwner}
    (taken : f ∈ (w.clock c).taken) (callback : f.callback = .handler h)
    (registered : w.registered? h = some f.id) : w.TimesOut c h := by
  have stops : Bides h w (w.stopClock c) := bides_stopClock w c
  obtain ⟨stopped, -, -, taken'⟩ := Clock.stop_spec (w.clock c)
  rw [← clock_stopClock] at stopped taken'
  obtain ⟨u, -, -, fired⟩ := drain (h := h) (reach.run stops.run) stopped
  exact stops.timesOut (fired f (taken' ▸ taken) callback (stops.registered.trans registered))

/-- Where a handler has an alarm there is a deadline that can come. -/
theorem Reachable.deadline_le (reach : Reachable w) {a : Alarm AlarmOwner}
    (scheduled : a ∈ (w.clock c).alarms) (callback : a.callback = .handler h) :
    a.deadline ≤ Instant.last := by
  refine reach.clocks (P := fun k => ∀ a ∈ k.alarms, a.callback = .handler h →
    a.deadline ≤ Instant.last) (fun _ _ => nofun) ?_ c a scheduled callback
  intro now k k' now_le armed step a' member callback
  rcases step.alarms member with ⟨a, earlier, leads⟩ | ⟨added, -⟩
  · have le := armed a earlier (leads.callback.symm.trans callback)
    obtain rfl | ⟨_, _, -, rfl⟩ := leads
    · exact le
    · exact Schedule.following_le_last le
  · rcases added with other | ⟨_, -, period, -, deadline⟩
    · cases other.symm.trans callback
    · rw [deadline]
      exact Instant.deadlineAfter_le_last now_le period

theorem clock_startClock (there : c < w.clocks.length) (stopped : (w.clock c).isRunning = false)
    (spawns : (w.clock c).spawnFault = none) :
    (w.startClock c).1.clock c = { w.clock c with
      isRunning := true
      timers := (w.clock c).timers ++ [⟨(w.clock c).generation, .awake []⟩] } := by
  have started : (w.clock c).start = .ok ({ w.clock c with
      isRunning := true
      timers := (w.clock c).timers ++ [⟨(w.clock c).generation, .awake []⟩] },
      [.started (w.clock c).config.threadName]) := by
    simp [Clock.start, stopped, spawns]
  rw [World.startClock, started]
  exact (clock_setClock ..).trans (if_pos ⟨rfl, there⟩)

/-- What is scheduled can be fired: all threads of the clock end, a new one is started, the deadline
comes, and the thread takes the alarm. -/
theorem timesOut_of_scheduled (reach : Reachable w) {a : Alarm AlarmOwner}
    (scheduled : a ∈ (w.clock c).alarms) (callback : a.callback = .handler h)
    (registered : w.registered? h = some a.id) : w.TimesOut c h := by
  have le := reach.deadline_le scheduled callback
  have spawns : (w.clock c).spawnFault = none :=
    (reach.startable h).2 c a.id (.inl ⟨a, scheduled, rfl, callback⟩)
  have stops : Bides h w (w.stopClock c) := bides_stopClock w c
  obtain ⟨stopped, -, alarms, -⟩ := Clock.stop_spec (w.clock c)
  rw [← clock_stopClock] at stopped alarms
  obtain ⟨u, drains, drained, -⟩ := drain (h := h) (reach.run stops.run) stopped
  have scheduled : a ∈ (u.clock c).alarms := by rw [drained]; exact alarms ▸ scheduled
  have still_stopped : (u.clock c).isRunning = false := by rw [drained]; exact stopped
  have still_spawns : (u.clock c).spawnFault = none := by
    rw [(stops.trans drains).run.spawnFault]
    exact spawns
  -- The clock gets a new thread, and time passes until the deadline has come.
  have restarted := clock_startClock (lt_length_of_mem scheduled) still_stopped still_spawns
  let v := (u.startClock c).1.advance ⟨a.deadline.nanos⟩
  have clock_v : v.clock c = _ := restarted
  have waits : Bides h u v := (bides_startClock u c).trans (bides_advance _ _)
  have bides : Bides h w v := (stops.trans drains).trans waits
  have come : a.deadline ≤ v.now := Nat.le_min.mpr ⟨Nat.le_add_left _ _, le⟩
  have new : (v.clock c).timers = [⟨(v.clock c).generation, .awake []⟩] := by
    rw [clock_v, drained]
    rfl
  have scheduled : a ∈ (v.clock c).alarms := by rw [clock_v]; exact scheduled
  have reach_v := reach.run bides.run
  obtain ⟨t, member, moves, taken⟩ := (reach_v.sound c).takes new scheduled come
  obtain ⟨v', moved, clock_v', -⟩ := moveTimer_of_thread (h := h) reach_v member moves
  rw [← clock_v'] at taken
  have bides : Bides h w v' := bides.trans (bides_moveTimer moved)
  have registered : v'.registered? h = some a.firing.id := bides.registered.trans registered
  exact bides.timesOut (timesOut_of_taken (reach.run bides.run) taken callback registered)

/-- A clock that knows of the alarm that a handler has registered can come to time it out. -/
theorem timesOut_of_knows (reach : Reachable w) {id : AlarmId}
    (registered : w.registered? h = some id) (knows : (w.clock c).Knows id (.handler h)) :
    w.TimesOut c h := by
  rcases knows with ⟨a, scheduled, rfl, callback⟩ | ⟨f, taken, rfl, callback⟩
  · exact timesOut_of_scheduled reach scheduled callback registered
  · exact timesOut_of_taken reach taken callback registered

/-- A primed handler is timed out in some run that starts no worker of it. -/
theorem Primed.expires (reach : Reachable w) (primed : w.Primed h) :
    ∃ u, Run w u ∧ u.launches h = w.launches h ∧ w.timeouts h < u.timeouts h := by
  obtain ⟨id, c, registered, knows⟩ := primed
  obtain ⟨u, v, _, bides, moved, fired⟩ := timesOut_of_knows reach registered knows
  have bides' : Bides h w v := bides.trans (bides_moveTimer moved)
  exact ⟨v, bides'.run, bides'.launches, Nat.lt_of_le_of_lt bides.timeouts fired⟩

end World
end EventEngine
