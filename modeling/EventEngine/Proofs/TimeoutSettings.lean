import EventEngine.Proofs.Clocks.Callbacks
import EventEngine.Proofs.DispatchOrder
import EventEngine.Proofs.TimeoutGrid
import EventEngine.Proofs.Turns.Settings
import EventEngine.Proofs.Turns.Workers

/-!
# Which timeout settings are in force

A timeout is configured in three parts, and they take effect at two moments. The interval is read
when a worker is started, and the alarm keeps it. The context and the script are read when the alarm
fires: they are put into the record, and wait in the queue with it. To configure a timeout anew
changes neither what is scheduled nor what is queued.
-/
namespace EventEngine.World

variable {π : Type} {h : HandlerId} {c c' : ClockId} {id : AlarmId} {u v w : World π}
  {x : Handler π} {record : Record π} {setup : TimeoutSetup π} {e : TimeoutEvent}

open Occurrence

/-! ## The context and the script -/

/-- A step in which a timer thread fires the alarm that `h` has registered while `setup` is what is
configured, and the record of this timeout is queued. -/
structure Fires (h : HandlerId) (setup : TimeoutSetup π) (e : TimeoutEvent) (record : Record π)
    (u v : World π) : Prop where
  fired : ∃ c generation f, u.moveTimer c generation = some v ∧
    (u.clock c).nextFiring? u.now generation = some f ∧ f.callback = .handler h ∧
    e = ⟨f.id, f.deadline, .ofDeadline f.deadline u.now u.wallStart⟩
  registered : u.registered? h = some e.alarm
  configured : u.timeout? h = some setup
  queued : v.story h = .enqueued h .head record :: u.story h

/-- What a move of a timer thread adds to the story of a handler: nothing, or a timeout with the
settings of this moment. -/
theorem story_moveTimer {generation : Nat}
    (moved : u.moveTimer c generation = some v) : v.story h = u.story h ∨
    ∃ f x setup, (u.clock c).nextFiring? u.now generation = some f ∧ f.callback = .handler h ∧
      u.find? h = some x ∧ x.timeoutAlarm = some f.id ∧ x.timeout = some setup ∧
      v.story h = .enqueued h .head (x.nextRecord (.timeout setup
        ⟨f.id, f.deadline, .ofDeadline f.deadline u.now u.wallStart⟩)) :: u.story h := by
  obtain ⟨t, ready, rfl⟩ := moveTimer_eq_some.mp moved
  have ticked : (u.ticked c t).story h = u.story h := story_setClock ..
  cases fires : ((u.clock c).move u.now t).2.1 with
  | none => exact .inl ticked
  | some f =>
    have delivered := delivers (u.ticked c t) f
    simp only [Option.map_some, Option.getD_some]
    generalize (u.ticked c t).deliver f = v at delivered
    cases delivered with
    | ignored => exact .inl ticked
    | @queued g x setup callback found registered configured =>
      rw [enqueue, story_note, story_modify, ticked]
      split
      · next own =>
        obtain rfl : g = h := Option.some.inj own
        exact .inr ⟨f, x, setup, Clock.nextFiring?_eq_some.mpr ⟨t, ready, fires⟩, callback, found,
          registered, configured, rfl⟩
      · exact .inl rfl

/-- A timeout is queued when the alarm of its handler fires, with the settings of this moment. -/
theorem Next.fires {place : Place} (step : Next u v) (timeout : record.body = .timeout setup e)
    (told : v.story h = .enqueued h place record :: u.story h) : Fires h setup e record u v := by
  have grows : v.story h ≠ u.story h := fun same =>
    absurd (told.symm.trans same) (List.cons_ne_self _ _)
  cases step.use with
  | act act =>
    obtain ⟨serial, body⟩ := record
    obtain rfl : body = .timeout setup e := timeout
    have counted : v.timeouts h = u.timeouts h + 1 := by
      rw [World.timeouts, told, List.countP_cons_of_pos rfl, World.timeouts]
    exact absurd (counted.symm.trans act.timeouts) (Nat.succ_ne_self _)
  | clock _ same => exact absurd (same ▸ story_setClock ..) grows
  | @timer c generation moved =>
    rcases story_moveTimer (h := h) moved with
      same | ⟨f, x, setup', fires, callback, found, registered, configured, told'⟩
    · exact absurd same grows
    · have queued := (List.cons.inj (told.symm.trans told')).1
      obtain ⟨-, rfl, rfl⟩ := enqueued.inj queued
      obtain ⟨rfl, rfl⟩ := RecordBody.timeout.inj timeout
      exact ⟨⟨c, generation, f, moved, fires, callback, rfl⟩,
        registered?_eq_some.mpr ⟨x, found, registered⟩,
        (timeout?_eq (find?_eq_some.mp found).1).trans configured, told⟩

/-- Every timeout that has been queued was queued in such a step. -/
theorem fires_of_accepted (reach : Reachable w) (timeout : record.body = .timeout setup e)
    (accepted : record ∈ Occurrence.accepted (w.story h)) :
    ∃ u v, Reachable u ∧ Fires h setup e record u v ∧ Run v w := by
  obtain ⟨w₀, fresh, run⟩ := reach
  have untold : record ∉ Occurrence.accepted (w₀.story h) := by simp [story, fresh.history]
  obtain ⟨u, v, place, before, joins, after, told⟩ := accepted_at run untold accepted
  exact ⟨u, v, ⟨w₀, fresh, before⟩, joins.fires timeout told, after⟩

/-- And so was every timeout that is dispatched. -/
theorem fires_of_dispatched (reach : Reachable w) (hx : w.handlers[h]? = some x)
    (timeout : record.body = .timeout setup e) (member : record ∈ dispatched (w.story h)) :
    ∃ u v, Reachable u ∧ Fires h setup e record u v ∧ Run v w :=
  fires_of_accepted reach timeout <|
    (reach.accounted hx).mem_accepted (Handler.dispatched_sublist_line.subset member)

/-! ## Configuring anew -/

/-- A step that changes what is configured for `h`. No alarm is added, removed or moved, no thread
of a clock takes notice, and nothing is registered or queued. -/
structure Configures (h : HandlerId) (setup : TimeoutSetup π) (v w : World π) : Prop where
  configured : (v.find? h).isSome = true → w.timeout? h = some setup
  clocks : w.clocks = v.clocks
  registered (g : HandlerId) : w.registered? g = v.registered? g
  story (g : HandlerId) : w.story g = v.story g

theorem configures_perform (who : Caller) (interval : Duration) (context : π)
    (script : List (Action π)) : Configures h ⟨interval, context, script⟩ w
      (w.perform who (.setTimeout h interval context script)).1 := by
  cases found : w.find? h with
  | none =>
    have same : (w.perform who (.setTimeout h interval context script)).1 = w := by
      simp [perform, withHandler, found]
    rw [same]
    exact ⟨fun there => by simp [found] at there, rfl, fun _ => rfl, fun _ => rfl⟩
  | some x =>
    have configured : (w.perform who (.setTimeout h interval context script)).1 =
        (w.modify h ({ · with timeout := some ⟨interval, context, script⟩ })).note
          (.timeoutConfigured h interval) := by
      simp [perform, withHandler, found]
    rw [configured]
    refine ⟨fun _ => ?_, rfl, fun g => registered?_modify fun _ => ⟨rfl, rfl⟩, fun g => rfl⟩
    simp [timeout?, (find?_eq_some.mp found).1]

theorem configures_of_calls {interval : Duration} {context : π} {script : List (Action π)}
    (calls : Calls (.setTimeout h interval context script) v w) :
    Configures h ⟨interval, context, script⟩ v w := by
  obtain ⟨t, who, before, after⟩ := calls.calm nofun
  have configures : Configures h ⟨interval, context, script⟩ t _ :=
    configures_perform who interval context script
  refine ⟨fun there => ?_, ?_, fun g => ?_, fun g => ?_⟩
  · obtain ⟨x, found⟩ := Option.isSome_iff_exists.mp there
    obtain ⟨y, found', -⟩ := (before.still h).find? found
    exact (after.still h).timeout?.trans (configures.configured (by simp [found']))
  · exact after.clocks.trans (configures.clocks.trans before.clocks)
  · rw [(after.still g).registered?, configures.registered, (before.still g).registered?]
  · rw [(after.still g).2, configures.story, (before.still g).2]

/-- What is configured changes in such a step only. -/
theorem Next.configures (step : Next v w) (h : HandlerId) :
    w.timeout? h = v.timeout? h ∨ ∃ setup, Configures h setup v w := by
  rcases step.timeout? h with same | ⟨_, _, _, calls⟩
  · exact .inl same
  · exact .inr ⟨_, configures_of_calls calls⟩

/-! ## The interval -/

/-- Without a timeout that was configured at the start of its worker, a handler is not timed out
until the next one. -/
theorem unprimed_of_unconfigured (reach : Reachable v) (step : Next v w)
    (launched : w.launches h ≠ v.launches h) (unset : v.timeout? h = none) : ¬ w.Primed h := by
  rintro ⟨id, c, registered, -⟩
  obtain ⟨x, found, registered⟩ := registered?_eq_some.mp registered
  obtain ⟨hx, -⟩ := find?_eq_some.mp found
  have configured : (w.timeout? h).isSome = true := by
    rw [timeout?_eq hx]
    exact configured_of_registered (reach.next step) hx (by simp [registered])
  rcases step.configures h with same | ⟨setup, configures⟩
  · simp [same, unset] at configured
  · exact launched (launches_congr (configures.story h))

/-- No two clocks can do the same to a handler. -/
theorem moveTimer_apart (reach : Reachable u) {generation generation' : Nat}
    (moved : u.moveTimer c generation = some v) (moved' : u.moveTimer c' generation' = some v)
    (more : v.expiries h ≠ u.expiries h) : c = c' := by
  by_contra ne
  obtain ⟨t, ready, -⟩ := moveTimer_eq_some.mp moved'
  have there := lt_length_of_thread (Clock.thread?_eq_some ready).1
  rcases expiries_moveTimer (h := h) reach moved' ready with
    ⟨same, -⟩ | ⟨f, fires, -, -, -⟩
  · exact more same
  · obtain ⟨_, -, untouched⟩ := timeline_moveTimer there moved
    rw [if_neg ne] at untouched
    obtain ⟨t', ready', touched⟩ := timeline_moveTimer there moved'
    obtain rfl := Option.some.inj (ready.symm.trans ready')
    rw [if_pos rfl, untouched] at touched
    have fires : ((u.timeline c').clock.move (u.timeline c').now t).2.1 = some f := fires
    rcases Timeline.move_fires (reach.timeline there) (Clock.thread?_eq_some ready).1 f.id with
      ⟨-, front, back, before, after⟩ | ⟨silent, -⟩
    · -- what the thread of `c'` fires is no longer pending afterwards
      rw [← touched, before, fires] at after
      have shorter := congrArg List.length after
      simp [Clock.deadlinesOf] at shorter
    · cases fires.symm.trans silent

/-- The timeouts of one clock are all that there are just if no other clock knows of the alarm. -/
theorem expires_all_iff (reach : Reachable w) (there : c < w.clocks.length)
    (start : Follows c h id [] w) (registered : w.registered? h = some id) :
    (∀ es u, Expires c h (fun _ _ => True) w es u → u.expiries h = w.expiries h ++ es) ↔
      ∀ c', c' ≠ c → ¬ (w.clock c').Knows id (.handler h) := by
  refine ⟨fun all c' ne knows => ?_, fun unknown es u expires =>
    (expires.all reach there start unknown).1⟩
  obtain ⟨u, v, generation, bides, moved, fired⟩ := timesOut_of_knows reach registered knows
  have run : Relation.ReflTransGen (fun u v => True ∧ Next u v) w u :=
    Relation.ReflTransGen.mono (fun _ _ step => ⟨trivial, step⟩) _ _ bides.run
  obtain ⟨es, expires⟩ := expires_of_run run bides.launches c
  have more : v.expiries h ≠ u.expiries h := fun same => by
    rw [← length_expiries, ← length_expiries, same] at fired
    exact Nat.lt_irrefl _ fired
  have elsewhere : ∀ generation', u.moveTimer c generation' ≠ some v := fun _ moved' =>
    ne (moveTimer_apart (reach.run bides.run) moved' moved more).symm
  have later := expires.other trivial (.timer moved) elsewhere (bides_moveTimer moved).launches
  exact more ((all es v later).trans (all es u expires).symm)

/-- The alarm `id` of clock `c`, which the start of a worker has registered on `h` at `t₀`, gives
the deadlines of the timeouts: those that this clock queues are of the batches that contain the
alarm, one of each, and these keep to the grid of period `p` that begins at `t₀`. They come in the
order of the batches as long as no two threads of the clock have a firing of the alarm in hand and
no callback panics before the rest of its batch. There are no others just if no other clock knows of
an alarm of `h` under this id, and so if `h` has never used another one. -/
structure Paced (h : HandlerId) (c : ClockId) (id : AlarmId) (t₀ : Instant) (p : Duration)
    (w : World π) : Prop where
  registered : w.registered? h = some id
  expires : ∀ ok u, Relation.ReflTransGen (fun u v => ok u v ∧ Next u v) w u →
    u.launches h = w.launches h → ∃ es, Expires c h ok w es u
  among : ∀ es u, Expires c h (fun _ _ => True) w es u →
    (es.map (·.deadline)).Subperm (((u.timeline c).batches id).map (·.2))
  first : ∀ es u, Expires c h (Smooth c id) w es u →
    es.map (·.deadline) <+: ((u.timeline c).batches id).map (·.2)
  onGrid : ∀ es u, Expires c h (fun _ _ => True) w es u →
    Representable t₀ p ((u.timeline c).batches id) → OnGrid t₀ p ((u.timeline c).batches id)
  all_iff : (∀ es u, Expires c h (fun _ _ => True) w es u → u.expiries h = w.expiries h ++ es) ↔
    ∀ c', c' ≠ c → ¬ (w.clock c').Knows id (.handler h)
  all_of_clings : ∀ w₀, Fresh w₀ →
    Relation.ReflTransGen (fun v w => Next v w ∧ v.Clings h c) w₀ w →
    ∀ es u, Expires c h (fun _ _ => True) w es u → u.expiries h = w.expiries h ++ es

/-- The interval that is configured when a worker is started is the period from then on. -/
theorem Next.paced (reach : Reachable v) (step : Next v w) (launched : w.launches h ≠ v.launches h)
    (hx : v.handlers[h]? = some x) (timeout : x.timeout = some setup) :
    ∃ c, (x.clock.getD sharedClock = c ∨ c ∈ x.starts) ∧ (c < v.clocks.length →
      ∃ id, Paced h c id v.now (Alarm.clampPeriod setup.interval) w) := by
  obtain ⟨c, uses, arms, -⟩ := step.arms launched hx timeout
  refine ⟨c, uses, fun there => ?_⟩
  have arms := arms there
  have reach' : Reachable w := reach.next step
  have there' : c < w.clocks.length := by rwa [Run.length_clocks (.single step)]
  have start := arms.follows reach there
  have pos : 0 < (Alarm.clampPeriod setup.interval).nanos :=
    Nat.lt_of_lt_of_le (by decide : 0 < Alarm.minPeriod.nanos) (Nat.le_max_right _ _)
  have all_iff := expires_all_iff reach' there' start arms.registered
  refine ⟨_, {
    registered := arms.registered
    expires := fun ok u run launches => expires_of_run run launches c
    among := fun es u expires => (expires.follows reach' there' start).among
    first := fun es u expires =>
      (expires.inOrder reach' there' start (arms.inOrder reach there)).first
    onGrid := fun es u expires => ?onGrid
    all_iff := all_iff
    all_of_clings := fun w₀ fresh clings =>
      all_iff.mpr fun c' ne => unknown_of_clings fresh ne clings }⟩
  have gridded := (arms.gridded reach there).run (reach'.timeline there') pos
    (Run.timeline expires.run there')
  exact gridded.taken

/-- A timeout that is dispatched was queued when its alarm fired, with the context and the script
that were configured at that moment, and it is the whole of this script that the worker performs,
whatever is configured while the record is queued or dispatched. A call that configures a timeout
changes no clock, registers nothing and queues nothing, and nothing else changes what is configured.
When a worker is started without a timeout, no timeout is queued until the next start; when it is
started with one, on the clock that the handler then uses or has begun to start it on, the deadlines
of its alarm keep to the grid of the interval that is configured then, and there are no others just
if no other clock knows of an alarm of the handler under the same id, and so if the handler has
never used another clock. -/
theorem timeout_settings_in_force (reach : Reachable w) (hx : w.handlers[h]? = some x) :
    (∀ (record : Record π) setup e, record.body = .timeout setup e →
      (record ∈ dispatched (w.story h) →
        ∃ u v, Reachable u ∧ Fires h setup e record u v ∧ Run v w) ∧
      (∀ v, Next w v → v.story h = .began h record :: w.story h →
        v.worker? h = some (.dispatching record w.now setup.script none)) ∧
      ∀ since script pause, x.worker = some (.dispatching record since script pause) →
        script <:+ setup.script) ∧
    (∀ v interval context script, Calls (.setTimeout h interval context script) w v →
      Configures h ⟨interval, context, script⟩ w v) ∧
    ∀ v, Next w v →
      (v.timeout? h = x.timeout ∨ ∃ setup, Configures h setup w v) ∧
      (v.launches h ≠ w.launches h → x.timeout = none →
        ∀ u, Run v u → u.launches h = v.launches h → u.timeouts h = v.timeouts h) ∧
      ∀ setup, v.launches h ≠ w.launches h → x.timeout = some setup →
        ∃ c, (x.clock.getD sharedClock = c ∨ c ∈ x.starts) ∧ (c < w.clocks.length →
          ∃ id, Paced h c id w.now (Alarm.clampPeriod setup.interval) v) := by
  have configured : w.timeout? h = x.timeout := timeout?_eq hx
  refine ⟨fun record setup e timeout => ⟨fires_of_dispatched reach hx timeout, ?_, ?_⟩,
    fun v interval context script calls => configures_of_calls calls,
    fun v step => ⟨configured ▸ step.configures h, ?_, ?_⟩⟩
  · intro v step told
    rw [step.begins told, timeout]
    rfl
  · intro since script pause dispatching
    have onScript := reach.onScript h
    rw [worker?_eq hx, dispatching, Worker.OnScript, timeout] at onScript
    exact onScript
  · intro launched unset u run launches
    have unprimed := unprimed_of_unconfigured reach step launched (configured.trans unset)
    exact (Run.unprimed run launches unprimed).2
  · exact fun setup launched timeout => step.paced reach launched hx timeout

/-- The handler is given another clock while it runs, and then stopped. The interval is 3 s when it
is started on this clock, but the alarm that is left on the first clock has the same id, and times
the handler out at 2 s. -/
theorem timeout_of_former_interval :
    let w₀ : World Nat := {
      clocks := [{}, {}]
      handlers := [{ config := { name := "h" }, types := .ofList [], clock := some 0 }] }
    let w := w₀.steps 20 [.act (.setTimeout 0 (.ofParts 2 0) 0 []), .act (.start 0),
      .act (.setClock 0 1), .act (.stop 0), .act (.setTimeout 0 (.ofParts 3 0) 0 [])]
    let v := (w.perform .outside (.start 0)).1
    let u := v.steps 20 [.act (.advance (.ofParts 2 0))]
    (w.timeout? 0).map (·.interval) = some (.ofParts 3 0) ∧ v.launches 0 ≠ w.launches 0 ∧
      (u.expiries 0).map (·.deadline) = [.ofParts 2 0] ∧
      ¬ ∀ es u, Expires 1 0 (fun _ _ => True) v es u → u.expiries 0 = v.expiries 0 ++ es := by
  intro w₀ w v u
  have fresh : Fresh w₀ := by
    refine fresh_of_handlers 2 0 fun x hx => ?_
    exact ⟨_, _, _, _, _, _, List.mem_singleton.mp hx⟩
  have reach : Reachable w := fresh.reachable.steps 20 _
  have settings : (w.handlers[0]?).map (fun x => (x.timeout.map (·.interval), x.clock, x.starts)) =
      some (some (.ofParts 3 0), some 1, []) := by decide +kernel
  obtain ⟨x, hx, same⟩ := Option.map_eq_some_iff.mp settings
  obtain ⟨timeout, same⟩ := Prod.mk.inj same
  obtain ⟨clock, none_pending⟩ := Prod.mk.inj same
  obtain ⟨setup, timeout, interval⟩ := Option.map_eq_some_iff.mp timeout
  have launched : v.launches 0 ≠ w.launches 0 := by decide +kernel
  obtain ⟨-, -, starts⟩ := timeout_settings_in_force reach hx
  obtain ⟨c, uses, paced⟩ := (starts v (.act w (.start 0))).2.2 setup launched timeout
  obtain rfl : c = 1 := by
    rw [clock, none_pending] at uses
    simpa [eq_comm] using uses
  obtain ⟨id, paced⟩ := paced (by decide +kernel)
  obtain rfl : id = 1 := by
    have first : v.registered? 0 = some 1 := by decide +kernel
    exact Option.some.inj (paced.registered.symm.trans first)
  have left : (⟨1, .ofParts 2 0, some (.ofParts 2 0), .handler 0⟩ : Alarm AlarmOwner) ∈
      (v.clock 0).alarms := by decide +kernel
  refine ⟨by decide +kernel, launched, by decide +kernel, fun all => ?_⟩
  exact paced.all_iff.mp all 0 (by decide) (.inl ⟨_, left, rfl, rfl⟩)

end EventEngine.World
