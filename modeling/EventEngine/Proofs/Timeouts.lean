import EventEngine.Proofs.Clocks.Ticks
import EventEngine.Proofs.Turns.Alarms

/-!
# What a timeout takes

A timeout is queued when an alarm fires that its handler has registered. So a handler can be timed
out only while a clock knows of this alarm: it is scheduled, or it was taken and is still to be
fired. Nothing but the start of a worker brings this about.
-/
namespace EventEngine

variable {π : Type}

namespace World

variable {h g : HandlerId} {c c' : ClockId} {t u v w : World π} {x y : Handler π}

/-- A timer thread may come to time the handler out: some clock knows of the alarm that the handler
has registered. -/
def Primed (w : World π) (h : HandlerId) : Prop :=
  ∃ id c, w.registered? h = some id ∧ (w.clock c).Knows id (.handler h)

theorem Ticks.knows {kind : Clock AlarmOwner → Alarm AlarmOwner → Prop} {id : AlarmId}
    {owner : AlarmOwner} (ticks : Ticks kind v w) (foreign : ∀ k a, kind k a → a.callback ≠ owner)
    (knows : (w.clock c).Knows id owner) : (v.clock c).Knows id owner :=
  (ticks.steps c).knows foreign knows

/-! ## Second sections of starts -/

/-- A start of `h` on clock `c` comes to its second section, at once after the first or later: there
is handler `y` in world `u` then. -/
inductive Comes (t : World π) (h : HandlerId) (c : ClockId) : Handler π → World π → Prop where
  | atOnce {x : Handler π} {k : Clock AlarmOwner} {notices : List ClockNotice} :
      t.find? h = some x → x.clock.getD sharedClock = c → (t.clock c).start = .ok (k, notices) →
      Comes t h c x.adopt ((t.adopted h).setClock c k notices)
  | later {x : Handler π} : t.find? h = some x → c ∈ x.starts →
      Comes t h c (x.entered c) (t.modify h (·.entered c))

theorem Comes.found (comes : Comes t h c y u) : u.find? h = some y := by
  cases comes with
  | atOnce found _ _ => exact find?_adopted found
  | later found _ => exact find?_entered found c

theorem Comes.ticks {kind : Clock AlarmOwner → Alarm AlarmOwner → Prop}
    (comes : Comes t h c y u) : Ticks kind t u := by
  cases comes with
  | atOnce _ _ started => exact ticks_adopted started
  | later _ _ => exact Ticks.refl.modify

theorem Comes.story (comes : Comes t h c y u) (g : HandlerId) : u.story g = t.story g := by
  cases comes with
  | atOnce _ _ _ => exact story_setClock ..
  | later _ _ => rfl

theorem Comes.now (comes : Comes t h c y u) : u.now = t.now := by
  cases comes <;> rfl

/-- The handler is as it was, but for its clock and its pending starts. -/
theorem Comes.handler (comes : Comes t h c y u) : ∃ x clock starts, t.find? h = some x ∧
    x.Enters clock starts ∧ y = { x with clock, starts } := by
  cases comes with
  | atOnce found _ _ => exact ⟨_, _, _, found, .atOnce, rfl⟩
  | later found member => exact ⟨_, _, _, found, .later member, rfl⟩

/-- The clock is the one that the handler uses, or used when the start began. -/
theorem Comes.clock (comes : Comes t h c y u) : ∃ x, t.find? h = some x ∧
    (x.clock.getD sharedClock = c ∨ c ∈ x.starts) := by
  cases comes with
  | atOnce found same _ => exact ⟨_, found, .inl same⟩
  | later found member => exact ⟨_, found, .inr member⟩

theorem Comes.registered? (comes : Comes t h c y u) : u.registered? h = t.registered? h := by
  obtain ⟨x, clock, starts, found, -, rfl⟩ := comes.handler
  rw [World.registered?, comes.found, World.registered?, found]
  rfl

/-- Starting a clock issues no id. -/
theorem Comes.nextId (comes : Comes t h c y u) (c' : ClockId) :
    (u.clock c').nextId = (t.clock c').nextId := by
  cases comes with
  | atOnce _ _ started =>
    rw [clock_setClock]
    split
    · next same => rw [Clock.nextId_start started, same.1]
    · rfl
  | later _ _ => rfl

/-- A second section comes to the making of a worker: it is made, or this panics. -/
inductive Launches (w : World π) (g : HandlerId) (x : Handler π) (c : ClockId) :
    World π → Prop where
  | launched : x.worker = none → x.spawnFault = none →
      Launches w g x c (((w.armed g x c).modify g Handler.launch).note (.started g))
  | crashed {message : String} : x.worker = none → x.spawnFault = some (.crashed message) →
      Launches w g x c ((w.armed g x c).note (.spawnPanicked g))

theorem Launches.installs (launched : Launches w g x c v) : Installs w g x c v := by
  cases launched with
  | launched idle spawns => exact .launched idle spawns
  | crashed idle crashes => exact .crashed idle crashes

theorem Launches.clocks (launched : Launches w g x c v) : v.clocks = (w.armed g x c).clocks := by
  cases launched <;> rfl

theorem Launches.registered? (launched : Launches w h x c v) (found : w.find? h = some x) :
    v.registered? h = (x.timeout.map fun _ => (w.clock c).nextId).or x.timeoutAlarm := by
  cases launched with
  | launched _ _ =>
    rw [World.registered?, find?_launched found]
    rfl
  | crashed _ _ =>
    rw [World.registered?, find?_note, find?_armed found]
    rfl

theorem Launches.count (launched : Launches w g x c v) : v.launches g = w.launches g + 1 := by
  cases launched with
  | launched _ _ =>
    rw [launches, story_note_self rfl, story_modify, story_armed, launches]
    exact List.countP_cons_of_pos rfl
  | crashed _ _ =>
    rw [launches, story_note_self rfl, story_armed, launches]
    exact List.countP_cons_of_pos rfl

theorem Installs.launches (installs : Installs w g x c v) :
    v.launches g = w.launches g ∨ Launches w g x c v := by
  cases installs with
  | running _ => exact .inl rfl
  | launched idle spawns => exact .inr (.launched idle spawns)
  | refused _ _ =>
    refine .inl ?_
    rw [launches_note rfl, World.launches, story_disarmTimeout, story_armed, World.launches]
  | crashed idle crashes => exact .inr (.crashed idle crashes)

/-- A second section that does not come to the making of a worker leaves no alarm of the handler
that was not there. -/
theorem Installs.knows (installs : Installs w h x c v) (found : w.find? h = some x)
    (launches : v.launches h = w.launches h) {id : AlarmId}
    (registered : v.registered? h = some id) (knows : (v.clock c').Knows id (.handler h)) :
    (w.clock c').Knows id (.handler h) := by
  have unlaunched : ¬ Launches w h x c v := fun launched => by
    have count := launched.count
    omega
  cases installs with
  | running _ => exact knows
  | launched idle spawns => exact absurd (.launched idle spawns) unlaunched
  | refused _ _ =>
    obtain ⟨y, found', registered⟩ := registered?_eq_some.mp registered
    have disarmed := handlers_disarmTimeout (c := some c)
      (handlers_armed (find?_eq_some.mp found).1 c)
    obtain rfl := Option.some.inj (disarmed.symm.trans (find?_eq_some.mp found').1)
    cases registered
  | crashed idle crashes => exact absurd (.crashed idle crashes) unlaunched

theorem launches_requestStop (who : Caller) (destroys : Bool) :
    (w.requestStop who g x destroys).1.launches h = w.launches h := by
  have requested : (((w.disarmTimeout g x x.clock).modify g Handler.requestStop).note
      (.abortRequested g)).launches h = w.launches h := by
    rw [launches_note rfl, launches, story_modify, story_disarmTimeout, launches]
  unfold requestStop
  split
  · split
    · rw [launches_note rfl, requested]
    · exact requested
  · rfl

theorem launches_enqueue {place : Place} {body : RecordBody π} :
    (w.enqueue g x place body).launches h = w.launches h :=
  launches_note rfl

theorem launches_moveTimer {generation : Nat} (moved : w.moveTimer c generation = some v) :
    v.launches h = w.launches h := by
  obtain ⟨t, ready, rfl⟩ := moveTimer_eq_some.mp moved
  have ticked : (w.ticked c t).launches h = w.launches h := (still_setClock ..).launches
  cases ((w.clock c).move w.now t).2.1 with
  | none => exact ticked
  | some f =>
    have delivered := delivers (w.ticked c t) f
    simp only [Option.map_some, Option.getD_some]
    generalize (w.ticked c t).deliver f = v at delivered
    cases delivered with
    | ignored => exact ticked
    | queued _ _ _ _ => exact launches_enqueue.trans ticked

/-- Alarms of a handler are added by the second section of a start of this handler only, and no
other step comes to the making of a worker for it. -/
theorem Next.second_section (step : Next v w) (h : HandlerId) :
    (Ticks (fun _ a => a.callback ≠ .handler h) v w ∧ w.launches h = v.launches h) ∨
      ∃ t c y u w', Calm v t ∧ Comes t h c y u ∧ Installs u h y c w' ∧ Calm w' w := by
  have foreign : ∀ {now g}, g ≠ h → ∀ k a, ArmedAt now g k a → a.callback ≠ .handler h :=
    fun hg _ _ armed same => hg (AlarmOwner.handler.inj (armed.1.symm.trans same))
  cases step.use with
  | act act =>
    cases act with
    | aside aside => exact .inl ⟨Ticks.refl.of_clocks aside.clocks, aside.launches h⟩
    | @start t g x before found after =>
      by_cases hg : g = h
      · subst hg
        have started := starts found
        generalize (t.start g x).1 = w' at started after
        cases started with
        | failed _ =>
          exact .inl ⟨Ticks.refl.of_clocks (after.clocks.trans before.clocks),
            (after.still g).launches.trans (before.still g).launches⟩
        | opened started installs =>
          exact .inr ⟨t, _, _, _, w', before, .atOnce found rfl started, installs, after⟩
      · have ticks := (ticks_start found).mono (foreign hg)
        exact .inl ⟨((Ticks.refl.of_clocks before.clocks).trans ticks).of_clocks after.clocks,
          (after.still h).launches.trans
            ((still_start_ne found hg).launches.trans (before.still h).launches)⟩
    | beginStart before found started after =>
      refine .inl ⟨((Ticks.refl.of_clocks before.clocks).trans
        (ticks_adopted started)).modify.of_clocks after.clocks, ?_⟩
      rw [(after.still h).launches, World.launches, story_modify, story_setClock]
      exact (before.still h).launches
    | @endStart t g x c before found pending after =>
      by_cases hg : g = h
      · subst hg
        exact .inr ⟨t, c, _, _, _, before, .later found pending,
          installs (find?_entered found c) c, after⟩
      · have ticks := (ticks_endStart (c := c) found).mono (foreign hg)
        refine .inl ⟨((Ticks.refl.of_clocks before.clocks).trans ticks).of_clocks after.clocks, ?_⟩
        have still := still_installs_ne (installs (find?_entered found c) c) hg
        exact (after.still h).launches.trans (still.launches.trans (before.still h).launches)
    | stop before found running after =>
      refine .inl ⟨((Ticks.refl.of_clocks before.clocks).trans (ticks_requestStop ..)).of_clocks
        after.clocks, ?_⟩
      rw [(after.still h).launches, launches_requestStop, (before.still h).launches]
    | setClock before found after =>
      exact .inl ⟨(Ticks.refl.of_clocks before.clocks).modify.of_clocks after.clocks,
        (after.still h).launches.trans (before.still h).launches⟩
  | timer moved => exact .inl ⟨ticks_moveTimer moved, launches_moveTimer moved⟩
  | clock used same =>
    subst same
    refine .inl ⟨Ticks.refl.setClock fun _ => .single (used.step.mono fun _ a other same => ?_),
      (still_setClock ..).launches⟩
    cases other.symm.trans same

/-- The step that comes to the making of a worker is the second section of a start of its handler,
which finds no worker. -/
theorem Next.launch (step : Next v w) (launched : w.launches h ≠ v.launches h) :
    ∃ t c y u w', Calm v t ∧ Comes t h c y u ∧ Launches u h y c w' ∧ Calm w' w := by
  rcases step.second_section h with ⟨-, same⟩ | ⟨t, c, y, u, w', before, comes, installs, after⟩
  · exact absurd same launched
  · rcases installs.launches with same | launches
    · rw [(after.still h).launches, same, launches_congr (comes.story h),
        (before.still h).launches] at launched
      exact absurd rfl launched
    · exact ⟨t, c, y, u, w', before, comes, launches, after⟩

/-- An id that a handler has registered it had registered before, or a start has just come to the
making of its worker, and the clock of the start has issued the id. -/
theorem Next.registered_cases (step : Next v w) {id : AlarmId}
    (registered : w.registered? h = some id) : v.registered? h = some id ∨
      ∃ x c, v.handlers[h]? = some x ∧ (x.clock.getD sharedClock = c ∨ c ∈ x.starts) ∧
        id = (v.clock c).nextId := by
  by_cases launches : w.launches h = v.launches h
  · exact .inl ((step.evolves h).registered launches registered)
  · obtain ⟨t, c, y, u, w', before, comes, launched, after⟩ := step.launch launches
    rw [(after.still h).registered?, launched.registered? comes.found] at registered
    cases timeout : y.timeout with
    | none =>
      refine .inl ?_
      rw [← (before.still h).registered?, ← comes.registered?, World.registered?, comes.found]
      simpa [timeout] using registered
    | some setup =>
      obtain ⟨x, found, clock⟩ := comes.clock
      obtain ⟨z, found', same⟩ := (before.still h).symm.find? found
      have clock_z : z.outline.clock = x.outline.clock := congrArg _ same
      have starts_z : z.outline.starts = x.outline.starts := congrArg _ same
      refine .inr ⟨z, c, (find?_eq_some.mp found').1, ?_, ?_⟩
      · rcases clock with now | began
        · exact .inl ((congrArg (·.getD sharedClock) clock_z).trans now)
        · exact .inr (starts_z ▸ began)
      · rw [← before.clock, ← comes.nextId]
        simpa [timeout] using registered.symm

/-- A clock learns of an alarm of a handler by the second section of a start of this handler only.
-/
theorem Next.knows_cases (step : Next v w) {id : AlarmId}
    (knows : (w.clock c').Knows id (.handler h)) : (v.clock c').Knows id (.handler h) ∨
      ∃ t c y u w', Calm v t ∧ Comes t h c y u ∧ Installs u h y c w' ∧ Calm w' w :=
  (step.second_section h).imp_left fun other =>
    other.1.knows (fun _ _ foreign => foreign) knows

/-- A clock learns of the alarm that a handler has registered by the start of its worker only. -/
theorem Next.knows (step : Next v w) (launches : w.launches h = v.launches h) {id : AlarmId}
    (registered : w.registered? h = some id) (knows : (w.clock c').Knows id (.handler h)) :
    (v.clock c').Knows id (.handler h) := by
  rcases step.knows_cases knows with kept | ⟨t, c, y, u, w', before, comes, installs, after⟩
  · exact kept
  · have none := Clock.NoAlarm.foreign (AlarmOwner.handler h)
    rw [(after.still h).registered?] at registered
    rw [after.clock] at knows
    rw [← before.clock]
    refine comes.ticks.knows none (installs.knows comes.found ?_ registered knows)
    rw [← (after.still h).launches, launches, launches_congr (comes.story h),
      (before.still h).launches]

/-- Nothing but the start of its worker primes a handler. -/
theorem Next.primed (step : Next v w) (launches : w.launches h = v.launches h)
    (primed : w.Primed h) : v.Primed h := by
  obtain ⟨id, c, registered, knows⟩ := primed
  exact ⟨id, c, (step.evolves h).registered launches registered,
    step.knows launches registered knows⟩

/-! ## Handlers that never change their clock -/

/-- Handler `h` uses no clock but `c`, and no pending start of it does. -/
def Clings (h : HandlerId) (c : ClockId) (w : World π) : Prop :=
  ∀ x, w.handlers[h]? = some x → x.clock.getD sharedClock = c ∧ ∀ c' ∈ x.starts, c' = c

theorem Comes.clings (comes : Comes t h c' y u) (before : Calm v t) (clings : v.Clings h c) :
    c' = c := by
  obtain ⟨x, found, clock⟩ := comes.clock
  obtain ⟨z, found', same⟩ := (before.still h).symm.find? found
  obtain ⟨uses, pending⟩ := clings z (find?_eq_some.mp found').1
  have clock_z : z.outline.clock = x.outline.clock := congrArg _ same
  have starts_z : z.outline.starts = x.outline.starts := congrArg _ same
  rcases clock with now | began
  · exact now.symm.trans ((congrArg (·.getD sharedClock) clock_z).symm.trans uses)
  · exact pending c' (starts_z ▸ began)

theorem clock_setClock_ne {k : Clock AlarmOwner} {notices : List ClockNotice}
    (ne : c ≠ c') : (w.setClock c' k notices).clock c = w.clock c :=
  (clock_setClock ..).trans (if_neg fun both => ne both.1.symm)

theorem clock_armed_ne (ne : c' ≠ c) : (w.armed g x c).clock c' = w.clock c' := by
  unfold armed armTimeout
  split
  · rfl
  · rw [clock_modify, clock_setClock_ne ne, clock_modify]

theorem clock_comes_ne (comes : Comes t h c y u) (ne : c' ≠ c) : u.clock c' = t.clock c' := by
  cases comes with
  | atOnce _ _ _ => exact clock_setClock_ne ne
  | later _ _ => rfl

theorem clock_installs_ne (installs : Installs w g x c v) (ne : c' ≠ c) :
    v.clock c' = w.clock c' := by
  cases installs with
  | running _ => rfl
  | launched _ _ => exact clock_armed_ne ne
  | refused _ _ =>
    rw [clock_note]
    unfold disarmTimeout
    split
    · exact clock_armed_ne ne
    · exact (clock_setClock_ne ne).trans (clock_armed_ne ne)
  | crashed _ _ => exact clock_armed_ne ne

/-- No clock learns of the alarms of a handler that uses another one. -/
theorem Next.knows_elsewhere {id : AlarmId} (step : Next v w) (clings : v.Clings h c)
    (ne : c' ≠ c) (knows : (w.clock c').Knows id (.handler h)) :
    (v.clock c').Knows id (.handler h) := by
  rcases step.knows_cases knows with kept | ⟨t, d, y, u, w', before, comes, installs, after⟩
  · exact kept
  · have here : c' ≠ d := comes.clings before clings ▸ ne
    rw [after.clock, clock_installs_ne installs here, clock_comes_ne comes here] at knows
    rwa [← before.clock]

/-- Nobody has added an alarm yet. -/
theorem unknown_of_fresh (fresh : Fresh w) {id : AlarmId} {owner : AlarmOwner} :
    ¬ (w.clock c).Knows id owner := by
  have new : (w.clock c).alarms = [] ∧ (w.clock c).taken = [] := by
    rw [clock, List.getD_eq_getElem?_getD]
    cases hk : w.clocks[c]? with
    | none => exact ⟨rfl, rfl⟩
    | some k =>
      obtain ⟨_, _, rfl⟩ := fresh.clocks k (List.mem_of_getElem? hk)
      exact ⟨rfl, rfl⟩
  rintro (⟨a, scheduled, -⟩ | ⟨f, taken, -⟩)
  · simp [new.1] at scheduled
  · simp [new.2] at taken

/-- No clock knows of a handler that has never used it. -/
theorem unknown_of_clings {w₀ : World π} (fresh : Fresh w₀) {id : AlarmId}
    (ne : c' ≠ c) (run : Relation.ReflTransGen (fun v w => Next v w ∧ v.Clings h c) w₀ w) :
    ¬ (w.clock c').Knows id (.handler h) := by
  induction run with
  | refl => exact unknown_of_fresh fresh
  | tail _ step ih => exact fun knows => ih (step.1.knows_elsewhere step.2 ne knows)

/-! ## Steps that queue no timeout -/

theorem timeouts_installs (installs : Installs w g x c v) : v.timeouts h = w.timeouts h := by
  have armed : (w.armed g x c).timeouts h = w.timeouts h := timeouts_congr story_armed
  cases installs with
  | running _ => rfl
  | launched _ _ => exact (timeouts_note rfl).trans armed
  | refused _ _ =>
    rw [timeouts_note rfl, timeouts, story_disarmTimeout]
    exact armed
  | crashed _ _ => exact (timeouts_note rfl).trans armed

theorem timeouts_start (found : w.find? g = some x) :
    (w.start g x).1.timeouts h = w.timeouts h := by
  have started := starts found
  generalize (w.start g x).1 = w' at started
  cases started with
  | failed _ => rfl
  | opened _ installs => exact (timeouts_installs installs).trans (still_setClock ..).timeouts

theorem timeouts_requestStop (who : Caller) (destroys : Bool) :
    (w.requestStop who g x destroys).1.timeouts h = w.timeouts h := by
  have requested : (((w.disarmTimeout g x x.clock).modify g Handler.requestStop).note
      (.abortRequested g)).timeouts h = w.timeouts h := by
    rw [timeouts_note rfl, timeouts, story_modify, story_disarmTimeout, timeouts]
  unfold requestStop
  split
  · split
    · rw [timeouts_note rfl, requested]
    · exact requested
  · rfl

/-- No action queues a timeout. -/
theorem Act.timeouts (act : Act v w) : w.timeouts h = v.timeouts h := by
  cases act with
  | aside aside => exact aside.timeouts h
  | start before found after =>
    rw [(after.still h).timeouts, timeouts_start found, (before.still h).timeouts]
  | beginStart before _ _ after =>
    rw [(after.still h).timeouts, World.timeouts, story_modify, story_setClock]
    exact (before.still h).timeouts
  | endStart before found _ after =>
    rw [(after.still h).timeouts, timeouts_installs (installs (find?_entered found _) _)]
    exact (before.still h).timeouts
  | stop before _ _ after =>
    rw [(after.still h).timeouts, timeouts_requestStop, (before.still h).timeouts]
  | setClock before _ after => exact (after.still h).timeouts.trans (before.still h).timeouts

/-! ## Moves of the timer threads -/

/-- The callback of an alarm leaves a handler alone, or the alarm is the one that the handler has
registered. -/
theorem deliver_cases (w : World π) (f : Firing AlarmOwner) :
    ((w.deliver f).handlers[h]? = w.handlers[h]? ∧ (w.deliver f).story h = w.story h) ∨
      (f.callback = .handler h ∧ w.registered? h = some f.id) := by
  have delivered := delivers w f
  generalize w.deliver f = v at delivered
  cases delivered with
  | ignored => exact .inl ⟨rfl, rfl⟩
  | @queued g x setup callback found registered _ =>
    by_cases hg : g = h
    · subst hg
      exact .inr ⟨callback, registered?_eq_some.mpr ⟨x, found, registered⟩⟩
    · have other : (Occurrence.enqueued g .head (x.nextRecord (.timeout setup
          ⟨f.id, f.deadline, .ofDeadline f.deadline w.now w.wallStart⟩))).milestone? ≠ some h := by
        simpa [Occurrence.milestone?] using hg
      exact .inl ⟨by simp [enqueue, hg], by rw [enqueue, story_note, if_neg other]; rfl⟩

/-- A move of a timer thread leaves a handler alone that is not primed. -/
theorem moveTimer_unprimed {generation : Nat}
    (moved : w.moveTimer c generation = some v) (unprimed : ¬ w.Primed h) :
    v.handlers[h]? = w.handlers[h]? ∧ v.story h = w.story h := by
  obtain ⟨t, ready, rfl⟩ := moveTimer_eq_some.mp moved
  have ticked : (w.ticked c t).story h = w.story h := story_setClock ..
  cases fires : ((w.clock c).move w.now t).2.1 with
  | none => exact ⟨rfl, ticked⟩
  | some f =>
    rcases deliver_cases (w.ticked c t) f with ⟨same, told⟩ | ⟨callback, registered⟩
    · exact ⟨same, told.trans ticked⟩
    · refine absurd ⟨f.id, c, registered, .inr ⟨f, ?_, rfl, callback⟩⟩ unprimed
      exact Clock.mem_taken_of_fires (Clock.thread?_eq_some ready).1 fires

theorem Next.timeouts (step : Next v w) (unprimed : ¬ v.Primed h) :
    w.timeouts h = v.timeouts h := by
  cases step.use with
  | act act => exact act.timeouts
  | timer moved => exact timeouts_congr (moveTimer_unprimed moved unprimed).2
  | clock _ same => rw [same, (still_setClock ..).timeouts]

/-- Until a worker of it is started, nothing times out a handler that is not primed. -/
theorem Run.unprimed (run : Run v w) (launches : w.launches h = v.launches h)
    (unprimed : ¬ v.Primed h) : ¬ w.Primed h ∧ w.timeouts h = v.timeouts h := by
  induction run with
  | refl => exact ⟨unprimed, rfl⟩
  | @tail u w before step ih =>
    have le := Run.launches_le (h := h) before
    have le' := (step.evolves h).launches_le
    obtain ⟨unprimed', same⟩ := ih (by omega)
    exact ⟨fun primed => unprimed' (step.primed (by omega) primed),
      (step.timeouts unprimed').trans same⟩

/-- Time passes, or a timer thread moves. -/
inductive Lapse : World π → World π → Prop where
  | advance (w : World π) (d : Duration) : Lapse w (w.advance d)
  | timer {v w : World π} {c : ClockId} {generation : Nat} :
      v.moveTimer c generation = some w → Lapse v w

/-- However much time passes, nothing happens to a handler that is not primed. -/
theorem lapse_unprimed (lapse : Relation.ReflTransGen Lapse v w) (unprimed : ¬ v.Primed h) :
    w.handlers[h]? = v.handlers[h]? := by
  suffices ¬ w.Primed h ∧ w.handlers[h]? = v.handlers[h]? from this.2
  induction lapse with
  | refl => exact ⟨unprimed, rfl⟩
  | @tail u w _ step ih =>
    obtain ⟨unprimed', same⟩ := ih
    cases step with
    | advance d =>
      have step : Next u (u.advance d) := .act u (.advance d)
      exact ⟨fun primed => unprimed' (step.primed rfl primed), same⟩
    | timer moved =>
      obtain ⟨still, told⟩ := moveTimer_unprimed moved unprimed'
      refine ⟨fun primed => unprimed' ((Next.timer moved).primed ?_ primed), still.trans same⟩
      exact launches_congr told

end World
end EventEngine
