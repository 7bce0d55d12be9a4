import EventEngine.Proofs.Clocks.Fates
import EventEngine.Proofs.Clocks.Firings
import EventEngine.Proofs.LockExclusion
import EventEngine.Proofs.Registrations
import EventEngine.Proofs.StopBarrier

/-!
# Starts that fail

A start fails if it has to make a thread whose stack is too large: the timer thread of the clock, or
the worker. In the second case the clock has been started by then, perhaps long ago, and the alarm
of the timeout has been put into its schedule. The alarm is taken out again, and the schedule is
what it was. Of the handler nothing has changed but the clock, which it has taken if it had none. -/
namespace EventEngine

variable {π α : Type} {h g : HandlerId}

/-- Taking out the alarm that was put in leaves the schedule as it was. -/
theorem Schedule.remove_insert {a : Alarm α} {s : Schedule α} (fresh : ∀ b ∈ s, b.id ≠ a.id) :
    (s.insert a).remove a.id = s := by
  induction s with
  | nil => simp [insert, remove]
  | cons b rest ih =>
    have apart : b.id ≠ a.id := fresh b (by simp)
    have fresh' : ∀ c ∈ rest, c.id ≠ a.id := fun c member => fresh c (List.mem_cons_of_mem b member)
    unfold insert
    split
    · simpa [remove, apart] using ih fresh'
    · simpa [remove, apart, List.filter_eq_self] using fresh'

namespace Clock

variable {k k' : Clock α} {notices : List ClockNotice}

/-- The schedule is as it was, and so is what the threads have in hand. An id may have been issued,
and the clock may have been started. -/
structure Intact (k k' : Clock α) : Prop where
  config : k'.config = k.config
  alarms : k'.alarms = k.alarms
  generation : k'.generation = k.generation
  taken : k'.taken = k.taken
  issued : k'.nextId = k.nextId ∨ k'.nextId = k.nextId + 1
  /-- A thread that was started is about to look at the schedule. -/
  threads : (k'.isRunning = k.isRunning ∧
      k'.timers.map (·.generation) = k.timers.map (·.generation)) ∨
    (k.isRunning = false ∧ k'.isRunning = true ∧ ⟨k.generation, .awake []⟩ ∈ k'.timers ∧
      k'.timers.map (·.generation) = k.timers.map (·.generation) ++ [k.generation])

theorem Intact.refl : Intact k k := ⟨rfl, rfl, rfl, rfl, .inl rfl, .inl ⟨rfl, rfl⟩⟩

/-- A thread that is not asleep is not woken. -/
theorem mem_wakeOne_of_awake {timers : List (Timer α)} {t : Timer α} (member : t ∈ timers)
    (awake : t.phase.isAsleep = false) : t ∈ wakeOne timers := by
  induction timers with
  | nil => cases member
  | cons u rest ih =>
    unfold wakeOne
    split
    · next sleeping =>
      rcases List.mem_cons.mp member with rfl | member
      · cases awake.symm.trans sleeping
      · exact List.mem_cons_of_mem _ member
    · rcases List.mem_cons.mp member with rfl | member
      · exact List.mem_cons_self
      · exact List.mem_cons_of_mem _ (ih member)

theorem intact_start (started : k.start = .ok (k', notices)) : Intact k k' := by
  obtain ⟨-, rfl⟩ | ⟨stopped, -, rfl⟩ := start_cases started
  · exact .refl
  · exact ⟨rfl, rfl, rfl, taken_start started, .inl rfl, .inr ⟨stopped, rfl, by simp, by simp⟩⟩

/-- Waking threads leaves the clock intact. -/
theorem Intact.wakeOne (intact : Intact k k') :
    Intact k { k' with timers := wakeOne k'.timers } where
  config := intact.config
  alarms := intact.alarms
  generation := intact.generation
  taken := (taken_wakeOne _).trans intact.taken
  issued := intact.issued
  threads := by
    rcases intact.threads with ⟨running, same⟩ | ⟨stopped, running, new, same⟩
    · exact .inl ⟨running, (generations_wakeOne _).trans same⟩
    · exact .inr
        ⟨stopped, running, mem_wakeOne_of_awake new rfl, (generations_wakeOne _).trans same⟩

/-- An alarm is added and removed again. -/
theorem Intact.add_remove (intact : Intact k k') (sound : k'.Sound)
    (unissued : k'.nextId = k.nextId) (callback : α) (deadline : Instant)
    (period : Option Duration) :
    Intact k ((k'.add callback deadline period).1.remove k'.nextId).1 := by
  have restored : (k'.alarms.insert ⟨k'.nextId, deadline, period, callback⟩).remove k'.nextId =
      k'.alarms :=
    Schedule.remove_insert (a := ⟨k'.nextId, deadline, period, callback⟩)
      fun b member => Nat.ne_of_lt (sound.ids b member)
  have there : (k'.add callback deadline period).1.alarms.hasId k'.nextId = true :=
    Schedule.hasId_iff.mpr ⟨_, Schedule.mem_insert.mpr (.inl rfl), rfl⟩
  have issued : Intact k { k' with nextId := k'.nextId + 1 } :=
    { intact with issued := .inr (congrArg (· + 1) unissued) }
  rw [Clock.remove, if_pos there]
  simp only [Clock.add, restored]
  split
  · exact issued.wakeOne.wakeOne
  · exact issued.wakeOne

/-- A clock does not start if it is stopped and its thread cannot be made. -/
theorem start_eq_error {failure : StartFailure} :
    k.start = .error failure ↔ k.isRunning = false ∧ k.spawnFault = some failure := by
  unfold Clock.start
  constructor
  · intro failed
    split at failed
    · cases failed
    · next stopped =>
      split at failed
      · cases failed
      · next fault =>
        cases failed
        exact ⟨(Bool.not_eq_true _).mp stopped, fault⟩
  · rintro ⟨stopped, fault⟩
    simp [stopped, fault]

/-- A clock without a fault starts. -/
theorem start_of_spawns (spawns : k.spawnFault = none) :
    ∃ k' notices, k.start = .ok (k', notices) := by
  unfold Clock.start
  split
  · exact ⟨_, _, rfl⟩
  · rw [spawns]
    exact ⟨_, _, rfl⟩

end Clock

/-- As long as nothing is added, removed or taken, the schedule stays as it is. -/
theorem Timeline.Run.quiet {t u : Timeline α} (reach : t.Reachable) (run : Timeline.Run t u) :
    ∃ new, u.notices = new ++ t.notices ∧
      ((∀ notice ∈ new, notice.isQuiet = true) → u.clock.alarms = t.clock.alarms) := by
  induction run with
  | refl => exact ⟨[], rfl, fun _ => rfl⟩
  | tail before step ih =>
    obtain ⟨new, told, kept⟩ := ih
    have loud : ∀ {u' : Timeline α} {notice : ClockNotice} (later : List ClockNotice),
        notice.isQuiet = false →
        (∀ n ∈ later ++ notice :: new, n.isQuiet = true) → u'.clock.alarms = t.clock.alarms :=
      fun _ loud quiet => absurd ((quiet _ (by simp)).symm.trans loud) nofun
    cases step.change (reach.run before).sound with
    | quiet later alarms _ told' _ =>
      refine ⟨later ++ new, by rw [told', told, List.append_assoc], fun quiet => ?_⟩
      rw [alarms]
      exact kept fun notice member => quiet notice (List.mem_append_right _ member)
    | add a _ _ _ told' => exact ⟨_ :: new, by rw [told', told]; rfl, loud [] rfl⟩
    | remove id _ _ _ told' => exact ⟨_ :: new, by rw [told', told]; rfl, loud [] rfl⟩
    | take skips _ _ _ told' _ =>
      exact ⟨skips ++ _ :: new, by rw [told', told, List.append_assoc]; rfl, loud skips rfl⟩

namespace World

variable {t u v w : World π} {x y : Handler π} {k : Clock AlarmOwner} {notices : List ClockNotice}
  {c : ClockId}

/-! ## Who can be started -/

/-- What is in the way of making a thread, other than its name, is told as such. -/
theorem reason_of_threadFault {canSpawn : Nat → Bool} {name whose : String} {stackSize : Nat}
    {e : EventError} (fault : threadFault canSpawn name stackSize whose = some (.failed e)) :
    ∃ reason, e = .notStarted reason := by
  unfold threadFault at fault
  split at fault
  · cases fault
  · split at fault
    · cases fault
    · cases fault
      exact ⟨_, rfl⟩

/-- A start would have to make a thread that cannot be made. -/
def CannotStart (w : World π) (x : Handler π) : Prop :=
  let k := w.clock (x.clock.getD sharedClock)
  (k.isRunning = false ∧ ∃ e, k.spawnFault = some (.failed e)) ∨
    (k.spawnFault = none ∧ x.isRunning = false ∧ ∃ e, x.spawnFault = some (.failed e))

/-- The world once the second section of a start could not make the worker. -/
def refused (w : World π) (g : HandlerId) (x : Handler π) (c : ClockId) : World π :=
  ((w.armed g x c).disarmTimeout g (x.armedWith (w.clock c).nextId) (some c)).note (.spawnFailed g)

/-- A second section that fails has found that the worker cannot be made, and has made its alarm and
taken it back. -/
theorem endStart_fails (found : w.find? g = some x) {e : EventError} :
    (w.endStart g c).2 = .error (.failed e) ↔
      x.isRunning = false ∧ x.spawnFault = some (.failed e) := by
  rw [endStart_result found]
  constructor
  · intro failed
    split at failed
    · cases failed
    · next stopped =>
      split at failed
      · cases failed
      · next fault =>
        cases failed
        exact ⟨(Bool.not_eq_true _).mp stopped, fault⟩
  · rintro ⟨idle, fault⟩
    simp [idle, fault]

theorem Installs.refused_of_fault {e : EventError} (installs : Installs w g x c v)
    (idle : x.isRunning = false) (fault : x.spawnFault = some (.failed e)) :
    v = w.refused g x c := by
  cases installs with
  | running running => exact absurd (idle.symm.trans running) nofun
  | launched _ spawns => exact absurd (spawns.symm.trans fault) nofun
  | refused _ _ => rfl
  | crashed _ crashes => exact absurd (crashes.symm.trans fault) (by simp)

/-- A start that fails has found that a thread cannot be made, and has taken its clock, or has made
the worker's alarm and taken it back. -/
theorem start_fails (found : w.find? g = some x)
    (sound : (w.clock (x.clock.getD sharedClock)).Sound) {e : EventError}
    (failed : (w.start g x).2 = .error (.failed e)) :
    w.CannotStart x ∧ (∃ reason, e = .notStarted reason) ∧
      ((w.start g x).1 = w.adopted g ∨ ∃ k notices, x.isRunning = false ∧
        x.spawnFault = some (.failed e) ∧
        (w.clock (x.clock.getD sharedClock)).start = .ok (k, notices) ∧
        (w.start g x).1 = ((w.adopted g).setClock (x.clock.getD sharedClock) k notices).refused g
          x.adopt (x.clock.getD sharedClock)) := by
  have result := start_result found
  have started := starts found
  rw [failed] at result
  generalize (w.start g x).1 = w' at started ⊢
  cases started with
  | failed clockFails =>
    rw [clockFails] at result
    cases result
    obtain ⟨stopped, fault⟩ := Clock.start_eq_error.mp clockFails
    exact ⟨.inl ⟨stopped, e, fault⟩, reason_of_threadFault fault, .inl rfl⟩
  | @opened k notices _ clockStarts installs =>
    rw [clockStarts] at result
    obtain ⟨idle, fault⟩ : x.isRunning = false ∧ x.spawnFault = some (.failed e) := by
      by_cases running : x.isRunning = true
      · simp [running] at result
      · cases fault : x.spawnFault with
        | none => simp [running, fault] at result
        | some failure =>
          exact ⟨(Bool.not_eq_true _).mp running, by simpa [running, fault, eq_comm] using result⟩
    have spawns : (w.clock (x.clock.getD sharedClock)).spawnFault = none := by
      rcases Clock.start_cases clockStarts with ⟨running, -⟩ | ⟨-, spawns, -⟩
      · exact sound.spawns running
      · exact spawns
    exact ⟨.inr ⟨spawns, idle, e, fault⟩, reason_of_threadFault fault,
      .inr ⟨k, notices, idle, fault, clockStarts, installs.refused_of_fault idle fault⟩⟩

theorem start_error_of_cannotStart (found : w.find? g = some x) (cannot : w.CannotStart x) :
    ∃ reason, (w.start g x).2 = .error (.failed (.notStarted reason)) := by
  rw [start_result found]
  rcases cannot with ⟨stopped, e, fault⟩ | ⟨spawns, idle, e, fault⟩
  · obtain ⟨reason, rfl⟩ := reason_of_threadFault fault
    rw [Clock.start_eq_error.mpr ⟨stopped, fault⟩]
    exact ⟨reason, rfl⟩
  · obtain ⟨reason, rfl⟩ := reason_of_threadFault fault
    obtain ⟨k, notices, started⟩ := Clock.start_of_spawns spawns
    refine ⟨reason, ?_⟩
    rw [started]
    simp [idle, fault]

end World

/-! ## Who has been started -/

/-- No stop is pending on the handler, and it has no alarm. -/
structure Handler.Unused (x : Handler π) : Prop where
  heard : x.queue.aborted = false
  unasked : x.stopRequested = false
  unregistered : x.timeoutAlarm = none

/-- Of an unused handler, a start that makes no worker changes nothing. -/
theorem Handler.Unused.startRefused_eq {x : Handler π} (unused : x.Unused) :
    x.startRefused = x := by
  obtain ⟨heard, unasked, unregistered⟩ := unused
  rcases x with ⟨config, canSpawn, types, lock, ⟨events, aborted⟩⟩
  simp_all [startRefused, prepare, Queue.resetAbort]

/-- A handler has an alarm only if a start of it came to the making of a worker. -/
theorem Handler.Turn.launched_of_registered {x x' : Handler π} {notes story : List (Occurrence π)}
    (turn : Turn h x notes x')
    (launched : x.timeoutAlarm.isSome = true → ∃ o ∈ story, o.isLaunch = true)
    (registered : x'.timeoutAlarm.isSome = true) :
    ∃ o ∈ notes ++ story, o.isLaunch = true := by
  have earlier : x.timeoutAlarm.isSome = true → ∃ o ∈ notes ++ story, o.isLaunch = true := by
    intro registered
    obtain ⟨o, member, isLaunch⟩ := launched registered
    exact ⟨o, List.mem_append_right _ member, isLaunch⟩
  cases turn with
  | enqueue place body _ => cases place <;> exact earlier registered
  | start id _ _ => exact ⟨.started h, by simp, rfl⟩
  | crash id _ _ => exact ⟨.spawnPanicked h, by simp, rfl⟩
  | refuse _ _ => cases registered
  | requestStop _ => cases registered
  | panic _ _ _ => exact earlier (by simpa using registered)
  | leave _ _ => exact earlier (by simpa using registered)
  | _ => exact earlier registered

namespace World

variable {t u v w : World π} {x y : Handler π} {k : Clock AlarmOwner} {notices : List ClockNotice}
  {c : ClockId}

/-- A step that comes to the making of a worker has not found that it cannot be made. -/
theorem Next.spawns (step : Next v w) (launched : w.launches h ≠ v.launches h) :
    ∃ x, v.outline? h = some x ∧ ∀ e, x.spawnFault ≠ some (.failed e) := by
  obtain ⟨t, c, y, u, w', before, comes, launches, -⟩ := step.launch launched
  obtain ⟨x, clock, starts, found, -, rfl⟩ := comes.handler
  refine ⟨x.outline, ?_, fun e fault => ?_⟩
  · rw [← (before.still h).1]
    exact outline?_eq_some.mpr ⟨x, (find?_eq_some.mp found).1, rfl⟩
  · have fault : x.spawnFault = some (.failed e) := fault
    cases launches with
    | launched _ spawns =>
      have spawns : x.spawnFault = none := spawns
      exact absurd (spawns.symm.trans fault) nofun
    | crashed _ crashes =>
      have crashes : x.spawnFault = some _ := crashes
      exact absurd (crashes.symm.trans fault) (by simp)

/-- The worker of a handler that has come to the making of one has not been refused. -/
theorem Reachable.unfailing (reach : Reachable w) (hx : w.outline? h = some x)
    (launched : w.launches h ≠ 0) (e : EventError) : x.spawnFault ≠ some (.failed e) := by
  refine reach.induct (P := fun w => ∀ x, w.outline? h = some x → w.launches h ≠ 0 →
    ∀ e, x.spawnFault ≠ some (.failed e)) ?_ ?_ x hx launched e
  · intro w fresh x _ launched
    simp [World.launches, story, fresh.history] at launched
  · intro v w _ ih step y hy launched e fault
    obtain ⟨x, hx, config, canSpawn, -⟩ := step.fixed hy
    have fault : x.spawnFault = some (.failed e) := by
      rw [Handler.spawnFault, config, canSpawn] at fault
      exact fault
    by_cases same : w.launches h = v.launches h
    · exact ih x hx (same ▸ launched) e fault
    · obtain ⟨x', hx', spawns⟩ := step.spawns same
      obtain rfl := Option.some.inj (hx.symm.trans hx')
      exact spawns e fault

/-- A handler whose worker cannot be made is unused: it has never had one. -/
theorem Reachable.unused (reach : Reachable w) (hx : w.handlers[h]? = some x)
    (idle : x.isRunning = false) {e : EventError} (fault : x.spawnFault = some (.failed e)) :
    x.Unused := by
  have outlined : w.outline? h = some x.outline := outline?_eq_some.mpr ⟨x, hx, rfl⟩
  obtain ⟨aborted, present⟩ := reach.barred_outline outlined
  have unasked : x.stopRequested = false := by
    refine (Bool.not_eq_true _).mp fun asked => ?_
    exact absurd ((x.isRunning_outline.trans idle).symm.trans (present asked)) nofun
  have turns := reach.turns (h := h) (P := fun x story => x.timeoutAlarm.isSome = true →
    ∃ o ∈ story, o.isLaunch = true) ?_
    fun _ _ _ _ launched turn => turn.launched_of_registered launched
  · refine ⟨aborted.trans unasked, unasked, Option.not_isSome_iff_eq_none.mp fun registered => ?_⟩
    have launched : w.launches h ≠ 0 :=
      Nat.ne_of_gt (List.countP_pos_iff.mpr (turns x.outline outlined registered))
    exact reach.unfailing outlined launched e fault
  · rintro x ⟨_, _, _, _, _, _, rfl⟩
    exact nofun

/-! ## What a failed start leaves -/

/-- What is left of a start of `h` on clock `c` that failed: the handler is as `x`, and the clock
may have been started and may have issued an id. All else is as it was. -/
structure StartedInVain (h : HandlerId) (c : ClockId) (x : Handler π) (v w : World π) : Prop where
  now : w.now = v.now
  locks : w.locks = v.locks
  handler : w.outline? h = some x.outline
  story : w.story h = v.story h
  others : ∀ g, g ≠ h → Still g v w
  clocks : ∀ c', c' ≠ c → w.clock c' = v.clock c'
  clock : (v.clock c).Intact (w.clock c)

/-- The clock on which a worker could not be made: an alarm has been added and removed again where
there is a timeout. -/
theorem clock_refused (there : c < w.clocks.length) (unregistered : x.timeoutAlarm = none) :
    (w.refused g x c).clock c = match x.timeout with
      | none => w.clock c
      | some setup => (((w.clock c).addPeriodic w.now (.handler g) setup.interval).1.remove
          (w.clock c).nextId).1 := by
  cases configured : x.timeout with
  | none =>
    have unarmed : (x.armedWith (w.clock c).nextId).timeoutAlarm = none := by
      simp [Handler.armedWith, configured, unregistered]
    simp only [refused, clock_note, disarmTimeout, unarmed, armed, armTimeout, configured,
      clock_modify]
  | some setup =>
    have own : (x.armedWith (w.clock c).nextId).timeoutAlarm = some (w.clock c).nextId := by
      simp [Handler.armedWith, configured]
    have there' : c < (w.armed g x c).clocks.length := length_armed.symm ▸ there
    simp only [refused, clock_note, disarmTimeout, own, clock_modify]
    rw [clock_setClock, clock_armed configured there]
    exact if_pos ⟨rfl, there'⟩

/-- The schedule of the clock is as it was before the alarm was added. -/
theorem intact_refused (intact : k.Intact (w.clock c)) (unissued : (w.clock c).nextId = k.nextId)
    (sound : (w.clock c).Sound) (unregistered : x.timeoutAlarm = none) :
    k.Intact ((w.refused g x c).clock c) := by
  by_cases there : c < w.clocks.length
  · rw [clock_refused there unregistered]
    split
    · exact intact
    · exact intact.add_remove sound unissued ..
  · have taken : Ticks Clock.NoAlarm (w.armed g x c) (w.refused g x c) :=
      Ticks.refl.disarmTimeout.note
    have length : (w.refused g x c).clocks.length = w.clocks.length :=
      taken.length.trans length_armed
    rw [clock_of_length_le (length ▸ Nat.le_of_not_lt there),
      ← clock_of_length_le (Nat.le_of_not_lt there)]
    exact intact

/-- A second section that makes no worker leaves no more than the first did. -/
theorem StartedInVain.refused (vain : StartedInVain h c x v w) (hx : w.handlers[h]? = some x)
    (unissued : (w.clock c).nextId = (v.clock c).nextId) (sound : (w.clock c).Sound)
    (unused : x.Unused) (idle : x.worker = none) {e : EventError}
    (fault : x.spawnFault = some (.failed e)) : StartedInVain h c x v (w.refused h x c) := by
  have installs : Installs w h x c (w.refused h x c) := .refused idle fault
  exact {
    now := (now_installs installs).trans vain.now
    locks := (locks_installs installs).trans vain.locks
    handler := by
      have refused := handlers_disarmTimeout (c := some c) (handlers_armed hx c)
      exact outline?_eq_some.mpr ⟨_, refused, congrArg Handler.outline unused.startRefused_eq⟩
    story := by
      rw [World.refused, (still_note (by simp [Occurrence.milestone?])).2, story_disarmTimeout,
        story_armed, vain.story]
    others := fun g ne => (vain.others g ne).trans (still_installs_ne installs ne.symm)
    clocks := fun c' ne => (clock_installs_ne installs ne).trans (vain.clocks c' ne)
    clock := intact_refused vain.clock unissued sound unused.unregistered }

/-- The first section leaves the handler with its clock. -/
theorem startedInVain_adopted (hx : w.handlers[h]? = some x) :
    StartedInVain h c x.adopt w (w.adopted h) where
  now := rfl
  locks := rfl
  handler := outline?_eq_some.mpr ⟨x.adopt, by simp [adopted, hx], rfl⟩
  story := rfl
  others := fun _ ne => still_modify_ne ne.symm
  clocks := fun _ _ => rfl
  clock := .refl

theorem StartedInVain.opened (vain : StartedInVain h c x v w) (same : w.clock c = v.clock c)
    (started : (v.clock c).start = .ok (k, notices)) :
    StartedInVain h c x v (w.setClock c k notices) where
  now := vain.now
  locks := vain.locks
  handler := vain.handler
  story := (story_setClock ..).trans vain.story
  others := fun g ne => (vain.others g ne).trans (still_setClock ..)
  clocks := fun c' ne => (clock_setClock_ne ne).trans (vain.clocks c' ne)
  clock := by
    rw [clock_setClock]
    split
    · exact Clock.intact_start started
    · exact same ▸ .refl

theorem startedInVain_of_error (found : w.find? h = some x)
    (sound : (w.clock (x.clock.getD sharedClock)).Sound)
    (unused : x.isRunning = false → ∀ e, x.spawnFault = some (.failed e) → x.Unused)
    {e : EventError} (failed : (w.start h x).2 = .error (.failed e)) :
    StartedInVain h (x.clock.getD sharedClock) x.adopt w (w.start h x).1 := by
  have adopted : StartedInVain h (x.clock.getD sharedClock) x.adopt w (w.adopted h) :=
    startedInVain_adopted (find?_eq_some.mp found).1
  obtain ⟨-, -, same | ⟨k, notices, idle, fault, started, same⟩⟩ := start_fails found sound failed
  · rw [same]
    exact adopted
  · rw [same]
    have unused := unused idle e fault
    have vacant : x.worker = none := by simpa [Handler.isRunning] using idle
    refine (adopted.opened rfl started).refused (find?_eq_some.mp (find?_adopted found)).1 ?_
      (sound_adopted started sound) ⟨unused.heard, unused.unasked, unused.unregistered⟩
      vacant fault
    rw [clock_setClock]
    split
    · exact Clock.nextId_start started
    · rfl

/-- The second section leaves as little, however long after the first it comes. -/
theorem startedInVain_of_endStart (found : w.find? h = some x) (sound : (w.clock c).Sound)
    (unused : x.isRunning = false → ∀ e, x.spawnFault = some (.failed e) → x.Unused)
    {e : EventError} (failed : ((w.modify h (·.entered c)).endStart h c).2 = .error (.failed e)) :
    (∃ reason, e = .notStarted reason) ∧
      StartedInVain h c (x.entered c) w ((w.modify h (·.entered c)).endStart h c).1 := by
  have found' := find?_entered found c
  have hx := (find?_eq_some.mp found').1
  obtain ⟨idle, fault⟩ := (endStart_fails found').mp failed
  have idle : x.isRunning = false := idle
  have vacant : x.worker = none := by simpa [Handler.isRunning] using idle
  have entered : StartedInVain h c (x.entered c) w (w.modify h (·.entered c)) := {
    now := rfl
    locks := rfl
    handler := outline?_eq_some.mpr ⟨_, hx, rfl⟩
    story := rfl
    others := fun _ ne => still_modify_ne ne.symm
    clocks := fun _ _ => rfl
    clock := .refl }
  have unused := unused idle e fault
  rw [(installs found' c).refused_of_fault idle fault]
  exact ⟨reason_of_threadFault fault, entered.refused hx rfl sound
    ⟨unused.heard, unused.unasked, unused.unregistered⟩ vacant fault⟩

/-! ## Calls -/

theorem CannotStart.congr {y : Handler π} (calm : Calm v w) (same : y.outline = x.outline)
    (cannot : v.CannotStart x) : w.CannotStart y := by
  have clock : y.clock = x.clock := by rw [← y.clock_outline, same, x.clock_outline]
  have running : y.isRunning = x.isRunning := by
    rw [← y.isRunning_outline, same, x.isRunning_outline]
  have fault : y.outline.spawnFault = x.outline.spawnFault := congrArg Handler.spawnFault same
  have fault : y.spawnFault = x.spawnFault := fault
  rw [CannotStart, clock, running, fault, calm.clock]
  exact cannot

theorem StartedInVain.calm {t' : World π} (vain : StartedInVain h c y t t')
    (same : y.outline = x.outline) (before : Calm v t) (after : Calm t' w) :
    StartedInVain h c x v w where
  now := after.now.trans (vain.now.trans before.now)
  locks := after.locks.trans (vain.locks.trans before.locks)
  handler := (after.still h).1.trans (same ▸ vain.handler)
  story := (after.still h).2.trans (vain.story.trans (before.still h).2)
  others := fun g ne => (before.still g).trans ((vain.others g ne).trans (after.still g))
  clocks := fun c' ne => by rw [after.clock, vain.clocks c' ne, before.clock]
  clock := by
    rw [after.clock, ← before.clock]
    exact vain.clock

/-- Who performs an action and is answered does so on a world in which only scripts differ. -/
theorem Returns.calm {action : Action π} {reply : Reply} (returns : Returns action reply v w) :
    ∃ t who, Calm v t ∧ (t.perform who action).2 = .replied reply ∧
      Calm (t.perform who action).1 w := by
  cases returns with
  | outside done => exact ⟨v, .outside, .refl, done, .refl⟩
  | @dispatch g x record since rest found hworker done =>
    refine ⟨v.setWorker g (.dispatching record since rest none), .worker g,
      calm_setWorker (find?_eq_some.mp found).1 hworker rfl, done, ?_⟩
    rw [dispatchAction_of_replied done]
    exact calm_note rfl fun _ => rfl

theorem perform_start_failed {who : Caller} (found : w.find? h = some x) {e : EventError} :
    (w.perform who (.start h)).2 = .replied (.failed e) ↔
      (w.start h x).2 = .error (.failed e) := by
  have performed : (w.perform who (.start h)).2 = .replied (startReply (w.start h x).2) := by
    simp [perform, withHandler, found]
  rw [performed]
  rcases (w.start h x).2 with (_ | _) | _ <;> simp [startReply]

/-- Whoever calls for a start that needs a thread which cannot be made is told so. -/
theorem Calls.returns_of_cannotStart (calls : Calls (.start h) v w) (found : v.find? h = some x)
    (cannot : v.CannotStart x) :
    ∃ reason, Returns (.start h) (.failed (.notStarted reason)) v w := by
  have fails : ∀ t who, Calm v t →
      ∃ reason, (t.perform who (.start h)).2 = .replied (.failed (.notStarted reason)) := by
    intro t who calm
    obtain ⟨y, found', same⟩ := (calm.still h).find? found
    obtain ⟨reason, failed⟩ := start_error_of_cannotStart found' (cannot.congr calm same)
    exact ⟨reason, (perform_start_failed found').mpr failed⟩
  cases calls with
  | outside =>
    obtain ⟨reason, failed⟩ := fails v .outside .refl
    exact ⟨reason, .outside failed⟩
  | @dispatch g _ record since rest found' hworker =>
    have begun : Calm v (v.setWorker g (.dispatching record since rest none)) :=
      calm_setWorker (find?_eq_some.mp found').1 hworker rfl
    obtain ⟨reason, failed⟩ := fails _ (.worker g) begun
    exact ⟨reason, .dispatch found' hworker failed⟩

/-- What a start that was answered with an error has found and left. -/
theorem Returns.started_in_vain (reach : Reachable v) (found : v.find? h = some x) {e : EventError}
    (returns : Returns (.start h) (.failed e) v w) :
    v.CannotStart x ∧ (∃ reason, e = .notStarted reason) ∧
      StartedInVain h (x.clock.getD sharedClock) x.adopt v w := by
  obtain ⟨t, who, before, failed, after⟩ := returns.calm
  obtain ⟨y, found', same⟩ := (before.still h).find? found
  have failed := (perform_start_failed found').mp failed
  have performed : (t.perform who (.start h)).1 = (t.start h y).1 := by
    simp [perform, withHandler, found']
  have sound : (t.clock (y.clock.getD sharedClock)).Sound := by
    rw [before.clock]
    exact reach.sound _
  obtain ⟨cannot, reason, -⟩ := start_fails found' sound failed
  have hy : v.handlers[h]? = some x := (find?_eq_some.mp found).1
  have clock : y.clock = x.clock := congrArg (·.clock) same
  have idle_iff : y.isRunning = x.isRunning := by
    rw [← y.isRunning_outline, same, x.isRunning_outline]
  have unused : y.isRunning = false → ∀ e, y.spawnFault = some (.failed e) → y.Unused := by
    intro idle e fault
    have alike : y.outline.spawnFault = x.outline.spawnFault := congrArg Handler.spawnFault same
    have fault' : x.spawnFault = some (.failed e) := alike.symm.trans fault
    obtain ⟨heard, unasked, unregistered⟩ := reach.unused hy (idle_iff.symm.trans idle) fault'
    exact ⟨(congrArg (·.queue.aborted) same).trans heard,
      (congrArg (·.stopRequested) same).trans unasked,
      (congrArg (·.timeoutAlarm) same).trans unregistered⟩
  have vain := startedInVain_of_error found' sound unused failed
  have adopted : y.adopt.outline = x.adopt.outline := by
    have along : ∀ z : Handler π, z.adopt.outline = z.outline.adopt := fun _ => rfl
    rw [along, along, same]
  refine ⟨cannot.congr before.symm same.symm, reason, ?_⟩
  rw [← clock]
  exact vain.calm adopted before (performed ▸ after)

/-- Since `w` nothing was added to the clock, removed from it or taken. -/
def Undisturbed (c : ClockId) (w u : World π) : Prop :=
  ∀ new, u.notices c = new ++ w.notices c → ∀ notice ∈ new, notice.isQuiet = true

theorem alarms_of_undisturbed {c : ClockId} (reach : Reachable w) (run : Run w u)
    (quiet : Undisturbed c w u) : (u.clock c).alarms = (w.clock c).alarms := by
  by_cases there : c < w.clocks.length
  · obtain ⟨new, told, kept⟩ := Timeline.Run.quiet (reach.timeline there) (Run.timeline run there)
    exact kept (quiet new told)
  · have beyond : u.clocks.length ≤ c := by
      rw [Run.length_clocks run]
      exact Nat.le_of_not_lt there
    rw [clock_of_length_le beyond, clock_of_length_le (Nat.le_of_not_lt there)]

/-- A start fails just if it needs a thread whose stack is too large, for the clock or the worker,
and then it says so. Whoever asks for it, the handler has its clock afterwards and is otherwise as
it was, with its queue, its abort, its timeout, its alarm and its counters; so are all other
handlers and clocks, the locks and the time. Of the clock that the handler has, the schedule is as
it was, and stays so until an alarm is added or removed or a thread takes a batch; the clock may
have been started, and may have issued one id. If anything comes between the two sections of the
start, and the second fails, this section leaves as little. -/
theorem failed_start_changes_nothing (reach : Reachable v) (found : v.find? h = some x)
    (calls : Calls (.start h) v w) :
    (v.CannotStart x ↔ ∃ reason, Returns (.start h) (.failed (.notStarted reason)) v w) ∧
    (∀ e, Returns (.start h) (.failed e) v w →
      (∃ reason, e = .notStarted reason) ∧
      StartedInVain h (x.clock.getD sharedClock) x.adopt v w ∧
      ∀ u, Run w u → Undisturbed (x.clock.getD sharedClock) w u →
        (u.clock (x.clock.getD sharedClock)).alarms =
          (v.clock (x.clock.getD sharedClock)).alarms) ∧
    ∀ c ∈ x.starts, ∀ e v', (v.modify h (·.entered c)).endStart h c = (v', .error (.failed e)) →
      (∃ reason, e = .notStarted reason) ∧ StartedInVain h c (x.entered c) v v' ∧
      ∀ u, Run v' u → Undisturbed c v' u → (u.clock c).alarms = (v.clock c).alarms := by
  refine ⟨⟨calls.returns_of_cannotStart found, ?_⟩, fun e returns => ?_, ?_⟩
  · rintro ⟨reason, returns⟩
    exact (returns.started_in_vain reach found).1
  · obtain ⟨-, reason, vain⟩ := returns.started_in_vain reach found
    refine ⟨reason, vain, fun u run quiet => ?_⟩
    exact (alarms_of_undisturbed (reach.next calls.next) run quiet).trans vain.clock.alarms
  · intro c pending e v' ended
    have step : Next v v' := by
      have step := Next.endStart found pending
      rwa [ended] at step
    have hx := (find?_eq_some.mp found).1
    obtain ⟨reason, vain⟩ := startedInVain_of_endStart found (reach.sound c)
      (fun idle _ fault => reach.unused hx idle fault) (congrArg Prod.snd ended)
    rw [ended] at vain
    refine ⟨reason, vain, fun u run quiet => ?_⟩
    exact (alarms_of_undisturbed (reach.next step) run quiet).trans vain.clock.alarms

/-- Two handlers use one clock, where the first has an alarm; the stack of the second is too large.
Its start fails, with the alarm of the first still scheduled, and the next id has been issued. -/
theorem start_with_oversized_stack :
    let handler (name : String) (stackSize : Nat) : Handler Nat :=
      { config := { name, stackSize }, types := .ofList [⟨"A", "a"⟩] }
    let w₀ : World Nat := { handlers := [handler "a" 1, handler "b" 140737488355328] }
    let w := w₀.steps 20 [.act (.setTimeout 0 ⟨2⟩ 1 []), .act (.setTimeout 1 ⟨1⟩ 2 []),
      .act (.start 0)]
    let v := (w.perform .outside (.start 1)).1
    ∃ (x : Handler Nat) (reason : String),
      Returns (.start 1) (.failed (.notStarted reason)) w v ∧ StartedInVain 1 0 x.adopt w v ∧
      (v.clock 0).alarms = (w.clock 0).alarms ∧ (w.clock 0).alarms.length = 1 ∧
      (v.clock 0).nextId = (w.clock 0).nextId + 1 := by
  intro handler w₀ w v
  have fresh : Fresh w₀ := by
    refine fresh_of_handlers 1 0 fun x hx => ?_
    rcases List.mem_cons.mp hx with rfl | hx
    · exact ⟨_, _, _, _, _, _, rfl⟩
    · exact ⟨_, _, _, _, _, _, List.mem_singleton.mp hx⟩
  have reach : Reachable w := fresh.reachable.steps 20 _
  have shown : (w.find? 1).map (fun x => (x.clock, x.isRunning, x.spawnFault)) =
      some (none, false, some (.failed (.notStarted ("b: " ++ spawnFailure)))) := by decide +kernel
  obtain ⟨x, found, state⟩ := Option.map_eq_some_iff.mp shown
  obtain ⟨unset, state⟩ := Prod.mk.inj state
  obtain ⟨idle, fault⟩ := Prod.mk.inj state
  have unused : (w.clock (x.clock.getD sharedClock)).spawnFault = none := by
    rw [unset]
    decide +kernel
  obtain ⟨iff, fails, -⟩ := failed_start_changes_nothing reach found (.outside w)
  obtain ⟨reason, returns⟩ := iff.mp (.inr ⟨unused, idle, _, fault⟩)
  obtain ⟨-, vain, -⟩ := fails _ returns
  rw [unset] at vain
  exact ⟨x, reason, returns, vain, vain.clock.alarms, by decide +kernel, by decide +kernel⟩

end World
end EventEngine
