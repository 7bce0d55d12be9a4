import EventEngine.Proofs.Clocks.Logs
import EventEngine.Proofs.ForeignAlarms
import EventEngine.Proofs.LastingStarts
import EventEngine.Proofs.Timeouts

/-!
# Registrations of alarms

Half of a registration is with the handler, which knows the id of its alarm and the clock that it
uses, and half is with the clock, which has the alarm scheduled. The two halves match if an alarm of
a handler is scheduled just where the handler knows of it. Starts and stops of handlers keep them in
step, also where a start fails, and so does a change of the clock of a handler without an alarm.
-/
namespace EventEngine

variable {π : Type} {h : HandlerId}

namespace Handler

variable {x x' : Handler π} {notes : List (Occurrence π)}

/-- A handler that has registered an alarm has a clock, and so has one with a start in progress. -/
structure Clocked (x : Handler π) : Prop where
  registered : x.timeoutAlarm.isSome = true → x.clock.isSome = true
  starts : ∀ c ∈ x.starts, x.clock.isSome = true

theorem clocked_outline : x.outline.Clocked ↔ x.Clocked :=
  ⟨fun clocked => ⟨clocked.registered, clocked.starts⟩,
    fun clocked => ⟨clocked.registered, clocked.starts⟩⟩

theorem Enters.clocked {clock : Option ClockId} {starts : List ClockId}
    (enters : x.Enters clock starts) (clocked : x.Clocked) : clock.isSome = true := by
  cases enters with
  | atOnce => rfl
  | later member => exact clocked.starts _ member

theorem Turn.clocked (turn : Turn h x notes x') (clocked : x.Clocked) : x'.Clocked := by
  cases turn with
  | enqueue place body _ => cases place <;> exact ⟨clocked.registered, clocked.starts⟩
  | setClock c => exact ⟨fun _ => rfl, fun _ _ => rfl⟩
  | beginStart => exact ⟨fun _ => rfl, fun _ _ => rfl⟩
  | skipStart _ _ =>
    exact ⟨clocked.registered, fun c member => clocked.starts c (List.mem_of_mem_erase member)⟩
  | start id _ enters => exact ⟨fun _ => enters.clocked clocked, fun _ _ => enters.clocked clocked⟩
  | refuse _ enters => exact ⟨nofun, fun _ _ => enters.clocked clocked⟩
  | crash id _ enters => exact ⟨fun _ => enters.clocked clocked, fun _ _ => enters.clocked clocked⟩
  | requestStop _ => exact ⟨nofun, clocked.starts⟩
  | panic _ _ _ => exact ⟨by simpa using clocked.registered, by simpa using clocked.starts⟩
  | leave _ _ => exact ⟨by simpa using clocked.registered, by simpa using clocked.starts⟩
  | _ => exact ⟨clocked.registered, clocked.starts⟩

end Handler

namespace World

variable {g : HandlerId} {c : ClockId} {id : AlarmId} {u v w : World π} {x : Handler π}
  {a : Alarm AlarmOwner} {k : Clock AlarmOwner} {notices : List ClockNotice} {c' : ClockId}

/-! ## Alarms of handlers -/

/-- Clock `c` has an alarm of handler `h` scheduled under this id. -/
def Holds (w : World π) (c : ClockId) (id : AlarmId) (h : HandlerId) : Prop :=
  ∃ a ∈ (w.clock c).alarms, a.id = id ∧ a.callback = .handler h

theorem holds_congr (same : ∀ a, a ∈ (w.clock c).alarms ↔ a ∈ (v.clock c).alarms) :
    w.Holds c id h ↔ v.Holds c id h := by
  simp only [Holds, same]

theorem holds_disarmTimeout {from? : Option ClockId} :
    (w.disarmTimeout g x from?).Holds c id h ↔
      w.Holds c id h ∧ ¬ (x.timeoutAlarm = some id ∧ from? = some c) := by
  simp only [Holds, mem_alarms_disarmTimeout]
  constructor
  · rintro ⟨a, ⟨member, kept⟩, rfl, callback⟩
    exact ⟨⟨a, member, rfl, callback⟩, kept⟩
  · rintro ⟨⟨a, member, rfl, callback⟩, kept⟩
    exact ⟨a, ⟨member, kept⟩, rfl, callback⟩

theorem holds_requestStop (running : x.isRunning = true) (who : Caller) (destroys : Bool) :
    (w.requestStop who g x destroys).1.Holds c id h ↔
      w.Holds c id h ∧ ¬ (x.timeoutAlarm = some id ∧ x.clock = some c) := by
  rw [← holds_disarmTimeout (g := g)]
  refine holds_congr fun a => ?_
  rw [mem_alarms_requestStop, mem_alarms_disarmTimeout]
  simp [running]

theorem not_holds_of_fresh {w₀ : World π} (fresh : Fresh w₀) : ¬ w₀.Holds c id h := by
  rintro ⟨a, member, -⟩
  obtain ⟨_, _, new⟩ := fresh.clocks _ (List.getElem_mem (lt_length_of_mem member))
  simp [World.clock, lt_length_of_mem member, new] at member

/-- The alarm that a start of `g` registers. -/
def newAlarm (w : World π) (g : HandlerId) (setup : TimeoutSetup π) (id : AlarmId) :
    Alarm AlarmOwner :=
  let period := Alarm.clampPeriod setup.interval
  ⟨id, w.now.deadlineAfter period, some period, .handler g⟩

/-- A start adds no alarm but the one that it registers. -/
theorem mem_alarms_armed_iff (there : c' < w.clocks.length) :
    a ∈ ((w.armed g x c').clock c).alarms ↔ a ∈ (w.clock c).alarms ∨
      c = c' ∧ ∃ setup, x.timeout = some setup ∧ a = w.newAlarm g setup (w.clock c').nextId := by
  cases timeout : x.timeout with
  | none => simp [armed, armTimeout, timeout]
  | some setup =>
    by_cases same : c = c'
    · subst same
      rw [clock_armed timeout there]
      simp [Clock.addPeriodic, Clock.add, newAlarm, or_comm]
    · rw [clock_armed_ne same]
      simp [same]

theorem holds_armed (there : c' < w.clocks.length) :
    (w.armed g x c').Holds c id h ↔ w.Holds c id h ∨
      (h = g ∧ c = c' ∧ x.timeout.isSome = true ∧ id = (w.clock c').nextId) := by
  simp only [Holds, mem_alarms_armed_iff there]
  constructor
  · rintro ⟨a, member | ⟨here, setup, timeout, rfl⟩, rfl, callback⟩
    · exact .inl ⟨a, member, rfl, callback⟩
    · exact .inr ⟨(AlarmOwner.handler.inj callback).symm, here, by simp [timeout], rfl⟩
  · rintro (⟨a, member, rfl, callback⟩ | ⟨rfl, here, timeout, rfl⟩)
    · exact ⟨a, .inl member, rfl, callback⟩
    · obtain ⟨setup, timeout⟩ := Option.isSome_iff_exists.mp timeout
      exact ⟨_, .inr ⟨here, setup, timeout, rfl⟩, rfl, rfl⟩

/-! ## Both halves match -/

/-- An alarm of a handler is scheduled just where the handler knows of it. -/
def Matched (w : World π) : Prop :=
  ∀ c id h, w.Holds c id h ↔ w.bond? h = some (some id, some c)

theorem Matched.congr (matched : v.Matched) (holds : ∀ c id h, w.Holds c id h ↔ v.Holds c id h)
    (bonds : ∀ h, w.bond? h = v.bond? h) : w.Matched := by
  intro c id h
  rw [holds, bonds, matched c id h]

/-- Every handler's clock exists. -/
def Wired (w : World π) : Prop := ∀ x ∈ w.handlers, x.clock.getD sharedClock < w.clocks.length

theorem Wired.lt (wired : w.Wired) (hx : w.handlers[h]? = some x) :
    x.clock.getD sharedClock < w.clocks.length := wired x (List.mem_of_getElem? hx)

theorem Calm.wired (calm : Calm v w) (wired : v.Wired) : w.Wired := by
  intro y member
  obtain ⟨h, there, hy⟩ := List.getElem_of_mem member
  have outlined : v.outline? h = some y.outline :=
    (calm.still h).1.symm.trans (outline?_eq_some.mpr ⟨y, by simp [there, hy], rfl⟩)
  obtain ⟨x, hx, same⟩ := outline?_eq_some.mp outlined
  rw [← y.clock_outline, ← same, x.clock_outline, calm.clocks]
  exact wired.lt hx

theorem Calm.matched (calm : Calm v w) (matched : v.Matched) : w.Matched :=
  matched.congr (fun _ _ _ => holds_congr fun _ => by rw [calm.clock]) fun h => (calm.still h).bond?

/-- On one clock an id names one alarm. -/
theorem Reachable.eq_of_id (reach : Reachable w) {b : Alarm AlarmOwner}
    (ha : a ∈ (w.clock c).alarms) (hb : b ∈ (w.clock c).alarms) (same : a.id = b.id) : a = b :=
  (reach.timeline (lt_length_of_mem ha)).ordered.eq_of_id ha hb same

/-- The alarms of handlers are periodic. -/
theorem Reachable.periodic (reach : Reachable w) (member : a ∈ (w.clock c).alarms)
    (callback : a.callback = .handler h) : a.period.isSome = true := by
  have periodic := reach.clocks (P := fun k => ∀ a ∈ k.alarms, a.callback = .handler h →
    a.period.isSome = true) (fun _ _ => nofun) ?_ c
  · exact periodic a member callback
  · intro now k k' _ periodic step a' member callback
    rcases step.alarms member with ⟨a, earlier, leads⟩ | ⟨other | ⟨_, -, period, same, -⟩, -⟩
    · have kept := periodic a earlier (leads.callback.symm.trans callback)
      obtain rfl | ⟨_, _, -, rfl⟩ := leads <;> exact kept
    · cases other.symm.trans callback
    · rw [same]
      rfl

theorem clocked_of_reachable (reach : Reachable w) (hx : w.handlers[h]? = some x) :
    x.Clocked := by
  have clocked : x.outline.Clocked := by
    refine reach.turns (h := h) (P := fun x _ => x.Clocked) ?_
      (fun _ _ _ _ clocked turn => turn.clocked clocked) x.outline
      (outline?_eq_some.mpr ⟨x, hx, rfl⟩)
    rintro x ⟨_, _, _, _, _, _, rfl⟩
    exact ⟨nofun, nofun⟩
  exact Handler.clocked_outline.mp clocked

/-- A handler that has registered an alarm has a clock. -/
theorem clock_of_registered (reach : Reachable w) (hx : w.handlers[h]? = some x)
    (registered : x.timeoutAlarm.isSome = true) : x.clock.isSome = true :=
  (clocked_of_reachable reach hx).registered registered

/-- Number of dispatchers of `h` that have panicked, and of workers whose making has. -/
def crashes (w : World π) (h : HandlerId) : Nat := (w.story h).countP Occurrence.isCrash

theorem Run.crashes_le (run : Run v w) : v.crashes h ≤ w.crashes h := run.countP_story_le _

/-- Where nothing has panicked, a handler without a worker has no alarm. -/
theorem unregistered_of_idle (reach : Reachable w) (calm : w.crashes h = 0)
    (hx : w.handlers[h]? = some x) (idle : x.worker = none) : x.timeoutAlarm = none := by
  cases registered : x.timeoutAlarm with
  | none => rfl
  | some id =>
    obtain ⟨later, o, earlier, told, crash, -⟩ :=
      panicked_of_registered reach hx idle (by simp [registered])
    exact absurd crash (List.countP_eq_zero.mp calm o (by simp [told]))

/-! ## Starts and stops -/

theorem bond?_adopted (hx : w.handlers[g]? = some x) : (w.adopted g).bond? h =
    if g = h then some (x.timeoutAlarm, some (x.clock.getD sharedClock)) else w.bond? h := by
  rw [adopted, bond?, handlers_modify]
  split
  · next same =>
    subst same
    rw [hx]
    rfl
  · rfl

theorem Matched.adopted (matched : w.Matched) (hx : w.handlers[g]? = some x)
    (clocked : x.Clocked) : (w.adopted g).Matched := by
  intro c id h
  have same : (w.adopted g).Holds c id h ↔ w.Holds c id h := holds_congr fun _ => Iff.rfl
  rw [same, matched c id h, bond?_adopted hx]
  split
  · next eq =>
    subst eq
    rw [bond?_eq hx, Handler.bond]
    cases registered : x.timeoutAlarm with
    | none => simp
    | some id' =>
      obtain ⟨c', hc'⟩ := Option.isSome_iff_exists.mp (clocked.registered (by simp [registered]))
      simp [hc']
  · rfl

/-- The first section of a start touches no alarm. -/
theorem Matched.opened (matched : w.Matched) (hx : w.handlers[g]? = some x) (clocked : x.Clocked)
    (started : (w.clock c').start = .ok (k, notices)) :
    ((w.adopted g).setClock c' k notices).Matched :=
  (matched.adopted hx clocked).congr
    (fun _ _ _ => holds_congr fun _ => by rw [alarms_adopted started, World.adopted, clock_modify])
    fun _ => rfl

/-- A start puts its alarm in both places. -/
theorem Matched.armed (matched : w.Matched) (hx : w.handlers[g]? = some x)
    (there : c' < w.clocks.length) (here : x.clock = some c')
    (unregistered : x.timeoutAlarm = none) : (w.armed g x c').Matched := by
  intro c id h
  rw [holds_armed there, matched c id h]
  by_cases same : g = h
  · subst same
    rw [bond?_armed hx, bond?_eq hx, Handler.bond, unregistered, here]
    cases x.timeout with
    | none => simp
    | some setup => simp [eq_comm, and_comm]
  · rw [(still_armed_ne (w := w) (x := x) (c := c') same).bond?]
    simp [Ne.symm same]

/-- A start that makes no worker takes back the alarm that it has added, and no other. -/
theorem holds_refused (sound : (w.clock c').Sound) (there : c' < w.clocks.length)
    (unregistered : x.timeoutAlarm = none) :
    ((w.armed g x c').disarmTimeout g (x.armedWith (w.clock c').nextId) (some c')).Holds c id h ↔
      w.Holds c id h := by
  rw [holds_disarmTimeout, holds_armed there]
  have registered : (x.armedWith (w.clock c').nextId).timeoutAlarm =
      x.timeout.map fun _ => (w.clock c').nextId := by
    simp [Handler.armedWith, unregistered]
  constructor
  · rintro ⟨held | ⟨rfl, rfl, timeout, rfl⟩, kept⟩
    · exact held
    · obtain ⟨setup, timeout⟩ := Option.isSome_iff_exists.mp timeout
      exact absurd ⟨by rw [registered, timeout]; rfl, rfl⟩ kept
  · rintro ⟨a, member, rfl, callback⟩
    refine ⟨.inl ⟨a, member, rfl, callback⟩, ?_⟩
    rintro ⟨same, here⟩
    obtain rfl := Option.some.inj here
    -- the id that is taken back was new to the clock
    obtain ⟨_, -, same⟩ := Option.map_eq_some_iff.mp (registered.symm.trans same)
    exact Nat.lt_irrefl _ (same ▸ sound.ids a member)

/-- The second section of a start keeps the two halves together if the handler still has the clock
that the start is on, whether it makes a worker or not. -/
theorem Matched.installs (matched : w.Matched) (sound : (w.clock c').Sound)
    (hx : w.handlers[g]? = some x) (there : c' < w.clocks.length) (here : x.clock = some c')
    (unregistered : x.worker = none → x.timeoutAlarm = none) (installs : Installs w g x c' v) :
    v.Matched := by
  cases installs with
  | running _ => exact matched
  | launched idle _ =>
    exact (matched.armed hx there here (unregistered idle)).congr (fun _ _ _ => Iff.rfl)
      fun _ => bond?_modify fun _ => rfl
  | crashed idle _ =>
    exact (matched.armed hx there here (unregistered idle)).congr (fun _ _ _ => Iff.rfl)
      fun _ => rfl
  | refused idle _ =>
    refine matched.congr (fun _ _ _ => holds_refused sound there (unregistered idle)) fun h => ?_
    by_cases same : g = h
    · subst same
      have disarmed := handlers_disarmTimeout (c := some c') (handlers_armed hx c')
      have unarmed := bond?_eq disarmed
      rw [bond?_eq hx, Handler.bond, unregistered idle]
      exact unarmed
    · exact ((still_armed_ne (w := w) (x := x) (c := c') same).trans
        (still_disarmTimeout_ne same)).bond?

/-- A start keeps the two halves together. -/
theorem Matched.start (matched : w.Matched) (sound : (w.clock (x.clock.getD sharedClock)).Sound)
    (found : w.find? g = some x) (there : x.clock.getD sharedClock < w.clocks.length)
    (clocked : x.Clocked) (unregistered : x.worker = none → x.timeoutAlarm = none) :
    (w.start g x).1.Matched := by
  obtain ⟨hx, -⟩ := find?_eq_some.mp found
  have started := starts found
  generalize (w.start g x).1 = w' at started
  cases started with
  | failed _ => exact matched.adopted hx clocked
  | opened started installs =>
    exact (matched.opened hx clocked started).installs (sound_adopted started sound)
      (find?_eq_some.mp (find?_adopted found)).1 (by simpa [World.adopted] using there) rfl
      unregistered installs

/-- A stop forgets the alarm in both places. -/
theorem Matched.requestStop (matched : w.Matched)
    (distinct : ∀ c, ∀ a ∈ (w.clock c).alarms, ∀ b ∈ (w.clock c).alarms, a.id = b.id → a = b)
    (found : w.find? g = some x) (running : x.isRunning = true) (who : Caller) (destroys : Bool) :
    (w.requestStop who g x destroys).1.Matched := by
  obtain ⟨hx, -⟩ := find?_eq_some.mp found
  intro c id h
  rw [holds_requestStop running, matched c id h]
  by_cases same : g = h
  · subst same
    have gone := find?_requestStop found running who destroys
    rw [bond?_eq hx, bond?_eq (find?_eq_some.mp gone).1]
    simp [Handler.bond, Handler.stopRequest, Handler.requestStop]
  · rw [(still_requestStop_ne who destroys same).bond?]
    refine and_iff_left_of_imp fun bond => ?_
    rintro ⟨registered, clock⟩
    -- the alarm of `g` with this id would be the one of `h`
    have own : w.Holds c id g :=
      (matched c id g).mpr (by rw [bond?_eq hx, Handler.bond, registered, clock])
    obtain ⟨a, ha, rfl, callback⟩ := (matched c id h).mpr bond
    obtain ⟨b, hb, eq, callback'⟩ := own
    obtain rfl := distinct c a ha b hb eq.symm
    exact same (AlarmOwner.handler.inj (callback'.symm.trans callback))

/-- A handler without an alarm may be given another clock. -/
theorem Matched.setClock (matched : w.Matched) (hx : w.handlers[g]? = some x)
    (free : x.timeoutAlarm = none ∨ x.clock = some c) :
    (w.modify g ({ · with clock := some c })).Matched := by
  intro c' id h
  have holds : (w.modify g ({ · with clock := some c })).Holds c' id h ↔ w.Holds c' id h := Iff.rfl
  have bond : (w.modify g ({ · with clock := some c })).bond? h =
      if g = h then some (x.timeoutAlarm, some c) else w.bond? h := by
    rw [bond?, handlers_modify]
    split
    · next same =>
      subst same
      rw [hx]
      rfl
    · rfl
  rw [holds, matched c' id h, bond]
  split
  · next same =>
    subst same
    rw [bond?_eq hx, Handler.bond]
    rcases free with unregistered | same
    · simp [unregistered]
    · rw [same]
  · rfl

end World
end EventEngine
