import EventEngine.Proofs.Clocks.Ticks
import EventEngine.Proofs.Turns.Alarms

/-!
# Starts and stops, and the alarms of others

A handler remembers the id of its alarm, and removes the alarm with this id from the clock that it
uses now. Ids are given out by each clock on its own, so a stop may remove the alarm of someone else
if the handler was given another clock after its start. It does so in no other case, and a start
never does.
-/
namespace EventEngine

variable {π : Type}

/-- Every start in progress is on the clock that the handler has. -/
def Handler.OnClock (x : Handler π) : Prop := ∀ c ∈ x.starts, x.clock = some c

namespace World

variable {h g : HandlerId} {c : ClockId} {v w : World π} {x : Handler π} {a : Alarm AlarmOwner}

/-! ## Stops -/

theorem mem_alarms_disarmTimeout {c' : Option ClockId} :
    a ∈ ((w.disarmTimeout g x c').clock c).alarms ↔
      a ∈ (w.clock c).alarms ∧ ¬ (x.timeoutAlarm = some a.id ∧ c' = some c) := by
  cases registered : x.timeoutAlarm with
  | none => simp [disarmTimeout, registered]
  | some id =>
    cases c' with
    | none => simp [disarmTimeout, registered]
    | some c' =>
      have removed : (w.disarmTimeout g x (some c')).clock c =
          if c' = c ∧ c' < w.clocks.length then ((w.clock c').remove id).1 else w.clock c := by
        rw [disarmTimeout, registered]
        exact clock_setClock ..
      rw [removed]
      split
      · next there =>
        obtain ⟨rfl, -⟩ := there
        simp [Clock.mem_alarms_remove, eq_comm]
      · next elsewhere =>
        refine (and_iff_left_of_imp fun member => ?_).symm
        rintro ⟨-, same⟩
        obtain rfl := Option.some.inj same
        exact elsewhere ⟨rfl, lt_length_of_mem member⟩

/-- A stop removes what the running handler has registered, from the clock that it has now. -/
theorem mem_alarms_requestStop (who : Caller) (destroys : Bool) :
    a ∈ ((w.requestStop who g x destroys).1.clock c).alarms ↔ a ∈ (w.clock c).alarms ∧
      ¬ (x.isRunning = true ∧ x.timeoutAlarm = some a.id ∧ x.clock = some c) := by
  have disarmed : a ∈ ((w.disarmTimeout g x x.clock).clock c).alarms ↔ _ := mem_alarms_disarmTimeout
  unfold requestStop
  split
  · next running =>
    simp only [running, true_and]
    split <;> exact disarmed
  · next stopped => simp [stopped]

/-! ## Starts -/

variable {k : Clock AlarmOwner} {notices : List ClockNotice}

theorem mem_alarms_setClock {c' : ClockId} (member : a ∈ (w.clock c).alarms)
    (kept : c' = c → a ∈ k.alarms) : a ∈ ((w.setClock c' k notices).clock c).alarms := by
  rw [clock_setClock]
  split
  · next there => exact kept there.1
  · exact member

theorem mem_alarms_armTimeout {c' : ClockId} (member : a ∈ (w.clock c).alarms) :
    a ∈ ((w.armTimeout g x c').clock c).alarms := by
  unfold armTimeout
  split
  · exact member
  · next setup _ =>
    have added : a ∈ ((w.setClock c' ((w.clock c').addPeriodic w.now (.handler g) setup.interval).1
        ((w.clock c').addPeriodic w.now (.handler g) setup.interval).2.2).clock c).alarms := by
      refine mem_alarms_setClock member ?_
      rintro rfl
      exact Schedule.mem_insert.mpr (.inr member)
    exact added

/-- The start of the clock leaves the schedule as it is. -/
theorem alarms_adopted {c' : ClockId} (started : (w.clock c').start = .ok (k, notices)) :
    (((w.adopted g).setClock c' k notices).clock c).alarms = (w.clock c).alarms := by
  rw [clock_setClock]
  split
  · next there => rw [Clock.alarms_start started, there.1]
  · rfl

theorem sound_adopted {c' : ClockId} (started : (w.clock c').start = .ok (k, notices))
    (sound : (w.clock c).Sound) : (((w.adopted g).setClock c' k notices).clock c).Sound := by
  rw [clock_setClock]
  split
  · next there =>
    obtain ⟨rfl, -⟩ := there
    exact (Clock.step_of_start started).sound sound
  · exact sound

theorem mem_alarms_armed {c' : ClockId} (member : a ∈ (w.clock c).alarms) :
    a ∈ ((w.armed g x c').clock c).alarms :=
  mem_alarms_armTimeout member

/-- The second section of a start leaves every alarm scheduled that is: the id that it registers,
and perhaps takes back, is new to the clock. -/
theorem mem_alarms_installs {c' : ClockId} (sound : (w.clock c').Sound)
    (configured : x.timeoutAlarm.isSome = true → x.timeout.isSome = true)
    (installs : Installs w g x c' v) (member : a ∈ (w.clock c).alarms) :
    a ∈ (v.clock c).alarms := by
  cases installs with
  | running _ => exact member
  | launched _ _ => exact mem_alarms_armed member
  | crashed _ _ => exact mem_alarms_armed member
  | refused _ _ =>
    refine mem_alarms_disarmTimeout.mpr ⟨mem_alarms_armed member, ?_⟩
    rintro ⟨registered, same⟩
    obtain rfl := Option.some.inj same
    cases timeout : x.timeout with
    | none =>
      have unset : x.timeoutAlarm.isSome = true := by
        simpa [Handler.armedWith, timeout] using congrArg Option.isSome registered
      simpa [timeout] using configured unset
    | some setup =>
      have same : (w.clock c').nextId = a.id := by
        simpa [Handler.armedWith, timeout] using registered
      exact Nat.lt_irrefl _ (same ▸ sound.ids a member)

/-- A start leaves every alarm scheduled that is. -/
theorem mem_alarms_start (sound : (w.clock (x.clock.getD sharedClock)).Sound)
    (configured : x.timeoutAlarm.isSome = true → x.timeout.isSome = true)
    (found : w.find? g = some x) (member : a ∈ (w.clock c).alarms) :
    a ∈ ((w.start g x).1.clock c).alarms := by
  have started := starts found
  generalize (w.start g x).1 = w' at started
  cases started with
  | failed _ => exact member
  | opened started installs =>
    have configured : x.adopt.timeoutAlarm.isSome = true → x.adopt.timeout.isSome = true :=
      configured
    refine mem_alarms_installs (sound_adopted started sound) configured installs ?_
    rwa [alarms_adopted started]

/-! ## Calls -/

/-- A stop of `h` would remove the alarm `id` from clock `c`: the handler runs, it has registered
this id, and this is the clock that it has now. -/
def Drops (w : World π) (h : HandlerId) (c : ClockId) (id : AlarmId) : Prop :=
  ∃ x, w.find? h = some x ∧ x.isRunning = true ∧ x.timeoutAlarm = some id ∧ x.clock = some c

theorem drops_iff {id : AlarmId} (found : w.find? h = some x) : w.Drops h c id ↔
    x.isRunning = true ∧ x.timeoutAlarm = some id ∧ x.clock = some c := by
  constructor
  · rintro ⟨y, found', drops⟩
    obtain rfl := Option.some.inj (found.symm.trans found')
    exact drops
  · exact fun drops => ⟨x, found, drops⟩

theorem Drops.of_still {id : AlarmId} (still : Still h v w) (drops : v.Drops h c id) :
    w.Drops h c id := by
  obtain ⟨x, found, running, registered, clock⟩ := drops
  obtain ⟨y, found', same⟩ := still.find? found
  rw [← x.isRunning_outline, ← same, y.isRunning_outline] at running
  rw [← x.timeoutAlarm_outline, ← same, y.timeoutAlarm_outline] at registered
  rw [← x.clock_outline, ← same, y.clock_outline] at clock
  exact ⟨y, found', running, registered, clock⟩

theorem mem_alarms_withHandler {f : Handler π → World π × Progress}
    (acts : ∀ x, w.find? h = some x →
      (a ∈ ((f x).1.clock c).alarms ↔ a ∈ (w.clock c).alarms ∧ ¬ w.Drops h c a.id)) :
    a ∈ ((w.withHandler h f).1.clock c).alarms ↔
      a ∈ (w.clock c).alarms ∧ ¬ w.Drops h c a.id := by
  unfold withHandler
  split
  · next x found => exact acts x found
  · next missing =>
    refine (and_iff_left ?_).symm
    rintro ⟨x, found, -⟩
    cases missing.symm.trans found

theorem mem_alarms_stop (who : Caller) : a ∈ ((w.perform who (.stop h)).1.clock c).alarms ↔
    a ∈ (w.clock c).alarms ∧ ¬ w.Drops h c a.id := by
  refine mem_alarms_withHandler fun x found => ?_
  have requested := mem_alarms_requestStop (w := w) (g := h) (x := x) (a := a) (c := c) who false
  rw [drops_iff found, ← requested]
  split <;> next answered => rw [answered]

theorem mem_alarms_destroy (who : Caller) : a ∈ ((w.perform who (.destroy h)).1.clock c).alarms ↔
    a ∈ (w.clock c).alarms ∧ ¬ w.Drops h c a.id := by
  refine mem_alarms_withHandler fun x found => ?_
  have requested := mem_alarms_requestStop (w := w) (g := h) (x := x) (a := a) (c := c) who true
  rw [drops_iff found, ← requested]
  split
  · next answered => rw [answered]
  · next answered =>
    rw [answered, Prod.map_fst, id, clock_congr (clocks_concludeDestroy ..)]

theorem Calls.mem_alarms {action : Action π} (calls : Calls action v w) (calm : action ≠ .panic)
    (performed : ∀ (t : World π) who, (a ∈ ((t.perform who action).1.clock c).alarms ↔
      a ∈ (t.clock c).alarms ∧ ¬ t.Drops h c a.id)) :
    a ∈ (w.clock c).alarms ↔ a ∈ (v.clock c).alarms ∧ ¬ v.Drops h c a.id := by
  obtain ⟨t, who, before, after⟩ := calls.calm calm
  have drops : t.Drops h c a.id ↔ v.Drops h c a.id :=
    ⟨.of_still (before.still h).symm, .of_still (before.still h)⟩
  rw [← drops, after.clock, performed, before.clock]

theorem Calls.mem_alarms_start (reach : Reachable v) (calls : Calls (.start h) v w)
    (scheduled : a ∈ (v.clock c).alarms) : a ∈ (w.clock c).alarms := by
  obtain ⟨t, who, before, after⟩ := calls.calm nofun
  have scheduled : a ∈ (t.clock c).alarms := by rwa [before.clock]
  rw [after.clock]
  simp only [perform, withHandler]
  split
  · next x found =>
    obtain ⟨y, found', same⟩ := (before.still h).symm.find? found
    have sound : (t.clock (x.clock.getD sharedClock)).Sound := by
      rw [before.clock]
      exact reach.sound _
    refine World.mem_alarms_start sound (fun registered => ?_) found scheduled
    rw [← x.timeout_outline, ← same, y.timeout_outline]
    rw [← x.timeoutAlarm_outline, ← same, y.timeoutAlarm_outline] at registered
    exact configured_of_registered reach (find?_eq_some.mp found').1 registered
  · exact scheduled

/-! ## Handlers that keep their clock -/

/-- A step in which `h` keeps the clock that it has, if it has registered an alarm, while no start
of it is in progress on another clock. -/
structure KeepsClock (h : HandlerId) (v w : World π) : Prop where
  step : Next v w
  clock : ∀ x y, v.handlers[h]? = some x → w.handlers[h]? = some y →
    x.timeoutAlarm.isSome = true → y.clock = x.clock
  onClock : ∀ x, v.handlers[h]? = some x → x.OnClock

/-- The alarm that `h` has registered is its own, on the clock that it has now. -/
def Owned (h : HandlerId) (w : World π) : Prop :=
  ∀ id c, w.bond? h = some (some id, some c) → c < w.clocks.length →
    (w.clock c).Owns id (.handler h)

theorem clock_armTimeout {setup : TimeoutSetup π} (configured : x.timeout = some setup)
    (there : c < w.clocks.length) : (w.armTimeout g x c).clock c =
      ((w.clock c).addPeriodic w.now (.handler g) setup.interval).1 := by
  have added (notices : List ClockNotice) : (w.setClock c
      ((w.clock c).addPeriodic w.now (.handler g) setup.interval).1 notices).clock c = _ :=
    (clock_setClock ..).trans (if_pos ⟨rfl, there⟩)
  rw [armTimeout, configured]
  exact added []

theorem clock_armed {setup : TimeoutSetup π} (configured : x.timeout = some setup)
    (there : c < w.clocks.length) : (w.armed g x c).clock c =
      ((w.clock c).addPeriodic w.now (.handler g) setup.interval).1 :=
  clock_armTimeout configured there

/-- The alarm that is added next has an owner of its own. -/
theorem owns_armed {setup : TimeoutSetup π} (configured : x.timeout = some setup)
    (sound : (w.clock c).Sound) (there : c < w.clocks.length) :
    ((w.armed g x c).clock c).Owns (w.clock c).nextId (.handler g) := by
  rw [clock_armed configured there]
  refine ⟨Nat.lt_succ_self _, fun a member same => ?_⟩
  rcases Schedule.mem_insert.mp member with rfl | member
  · rfl
  · exact absurd (same ▸ sound.ids a member) (Nat.lt_irrefl _)

theorem bond?_armed (hx : w.handlers[g]? = some x) : (w.armed g x c).bond? g =
    some ((x.timeout.map fun _ => (w.clock c).nextId).or x.timeoutAlarm, x.clock) := by
  simp [bond?, handlers_armed hx, Handler.bond, Handler.armedWith, Handler.prepare]

/-- The second section of a start gives the handler an alarm that no one else has, or leaves it with
what it had. -/
theorem registered_installs {c' : Option ClockId} (sound : (w.clock c).Sound)
    (hx : w.handlers[g]? = some x) (installs : Installs w g x c v) {id : AlarmId}
    (bond : v.bond? g = some (some id, c')) : c' = x.clock ∧ (x.timeoutAlarm = some id ∨
      (c < w.clocks.length → (v.clock c).Owns id (.handler g))) := by
  have armed : (w.armed g x c).bond? g = some (some id, c') → c' = x.clock ∧
      (x.timeoutAlarm = some id ∨
        (c < w.clocks.length → ((w.armed g x c).clock c).Owns id (.handler g))) := by
    intro bond
    rw [bond?_armed hx, Option.some.injEq, Prod.mk.injEq] at bond
    obtain ⟨registered, same⟩ := bond
    refine ⟨same.symm, ?_⟩
    cases configured : x.timeout with
    | none => exact .inl (by simpa [configured] using registered)
    | some setup =>
      have id_eq : (w.clock c).nextId = id := by simpa [configured] using registered
      exact .inr fun there => id_eq ▸ owns_armed configured sound there
  cases installs with
  | running _ =>
    rw [bond?_eq hx, Handler.bond, Option.some.injEq, Prod.mk.injEq] at bond
    exact ⟨bond.2.symm, .inl bond.1⟩
  | launched _ _ =>
    have kept : (((w.armed g x c).modify g Handler.launch).note (.started g)).bond? g =
        (w.armed g x c).bond? g := bond?_modify fun _ => rfl
    exact armed (kept.symm.trans bond)
  | refused _ _ =>
    have disarmed := handlers_disarmTimeout (c := some c) (handlers_armed hx c)
    rw [bond?_eq (by rw [handlers_note]; exact disarmed)] at bond
    simp [Handler.bond] at bond
  | crashed _ _ => exact armed bond

/-- A start gives the handler an alarm that no one else has, or leaves it with what it had. -/
theorem registered_start (sound : (w.clock (x.clock.getD sharedClock)).Sound)
    (found : w.find? g = some x) {id : AlarmId}
    (bond : (w.start g x).1.bond? g = some (some id, some c)) :
    x.timeoutAlarm = some id ∨
      (c < w.clocks.length → ((w.start g x).1.clock c).Owns id (.handler g)) := by
  have hx := (find?_eq_some.mp (find?_adopted found)).1
  have started := starts found
  generalize (w.start g x).1 = w' at started bond
  cases started with
  | failed _ =>
    rw [bond?_eq hx, Handler.bond, Option.some.injEq, Prod.mk.injEq] at bond
    exact .inl bond.1
  | opened started installs =>
    obtain ⟨same, registered⟩ := registered_installs (sound_adopted started sound) hx installs bond
    obtain rfl := Option.some.inj same
    exact registered.imp_right fun owns there => owns (by simpa [World.adopted] using there)

theorem Calm.bond?_of_registered {t : World π} {id : AlarmId} (calm : Calm v t)
    (found : t.find? h = some x) (registered : x.timeoutAlarm = some id) :
    v.bond? h = some (some id, x.clock) := by
  rw [← (calm.still h).bond?, bond?_eq (find?_eq_some.mp found).1, Handler.bond, registered]

/-- Where no start is in progress on another clock, what a step leaves a handler to know of its
alarm is what it knew, or nothing, or the alarm that a start has just added to the clock that it has
now. -/
theorem registered_cases (reach : Reachable v) (step : Next v w)
    (onClock : ∀ x, v.handlers[h]? = some x → x.OnClock) {id : AlarmId}
    (bond : w.bond? h = some (some id, some c)) :
    (∃ c', v.bond? h = some (some id, c')) ∨
      (c < w.clocks.length → (w.clock c).Owns id (.handler h)) := by
  cases step.concerns h with
  | others same _ => exact .inl ⟨some c, same ▸ bond⟩
  | @start t x before found after =>
    have sound : (t.clock (x.clock.getD sharedClock)).Sound := by
      rw [before.clock]
      exact reach.sound _
    rcases registered_start sound found ((after.still h).bond?.symm.trans bond) with kept | owns
    · exact .inl ⟨x.clock, before.bond?_of_registered found kept⟩
    · refine .inr fun there => ?_
      rw [after.clock]
      refine owns ?_
      rwa [after.clocks, (ticks_start found).length] at there
  | @beginStart t x k notices before found started after =>
    have adopted : (((t.adopted h).setClock (x.clock.getD sharedClock) k notices).modify h
        (·.opened (x.clock.getD sharedClock))).bond? h =
          some (x.timeoutAlarm, some (x.clock.getD sharedClock)) := by
      simp [bond?, World.adopted, (find?_eq_some.mp found).1, Handler.bond, Handler.adopt,
        Handler.opened]
    rw [(after.still h).bond?, adopted, Option.some.injEq, Prod.mk.injEq] at bond
    exact .inl ⟨x.clock, before.bond?_of_registered found bond.1⟩
  | @endStart t x c' before found member after =>
    have entered := find?_entered found c'
    have sound : ((t.modify h (·.entered c')).clock c').Sound := by
      rw [clock_modify, before.clock]
      exact reach.sound _
    have here : x.clock = some c' := by
      obtain ⟨y, found', outlined⟩ := (before.still h).symm.find? found
      have starts : y.outline.starts = x.outline.starts := congrArg Handler.starts outlined
      have clock : y.outline.clock = x.outline.clock := congrArg Handler.clock outlined
      exact clock ▸ onClock y (find?_eq_some.mp found').1 c' (starts ▸ member)
    obtain ⟨same, registered⟩ := registered_installs sound (find?_eq_some.mp entered).1
      (installs entered c') ((after.still h).bond?.symm.trans bond)
    obtain rfl : c = c' := Option.some.inj (same.trans here)
    rcases registered with kept | owns
    · exact .inl ⟨x.clock, before.bond?_of_registered found kept⟩
    · refine .inr fun there => ?_
      rw [after.clock]
      refine owns ?_
      rwa [after.clocks, (ticks_endStart found).length] at there
  | @stop t who x destroys before found running after =>
    have gone := find?_requestStop found running who destroys
    rw [(after.still h).bond?, bond?_eq (find?_eq_some.mp gone).1] at bond
    simp [Handler.bond, Handler.stopRequest, Handler.requestStop] at bond
  | @setClock t x c' before found after =>
    have given : (t.modify h ({ · with clock := some c' })).bond? h =
        some (x.timeoutAlarm, some c') := by
      simp [bond?, (find?_eq_some.mp found).1, Handler.bond]
    rw [(after.still h).bond?, given, Option.some.injEq, Prod.mk.injEq] at bond
    exact .inl ⟨x.clock, before.bond?_of_registered found bond.1⟩

theorem Owned.next (reach : Reachable v) (owned : Owned h v) (step : KeepsClock h v w) :
    Owned h w := by
  intro id c bond there
  rcases registered_cases reach step.step step.onClock bond with ⟨c', before⟩ | owns
  · obtain ⟨x, hx, bond_x⟩ := Option.map_eq_some_iff.mp before
    obtain ⟨y, hy, bond_y⟩ := Option.map_eq_some_iff.mp bond
    obtain ⟨registered, -⟩ := Prod.mk.inj bond_x
    have kept : y.clock = x.clock := step.clock x y hx hy (by rw [registered]; rfl)
    obtain ⟨-, clock_y⟩ := Prod.mk.inj bond_y
    have before : v.bond? h = some (some id, some c) := by
      rw [bond?_eq hx, Handler.bond, registered, ← kept, clock_y]
    exact (step.1.ticks.steps c).owns (owned id c before (step.1.ticks.length ▸ there))
  · exact owns there

theorem owned_of_keepsClock {w₀ : World π} (fresh : Fresh w₀)
    (run : Relation.ReflTransGen (KeepsClock h) w₀ w) : Owned h w := by
  suffices Reachable w ∧ Owned h w from this.2
  induction run with
  | refl =>
    refine ⟨fresh.reachable, fun id c bond _ => ?_⟩
    obtain ⟨x, hx, same⟩ := Option.map_eq_some_iff.mp bond
    obtain ⟨_, _, _, _, _, _, rfl⟩ := fresh.handlers x (List.mem_of_getElem? hx)
    cases (Prod.mk.inj same).1
  | tail _ step ih => exact ⟨ih.1.next step.1, ih.2.next ih.1 step⟩

/-- A start of `h` leaves every foreign alarm scheduled, whoever calls it, and however late it goes
through its second section. A stop or a destruction of `h` does so unless the handler runs and has
registered the alarm's id, perhaps on another clock than it has now. What follows the call, the end
of the waiting and the exit of the worker, touches no clock. If `h` keeps its clock while it has an
alarm, and while a start is in progress, no foreign alarm is ever removed. -/
theorem foreign_alarm_kept_iff (reach : Reachable v) (scheduled : a ∈ (v.clock c).alarms)
    (foreign : a.callback ≠ .handler h) :
    (∀ w, Calls (.start h) v w → a ∈ (w.clock c).alarms) ∧
    (∀ x c', v.find? h = some x → c' ∈ x.starts →
      a ∈ (((v.modify h (·.entered c')).endStart h c').1.clock c).alarms) ∧
    (∀ w, Calls (.stop h) v w → (a ∈ (w.clock c).alarms ↔ ¬ v.Drops h c a.id)) ∧
    (∀ w, Calls (.destroy h) v w → (a ∈ (w.clock c).alarms ↔ ¬ v.Drops h c a.id)) ∧
    (∀ pause w reply, v.pauseEnd? pause = some (w, reply) → w.clocks = v.clocks) ∧
    (∀ x, (v.leave h x).clocks = v.clocks) ∧
    ∀ w₀, Fresh w₀ → Relation.ReflTransGen (KeepsClock h) w₀ v → ¬ v.Drops h c a.id := by
  refine ⟨?_, ?_, ?_, ?_, ?_, ?_, ?_⟩
  · intro w calls
    exact calls.mem_alarms_start reach scheduled
  · intro x c' found _
    have sound : ((v.modify h (·.entered c')).clock c').Sound := reach.sound c'
    have configured : x.timeoutAlarm.isSome = true → x.timeout.isSome = true :=
      configured_of_registered reach (find?_eq_some.mp found).1
    have installs := installs (find?_entered found c') c'
    exact mem_alarms_installs sound (x := x.entered c') configured installs scheduled
  · intro w calls
    rw [calls.mem_alarms nofun fun t who => mem_alarms_stop who]
    exact and_iff_right scheduled
  · intro w calls
    rw [calls.mem_alarms nofun fun t who => mem_alarms_destroy who]
    exact and_iff_right scheduled
  · intro pause w reply ended
    rcases pauseEnd?_cases ended with rfl | ⟨g, rfl⟩
    · rfl
    · exact clocks_concludeDestroy ..
  · intro x
    exact (Aside.leave (g := h) (x := x) .refl).clocks
  · rintro w₀ fresh run ⟨x, found, -, registered, clock_x⟩
    have bond : v.bond? h = some (some a.id, some c) := by
      rw [bond?_eq (find?_eq_some.mp found).1, Handler.bond, registered, clock_x]
    exact foreign ((owned_of_keepsClock fresh run _ c bond (lt_length_of_mem scheduled)).2 a
      scheduled rfl)

/-- Two handlers with a timeout, each with a clock of its own. The first is given the clock of the
second, where the alarm of the second has the id that the first has registered. -/
theorem foreign_alarm_dropped :
    let w₀ : World Nat := {
      clocks := [{}, {}]
      handlers := [{ config := { name := "a" }, types := .ofList [], clock := some 0 },
        { config := { name := "b" }, types := .ofList [], clock := some 1 }] }
    let w := w₀.steps 20 [.act (.setTimeout 0 (.ofParts 1 0) 0 []),
      .act (.setTimeout 1 (.ofParts 2 0) 0 []), .act (.start 0), .act (.start 1),
      .act (.setClock 0 1)]
    let a : Alarm AlarmOwner := ⟨1, .ofParts 2 0, some (.ofParts 2 0), .handler 1⟩
    a ∈ (w.clock 1).alarms ∧ a ∉ ((w.perform .outside (.stop 0)).1.clock 1).alarms := by
  intro w₀ w a
  have fresh : Fresh w₀ := by
    refine fresh_of_handlers 2 0 fun x hx => ?_
    simp only [List.mem_cons, List.not_mem_nil, or_false] at hx
    rcases hx with rfl | rfl <;> exact ⟨_, _, _, _, _, _, rfl⟩
  have scheduled : a ∈ (w.clock 1).alarms := by decide +kernel
  have reach : Reachable w := fresh.reachable.steps 20 _
  have kept := (foreign_alarm_kept_iff reach scheduled (h := 0) (by decide)).2.2.1 _ (.outside w)
  have bond : (w.find? 0).map (fun x => (x.isRunning, x.bond)) = some (true, some 1, some 1) := by
    decide +kernel
  obtain ⟨x, found, same⟩ := Option.map_eq_some_iff.mp bond
  obtain ⟨running, bond_x⟩ := Prod.mk.inj same
  obtain ⟨registered, clock_x⟩ := Prod.mk.inj bond_x
  exact ⟨scheduled, fun still => kept.mp still ⟨x, found, running, registered, clock_x⟩⟩

end World
end EventEngine
