import EventEngine.Proofs.Registrations
import Mathlib.Algebra.BigOperators.Group.Finset.Basic

/-!
# One alarm for each running handler

As long as no dispatcher and no making of a worker panics, a handler keeps its clock while it runs
or is being started, and nobody else removes its alarm, the two halves of a registration match, that
of the handler and that of the clock. So there is one alarm for each handler that was started with a
timeout and has not been asked to stop, and none for the others. Each of these conditions is needed.
-/
namespace EventEngine

variable {π : Type} {h : HandlerId}

namespace Handler

variable {x x' : Handler π} {notes : List (Occurrence π)}

/-- The worker is there, and no stop is pending on it. -/
def isServing (x : Handler π) : Bool := x.isRunning && !x.stopRequested

theorem isServing_iff : x.isServing = true ↔ x.isRunning = true ∧ x.stopRequested = false := by
  simp [isServing]

@[simp] theorem isServing_exit (x : Handler π) : x.exit.isServing = false := by
  simp [isServing]

/-- A handler that serves has done so with the same alarm since its worker was started. -/
theorem Turn.alarm_kept (turn : Turn h x notes x')
    (unlaunched : notes.countP Occurrence.isLaunch = 0) (serves : x'.isServing = true) :
    x.isServing = true ∧ x'.timeoutAlarm = x.timeoutAlarm := by
  obtain ⟨running, unasked⟩ := isServing_iff.mp serves
  cases turn with
  | enqueue place body _ => cases place <;> exact ⟨serves, rfl⟩
  | start id _ _ => simp [Occurrence.isLaunch] at unlaunched
  | crash id _ _ => simp [Occurrence.isLaunch] at unlaunched
  | @refuse clock starts idle _ =>
    have stopped : ({ x with clock, starts } : Handler π).startRefused.isRunning = false := by
      simp [startRefused, prepare, isRunning, idle]
    simp [stopped] at running
  | requestStop _ => cases unasked
  | take record rest atWork _ =>
    exact ⟨isServing_iff.mpr ⟨by simp [isRunning, atWork], unasked⟩, rfl⟩
  | «begin» record since atWork =>
    exact ⟨isServing_iff.mpr ⟨by simp [isRunning, atWork], unasked⟩, rfl⟩
  | finish record since elapsed atWork =>
    exact ⟨isServing_iff.mpr ⟨by simp [isRunning, atWork], unasked⟩, rfl⟩
  | panic _ _ _ => simp at serves
  | leave _ _ => simp at serves
  | _ => exact ⟨serves, rfl⟩

/-- A worker is started with an alarm if the handler has a timeout. -/
theorem Turn.alarm_started (turn : Turn h x notes x')
    (launched : notes.countP Occurrence.isLaunch ≠ 0)
    (calm : notes.countP Occurrence.isCrash = 0) :
    x.worker = none ∧ x'.timeoutAlarm.isSome = (x.timeout.isSome || x.timeoutAlarm.isSome) := by
  cases turn with
  | start id idle _ =>
    refine ⟨idle, ?_⟩
    simp only [startedWith, launch, armedWith, prepare]
    cases x.timeout <;> rfl
  | crash id _ _ => simp [Occurrence.isCrash] at calm
  | panic record since _ => simp [List.countP_append, Occurrence.isCrash] at calm
  | leave _ _ =>
    exact absurd countP_isLaunch_exitStory launched
  | _ => exact absurd rfl launched

theorem Turn.onClock (turn : Turn h x notes x') (keeps : x.starts ≠ [] → x'.clock = x.clock)
    (onClock : x.OnClock) : x'.OnClock := by
  have entered : ∀ {clock starts}, x.Enters clock starts →
      ({ x with clock, starts } : Handler π).OnClock := by
    intro clock starts enters c member
    cases enters with
    | atOnce =>
      have clock : x.clock = some c := onClock c member
      exact congrArg (some <| ·.getD sharedClock) clock
    | later _ => exact onClock c (List.mem_of_mem_erase member)
  cases turn with
  | enqueue place body _ => cases place <;> exact onClock
  | setClock c =>
    intro c' member
    exact (keeps (List.ne_nil_of_mem member)).trans (onClock c' member)
  | beginStart =>
    intro c member
    rcases List.mem_cons.mp member with rfl | earlier
    · rfl
    · have clock : x.clock = some c := onClock c earlier
      exact congrArg (some <| ·.getD sharedClock) clock
  | skipStart _ _ => exact fun c member => onClock c (List.mem_of_mem_erase member)
  | start id _ enters => exact entered enters
  | refuse _ enters => exact entered enters
  | crash id _ enters => exact entered enters
  | panic _ _ _ => intro c member; simpa using onClock c (by simpa using member)
  | leave _ _ => intro c member; simpa using onClock c (by simpa using member)
  | _ => exact onClock

end Handler

/-- A periodic alarm stays scheduled when a thread moves, at most at a later deadline. -/
theorem Clock.move_keeps {α : Type} {k : Clock α} {now : Instant} {t : Timer α} {a : Alarm α}
    (member : a ∈ k.alarms) (periodic : a.period.isSome = true) :
    ∃ b ∈ (k.move now t).1.alarms, a.Leads b := by
  have moved := Clock.move_cases k now t
  generalize k.move now t = result at moved
  cases moved with
  | take _ _ _ =>
    rw [← Schedule.due_append_late now k.alarms] at member
    obtain ⟨period, hperiod⟩ := Option.isSome_iff_exists.mp periodic
    rcases List.mem_append.mp member with due | late
    · exact ⟨_, Schedule.mem_afterTaking.mpr (.inr ⟨a, due, period, hperiod, rfl⟩),
        .inr ⟨now, period, hperiod, rfl⟩⟩
    · exact ⟨a, Schedule.mem_afterTaking.mpr (.inl late), .inl rfl⟩
  | _ => exact ⟨a, member, .inl rfl⟩

namespace World

variable {g : HandlerId} {c : ClockId} {id : AlarmId} {u v w : World π} {x : Handler π}
  {a : Alarm AlarmOwner} {k : Clock AlarmOwner} {notices : List ClockNotice}

/-! ## Steady and orderly runs -/

/-- A step in which no dispatcher panics and a handler that has a worker keeps its clock. Every
handler's clock exists. -/
structure Steady (v w : World π) : Prop where
  next : Next v w
  calm : ∀ h, w.panics h = v.panics h
  keeps : ∀ (h : HandlerId) (x y : Handler π), v.handlers[h]? = some x → w.handlers[h]? = some y →
    x.isRunning = true → y.clock = x.clock
  wired : w.Wired

/-- A steady step in which the making of a worker does not panic either, a handler that is being
started keeps its clock, and nobody but a handler removes the alarm of a handler. -/
structure Orderly (v w : World π) : Prop extends Steady v w where
  unbroken : ∀ h, w.crashes h = v.crashes h
  stays : ∀ (h : HandlerId) (x y : Handler π), v.handlers[h]? = some x → w.handlers[h]? = some y →
    x.starts ≠ [] → y.clock = x.clock
  spares : ∀ c id h, v.Holds c id h → w ≠ v.removeAlarm c id

theorem holds_moveTimer {c' : ClockId} (reach : Reachable v) {generation : Nat}
    (moved : v.moveTimer c' generation = some w) :
    w.Holds c id h ↔ v.Holds c id h := by
  obtain ⟨t, ready, rfl⟩ := moveTimer_eq_some.mp moved
  have ticks : (v.ticked c' t).Holds c id h ↔ v.Holds c id h := by
    unfold Holds ticked
    simp only [clock_setClock]
    split
    · next there =>
      obtain ⟨rfl, -⟩ := there
      constructor
      · rintro ⟨b, member, rfl, callback⟩
        have step : Clock.Step Clock.NoAlarm (v.clock c') ((v.clock c').move v.now t).1 :=
          .move v.now (Clock.thread?_eq_some ready).1
        rcases step.alarms member with ⟨a, earlier, leads⟩ | ⟨added, -⟩
        · exact ⟨a, earlier, leads.id.symm, leads.callback.symm.trans callback⟩
        · exact added.elim
      · rintro ⟨a, member, rfl, callback⟩
        have kept : ∃ b ∈ ((v.clock c').move v.now t).1.alarms, a.Leads b :=
          Clock.move_keeps member (reach.periodic member callback)
        obtain ⟨b, later, leads⟩ := kept
        exact ⟨b, later, leads.id, leads.callback.trans callback⟩
    · rfl
  cases ((v.clock c').move v.now t).2.1 with
  | none => exact ticks
  | some f =>
    refine Iff.trans (holds_congr fun a => ?_) ticks
    rw [Option.map_some, Option.getD_some, clock_congr (clocks_deliver ..)]

/-- What someone who is no handler does with a clock leaves the alarms of handlers alone, but for a
removal. -/
theorem holds_used {c' : ClockId} (used : Used v.now (v.clock c') k notices)
    (spares : ∀ id h, v.Holds c' id h → v.setClock c' k notices ≠ v.removeAlarm c' id) :
    (v.setClock c' k notices).Holds c id h ↔ v.Holds c id h := by
  unfold Holds
  simp only [clock_setClock]
  split
  · next there =>
    obtain ⟨rfl, -⟩ := there
    cases used with
    | start started => rw [Clock.alarms_start started]
    | stop => obtain ⟨-, same⟩ | ⟨-, same⟩ := Clock.stop_cases (v.clock c') <;> rw [same]
    | addOnce deadline =>
      simp only [Clock.addOnce, Clock.add, Schedule.mem_insert]
      constructor
      · rintro ⟨a, rfl | member, rfl, callback⟩
        · cases callback
        · exact ⟨a, member, rfl, callback⟩
      · rintro ⟨a, member, rfl, callback⟩
        exact ⟨a, .inr member, rfl, callback⟩
    | addPeriodic period =>
      simp only [Clock.addPeriodic, Clock.add, Schedule.mem_insert]
      constructor
      · rintro ⟨a, rfl | member, rfl, callback⟩
        · cases callback
        · exact ⟨a, member, rfl, callback⟩
      · rintro ⟨a, member, rfl, callback⟩
        exact ⟨a, .inr member, rfl, callback⟩
    | remove gone =>
      simp only [Clock.mem_alarms_remove]
      constructor
      · rintro ⟨a, ⟨member, -⟩, rfl, callback⟩
        exact ⟨a, member, rfl, callback⟩
      · rintro ⟨a, member, rfl, callback⟩
        refine ⟨a, ⟨member, ?_⟩, rfl, callback⟩
        rintro rfl
        exact spares a.id h ⟨a, member, rfl, callback⟩ rfl
    | panic generation => rfl
  · rfl

/-- Every start in progress is on the clock that its handler has. -/
def Settling (w : World π) : Prop := ∀ x ∈ w.handlers, x.OnClock

theorem Settling.next (settling : v.Settling) (step : Orderly v w) : w.Settling := by
  intro y member
  obtain ⟨h, there, hy⟩ := List.getElem_of_mem member
  have hy : w.handlers[h]? = some y := by simp [there, hy]
  have outlined : w.outline? h = some y.outline := outline?_eq_some.mpr ⟨y, hy, rfl⟩
  have before : ∀ {x}, v.outline? h = some x → x.OnClock ∧ ∃ x', v.handlers[h]? = some x' ∧
      x'.outline = x := by
    intro x outlined
    obtain ⟨x', hx', same⟩ := outline?_eq_some.mp outlined
    exact ⟨same ▸ settling x' (List.mem_of_getElem? hx'), x', hx', same⟩
  have after : y.outline.OnClock := by
    rcases step.next.evolves h with still | ⟨x, notes, x', outlined₀, turn, outlined', -⟩
    · exact (before (still.1.symm.trans outlined)).1
    · obtain ⟨onClock, x₀, hx, same⟩ := before outlined₀
      obtain rfl := Option.some.inj (outlined'.symm.trans outlined)
      refine turn.onClock (fun pending => ?_) onClock
      subst same
      exact step.stays h x₀ y hx hy pending
  exact after

theorem Calm.outlined {t : World π} (calm : Calm v t) (found : t.find? g = some x) :
    ∃ y, v.handlers[g]? = some y ∧ y.outline = x.outline := by
  obtain ⟨y, found', same⟩ := (calm.still g).symm.find? found
  exact ⟨y, (find?_eq_some.mp found').1, same⟩

theorem Calm.unregistered {t : World π} (before : Calm v t) (reach : Reachable v)
    (calm : v.crashes g = 0) (found : t.find? g = some x) (idle : x.worker = none) :
    x.timeoutAlarm = none := by
  obtain ⟨y, hy, same⟩ := before.outlined found
  have running : y.isRunning = x.isRunning := by
    rw [← y.isRunning_outline, same, x.isRunning_outline]
  have vacant : y.worker = none := by simpa [Handler.isRunning, idle] using running
  have alarm : y.timeoutAlarm = x.timeoutAlarm := congrArg (·.timeoutAlarm) same
  exact alarm.symm.trans (unregistered_of_idle reach calm hy vacant)

theorem Calm.clocked {t : World π} (before : Calm v t) (reach : Reachable v)
    (found : t.find? g = some x) : x.Clocked := by
  obtain ⟨y, hy, same⟩ := before.outlined found
  rw [← Handler.clocked_outline, ← same, Handler.clocked_outline]
  exact clocked_of_reachable reach hy

/-- A handler that is given a clock by an orderly step has no worker, or had this clock already. -/
theorem Steady.given {t : World π} (step : Steady v w) (before : Calm v t)
    (found : t.find? g = some x) (after : Calm (t.modify g ({ · with clock := some c })) w)
    (working : x.worker.isSome = true) : x.clock = some c := by
  obtain ⟨y, hy, same⟩ := before.outlined found
  have clock : y.outline.clock = x.outline.clock := congrArg Handler.clock same
  obtain ⟨hx, alive⟩ := find?_eq_some.mp found
  have given : (t.modify g ({ · with clock := some c })).find? g =
      some { x with clock := some c } := find?_eq_some.mpr ⟨by simp [hx], alive⟩
  obtain ⟨z, hz, outlined⟩ := (after.still g).find? given
  have given : z.outline.clock = some c := congrArg Handler.clock outlined
  have running : y.isRunning = true := by
    rw [← y.isRunning_outline, same, x.isRunning_outline]
    exact working
  have kept := step.keeps g y z hy (find?_eq_some.mp hz).1 running
  exact clock.symm.trans (kept.symm.trans given)

/-- An orderly step keeps the two halves together. -/
theorem Matched.next (matched : v.Matched) (reach : Reachable v) (wired : v.Wired)
    (settling : v.Settling) (calm : ∀ h, v.crashes h = 0) (step : Orderly v w) : w.Matched := by
  have sound : ∀ {t : World π} (c : ClockId), Calm v t → (t.clock c).Sound := by
    intro t c before
    rw [before.clock]
    exact reach.sound c
  cases step.next.use with
  | act act =>
    cases act with
    | aside aside =>
      exact matched.congr (fun _ _ _ => holds_congr fun _ => by rw [clock_congr aside.clocks])
        aside.bonds
    | @start t g x before found after =>
      have there := (before.wired wired).lt (find?_eq_some.mp found).1
      exact after.matched ((before.matched matched).start (sound _ before) found there
        (before.clocked reach found) (before.unregistered reach (calm g) found))
    | @beginStart t g x k notices before found started after =>
      have opened := (before.matched matched).opened (find?_eq_some.mp found).1
        (before.clocked reach found) started
      exact after.matched (opened.congr (fun _ _ _ => Iff.rfl) fun _ => bond?_modify fun _ => rfl)
    | @endStart t g x c before found pending after =>
      obtain ⟨y, hy, same⟩ := before.outlined found
      have clock : y.outline.clock = x.outline.clock := congrArg _ same
      have starts : y.outline.starts = x.outline.starts := congrArg _ same
      have here : x.clock = some c :=
        clock.symm.trans (settling y (List.mem_of_getElem? hy) c (starts.symm ▸ pending))
      have there : c < t.clocks.length := by
        have there := (before.wired wired).lt (find?_eq_some.mp found).1
        rwa [here] at there
      have entered := find?_entered found c
      have matched' : (t.modify g (·.entered c)).Matched :=
        (before.matched matched).congr (fun _ _ _ => Iff.rfl) fun _ => bond?_modify fun _ => rfl
      have sound' : (t.clock c).Sound := sound c before
      have unregistered : x.worker = none → x.timeoutAlarm = none :=
        before.unregistered reach (calm g) found
      exact after.matched (matched'.installs sound' (find?_eq_some.mp entered).1 there here
        unregistered (World.installs entered c))
    | stop before found running after =>
      refine after.matched ((before.matched matched).requestStop ?_ found running _ _)
      intro c a ha b hb same
      rw [before.clock] at ha hb
      exact reach.eq_of_id ha hb same
    | @setClock t g x c before found after =>
      refine after.matched ((before.matched matched).setClock (find?_eq_some.mp found).1 ?_)
      cases working : x.worker with
      | none => exact .inl (before.unregistered reach (calm g) found working)
      | some worker =>
        exact .inr (step.toSteady.given before found after (by rw [working]; rfl))
  | timer moved =>
    exact matched.congr (fun _ _ _ => holds_moveTimer reach moved) fun _ => bond?_moveTimer moved
  | clock used same =>
    subst same
    exact matched.congr (fun _ _ _ => holds_used used fun id h held => step.spares _ id h held)
      fun _ => rfl

def isTimed (w : World π) (h : HandlerId) : Bool := (w.handlers[h]?).any (·.timeout.isSome)

/-- A run of such steps from a fresh world, with whether handler `h` had a timeout configured when
its last worker was started. -/
inductive Course (step : World π → World π → Prop) (h : HandlerId) : World π → Bool → Prop where
  | fresh {w : World π} : Fresh w → w.Wired → Course step h w false
  | next {v w : World π} {timed : Bool} : Course step h v timed → step v w →
      Course step h w (if w.launches h = v.launches h then timed else v.isTimed h)

/-- What holds all along an orderly run. -/
structure Kept (h : HandlerId) (w : World π) (timed : Bool) : Prop where
  reach : Reachable w
  calm : ∀ g, w.crashes g = 0
  wired : w.Wired
  settling : w.Settling
  matched : w.Matched
  armed : ∀ x, w.outline? h = some x → x.isServing = true → x.timeoutAlarm.isSome = timed

theorem Course.kept {timed : Bool} (course : Course Orderly h w timed) : Kept h w timed := by
  induction course with
  | @fresh w fresh wired =>
    refine ⟨fresh.reachable, fun g => by simp [crashes, story, fresh.history], wired, ?_, ?_, ?_⟩
    · intro x member
      obtain ⟨_, _, _, _, _, _, rfl⟩ := fresh.handlers x member
      exact List.forall_mem_nil _
    · intro c id g
      have unregistered : ∀ c, w.bond? g ≠ some (some id, c) := by
        rintro c bond
        obtain ⟨x, hx, same⟩ := Option.map_eq_some_iff.mp bond
        obtain ⟨_, _, _, _, _, _, rfl⟩ := fresh.handlers x (List.mem_of_getElem? hx)
        cases same
      exact iff_of_false (not_holds_of_fresh fresh) (unregistered _)
    · intro x outlined serves
      obtain ⟨y, hy, rfl⟩ := outline?_eq_some.mp outlined
      obtain ⟨_, _, _, _, _, _, rfl⟩ := fresh.handlers y (List.mem_of_getElem? hy)
      cases serves
  | @next v w timed _ step ih =>
    obtain ⟨reach, calm, wired, settling, matched, armed⟩ := ih
    refine ⟨reach.next step.next, fun g => (step.unbroken g).trans (calm g), step.wired,
      settling.next step, matched.next reach wired settling calm step, ?_⟩
    intro x outlined serves
    rcases step.next.evolves h with still | ⟨x₀, notes, x', outlined₀, turn, outlined', told⟩
    · rw [if_pos still.launches]
      exact armed x (still.1.symm.trans outlined) serves
    · obtain rfl := Option.some.inj (outlined'.symm.trans outlined)
      have launched : w.launches h = notes.countP Occurrence.isLaunch + v.launches h := by
        rw [World.launches, told, List.countP_append, World.launches]
      have crashed : w.crashes h = notes.countP Occurrence.isCrash + v.crashes h := by
        rw [World.crashes, told, List.countP_append, World.crashes]
      have unbroken := step.unbroken h
      by_cases unlaunched : notes.countP Occurrence.isLaunch = 0
      · obtain ⟨served, same⟩ := turn.alarm_kept unlaunched serves
        rw [if_pos (by omega), same]
        exact armed x₀ outlined₀ served
      · obtain ⟨idle, same⟩ := turn.alarm_started unlaunched (by omega)
        obtain ⟨y, hy, rfl⟩ := outline?_eq_some.mp outlined₀
        have unregistered : y.timeoutAlarm = none :=
          unregistered_of_idle reach (calm h) hy (by simpa [Handler.outline] using idle)
        rw [if_neg (by omega), same]
        simp [isTimed, hy, unregistered]

/-- Of all alarms on all clocks, the number of those that are of handler `h`. -/
def alarmsOf (w : World π) (h : HandlerId) : Nat :=
  ∑ c ∈ Finset.range w.clocks.length, (w.clock c).alarms.countP (·.callback = .handler h)

theorem alarmsOf_eq_zero (none : ∀ c id, ¬ w.Holds c id h) : w.alarmsOf h = 0 := by
  refine Finset.sum_eq_zero fun c _ => List.countP_eq_zero.mpr fun a member callback => ?_
  exact none c a.id ⟨a, member, rfl, of_decide_eq_true callback⟩

theorem alarmsOf_eq_one (reach : Reachable w)
    (only : ∀ c' id', w.Holds c' id' h ↔ c' = c ∧ id' = id) : w.alarmsOf h = 1 := by
  obtain ⟨a, member, rfl, callback⟩ := (only c id).mpr ⟨rfl, rfl⟩
  have there := lt_length_of_mem member
  rw [alarmsOf, Finset.sum_eq_single_of_mem c (Finset.mem_range.mpr there)]
  · have same : ∀ b ∈ (w.clock c).alarms,
        (decide (b.callback = .handler h) = true ↔ (b == a) = true) := by
      intro b hb
      rw [decide_eq_true_eq, beq_iff_eq]
      constructor
      · intro own
        obtain ⟨-, id⟩ := (only c b.id).mp ⟨b, hb, rfl, own⟩
        exact reach.eq_of_id hb member id
      · rintro rfl
        exact callback
    rw [List.countP_congr same]
    have distinct : (w.clock c).alarms.Nodup := .of_map _ (reach.timeline there).ordered.distinct
    exact List.count_eq_one_of_mem distinct member
  · intro c' _ ne
    refine List.countP_eq_zero.mpr fun b hb own => ne ?_
    exact ((only c' b.id).mp ⟨b, hb, rfl, of_decide_eq_true own⟩).1

/-- A handler has registered an alarm just if it runs, no stop is pending on it and it had a timeout
configured when its worker was started. -/
theorem Kept.registered_iff {timed : Bool} (kept : Kept h w timed) (hx : w.handlers[h]? = some x) :
    x.timeoutAlarm.isSome = true ↔
      x.isRunning = true ∧ x.stopRequested = false ∧ timed = true := by
  have outlined : w.outline? h = some x.outline := outline?_eq_some.mpr ⟨x, hx, rfl⟩
  constructor
  · intro registered
    have running : x.isRunning = true := by
      cases working : x.worker with
      | none =>
        rw [unregistered_of_idle kept.reach (kept.calm h) hx working] at registered
        cases registered
      | some worker => simp [Handler.isRunning, working]
    have unasked : x.stopRequested = false := by
      refine (Bool.not_eq_true _).mp fun asked => ?_
      have gone : x.timeoutAlarm = none :=
        (kept.reach.disarmed outlined).requested (x.isRunning_outline.trans running) asked
      rw [gone] at registered
      cases registered
    have armed := kept.armed x.outline outlined
      (Handler.isServing_iff.mpr ⟨x.isRunning_outline.trans running, unasked⟩)
    exact ⟨running, unasked, armed.symm.trans registered⟩
  · rintro ⟨running, unasked, timed⟩
    have armed := kept.armed x.outline outlined
      (Handler.isServing_iff.mpr ⟨x.isRunning_outline.trans running, unasked⟩)
    exact armed.trans timed

/-- The alarms that handler `h` should have scheduled on all clocks together: one if it runs, no
stop is pending on it and it had a timeout configured when its worker was started, and none
otherwise. The one alarm is on the clock that the handler has now, under the id that it has
registered. -/
def Tallies (h : HandlerId) (timed : Bool) (w : World π) : Prop :=
  ∀ x, w.handlers[h]? = some x →
    w.alarmsOf h = (if x.isRunning = true ∧ x.stopRequested = false ∧ timed = true then 1 else 0) ∧
    (x.isRunning = true → x.stopRequested = false → timed = true →
      ∃ c, x.clock = some c ∧ ∃ a ∈ (w.clock c).alarms,
        a.callback = .handler h ∧ x.timeoutAlarm = some a.id)

/-- In every orderly run, however handlers are started, stopped, destroyed and reconfigured and
whether their starts succeed or not, each handler has its one alarm while it serves, and no other.
-/
theorem one_alarm_while_serving {timed : Bool} (course : Course Orderly h w timed) :
    w.Tallies h timed := by
  intro x hx
  have kept := course.kept
  have bond : ∀ c id, w.Holds c id h ↔ x.timeoutAlarm = some id ∧ x.clock = some c := by
    intro c id
    rw [kept.matched c id h, bond?_eq hx]
    simp [Handler.bond]
  by_cases serves : x.isRunning = true ∧ x.stopRequested = false ∧ timed = true
  · have armed := (kept.registered_iff hx).mpr serves
    obtain ⟨id, registered⟩ := Option.isSome_iff_exists.mp armed
    obtain ⟨c, clock⟩ := Option.isSome_iff_exists.mp (clock_of_registered kept.reach hx armed)
    refine ⟨?_, fun _ _ _ => ?_⟩
    · rw [if_pos serves]
      have only : ∀ c' id', w.Holds c' id' h ↔ c' = c ∧ id' = id := by
        intro c' id'
        rw [bond, registered, clock]
        simp [eq_comm, and_comm]
      exact alarmsOf_eq_one kept.reach only
    · obtain ⟨a, member, rfl, callback⟩ := (bond c id).mpr ⟨registered, clock⟩
      exact ⟨c, clock, a, member, callback, registered⟩
  · refine ⟨?_, fun running unasked timed => absurd ⟨running, unasked, timed⟩ serves⟩
    rw [if_neg serves]
    refine alarmsOf_eq_zero fun c id held => serves ((kept.registered_iff hx).mp ?_)
    rw [((bond c id).mp held).1]
    rfl

/-! ## Steady and orderly steps by computation -/

/-- Whether a step is steady, as far as that can be computed. -/
def steadily (v w : World π) : Bool :=
  v.history.all (!·.isPanicked) && w.history.all (!·.isPanicked) &&
    (v.handlers.zip w.handlers).all
      (fun both => !both.1.isRunning || both.2.clock == both.1.clock) &&
    w.handlers.all (fun x => x.clock.getD sharedClock < w.clocks.length)

theorem count_eq_zero {p : Occurrence π → Bool} (none : w.history.all (!p ·) = true)
    (h : HandlerId) : (w.story h).countP p = 0 := by
  refine List.countP_eq_zero.mpr fun o member told => ?_
  have untold := List.all_eq_true.mp none o (List.mem_filter.mp member).1
  simp [told] at untold

theorem steady_of_next (step : Next v w) (steadily : steadily v w = true) : Steady v w := by
  simp only [World.steadily, Bool.and_eq_true] at steadily
  obtain ⟨⟨⟨before, after⟩, keeps⟩, wired⟩ := steadily
  refine ⟨step, fun h => (count_eq_zero after h).trans (count_eq_zero before h).symm, ?_, ?_⟩
  · intro h x y hx hy running
    have both : (x, y) ∈ v.handlers.zip w.handlers :=
      List.mem_of_getElem? (List.getElem?_zip_eq_some.mpr ⟨hx, hy⟩)
    simpa [running] using List.all_eq_true.mp keeps (x, y) both
  · exact fun x member => of_decide_eq_true (List.all_eq_true.mp wired x member)

/-- Where no start is in progress and no alarm is scheduled, a steady step is orderly if nothing
panics in it. -/
theorem Steady.orderly (steady : Steady v w) (before : v.history.all (!·.isCrash) = true)
    (after : w.history.all (!·.isCrash) = true)
    (idle : v.handlers.all (·.starts.isEmpty) = true)
    (empty : v.clocks.all (·.alarms.isEmpty) = true) : Orderly v w where
  toSteady := steady
  unbroken h := (count_eq_zero after h).trans (count_eq_zero before h).symm
  stays h x y hx _ pending :=
    absurd (List.isEmpty_iff.mp (List.all_eq_true.mp idle x (List.mem_of_getElem? hx))) pending
  spares := by
    rintro c id h ⟨a, member, -, -⟩
    have exists_k : v.clock c ∈ v.clocks := by simp [World.clock, lt_length_of_mem member]
    rw [List.isEmpty_iff.mp (List.all_eq_true.mp empty _ exists_k)] at member
    cases member

/-- A handler is given a timeout and started. -/
theorem one_alarm_after_start :
    let w := ((single Nat).perform .outside (.setTimeout 0 (.ofParts 1 0) 0 [])).1
    let v := (w.perform .outside (.start 0)).1
    Course Orderly 0 v true ∧ v.alarmsOf 0 = 1 ∧ ∃ x, v.handlers[0]? = some x ∧
      ∃ c, x.clock = some c ∧ ∃ a ∈ (v.clock c).alarms,
        a.callback = .handler 0 ∧ x.timeoutAlarm = some a.id := by
  intro w v
  have start : Course Orderly 0 (single Nat) false :=
    .fresh single_fresh (by simp [Wired, single, sharedClock])
  have configures : Orderly (single Nat) w :=
    (steady_of_next (.act _ _) (by decide +kernel)).orderly (by decide +kernel)
      (by decide +kernel) (by decide +kernel) (by decide +kernel)
  have starts : Orderly w v :=
    (steady_of_next (.act _ _) (by decide +kernel)).orderly (by decide +kernel)
      (by decide +kernel) (by decide +kernel) (by decide +kernel)
  have course : Course Orderly 0 v true := by
    have before := start.next configures
    rw [if_pos (by decide +kernel)] at before
    have after := before.next starts
    rw [if_neg (by decide +kernel)] at after
    rwa [show w.isTimed 0 = true by decide +kernel] at after
  have known : (v.handlers[0]?).map (fun x => (x.isRunning, x.stopRequested)) =
      some (true, false) := by decide +kernel
  obtain ⟨x, hx, same⟩ := Option.map_eq_some_iff.mp known
  obtain ⟨running, unasked⟩ := Prod.mk.inj same
  obtain ⟨one, own⟩ := one_alarm_while_serving course x hx
  rw [if_pos ⟨running, unasked, rfl⟩] at one
  exact ⟨course, one, x, hx, own running unasked rfl⟩

/-! ## Steady runs that are not orderly -/

/-- Whether all operations in a row are steady. -/
def steadilyAll (w : World π) : List (Operation π) → Bool
  | [] => true
  | op :: ops => steadily w (w.after op) && steadilyAll (w.after op) ops

/-- Whether handler `h` had a timeout configured when its last worker was started, after some
operations. -/
def timedAfter (h : HandlerId) (w : World π) (timed : Bool) : List (Operation π) → Bool
  | [] => timed
  | op :: ops =>
    timedAfter h (w.after op)
      (if (w.after op).launches h = w.launches h then timed else w.isTimed h) ops

theorem Course.afterAll {timed : Bool} (course : Course Steady h w timed)
    {ops : List (Operation π)} (steadily : w.steadilyAll ops = true) :
    Course Steady h (w.afterAll ops) (w.timedAfter h timed ops) := by
  induction ops generalizing w timed with
  | nil => exact course
  | cons op ops ih =>
    obtain ⟨first, others⟩ := Bool.and_eq_true_iff.mp steadily
    refine ih ?_ others
    cases operated : w.operate op with
    | none =>
      have same : w.after op = w := by simp [after, operated]
      rwa [same, if_pos rfl]
    | some result =>
      have same : w.after op = result.1 := by simp [after, operated]
      have step : Next w (w.after op) := same ▸ Next.of_operate operated
      exact course.next (steady_of_next step first)

/-- A fresh world with two clocks and one handler of this name. -/
def named (name : String) : World Nat where
  clocks := List.replicate 2 {}
  handlers := [{ config := { name }, types := .ofList [⟨"A", "a"⟩] }]

theorem named_course (name : String) : Course Steady 0 (named name) false := by
  refine .fresh (fresh_of_handlers 2 0 fun x hx => ?_) (by simp [Wired, named, sharedClock])
  exact ⟨_, _, _, _, _, _, List.mem_singleton.mp hx⟩

/-- A handler that runs with no stop pending has not the one alarm that it should have. -/
theorem not_tallies (serves : (w.handlers[h]?).map (fun x => (x.isRunning, x.stopRequested)) =
    some (true, false)) {c : ClockId} (uses : (w.handlers[h]?).map (·.clock) = some (some c))
    (unarmed : (w.clock c).alarms = []) : ¬ w.Tallies h true := by
  intro tallies
  obtain ⟨x, hx, same⟩ := Option.map_eq_some_iff.mp serves
  obtain ⟨running, unasked⟩ := Prod.mk.inj same
  obtain ⟨c', clock, a, member, -⟩ := (tallies x hx).2 running unasked rfl
  rw [hx, Option.map_some, clock, Option.some.injEq, Option.some.injEq] at uses
  rw [uses, unarmed] at member
  cases member

/-- A handler without a worker has an alarm that it should not have. -/
theorem not_tallies_of_idle {timed : Bool}
    (idle : (w.handlers[h]?).map (·.isRunning) = some false) (armed : w.alarmsOf h ≠ 0) :
    ¬ w.Tallies h timed := by
  intro tallies
  obtain ⟨x, hx, stopped⟩ := Option.map_eq_some_iff.mp idle
  exact armed ((tallies x hx).1.trans (if_neg fun serves => by simp [stopped] at serves))

/-- A handler is given a timeout and started, without a panic of a dispatcher and without a new
clock for a running handler. Then somebody removes its alarm; or its clock is replaced between the
two sections of the start, and the alarm is on the old one; or there is a NUL character in its name,
so that the making of its worker panics and leaves the alarm. -/
theorem one_alarm_fails_otherwise :
    let configured : Operation Nat := .act (.setTimeout 0 (.ofParts 1 0) 0 [])
    let look : Operation Nat := .timer 0 0
    let removed := (named "h").afterAll [configured, .act (.start 0), .removeAlarm 0 1, look]
    let moved := (named "h").afterAll
      [configured, .beginStart 0, .act (.setClock 0 1), .endStart 0 0, look]
    let broken := (named "a\x00b").afterAll [configured, .act (.start 0), look]
    (Course Steady 0 removed true ∧ removed.move? = none ∧ ¬ removed.Tallies 0 true) ∧
    (Course Steady 0 moved true ∧ moved.move? = none ∧ ¬ moved.Tallies 0 true) ∧
    Course Steady 0 broken true ∧ broken.move? = none ∧ ¬ broken.Tallies 0 true := by
  refine ⟨⟨?_, by decide +kernel, ?_⟩, ⟨?_, by decide +kernel, ?_⟩, ?_, by decide +kernel, ?_⟩
  · exact (named_course "h").afterAll (by decide +kernel)
  · exact not_tallies (c := 0) (by decide +kernel) (by decide +kernel) (by decide +kernel)
  · exact (named_course "h").afterAll (by decide +kernel)
  · exact not_tallies (c := 1) (by decide +kernel) (by decide +kernel) (by decide +kernel)
  · exact (named_course "a\x00b").afterAll (by decide +kernel)
  · exact not_tallies_of_idle (by decide +kernel) (by decide +kernel)

end World
end EventEngine
