import EventEngine.Proofs.FailedStarts
import EventEngine.Proofs.OneAlarm
import EventEngine.Proofs.Subsystems.Sessions
import Mathlib.Algebra.BigOperators.Group.Finset.Piecewise

/-!
# Starting both subsystems

The wallet manager is started first, and then the peer manager. Each of the two starts does all that
it has to do or nothing, but the two together do not: a start of the peer manager that fails takes
nothing back of what the start of the wallet manager has done. The wallet manager is then left
running by itself, and ticks.
-/
namespace EventEngine

variable {π : Type} {h g : HandlerId}

def Reply.isFailed : Reply → Bool
  | failed _ => true
  | _ => false

theorem Reply.isFailed_iff {reply : Reply} : reply.isFailed = true ↔ ∃ e, reply = .failed e := by
  cases reply <;> simp [isFailed]

namespace World

variable {u v w : World π} {x : Handler π} {c : ClockId}

/-- The handler has a worker. -/
def Runs (w : World π) (h : HandlerId) : Prop := ∃ x, w.find? h = some x ∧ x.isRunning = true

instance (w : World π) (h : HandlerId) : Decidable (w.Runs h) :=
  decidable_of_iff ((w.find? h).any Handler.isRunning = true) (Option.any_eq_true _ _)

theorem runs_iff (found : w.find? h = some x) : w.Runs h ↔ x.isRunning = true := by
  simp [Runs, found]

theorem Still.runs_iff (still : Still h v w) : w.Runs h ↔ v.Runs h := by
  have keeps : ∀ {v w : World π}, Still h v w → v.Runs h → w.Runs h := by
    rintro v w still ⟨x, found, running⟩
    obtain ⟨y, found', same⟩ := still.find? found
    exact ⟨y, found', by rw [← y.isRunning_outline, same, x.isRunning_outline, running]⟩
  exact ⟨keeps still.symm, keeps still⟩

/-- The handler runs just if it did before, and has as many alarms scheduled as before. -/
structure Untouched (h : HandlerId) (v w : World π) : Prop where
  runs : w.Runs h ↔ v.Runs h
  alarms : w.alarmsOf h = v.alarmsOf h

theorem Untouched.trans (first : Untouched h u v) (second : Untouched h v w) : Untouched h u w :=
  ⟨second.runs.trans first.runs, second.alarms.trans first.alarms⟩

/-! ## Counting alarms -/

/-- Of the alarms on one clock, the number of those that are of handler `h`. -/
def alarmsOn (w : World π) (c : ClockId) (h : HandlerId) : Nat :=
  (w.clock c).alarms.countP (·.callback = .handler h)

theorem alarmsOf_eq_sum (w : World π) (h : HandlerId) :
    w.alarmsOf h = ∑ c ∈ Finset.range w.clocks.length, w.alarmsOn c h := rfl

theorem alarmsOf_congr (length : w.clocks.length = v.clocks.length)
    (same : ∀ c, (w.clock c).alarms = (v.clock c).alarms) : w.alarmsOf h = v.alarmsOf h := by
  simp only [alarmsOf, length, same]

/-- If one clock has more alarms of the handler than before, so have all together. -/
theorem alarmsOf_of_alarmsOn {n : Nat} (length : w.clocks.length = v.clocks.length)
    (there : c < v.clocks.length)
    (counts : ∀ c', w.alarmsOn c' h = v.alarmsOn c' h + if c' = c then n else 0) :
    w.alarmsOf h = v.alarmsOf h + n := by
  rw [alarmsOf_eq_sum, alarmsOf_eq_sum, length, Finset.sum_congr rfl fun c' _ => counts c',
    Finset.sum_add_distrib, Finset.sum_ite_eq', if_pos (Finset.mem_range.mpr there)]

/-! ## A start that fails -/

/-- It leaves every handler untouched. -/
theorem StartedInVain.untouched (vain : StartedInVain h c x.adopt v w) (found : v.find? h = some x)
    (length : w.clocks.length = v.clocks.length) (g : HandlerId) : Untouched g v w := by
  refine ⟨?_, alarmsOf_congr length fun c' => ?_⟩
  · by_cases hg : g = h
    · subst hg
      obtain ⟨hx, alive⟩ := find?_eq_some.mp found
      obtain ⟨y, hy, same⟩ := outline?_eq_some.mp vain.handler
      have alive' : y.isDestroyed = false := (congrArg Handler.isDestroyed same).trans alive
      have running : y.isRunning = x.isRunning := by
        rw [← y.isRunning_outline, same, Handler.isRunning_outline]
        rfl
      rw [runs_iff found, runs_iff (find?_eq_some.mpr ⟨hy, alive'⟩), running]
    · exact (vain.others g hg).runs_iff
  · by_cases hc : c' = c
    · subst hc
      exact vain.clock.alarms
    · rw [vain.clocks c' hc]

/-! ## A start that panics -/

/-- A thread that a start of `x` may have to make has a name with a NUL character. -/
def Unnameable (w : World π) (x : Handler π) : Prop :=
  hasNul (w.clock (x.clock.getD sharedClock)).config.workerName = true ∨
    hasNul x.config.threadName = true

theorem hasNul_of_threadFault {canSpawn : Nat → Bool} {name whose message : String}
    {stackSize : Nat}
    (fault : threadFault canSpawn name stackSize whose = some (.crashed message)) :
    hasNul name = true := by
  unfold threadFault at fault
  split at fault
  · assumption
  · split at fault <;> cases fault

theorem unnameable_of_crashed (found : w.find? h = some x) {message : String}
    (crashed : (w.start h x).2 = .error (.crashed message)) : w.Unnameable x := by
  rw [start_result found] at crashed
  cases started : (w.clock (x.clock.getD sharedClock)).start with
  | error e =>
    rw [started] at crashed
    obtain rfl := Except.error.inj crashed
    exact .inl (hasNul_of_threadFault (Clock.start_eq_error.mp started).2)
  | ok result =>
    rw [started] at crashed
    dsimp only at crashed
    split at crashed
    · cases crashed
    · split at crashed
      · cases crashed
      · next fault =>
        obtain rfl := Except.error.inj crashed
        exact .inr (hasNul_of_threadFault fault)

/-- No step changes the settings of a clock. -/
theorem Ticks.config {kind : Clock AlarmOwner → Alarm AlarmOwner → Prop} (ticks : Ticks kind v w)
    (c : ClockId) : (w.clock c).config = (v.clock c).config := by
  have steps := ticks.steps c
  generalize w.clock c = k at steps
  induction steps with
  | refl => rfl
  | tail _ step ih => exact step.config.trans ih

theorem Unnameable.congr {y : Handler π} (unnameable : w.Unnameable y)
    (config : ∀ c, (w.clock c).config = (v.clock c).config) (same : y.outline = x.outline) :
    v.Unnameable x := by
  have clock : y.clock = x.clock := congrArg (·.clock) same
  have settings : y.config = x.config := congrArg (·.config) same
  rwa [Unnameable, config, clock, settings] at unnameable

/-! ## A start that succeeds -/

/-- If a worker is made and there is a timeout, the start of the handler adds one of its own. -/
theorem alarmsOn_start (found : w.find? g = some x) (ok : (w.start g x).2 = .ok ())
    (there : x.clock.getD sharedClock < w.clocks.length) (c : ClockId) (h : HandlerId) :
    (w.start g x).1.alarmsOn c h = w.alarmsOn c h +
      if c = x.clock.getD sharedClock then
        if h = g ∧ x.isRunning = false ∧ x.timeout.isSome = true then 1 else 0
      else 0 := by
  obtain ⟨k, notices, u, started, opened, same⟩ := start_succeeds found ok
  have before : u.alarmsOn c h = w.alarmsOn c h := by
    rw [opened, alarmsOn, alarms_adopted started, alarmsOn]
  rw [same]
  by_cases running : x.isRunning = true
  · rw [if_pos running, before]
    simp [running]
  · rw [if_neg running, ← before, alarmsOn, alarmsOn, clock_note, clock_modify]
    by_cases hc : c = x.clock.getD sharedClock
    · subst hc
      cases configured : x.timeout with
      | none =>
        have unarmed : (u.armed g x.adopt (x.clock.getD sharedClock)).clock
            (x.clock.getD sharedClock) = u.clock (x.clock.getD sharedClock) := by
          have adopted : x.adopt.timeout = none := configured
          rw [armed, armTimeout, adopted, clock_modify]
        simp [unarmed]
      | some setup =>
        have there' : x.clock.getD sharedClock < u.clocks.length := by
          simpa [opened, World.adopted] using there
        rw [clock_armed (x := x.adopt) configured there', Clock.addPeriodic, Clock.add,
          (Schedule.insert_perm _ _).countP_eq, List.countP_cons]
        simp [running, eq_comm]
    · rw [clock_armed_ne hc]
      simp [hc]

/-- What a start of `h` that has succeeded leaves: the handler `x` has a worker, and an alarm more
if the worker is new and there is a timeout. The others are untouched. -/
structure StartedUp (h : HandlerId) (x : Handler π) (v w : World π) : Prop where
  runs : w.Runs h
  alarms : w.alarmsOf h =
    v.alarmsOf h + if x.isRunning = false ∧ x.timeout.isSome = true then 1 else 0
  others : ∀ g, g ≠ h → Untouched g v w
  still : ∀ g, g ≠ h → Still g v w
  config : ∀ c, (w.clock c).config = (v.clock c).config

theorem startedUp_of_ok (found : w.find? h = some x) (ok : (w.start h x).2 = .ok ())
    (there : x.clock.getD sharedClock < w.clocks.length) :
    StartedUp h x w (w.start h x).1 := by
  have length := (ticks_start found).length
  have counts := fun g =>
    alarmsOf_of_alarmsOn length there fun c => alarmsOn_start found ok there c g
  have still : ∀ g, g ≠ h → Still g w (w.start h x).1 := fun _ ne => still_start_ne found ne.symm
  refine ⟨?_, ?_, fun g ne => ⟨(still g ne).runs_iff, ?_⟩, still, (ticks_start found).config⟩
  · obtain ⟨y, found', running, -⟩ := start_ok found ok
    exact ⟨y, found', running⟩
  · rw [counts]
    simp
  · rw [counts]
    simp [ne]

/-! ## Calls from outside -/

theorem call_start (patience : Nat) (found : w.find? h = some x) :
    w.call patience (.start h) = ((w.start h x).1, startReply (w.start h x).2) := by
  simp only [call, perform, withHandler, found]
  rfl

/-- A call for a start succeeds, or tells that a thread cannot be made and leaves all handlers
untouched, or panics over the name of a thread. -/
theorem call_start_cases (patience : Nat) (reach : Reachable w) (found : w.find? h = some x)
    (there : x.clock.getD sharedClock < w.clocks.length) :
    (∃ v, w.call patience (.start h) = (v, .done) ∧ ¬ w.CannotStart x ∧ StartedUp h x w v) ∨
      (∃ v reason, w.call patience (.start h) = (v, .failed (.notStarted reason)) ∧
        w.CannotStart x ∧ ∀ g, Untouched g w v) ∨
      ∃ v message, w.call patience (.start h) = (v, .crashed message) ∧ w.Unnameable x := by
  rw [call_start patience found]
  cases result : (w.start h x).2 with
  | ok _ =>
    refine .inl ⟨_, rfl, fun cannot => ?_, startedUp_of_ok found result there⟩
    obtain ⟨reason, failed⟩ := start_error_of_cannotStart found cannot
    cases result.symm.trans failed
  | error failure =>
    cases failure with
    | failed e =>
      have failed : Returns (.start h) (.failed e) w (w.perform .outside (.start h)).1 :=
        .outside ((perform_start_failed found).mpr result)
      obtain ⟨cannot, ⟨reason, rfl⟩, vain⟩ := failed.started_in_vain reach found
      have performed : (w.perform .outside (.start h)).1 = (w.start h x).1 := by
        simp [perform, withHandler, found]
      rw [performed] at vain
      exact .inr (.inl ⟨_, reason, rfl, cannot, vain.untouched found (ticks_start found).length⟩)
    | crashed message =>
      exact .inr (.inr ⟨_, message, rfl, unnameable_of_crashed found result⟩)

end World

namespace Subsystems

open World

variable {s : Subsystems} {x y : Handler Payload}

/-- What starting both subsystems comes to, where the wallet manager is `x` and the peer manager is
`y`. Either both run then, or a thread could not be made, or the name of one made this panic. Where
a thread could not be made, the peer manager runs just if it did before, with the alarms that it
had, and so does the wallet manager if its own start has failed or had nothing to do. But a wallet
manager that was started is left running, with one alarm more if it has a timeout. -/
theorem startAll_outcome (patience : Nat) (reach : Reachable s) (wired : s.Wired)
    (foundWallet : s.find? wallet = some x) (foundPeers : s.find? peers = some y) :
    let t := (s.startAll patience).1
    let reply := (s.startAll patience).2
    (reply = .done ∧ t.Runs wallet ∧ t.Runs peers) ∨
    ((∃ reason, reply = .failed (.notStarted reason)) ∧ Untouched peers s t ∧
      (s.CannotStart x ∨ x.isRunning = true → Untouched wallet s t) ∧
      (¬ s.CannotStart x → x.isRunning = false → t.Runs wallet ∧
        t.alarmsOf wallet = s.alarmsOf wallet + if x.timeout.isSome then 1 else 0)) ∨
    (∃ message, reply = .crashed message) ∧ (s.Unnameable x ∨ s.Unnameable y) := by
  have there := wired.lt (find?_eq_some.mp foundWallet).1
  have there' := wired.lt (find?_eq_some.mp foundPeers).1
  unfold startAll
  rcases call_start_cases patience reach foundWallet there with
    ⟨t, called, can, up⟩ | ⟨t, reason, called, cannot, untouched⟩ | ⟨t, message, called, unnameable⟩
  · obtain ⟨z, found, same⟩ := (up.still peers (by decide)).find? foundPeers
    have run : Run s t := by
      have run := call_run patience s (.start wallet)
      rwa [called] at run
    have there'' : z.clock.getD sharedClock < t.clocks.length := by
      rwa [Run.length_clocks run, ← z.clock_outline, same, y.clock_outline]
    rw [called]
    dsimp only
    rcases call_start_cases patience (reach.run run) found there'' with
      ⟨u, called', -, up'⟩ | ⟨u, reason, called', -, untouched⟩ | ⟨u, message, called', unnameable⟩
    · rw [called']
      exact .inl ⟨rfl, (up'.others wallet (by decide)).runs.mpr up.runs, up'.runs⟩
    · rw [called']
      -- the wallet manager is as its own start has left it
      have alone := untouched wallet
      refine .inr (.inl ⟨⟨reason, rfl⟩,
        (up.others peers (by decide)).trans (untouched peers), ?_, ?_⟩)
      · rintro (cannot | running)
        · exact absurd cannot can
        · refine Untouched.trans ⟨iff_of_true up.runs ⟨x, foundWallet, running⟩, ?_⟩ alone
          rw [up.alarms]
          simp [running]
      · intro _ idle
        refine ⟨alone.runs.mpr up.runs, ?_⟩
        rw [alone.alarms, up.alarms]
        simp [idle]
    · rw [called']
      exact .inr (.inr ⟨⟨message, rfl⟩, .inr (unnameable.congr up.config same)⟩)
  · rw [called]
    exact .inr (.inl ⟨⟨reason, rfl⟩, untouched peers, fun _ => untouched wallet,
      fun can => absurd cannot can⟩)
  · rw [called]
    exact .inr (.inr ⟨⟨message, rfl⟩, .inl unnameable⟩)

/-- Settings of which the worker of the peer manager cannot be made. -/
def oversized : EventsConfig := { handlers := [{ name := peersName, stackSize := 2 ^ 50 }] }

/-- With these a start of both fails, and leaves the wallet manager running, which was not running
before. -/
theorem wallet_runs_after_failed_start :
    ¬ ∀ (config : EventsConfig) (clock : ClockConfig) (tick : Duration) (canSpawn : Nat → Bool)
      (patience : Nat) (s : Subsystems), Run (create config clock tick canSpawn) s →
      (∀ e, (s.startAll patience).2 = .failed e →
        Untouched wallet s (s.startAll patience).1 ∧ Untouched peers s (s.startAll patience).1) ∧
      ((s.startAll patience).2 = .done →
        (s.startAll patience).1.Runs wallet ∧ (s.startAll patience).1.Runs peers) := by
  intro atomic
  let s := create oversized {} (.ofMillis 1000)
  obtain ⟨fails, -⟩ := atomic oversized {} (.ofMillis 1000) fitsAddressSpace 20 s .refl
  obtain ⟨e, failed⟩ : ∃ e, (s.startAll 20).2 = .failed e :=
    Reply.isFailed_iff.mp (by decide +kernel)
  have stopped : ¬ s.Runs wallet := by decide +kernel
  have runs : (s.startAll 20).1.Runs wallet := by decide +kernel
  exact stopped ((fails _ failed).1.runs.mp runs)

/-- A second try fails too, and leaves both as the first has left them. -/
theorem second_try_changes_nothing :
    let s := ((create oversized {} (.ofMillis 1000)).startAll 20).1
    let t := (s.startAll 20).1
    Reachable s ∧ (∃ reason, (s.startAll 20).2 = .failed (.notStarted reason)) ∧
      t.Runs wallet ∧ ¬ t.Runs peers ∧ t.alarmsOf wallet = 1 ∧ t.alarmsOf peers = 0 := by
  intro s t
  have reach : Reachable s := by
    obtain ⟨deeds, -, played⟩ := plays_startAll 20 (create oversized {} (.ofMillis 1000))
    rw [show s = _ from played]
    exact play_reachable
  have wired : s.Wired := by
    unfold Wired
    decide +kernel
  have runs : s.Runs wallet := by decide +kernel
  obtain ⟨x, foundWallet, running⟩ := runs
  obtain ⟨y, foundPeers⟩ : ∃ y, s.find? peers = some y :=
    Option.isSome_iff_exists.mp (by decide +kernel)
  rcases startAll_outcome 20 reach wired foundWallet foundPeers with
    ⟨-, -, runs⟩ | ⟨failed, alike, alone, -⟩ | ⟨⟨message, crashed⟩, -⟩
  · exact absurd runs (by decide +kernel)
  · have alone := alone (.inr running)
    exact ⟨reach, failed, alone.runs.mpr ⟨x, foundWallet, running⟩,
      fun runs => absurd (alike.runs.mp runs) (by decide +kernel),
      alone.alarms.trans (by decide +kernel), alike.alarms.trans (by decide +kernel)⟩
  · obtain ⟨e, failed⟩ : ∃ e, (s.startAll 20).2 = .failed e :=
      Reply.isFailed_iff.mp (by decide +kernel)
    cases failed.symm.trans crashed

end Subsystems
end EventEngine
