import EventEngine.Proofs.Turns.Alarms
import EventEngine.Proofs.Turns.Requests

/-!
# Starts that last

A start that finds no stop pending leaves a worker behind that stays until someone asks for its end
or its dispatcher panics. A start that finds a stop pending does nothing: the handler has a worker
still, and loses it once the dispatch in progress is over.
-/
namespace EventEngine

variable {π : Type} {h : HandlerId}

namespace Handler

variable {x x' : Handler π} {notes : List (Occurrence π)}

/-- A worker that sees no abort stays, unless its dispatcher panics. -/
theorem Turn.stays (turn : Turn h x notes x') (running : x.isRunning = true)
    (heard : x.queue.aborted = false) (calm : notes.countP Occurrence.isPanicked = 0) :
    x'.isRunning = true ∧ x'.isDestroyed = x.isDestroyed ∧
      notes.countP Occurrence.isStopped = 0 := by
  have present : x.worker ≠ none := by
    intro absent
    simp [isRunning, absent] at running
  cases turn with
  | enqueue place body _ => cases place <;> exact ⟨running, rfl, rfl⟩
  | clear _ => exact ⟨running, rfl, rfl⟩
  | configure setup => exact ⟨running, rfl, rfl⟩
  | setClock c => exact ⟨running, rfl, rfl⟩
  | beginStart => exact ⟨running, rfl, rfl⟩
  | skipStart _ _ => exact ⟨running, rfl, rfl⟩
  | start id idle _ => exact absurd idle present
  | refuse idle _ => exact absurd idle present
  | crash id idle _ => exact absurd idle present
  | requestStop _ => exact ⟨running, rfl, rfl⟩
  | take record rest _ _ => exact ⟨rfl, rfl, rfl⟩
  | «begin» record since _ => exact ⟨rfl, rfl, rfl⟩
  | finish record since elapsed _ => exact ⟨rfl, rfl, rfl⟩
  | panic record since _ => simp [Occurrence.isPanicked] at calm
  | leave _ aborted => simp [heard] at aborted
  | destroy idle => exact absurd idle present

/-- A stop stays pending until the worker is gone, and another one is started. -/
theorem Turn.doomed (turn : Turn h x notes x')
    (unstarted : notes.countP Occurrence.isStarted = 0)
    (doomed : x.isRunning = true → x.stopRequested = true) (running : x'.isRunning = true) :
    x'.stopRequested = true := by
  cases turn with
  | enqueue place body _ => cases place <;> exact doomed running
  | start id _ _ => simp [Occurrence.isStarted] at unstarted
  | refuse idle _ => simp [startRefused, prepare, isRunning, idle] at running
  | crash id idle _ => simp [armedWith, prepare, isRunning, idle] at running
  | requestStop _ => rfl
  | take record rest atWork _ => exact doomed (by simp [isRunning, atWork])
  | «begin» record since atWork => exact doomed (by simp [isRunning, atWork])
  | finish record since elapsed atWork => exact doomed (by simp [isRunning, atWork])
  | panic _ _ _ => simp at running
  | leave _ _ => simp at running
  | _ => exact doomed running

/-- The handler that the worker is about to start, if that is the next action of its dispatcher. -/
def starting? (x : Handler π) : Option HandlerId :=
  match x.worker with
  | some (.dispatching _ _ (.start g :: _) none) => some g
  | _ => none

theorem starting?_eq_some {g : HandlerId} : x.starting? = some g ↔
    ∃ record since rest, x.worker = some (.dispatching record since (.start g :: rest) none) := by
  constructor
  · intro starting
    unfold starting? at starting
    split at starting
    · next hworker =>
      cases starting
      exact ⟨_, _, _, hworker⟩
    · cases starting
  · rintro ⟨record, since, rest, hworker⟩
    simp [starting?, hworker]

end Handler

namespace World

variable {u v w : World π} {x : Handler π} {action : Action π} {reply : Reply}

/-- Number of dispatches of handler `h` that panicked. -/
def panics (w : World π) (h : HandlerId) : Nat := (w.story h).countP Occurrence.isPanicked

/-- Number of stops of handler `h` that were completed. -/
def stops (w : World π) (h : HandlerId) : Nat := (w.story h).countP Occurrence.isStopped

/-- The handler has a worker, and a stop is pending or not. -/
def Works (w : World π) (asked : Bool) (h : HandlerId) : Prop :=
  ∃ x, w.find? h = some x ∧ x.isRunning = true ∧ x.stopRequested = asked

/-- The handler has a worker, and no stop is pending. -/
def Serves (w : World π) (h : HandlerId) : Prop := w.Works false h

/-- The handler has a worker, and a stop is pending. -/
def Stopping (w : World π) (h : HandlerId) : Prop := w.Works true h

/-- Someone performs an action and is answered at once. -/
inductive Returns (action : Action π) (reply : Reply) : World π → World π → Prop where
  | outside {w : World π} : (w.perform .outside action).2 = .replied reply →
      Returns action reply w (w.perform .outside action).1
  | dispatch {w : World π} {g : HandlerId} {x : Handler π} {record : Record π} {since : Instant}
      {rest : List (Action π)} : w.find? g = some x →
      x.worker = some (.dispatching record since (action :: rest) none) →
      ((w.setWorker g (.dispatching record since rest none)).perform (.worker g) action).2 =
        .replied reply →
      Returns action reply w (w.dispatchAction g x record since action rest)

theorem Returns.calls (returns : Returns action reply v w) : Calls action v w := by
  cases returns with
  | outside _ => exact .outside v
  | dispatch found hworker _ => exact .dispatch found hworker

/-- A step in which nobody calls for a stop or a destruction of the handler, and its dispatcher does
not panic. -/
def Lets (h : HandlerId) (v w : World π) : Prop :=
  Next v w ∧ ¬ Calls (.stop h) v w ∧ ¬ Calls (.destroy h) v w ∧ w.panics h = v.panics h

/-! ## What a start leaves -/

theorem Still.works {asked : Bool} (still : Still h v w) (works : v.Works asked h) :
    w.Works asked h := by
  obtain ⟨x, found, running, same⟩ := works
  obtain ⟨y, found', alike⟩ := still.find? found
  refine ⟨y, found', ?_, ?_⟩
  · rw [← y.isRunning_outline, alike, x.isRunning_outline, running]
  · exact (congrArg (·.stopRequested) alike).trans same

/-- A start that succeeds finds that the handler has a worker, or makes it one. -/
theorem start_succeeds (found : w.find? h = some x) (ok : (w.start h x).2 = .ok ()) :
    ∃ k notices u, (w.clock (x.clock.getD sharedClock)).start = .ok (k, notices) ∧
      u = (w.adopted h).setClock (x.clock.getD sharedClock) k notices ∧
      (w.start h x).1 = if x.isRunning then u
      else ((u.armed h x.adopt (x.clock.getD sharedClock)).modify h Handler.launch).note
        (.started h) := by
  have started := starts found
  have result := start_result found
  rw [ok] at result
  generalize (w.start h x).1 = w' at started
  cases started with
  | failed failed => simp [failed] at result
  | @opened k notices _ started installs =>
    refine ⟨k, notices, _, started, rfl, ?_⟩
    simp only [started] at result
    cases installs with
    | running running => exact (if_pos running).symm
    | launched idle _ =>
      have stopped : ¬ x.isRunning = true := by
        have idle : x.worker = none := idle
        simp [Handler.isRunning, idle]
      exact (if_neg stopped).symm
    | refused idle failed =>
      have idle : x.worker = none := idle
      have failed : x.spawnFault = some _ := failed
      simp [Handler.isRunning, idle, failed] at result
    | crashed idle crashes =>
      have idle : x.worker = none := idle
      have crashes : x.spawnFault = some _ := crashes
      simp [Handler.isRunning, idle, crashes] at result

/-- It leaves a worker, with a stop pending only if one was. -/
theorem start_ok (found : w.find? h = some x) (ok : (w.start h x).2 = .ok ()) :
    ∃ y, (w.start h x).1.find? h = some y ∧ y.isRunning = true ∧
      y.stopRequested = (x.isRunning && x.stopRequested) := by
  obtain ⟨k, notices, u, -, rfl, same⟩ := start_succeeds found ok
  have found' : ((w.adopted h).setClock (x.clock.getD sharedClock) k notices).find? h =
      some x.adopt := find?_adopted found
  rw [same]
  by_cases running : x.isRunning = true
  · rw [if_pos running]
    exact ⟨x.adopt, found', running, by rw [running]; rfl⟩
  · rw [if_neg running]
    refine ⟨_, find?_launched found' _, rfl, ?_⟩
    rw [(Bool.not_eq_true _).mp running]
    rfl

theorem perform_start_done (who : Caller) (found : w.find? h = some x)
    (ok : (w.start h x).2.isOk = true) : (w.perform who (.start h)).2 = .replied .done := by
  simp only [perform, withHandler, found, Prod.map_snd, Function.comp_apply]
  cases answered : (w.start h x).2 with
  | ok _ => rfl
  | error e =>
    rw [answered] at ok
    cases ok

theorem perform_start {who : Caller} (done : (w.perform who (.start h)).2 = .replied .done) :
    ∃ x y, w.find? h = some x ∧ (w.perform who (.start h)).1.find? h = some y ∧
      y.isRunning = true ∧ y.stopRequested = (x.isRunning && x.stopRequested) := by
  simp only [perform, withHandler] at done ⊢
  split at done
  · next x found =>
    have replied : startReply (w.start h x).2 = .done := Progress.replied.inj done
    have ok : (w.start h x).2 = .ok () := by
      cases result : (w.start h x).2 with
      | ok _ => rfl
      | error e =>
        rw [result] at replied
        cases e <;> cases replied
    obtain ⟨y, found', running, asked⟩ := start_ok found ok
    exact ⟨x, y, found, found', running, asked⟩
  · cases done

theorem dispatchAction_of_replied {record : Record π} {since : Instant} {rest : List (Action π)}
    (replied :
      ((w.setWorker h (.dispatching record since rest none)).perform (.worker h) action).2 =
        .replied reply) : w.dispatchAction h x record since action rest =
        ((w.setWorker h (.dispatching record since rest none)).perform (.worker h) action).1.note
          (.replied h reply) := by
  unfold dispatchAction
  generalize (w.setWorker h _).perform (.worker h) action = answered at replied ⊢
  obtain ⟨v, progress⟩ := answered
  obtain rfl : progress = .replied reply := replied
  rfl

/-- A start that succeeds leaves the handler serving, unless a stop is pending. -/
theorem Returns.serves_or_stopping (started : Returns (.start h) .done v w) :
    (¬ v.Stopping h → w.Serves h) ∧ (v.Stopping h → w.Stopping h) := by
  have settles : ∀ {t : World π} {who : Caller}, (t.perform who (.start h)).2 = .replied .done →
      (¬ t.Stopping h → (t.perform who (.start h)).1.Serves h) ∧
      (t.Stopping h → (t.perform who (.start h)).1.Stopping h) := by
    intro t who done
    obtain ⟨x, y, found, found', running, asked⟩ := perform_start done
    constructor
    · intro unasked
      refine ⟨y, found', running, ?_⟩
      rw [asked, Bool.and_eq_false_imp]
      intro active
      exact (Bool.not_eq_true _).mp fun stop => unasked ⟨x, found, active, stop⟩
    · rintro ⟨x', found'', active, stop⟩
      obtain rfl := Option.some.inj (found.symm.trans found'')
      exact ⟨y, found', running, by rw [asked, active, stop]; rfl⟩
  cases started with
  | outside done => exact settles done
  | @dispatch g x record since rest found hworker done =>
    have begun : Still h v (v.setWorker g (.dispatching record since rest none)) :=
      still_setWorker (find?_eq_some.mp found).1 hworker rfl
    rw [dispatchAction_of_replied done]
    obtain ⟨serves, stopping⟩ := settles done
    exact ⟨fun unasked => serves fun asked => unasked (begun.symm.works asked),
      fun asked => stopping (begun.works asked)⟩

/-! ## What lasts -/

theorem Serves.unasked (serves : v.Serves h) : v.Unasked h := by
  obtain ⟨x, found, -, unasked⟩ := serves
  intro y hy
  obtain rfl := Option.some.inj ((find?_eq_some.mp found).1.symm.trans hy)
  exact unasked

theorem Calls.unasked_of_clear (clears : Calls (.clear h) v w) (unasked : v.Unasked h) :
    w.Unasked h := by
  obtain ⟨t, who, before, after⟩ := clears.calm nofun
  have cleared : (t.perform who (.clear h)).1.Unasked h := by
    have unasked' := (Spares.of_still (before.still h) unasked).1
    simp only [perform, withHandler, clear]
    split
    · next x found =>
      simp only
      split
      · exact unasked'
      · intro y hy
        simp only [handlers_note, handlers_modify, if_true, (find?_eq_some.mp found).1] at hy
        cases hy
        exact unasked' x (find?_eq_some.mp found).1
    · exact unasked'
  exact (Spares.of_still (after.still h) cleared).1

theorem Lets.unasked (lets : Lets h v w) (unasked : v.Unasked h) : w.Unasked h := by
  obtain ⟨step, unstopped, undestroyed, -⟩ := lets
  rcases step.spares h with stops | destroys | clears | spares
  · exact absurd stops unstopped
  · exact absurd destroys undestroyed
  · exact clears.unasked_of_clear unasked
  · exact (spares unasked).1

/-- A handler goes on serving, as long as it is not asked to stop and no dispatcher panics. -/
theorem Serves.step (reach : Reachable v) (serves : v.Serves h) (step : Next v w)
    (unasked : w.Unasked h) (calm : w.panics h = v.panics h) :
    w.Serves h ∧ w.stops h = v.stops h := by
  obtain ⟨x, found, running, quiet⟩ := serves
  obtain ⟨hx, alive⟩ := find?_eq_some.mp found
  rcases step.evolves h with still | ⟨x', notes, y', outlined, turn, outlined', told⟩
  · exact ⟨still.works ⟨x, found, running, quiet⟩, by rw [stops, still.2, stops]⟩
  · obtain rfl : x' = x.outline :=
      Option.some.inj (outlined.symm.trans (outline?_eq_some.mpr ⟨x, hx, rfl⟩))
    have active : x.outline.isRunning = true := x.isRunning_outline.trans running
    have heard : x.outline.queue.aborted = false := by
      refine (Bool.not_eq_true _).mp fun aborted => ?_
      have asked := (reach.disarmed outlined).aborted active aborted
      exact absurd (asked.symm.trans quiet) nofun
    have unharmed : notes.countP Occurrence.isPanicked = 0 := by
      rw [panics, told, List.countP_append, panics] at calm
      omega
    obtain ⟨running', alive', unstopped⟩ := turn.stays active heard unharmed
    obtain ⟨y, hy, rfl⟩ := outline?_eq_some.mp outlined'
    refine ⟨⟨y, find?_eq_some.mpr ⟨hy, alive'.trans alive⟩, by simpa using running',
      unasked y hy⟩, ?_⟩
    rw [stops, told, List.countP_append, unstopped, Nat.zero_add, stops]

/-- A handler goes on serving through every step that lets it. -/
theorem Serves.next (reach : Reachable v) (serves : v.Serves h) (lets : Lets h v w) :
    w.Serves h ∧ w.stops h = v.stops h :=
  serves.step reach lets.1 (lets.unasked serves.unasked) lets.2.2.2

theorem Serves.run (reach : Reachable v) (serves : v.Serves h)
    (run : Relation.ReflTransGen (Lets h) v w) :
    Reachable w ∧ w.Serves h ∧ w.stops h = v.stops h := by
  induction run with
  | refl => exact ⟨reach, serves, rfl⟩
  | tail _ lets ih =>
    obtain ⟨reach', serves', stops⟩ := ih
    obtain ⟨serves'', stops'⟩ := serves'.next reach' lets
    exact ⟨reach'.next lets.1, serves'', stops'.trans stops⟩

/-- While the handler serves, only a clear discards what is queued on it. -/
theorem Serves.discarded (serves : v.Serves h) (lets : Lets h v w)
    (uncleared : ¬ Calls (.clear h) v w) :
    Occurrence.discarded (w.story h) = Occurrence.discarded (v.story h) := by
  obtain ⟨step, unstopped, undestroyed, -⟩ := lets
  rcases step.spares h with stops | destroys | clears | spares
  · exact absurd stops unstopped
  · exact absurd destroys undestroyed
  · exact absurd clears uncleared
  · exact (spares serves.unasked).2

/-! ## What is bound to end -/

/-- If the handler has a worker, a stop is pending on it. -/
def Doomed (w : World π) (h : HandlerId) : Prop :=
  ∀ x, w.outline? h = some x → x.isRunning = true → x.stopRequested = true

theorem Stopping.doomed (stopping : v.Stopping h) : v.Doomed h := by
  obtain ⟨x, found, -, asked⟩ := stopping
  intro y outlined _
  obtain ⟨x', hx', rfl⟩ := outline?_eq_some.mp outlined
  obtain rfl := Option.some.inj ((find?_eq_some.mp found).1.symm.trans hx')
  exact asked

theorem Doomed.not_serves (doomed : v.Doomed h) : ¬ v.Serves h := by
  rintro ⟨x, found, running, unasked⟩
  have asked := doomed x.outline (outline?_eq_some.mpr ⟨x, (find?_eq_some.mp found).1, rfl⟩)
    (x.isRunning_outline.trans running)
  exact absurd (asked.symm.trans unasked) nofun

theorem Doomed.run (doomed : v.Doomed h) (run : Run v w) (same : w.startups h = v.startups h) :
    w.Doomed h := by
  induction run with
  | refl => exact doomed
  | @tail u w before step ih =>
    have le := Run.startups_le (h := h) before
    have le' := Run.startups_le (h := h) (.single step)
    have doomed' := ih (by omega)
    rcases step.evolves h with still | ⟨x, notes, x', outlined, turn, outlined', told⟩
    · intro y outlined
      exact doomed' y (still.1.symm.trans outlined)
    · have unstarted : notes.countP Occurrence.isStarted = 0 := by
        have more : w.startups h = notes.countP Occurrence.isStarted + u.startups h := by
          rw [World.startups, told, List.countP_append, World.startups]
        omega
      intro y outlined''
      obtain rfl := Option.some.inj (outlined'.symm.trans outlined'')
      exact turn.doomed unstarted (doomed' x outlined)

/-- A start that succeeds while no stop is pending lasts: for as long as nobody calls for a stop or
a destruction and no dispatcher panics, the handler has a worker, no stop is completed, and nothing
queued is discarded but by a clear. A start that succeeds while a stop is pending makes no worker:
until another start does, the handler has one only for as long as the stop is pending. -/
theorem start_lasts (reach : Reachable v) (started : Returns (.start h) .done v w) :
    (¬ v.Stopping h → ∀ u, Relation.ReflTransGen (Lets h) w u →
      u.Serves h ∧ u.stops h = w.stops h ∧
      ∀ u', Lets h u u' → ¬ Calls (.clear h) u u' →
        Occurrence.discarded (u'.story h) = Occurrence.discarded (u.story h)) ∧
    (v.Stopping h → ∀ u, Run w u → u.startups h = w.startups h → ¬ u.Serves h) := by
  obtain ⟨serves, stopping⟩ := started.serves_or_stopping
  have reach' : Reachable w := reach.next started.calls.next
  constructor
  · intro unasked u run
    obtain ⟨-, lasts, stops⟩ := (serves unasked).run reach' run
    exact ⟨lasts, stops, fun u' lets uncleared => lasts.discarded lets uncleared⟩
  · intro asked u run same
    exact ((stopping asked).doomed.run run same).not_serves

/-! ## Which steps are no calls -/

/-- A stop or a destruction of a handler that has a worker leaves a stop pending. -/
theorem Calls.stopping {asked : Bool} (calls : Calls (.stop h) v w ∨ Calls (.destroy h) v w)
    (works : v.Works asked h) : w.Stopping h := by
  have asks : ∀ {t : World π} (who : Caller) (destroys : Bool) {x : Handler π},
      t.find? h = some x → x.isRunning = true → (t.requestStop who h x destroys).1.Stopping h :=
    fun who destroys _ found running =>
      ⟨_, find?_requestStop found running who destroys, running, rfl⟩
  rcases calls with stops | destroys
  · obtain ⟨t, who, before, after⟩ := stops.calm (by simp)
    obtain ⟨x, found, running, -⟩ := (before.still h).works works
    refine (after.still h).works ?_
    simp only [perform, withHandler, found]
    have stopping := asks who false found running
    split <;> next answered =>
      rw [answered] at stopping
      exact stopping
  · obtain ⟨t, who, before, after⟩ := destroys.calm (by simp)
    obtain ⟨x, found, running, -⟩ := (before.still h).works works
    refine (after.still h).works ?_
    simp only [perform, withHandler, found]
    have stopping := asks who true found running
    have kept := destroy_running found running who
    split
    · next answered =>
      rw [answered] at stopping
      exact stopping
    · next answered =>
      rw [answered] at stopping kept
      rw [Prod.map_fst, kept]
      exact stopping

/-- Whether the worker of a handler, if it has one, is inside a dispatcher. -/
def busy? (w : World π) (h : HandlerId) : Option Bool :=
  ((w.handlers[h]?).bind Handler.worker).map Worker.isDispatching

theorem Still.busy? (still : Still h v w) : w.busy? h = v.busy? h := by
  have outlined : ∀ w : World π,
      w.busy? h = ((w.outline? h).bind Handler.worker).map Worker.isDispatching := by
    intro w
    unfold World.busy? outline?
    cases w.handlers[h]? with
    | none => rfl
    | some x =>
      simp only [Option.bind_some, Option.map_some, Handler.outline]
      cases x.worker with
      | none => rfl
      | some worker => cases worker <;> rfl
  rw [outlined, outlined, still.1]

/-- No action begins or ends a dispatch, but a panic. -/
theorem Calls.busy {b : Bool} (calls : Calls action v w) (calm : action ≠ .panic)
    (busy : v.busy? h = some b) : w.busy? h = some b := by
  obtain ⟨t, who, before, after⟩ := calls.calm calm
  rw [(after.still h).busy?]
  rw [← (before.still h).busy?] at busy
  obtain ⟨worker, present, rfl⟩ := Option.map_eq_some_iff.mp busy
  obtain ⟨x, hx, hworker⟩ := Option.bind_eq_some_iff.mp present
  obtain ⟨y, hy, hworker'⟩ := (perform_effect t who action).sameWorker x worker hx hworker
  simp [World.busy?, hy, hworker']

/-- The world after a move of the worker of `h`, if it can move. -/
def stir (w : World π) (h : HandlerId) : World π := (w.moveWorker h).getD w

theorem stir_run (w : World π) (h : HandlerId) : Run w (w.stir h) := by
  unfold stir
  cases moved : w.moveWorker h with
  | none => exact .refl
  | some v => exact .single (.worker moved)

theorem stir_dispatching {record : Record π} {since : Instant} {rest : List (Action π)}
    (found : w.find? h = some x)
    (hworker : x.worker = some (.dispatching record since (action :: rest) none)) :
    w.stir h = w.dispatchAction h x record since action rest := by
  simp [stir, moveWorker, found, hworker]

/-- A move in which a dispatch begins or ends is no call. -/
theorem lets_stir {b : Bool} (moves : (w.moveWorker h).isSome = true) (busy : w.busy? h = some b)
    (changes : (w.stir h).busy? h ≠ some b) (calm : (w.stir h).panics h = w.panics h) :
    Lets h w (w.stir h) ∧ ¬ Calls (.start h) w (w.stir h) := by
  have no_call : ∀ action : Action π, action ≠ .panic → ¬ Calls action w (w.stir h) :=
    fun _ other calls => changes (calls.busy other busy)
  obtain ⟨v, moved⟩ := Option.isSome_iff_exists.mp moves
  have next : Next w (w.stir h) := by
    rw [stir, moved]
    exact .worker moved
  exact ⟨⟨next, no_call _ nofun, no_call _ nofun, calm⟩, no_call _ nofun⟩

/-! ## Both cases -/

/-- A start that a dispatcher makes of its own handler succeeds, where the clock runs already. -/
theorem returns_own_start {record : Record π} {since : Instant} {rest : List (Action π)}
    (found : w.find? h = some x)
    (hworker : x.worker = some (.dispatching record since (.start h :: rest) none))
    (ticks : (w.clock (x.clock.getD sharedClock)).isRunning = true) :
    Returns (.start h) .done w (w.stir h) := by
  obtain ⟨hx, alive⟩ := find?_eq_some.mp found
  let y : Handler π := { x with worker := some (.dispatching record since rest none) }
  have begun : (w.setWorker h (.dispatching record since rest none)).find? h = some y :=
    find?_eq_some.mpr ⟨by simp [setWorker, hx, y], alive⟩
  have started : (w.clock (x.clock.getD sharedClock)).start =
      .ok (w.clock (x.clock.getD sharedClock), []) := by
    rw [Clock.start, if_pos ticks]
  have replied :
      ((w.setWorker h (.dispatching record since rest none)).perform (.worker h) (.start h)).2 =
        .replied (startReply
          ((w.setWorker h (.dispatching record since rest none)).start h y).2) := by
    simp only [perform, withHandler, begun]
    rfl
  rw [stir_dispatching found hworker]
  refine .dispatch found hworker ?_
  rw [replied, start_result begun]
  simp only [setWorker, clock_modify, y, started]
  rfl

/-- A dispatcher stops its handler and then starts it. The start succeeds, nobody calls for a stop
or a start afterwards, and no dispatcher panics; but once everything has settled the handler is
stopped. -/
theorem start_lost_after_own_stop :
    ¬ ∀ v w u : World Nat, Reachable v → Returns (.start 0) .done v w →
      Relation.ReflTransGen (fun t t' => Lets 0 t t' ∧ ¬ Calls (.start 0) t t') w u →
      u.panics 0 = 0 → u.move? = none → ∃ x, u.find? 0 = some x ∧ x.isRunning = true := by
  intro lasts
  let signalled := (((single Nat).steps 20 [.act (.start 0)]).perform .outside
    (.signal 0 .tail "A" 1 [.stop 0, .start 0])).1
  let v := ((signalled.stir 0).stir 0).stir 0
  let w := v.stir 0
  let u := (w.stir 0).stir 0
  have reach : Reachable v := by
    have before : Reachable ((single Nat).steps 20 [.act (.start 0)]) :=
      single_fresh.reachable.steps 20 _
    have signals : Reachable signalled := before.next (.act _ _)
    exact signals.run (((stir_run signalled 0).trans (stir_run _ 0)).trans (stir_run _ 0))
  have started : Returns (.start 0) .done v w := by
    have starts : ((v.find? 0).any fun x => x.starting? = some 0 ∧ x.clock = some 0) = true := by
      decide +kernel
    obtain ⟨x, found, starts⟩ := (Option.any_eq_true _ _).mp starts
    obtain ⟨starting, clock⟩ := of_decide_eq_true starts
    obtain ⟨record, since, rest, hworker⟩ := Handler.starting?_eq_some.mp starting
    have ticks : (v.clock 0).isRunning = true := by decide +kernel
    exact returns_own_start found hworker (by rw [clock]; exact ticks)
  have finishes : Lets 0 w (w.stir 0) ∧ ¬ Calls (.start 0) w (w.stir 0) :=
    lets_stir (b := true) (by decide +kernel) (by decide +kernel) (by decide +kernel)
      (by decide +kernel)
  have leaves : Lets 0 (w.stir 0) u ∧ ¬ Calls (.start 0) (w.stir 0) u :=
    lets_stir (b := false) (by decide +kernel) (by decide +kernel) (by decide +kernel)
      (by decide +kernel)
  have settled : u.move? = none := Option.isNone_iff_eq_none.mp (by decide +kernel)
  obtain ⟨x, found, running⟩ := lasts v w u reach started (.tail (.single finishes) leaves)
    (by decide +kernel) settled
  have stopped : (u.find? 0).map Handler.isRunning = some false := by decide +kernel
  simp [found, running] at stopped

/-- A stopped handler is started, and an event is signalled. Until its worker moves it is queued. -/
theorem start_lasts_past_signal :
    let v := single Nat
    let w := (v.perform .outside (.start 0)).1
    let u := (w.perform .outside (.signal 0 .tail "A" 1 [])).1
    Reachable v ∧ Returns (.start 0) .done v w ∧ ¬ v.Stopping 0 ∧ Lets 0 w u ∧ u.Serves 0 ∧
      u.stops 0 = w.stops 0 := by
  intro v w u
  have reach : Reachable v := single_fresh.reachable
  let x : Handler Nat := { config := { name := "single" }, types := .ofList [⟨"A", "a"⟩] }
  have found : v.find? 0 = some x := rfl
  have started : Returns (.start 0) .done v w :=
    .outside (perform_start_done .outside found (by decide +kernel))
  have unasked : ¬ v.Stopping 0 := by
    rintro ⟨x, found, running, -⟩
    have stopped : (v.find? 0).map Handler.isRunning = some false := by decide +kernel
    simp [found, running] at stopped
  have serves : w.Serves 0 := started.serves_or_stopping.1 unasked
  have quiet : ¬ (Calls (.stop 0) w u ∨ Calls (.destroy 0) w u) := by
    intro calls
    obtain ⟨x, found, -, asked⟩ := Calls.stopping calls serves
    have kept : (u.find? 0).map Handler.stopRequested = some false := by decide +kernel
    simp [found, asked] at kept
  have lets : Lets 0 w u :=
    ⟨.act w _, fun stops => quiet (.inl stops), fun destroys => quiet (.inr destroys),
      by decide +kernel⟩
  obtain ⟨lasts, stops, -⟩ := (start_lasts reach started).1 unasked u (.single lets)
  exact ⟨reach, started, unasked, lets, lasts, stops⟩

end World
end EventEngine
