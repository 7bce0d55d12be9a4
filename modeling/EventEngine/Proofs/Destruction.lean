import EventEngine.Proofs.FailedStarts
import EventEngine.Proofs.Leftovers
import EventEngine.Proofs.Pasts.Histories

/-!
# Destroying a handler

A destruction asks the worker to stop, waits until it is gone and gives up the reference to the
handler that was used. The worker itself cannot wait for its own end: it is told that it is still
there, and has asked itself to stop.
-/
namespace EventEngine

variable {π : Type} {h : HandlerId}

open Occurrence

namespace World

variable {g : HandlerId} {c : ClockId} {id : AlarmId} {s₀ s u v w e : World π} {x : Handler π}
  {reply : Reply}

/-! ## How a destruction is answered -/

/-- Without a worker the reference is given up at once. -/
theorem perform_destroy_idle (who : Caller) (found : w.find? h = some x)
    (idle : x.isRunning = false) : w.perform who (.destroy h) =
      ((w.modify h Handler.release).note (.destroyed h), .replied .done) := by
  simp [perform, withHandler, found, requestStop, idle, concludeDestroy]

/-- With a worker a destruction does what a stop does, and waits for the worker or tells it that it
is still there. -/
theorem perform_destroy_running (who : Caller) (found : w.find? h = some x)
    (running : x.isRunning = true) :
    (w.perform who (.destroy h)).1 = (w.perform who (.stop h)).1 ∧
    (w.perform who (.destroy h)).2 = if who = .worker h then
      .replied (.crashed (liveWorkerMessage x)) else .waits (.exit h x.exits true) := by
  by_cases own : who = .worker h
  · subst own
    have asked := find?_requestStop found running (.worker h) true
    have stays : x.stopRequest.isRunning = true := running
    have told : liveWorkerMessage x.stopRequest = liveWorkerMessage x := rfl
    simp only [requestStop, running, if_true, find?_note] at asked
    simp [perform, withHandler, found, requestStop, running, concludeDestroy, asked, stays, told]
  · simp [perform, withHandler, found, requestStop, running, own]

/-- Only its own worker is told at once that a handler has a worker. -/
theorem perform_destroy_crashed_iff (who : Caller) (found : w.find? h = some x) {message : String} :
    (w.perform who (.destroy h)).2 = .replied (.crashed message) ↔
      x.isRunning = true ∧ who = .worker h ∧ message = liveWorkerMessage x := by
  by_cases running : x.isRunning = true
  · rw [(perform_destroy_running who found running).2]
    split
    · next own => simp [running, own, eq_comm]
    · next other => simp [other]
  · rw [perform_destroy_idle who found ((Bool.not_eq_true _).mp running)]
    simp [running]

/-- On its own worker, a destruction of a handler and a stop of it differ in the answer alone. -/
theorem dispatchAction_destroy (found : v.find? h = some x) (record : Record π) (since : Instant)
    (rest : List (Action π)) :
    ∃ t : World π, v.dispatchAction h x record since (.destroy h) rest =
        t.note (.replied h (.crashed (liveWorkerMessage x))) ∧
      v.dispatchAction h x record since (.stop h) rest = t.note (.replied h .done) ∧
      t.find? h =
        some { x with worker := some (.dispatching record since rest none) }.stopRequest := by
  obtain ⟨hx, alive⟩ := find?_eq_some.mp found
  let y : Handler π := { x with worker := some (.dispatching record since rest none) }
  let t := v.setWorker h (.dispatching record since rest none)
  have found' : t.find? h = some y := find?_eq_some.mpr ⟨by simp [t, y, setWorker, hx], alive⟩
  obtain ⟨same, crashed⟩ := perform_destroy_running (.worker h) found' rfl
  rw [if_pos rfl] at crashed
  have done : (t.perform (.worker h) (.stop h)).2 = .replied .done := by
    simp [perform, withHandler, found', requestStop, Handler.isRunning, y]
  refine ⟨(t.perform (.worker h) (.stop h)).1, ?_, dispatchAction_of_replied done, ?_⟩
  · rw [dispatchAction_of_replied crashed, same]
    rfl
  · rw [perform_stop t (.worker h) found']
    exact find?_requestStop found' rfl (.worker h) false

/-- The call of a destruction is answered with a crash on the own worker of the handler, while it
dispatches, and nowhere else. -/
theorem returns_crashed_iff (found : v.find? h = some x) {message : String} :
    Returns (.destroy h) (.crashed message) v w ↔ message = liveWorkerMessage x ∧
      ∃ record since rest, x.worker = some (.dispatching record since (.destroy h :: rest) none) ∧
        w = v.dispatchAction h x record since (.destroy h) rest := by
  -- whoever acts sees the handler as it is
  have seen : ∀ {t : World π} {z : Handler π}, Calm v t → t.find? h = some z →
      liveWorkerMessage z = liveWorkerMessage x ∧ z.isRunning = x.isRunning := by
    intro t z calm found'
    obtain ⟨y, found'', same⟩ := (calm.still h).find? found
    obtain rfl := Option.some.inj (found''.symm.trans found')
    have config : y.config = x.config := congrArg (·.config) same
    refine ⟨by rw [liveWorkerMessage, config, liveWorkerMessage], ?_⟩
    rw [← y.isRunning_outline, same, x.isRunning_outline]
  constructor
  · intro returns
    cases returns with
    | outside crashed =>
      obtain ⟨-, own, -⟩ := (perform_destroy_crashed_iff .outside found).mp crashed
      cases own
    | @dispatch g y record since rest found' hworker crashed =>
      have begun : Calm v (v.setWorker g (.dispatching record since rest none)) :=
        calm_setWorker (find?_eq_some.mp found').1 hworker rfl
      obtain ⟨z, found'', -⟩ := (begun.still h).find? found
      obtain ⟨-, own, rfl⟩ := (perform_destroy_crashed_iff _ found'').mp crashed
      obtain rfl := Caller.worker.inj own
      obtain rfl := Option.some.inj (found.symm.trans found')
      exact ⟨(seen begun found'').1, record, since, rest, hworker, rfl⟩
  · rintro ⟨rfl, record, since, rest, hworker, rfl⟩
    have begun : Calm v (v.setWorker h (.dispatching record since rest none)) :=
      calm_setWorker (find?_eq_some.mp found).1 hworker rfl
    obtain ⟨z, found', -⟩ := (begun.still h).find? found
    obtain ⟨told, running⟩ := seen begun found'
    refine .dispatch found hworker ((perform_destroy_crashed_iff _ found').mpr ⟨?_, rfl, told.symm⟩)
    rw [running]
    simp [Handler.isRunning, hworker]

/-- After the call of a destruction, a handler with a worker is as it is after a stop. -/
theorem Calls.outline_destroy (destroys : Calls (.destroy h) v w) (found : v.find? h = some x)
    (running : x.isRunning = true) : w.outline? h = some x.outline.stopRequest := by
  obtain ⟨t, who, before, after⟩ := destroys.calm nofun
  obtain ⟨y, found', same⟩ := (before.still h).find? found
  have running' : y.isRunning = true := by
    rw [← y.isRunning_outline, same, x.isRunning_outline, running]
  have asked := find?_requestStop found' running' who false
  rw [← perform_stop t who found', ← (perform_destroy_running who found' running').1] at asked
  rw [(after.still h).1, ← same]
  exact outline?_eq_some.mpr ⟨_, (find?_eq_some.mp asked).1, rfl⟩

/-! ## On the own worker -/

/-- A worker on which a stop is pending leaves as soon as it is idle. -/
theorem moveWorker_of_asked (reach : Reachable u) (found : u.find? h = some x)
    (asked : x.stopRequested = true) (idle : x.worker = some .idle) :
    u.moveWorker h = some (u.leave h x) := by
  have aborted : x.queue.aborted = true := (reach.barred (find?_eq_some.mp found).1).1.trans asked
  obtain ⟨-, waited⟩ | ⟨heard, -⟩ | ⟨record, rest, queue, -⟩ := wait_cases x.queue
  · simp [moveWorker, found, idle, waited]
  · cases heard.symm.trans aborted
  · rw [queue] at aborted
    cases aborted

/-- What a destruction of `h` does that is called by a dispatch of `h` itself: the same as a stop,
in all that is done and answered afterwards, too. The dispatch goes on, and the worker leaves after
it, which completes the stop. -/
structure ActsAsOwnStop (h : HandlerId) (x : Handler π) (v : World π) (record : Record π)
    (since : Instant) (rest : List (Action π)) : Prop where
  alike : ∀ ops,
    let w := v.dispatchAction h x record since (.destroy h) rest
    let w' := v.dispatchAction h x record since (.stop h) rest
    w.outcomes ops = w'.outcomes ops ∧ SameState (w.afterAll ops) (w'.afterAll ops)
  goes_on : (v.dispatchAction h x record since (.destroy h) rest).find? h =
    some { x with worker := some (.dispatching record since rest none) }.stopRequest
  ends : ∀ u, Run (v.dispatchAction h x record since (.destroy h) rest) u →
    (∃ y, u.find? h = some y ∧ y.isRunning = true ∧ y.stopRequested = true ∧
      (y.worker = some .idle → u.moveWorker h = some (u.leave h y))) ∨
    ∃ e₀ e, Run (v.dispatchAction h x record since (.destroy h) rest) e₀ ∧ Run e u ∧
      CompletesStop h x e₀ e

theorem actsAsOwnStop {record : Record π} {since : Instant}
    {rest : List (Action π)} (reach : Reachable v) (found : v.find? h = some x)
    (hworker : x.worker = some (.dispatching record since (.destroy h :: rest) none)) :
    ActsAsOwnStop h x v record since rest := by
  obtain ⟨t, destroyed, stopped, asked⟩ := dispatchAction_destroy found record since rest
  have calls : Calls (.destroy h) v (v.dispatchAction h x record since (.destroy h) rest) :=
    .dispatch found hworker
  have running : x.isRunning = true := by simp [Handler.isRunning, hworker]
  have called := calls.outline_destroy found running
  have reach' := reach.next calls.next
  refine ⟨fun ops => ?_, ?_, fun u run => ?_⟩
  · have same : SameState (v.dispatchAction h x record since (.destroy h) rest)
        (v.dispatchAction h x record since (.stop h) rest) := by
      rw [destroyed, stopped]
      exact sameState_note t _ _
    obtain ⟨outcomes, state, -⟩ := same.afterAll ops
    exact ⟨outcomes, state⟩
  · rw [destroyed]
    exact asked
  · rcases run.stays_or_completes reach' called running with
      ⟨y, found', -, running', asked', -⟩ | ⟨e₀, e, before, after, -, completes⟩
    · exact .inl ⟨y, found', running', asked', moveWorker_of_asked (reach'.run run) found' asked'⟩
    · exact .inr ⟨e₀, e, before, after, completes⟩

/-! ## Elsewhere -/

/-- Between `v` and `w` a reference to the handler is given up, and in `w` the handler has no
worker, its queue is not aborted and no stop is pending on it. -/
def Releases (h : HandlerId) (v w : World π) : Prop :=
  ∃ x y, v.handlers[h]? = some x ∧ w.handlers[h]? = some y ∧ y.handles = x.handles - 1 ∧
    y.isRunning = false ∧ y.queue.aborted = false ∧ y.stopRequested = false

/-- A handler without a worker is at rest. -/
theorem Reachable.at_rest (reach : Reachable w) (hx : w.handlers[h]? = some x)
    (idle : x.isRunning = false) : x.queue.aborted = false ∧ x.stopRequested = false := by
  obtain ⟨aborted, present⟩ := reach.barred hx
  have unasked : x.stopRequested = false :=
    (Bool.not_eq_true _).mp fun asked => absurd (idle.symm.trans (present asked)) nofun
  exact ⟨aborted.trans unasked, unasked⟩

/-- Whoever destroys a handler without a worker need not wait. -/
theorem Calls.destroy_idle (reach : Reachable v) (destroys : Calls (.destroy h) v w)
    (found : v.find? h = some x) (idle : x.isRunning = false) :
    Returns (.destroy h) .done v w ∧ Releases h v w := by
  have seen : ∀ {t : World π}, Calm v t →
      ∃ z, t.find? h = some z ∧ z.isRunning = false ∧ z.handles = x.handles := by
    intro t calm
    obtain ⟨z, found', same⟩ := (calm.still h).find? found
    refine ⟨z, found', ?_, congrArg (·.handles) same⟩
    rw [← z.isRunning_outline, same, x.isRunning_outline, idle]
  have returns : Returns (.destroy h) .done v w := by
    cases destroys with
    | outside => exact .outside (by rw [perform_destroy_idle _ found idle])
    | @dispatch g y record since rest found' hworker =>
      have begun : Calm v (v.setWorker g (.dispatching record since rest none)) :=
        calm_setWorker (find?_eq_some.mp found').1 hworker rfl
      obtain ⟨z, found'', idle', -⟩ := seen begun
      exact .dispatch found' hworker (by rw [perform_destroy_idle _ found'' idle'])
  refine ⟨returns, ?_⟩
  obtain ⟨t, who, before, -, after⟩ := returns.calm
  obtain ⟨z, found', idle', handles⟩ := seen before
  rw [perform_destroy_idle who found' idle'] at after
  have outlined : w.outline? h = some z.release.outline := by
    rw [(after.still h).1]
    exact outline?_eq_some.mpr ⟨_, by simp [(find?_eq_some.mp found').1], rfl⟩
  obtain ⟨y, hy, same⟩ := outline?_eq_some.mp outlined
  have left : y.isRunning = false := by
    rw [← y.isRunning_outline, same, Handler.isRunning_outline]
    exact idle'
  have fewer : y.handles = z.handles - 1 := congrArg (·.handles) same
  obtain ⟨heard, unasked⟩ := (reach.next destroys.next).at_rest hy left
  exact ⟨x, y, (find?_eq_some.mp found).1, hy, handles ▸ fewer, left, heard, unasked⟩

/-- How the waiting of a destruction ends. -/
theorem pauseEnd?_destroys {exits : Nat}
    (ended : u.pauseEnd? (.exit h exits true) = some (e, reply)) :
    (u.find? h = none ∧ e = u ∧ reply = .destroyed) ∨ ∃ y, u.find? h = some y ∧
      ((y.isRunning = true ∧ e = u ∧ reply = .crashed (liveWorkerMessage y)) ∨
        (y.isRunning = false ∧
          e = (u.modify h Handler.release).note (.destroyed h) ∧
          reply = .done)) := by
  simp only [pauseEnd?] at ended
  cases found : u.find? h with
  | none =>
    simp only [found, Option.some.injEq, Prod.mk.injEq] at ended
    exact .inl ⟨rfl, ended.1.symm, ended.2.symm⟩
  | some y =>
    simp only [found] at ended
    split at ended
    · cases ended
    · simp only [if_true, Option.some.injEq, concludeDestroy, found] at ended
      refine .inr ⟨y, rfl, ?_⟩
      split at ended
      · next running =>
        cases ended
        exact .inl ⟨running, rfl, rfl⟩
      · next idle =>
        cases ended
        exact .inr ⟨(Bool.not_eq_true _).mp idle, rfl, rfl⟩

/-- Whenever the waiting for the worker ends, and no other worker has been started in the meantime,
the reference is given up, unless others have given up the last one meanwhile. The worker has left
between the call and the end of the waiting, and nothing is queued but what has been accepted since
then. -/
theorem Calls.destroy_ends (reach : Reachable v) (destroys : Calls (.destroy h) v w)
    (found : v.find? h = some x) (running : x.isRunning = true) (run : Run w u)
    (ended : u.pauseEnd? (.exit h x.exits true) = some (e, reply))
    (same : u.startups h = w.startups h) :
    (reply = .done ∨ reply = .destroyed ∧ u.find? h = none) ∧ Releases h u e ∧
    ∃ e₀ e₁, Run w e₀ ∧ Run e₁ u ∧ CompletesStop h x e₀ e₁ ∧ ∀ y, e.handlers[h]? = some y →
      y.metrics.stops = x.metrics.stops + 1 ∧
      (accepted (u.story h) = accepted (e₁.story h) → y.queue.events = []) := by
  have called := destroys.outline_destroy found running
  rcases run.stays_or_completes (reach.next destroys.next) called running with
    ⟨y, found', waiting, -⟩ | ⟨e₀, e₁, before, after, launches₁, completes⟩
  · -- the worker would still be there
    simp [pauseEnd?, found', waiting] at ended
  · have unstarted : e₁.startups h = w.startups h := by
      have le := Run.startups_le (h := h) after
      have le' := Run.startups_le (h := h) ((before.tail completes.step))
      omega
    obtain ⟨y, hy, idle, heard, unasked, stops, -, quiet⟩ :=
      completes.atRest u after (same.trans unstarted.symm)
    rcases pauseEnd?_destroys ended with
      ⟨gone, rfl, rfl⟩ | ⟨z, found', ⟨running', -, -⟩ | ⟨-, rfl, rfl⟩⟩
    · have last : y.handles = y.handles - 1 := by
        have destroyed : y.isDestroyed = true := by
          refine (Bool.not_eq_false _).mp fun alive => ?_
          cases gone.symm.trans (find?_eq_some.mpr ⟨hy, alive⟩)
        have none : y.handles = 0 := by simpa [Handler.isDestroyed] using destroyed
        rw [none]
      refine ⟨.inr ⟨rfl, gone⟩, ⟨y, y, hy, hy, last, idle, heard, unasked⟩, e₀, e₁, before, after,
        completes, fun y' hy' => ?_⟩
      obtain rfl := Option.some.inj (hy.symm.trans hy')
      exact ⟨stops, quiet⟩
    · obtain rfl := Option.some.inj (hy.symm.trans (find?_eq_some.mp found').1)
      cases idle.symm.trans running'
    · have hy' : ((u.modify h Handler.release).note (.destroyed h)).handlers[h]? =
          some y.release := by simp [hy]
      refine ⟨.inl rfl, ⟨y, _, hy, hy', rfl, idle, heard, unasked⟩, e₀, e₁, before, after,
        completes, fun z hz => ?_⟩
      obtain rfl := Option.some.inj (hy'.symm.trans hz)
      exact ⟨stops, quiet⟩

/-! ## Alarms -/

/-- A destruction removes the alarm that the handler knows of. -/
theorem Calls.holds_iff (destroys : Calls (.destroy h) v w) :
    w.Holds c id h ↔ v.Holds c id h ∧ ¬ v.Drops h c id := by
  have mem : ∀ a, a ∈ (w.clock c).alarms ↔ a ∈ (v.clock c).alarms ∧ ¬ v.Drops h c a.id :=
    fun a => destroys.mem_alarms nofun fun t who => mem_alarms_destroy who
  simp only [Holds, mem]
  constructor
  · rintro ⟨a, ⟨member, kept⟩, rfl, callback⟩
    exact ⟨⟨a, member, rfl, callback⟩, kept⟩
  · rintro ⟨⟨a, member, rfl, callback⟩, kept⟩
    exact ⟨a, ⟨member, kept⟩, rfl, callback⟩

/-- What alarms of `h` are left after the call of a destruction, `w`, until a worker is started. The
alarm that the handler knows of is removed. So there is none but those that were there before the
worker was started, if the handler has kept its clock since then and no start was in progress on
another one, and none at all if the handler has always kept its clock and neither a dispatcher of it
nor the making of a worker has panicked. -/
structure ClearsAlarms (h : HandlerId) (v w : World π) : Prop where
  removes : ∀ c id, w.Holds c id h ↔ v.Holds c id h ∧ ¬ v.Drops h c id
  older : ∀ s₀ s, Reachable s₀ → Next s₀ s → s.launches h ≠ s₀.launches h →
    (∀ y, s₀.handlers[h]? = some y → y.OnClock) →
    Relation.ReflTransGen (KeepsClock h) s v → v.launches h = s.launches h →
    ∀ u, Run w u → u.launches h = w.launches h → ∀ c id, u.Holds c id h → s₀.Holds c id h
  nothing : ∀ w₀, Fresh w₀ → Relation.ReflTransGen (KeepsClock h) w₀ v → v.crashes h = 0 →
    ∀ u, Run w u → u.launches h = w.launches h → ∀ c id, ¬ u.Holds c id h

theorem clearsAlarms (destroys : Calls (.destroy h) v w) (found : v.find? h = some x)
    (running : x.isRunning = true) : ClearsAlarms h v w := by
  refine ⟨fun c id => destroys.holds_iff, ?_, ?_⟩
  · intro s₀ s reach step launched onClock keeps launches u run launches' c id held
    obtain ⟨held_v, unknown⟩ := destroys.holds_iff.mp (run.holds launches' held)
    exact holds_before_launch reach step launched onClock keeps launches found running held_v
      unknown
  · intro w₀ fresh keeps calm u run launches c id held
    obtain ⟨held_v, unknown⟩ := destroys.holds_iff.mp (run.holds launches held)
    have traced := traced_of_keepsClock fresh calm keeps _ _ held_v
    obtain ⟨y, hy, same⟩ := Option.map_eq_some_iff.mp traced
    obtain ⟨registered, clock⟩ := Prod.mk.inj same
    obtain rfl := Option.some.inj (hy.symm.trans (find?_eq_some.mp found).1)
    exact unknown ⟨y, found, running, registered, clock⟩

/-! ## What a destruction guarantees -/

/-- A destruction crashes at once just on the own worker of the handler, where it acts as a stop.
Everywhere else it waits if the handler has a worker, and once the waiting has ended without another
start of the handler, it is answered without a crash and the reference that was used is given up.
The handler then has no worker, its queue is not aborted and no stop is pending on it. Nothing is
left on the queue of a handler that had a worker but what has been accepted since the worker left.
Of its alarms, just the one is removed that the handler knows of on the clock that it has now: if
the handler has kept its clock, older alarms may be left that are there since a dispatcher or the
making of a worker has panicked, and no others. -/
theorem destroy_guarantees (reach : Reachable v) (found : v.find? h = some x) :
    (∀ message w, Returns (.destroy h) (.crashed message) v w ↔ message = liveWorkerMessage x ∧
      ∃ record since rest, x.worker = some (.dispatching record since (.destroy h :: rest) none) ∧
        w = v.dispatchAction h x record since (.destroy h) rest) ∧
    (∀ record since rest, x.worker = some (.dispatching record since (.destroy h :: rest) none) →
      ActsAsOwnStop h x v record since rest) ∧
    (x.isRunning = false → ∀ w, Calls (.destroy h) v w →
      Returns (.destroy h) .done v w ∧ Releases h v w) ∧
    (x.isRunning = true →
      (∀ who, who ≠ .worker h →
        (v.perform who (.destroy h)).2 = .waits (.exit h x.exits true)) ∧
      ∀ w, Calls (.destroy h) v w → ClearsAlarms h v w ∧
        ∀ u e reply, Run w u → u.startups h = w.startups h →
          u.pauseEnd? (.exit h x.exits true) = some (e, reply) →
          (reply = .done ∨ reply = .destroyed ∧ u.find? h = none) ∧ Releases h u e ∧
          ∃ e₀ e₁, Run w e₀ ∧ Run e₁ u ∧ CompletesStop h x e₀ e₁ ∧
            ∀ y, e.handlers[h]? = some y → y.metrics.stops = x.metrics.stops + 1 ∧
              (accepted (u.story h) = accepted (e₁.story h) → y.queue.events = [])) := by
  refine ⟨fun message w => returns_crashed_iff found,
    fun record since rest => actsAsOwnStop reach found,
    fun idle w destroys => destroys.destroy_idle reach found idle, fun running => ⟨?_, ?_⟩⟩
  · intro who other
    rw [(perform_destroy_running who found running).2, if_neg other]
  · intro w destroys
    refine ⟨clearsAlarms destroys found running, fun u e reply run same ended => ?_⟩
    exact destroys.destroy_ends reach found running run ended same

/-- A dispatcher panics, and its handler is started again and destroyed. The reference is given up
and the alarm of its second worker is gone, but the alarm of the first one is still scheduled. -/
theorem alarm_left_by_destroy :
    let v := (single Nat).steps 20 [.act (.setTimeout 0 (.ofParts 1 0) 0 []), .act (.start 0),
      .act (.signal 0 .tail "A" 1 [.panic]), .act (.start 0)]
    let w := (v.perform .outside (.destroy 0)).1
    ∃ x e, v.find? 0 = some x ∧
      (v.perform .outside (.destroy 0)).2 = .waits (.exit 0 x.exits true) ∧
      (w.settle 20).pauseEnd? (.exit 0 x.exits true) = some (e, .done) ∧
      Releases 0 (w.settle 20) e ∧
      v.Holds 0 2 0 ∧ ¬ w.Holds 0 2 0 ∧ w.Holds 0 1 0 ∧ e.Holds 0 1 0 := by
  intro v w
  have reach : Reachable v := single_fresh.reachable.steps 20 _
  have seen : (v.find? 0).map (fun x => (x.isRunning, x.exits, x.timeoutAlarm, x.clock)) =
      some (true, 1, some 2, some 0) := by decide +kernel
  obtain ⟨x, found, shown⟩ := Option.map_eq_some_iff.mp seen
  simp only [Prod.mk.injEq] at shown
  obtain ⟨running, exits, registered, clock⟩ := shown
  obtain ⟨-, -, -, elsewhere⟩ := destroy_guarantees reach found
  obtain ⟨waits, destroys⟩ := elsewhere running
  obtain ⟨clears, ends⟩ := destroys w (.outside v)
  have concluded : ((w.settle 20).pauseEnd? (.exit 0 1 true)).map (fun ended =>
      (ended.1.clock 0).alarms.any fun a => a.id = 1 ∧ a.callback = .handler 0) = some true := by
    decide +kernel
  obtain ⟨⟨e, reply⟩, ended, left⟩ := Option.map_eq_some_iff.mp concluded
  rw [← exits] at ended
  have same : (w.settle 20).startups 0 = w.startups 0 := by decide +kernel
  have alive : ((w.settle 20).find? 0).isSome = true := by decide +kernel
  obtain ⟨rfl | ⟨-, gone⟩, released, -⟩ := ends _ _ _ (settle_run 20 w) same ended
  case inr => simp [gone] at alive
  have held : ∀ {u : World Nat} {id : AlarmId},
      ((u.clock 0).alarms.any fun a => a.id = id ∧ a.callback = .handler 0) = true →
        u.Holds 0 id 0 := by
    intro u id there
    obtain ⟨a, member, own⟩ := List.any_eq_true.mp there
    exact ⟨a, member, of_decide_eq_true own⟩
  have before : v.Holds 0 1 0 ∧ v.Holds 0 2 0 :=
    ⟨held (by decide +kernel), held (by decide +kernel)⟩
  refine ⟨x, e, found, waits .outside nofun, ended, released, before.2, ?_, ?_, held left⟩
  · rw [clears.removes]
    exact fun both => both.2 ⟨x, found, running, registered, clock⟩
  · refine (clears.removes 0 1).mpr ⟨before.1, fun drops => ?_⟩
    have known := ((drops_iff found).mp drops).2.1
    exact absurd (registered.symm.trans known) (by decide)

end World
end EventEngine
