import EventEngine.Proofs.LastingStarts

/-!
# The barrier of a stop

A stop aborts the queue of a handler, and the exit of its worker resets the abort. Between the two
the worker finds the queue aborted whenever it looks at it, so that it takes nothing out any more:
of all records only the one that it has in hand is still dispatched. The worker that the next start
makes finds no abort.
-/
namespace EventEngine

variable {π : Type} {h : HandlerId}

open Occurrence

namespace Handler

variable {x x' : Handler π} {notes : List (Occurrence π)}

/-- The queue is aborted just while a stop is pending, and a stop is pending on a worker only. -/
structure Barred (x : Handler π) : Prop where
  aborted : x.queue.aborted = x.stopRequested
  present : x.stopRequested = true → x.isRunning = true

/-- A worker that leaves takes the abort with it. -/
theorem Barred.exit (barred : x.Barred) : x.exit.Barred := by
  unfold Handler.exit
  split
  · exact ⟨rfl, nofun⟩
  · next unasked =>
    have unasked : x.stopRequested = false := (Bool.not_eq_true _).mp unasked
    exact ⟨barred.aborted, fun asked => absurd (asked.symm.trans unasked) nofun⟩

theorem Turn.barred (turn : Turn h x notes x') (barred : x.Barred) : x'.Barred := by
  obtain ⟨aborted, present⟩ := barred
  cases turn with
  | enqueue place body _ => cases place <;> exact ⟨aborted, present⟩
  | clear _ => exact ⟨aborted, present⟩
  | configure setup => exact ⟨aborted, present⟩
  | setClock c => exact ⟨aborted, present⟩
  | beginStart => exact ⟨aborted, present⟩
  | skipStart _ _ => exact ⟨aborted, present⟩
  | start id _ _ => exact ⟨rfl, fun _ => rfl⟩
  | refuse _ _ => exact ⟨rfl, nofun⟩
  | crash id _ _ => exact ⟨rfl, nofun⟩
  | requestStop running => exact ⟨rfl, fun _ => running⟩
  | take record rest _ queued =>
    have heard : x.stopRequested = false := by rw [← aborted, queued]
    exact ⟨heard.symm, fun _ => rfl⟩
  | «begin» record since _ => exact ⟨aborted, fun _ => rfl⟩
  | finish record since elapsed _ => exact ⟨aborted, fun _ => rfl⟩
  | panic _ _ _ => exact Barred.exit ⟨aborted, present⟩
  | leave _ _ => exact Barred.exit ⟨aborted, present⟩
  | destroy _ => exact ⟨aborted, present⟩

/-- Only the start of a worker counts as one, and it leaves a worker that has nothing in hand and
finds no abort. -/
theorem Turn.launched (turn : Turn h x notes x') (started : notes.countP isStarted ≠ 0) :
    x'.isRunning = true ∧ x'.held = none ∧ x'.queue.aborted = false ∧ x'.stopRequested = false := by
  cases turn with
  | start id _ _ => exact ⟨rfl, rfl, rfl, rfl⟩
  | panic record since _ => simp [List.countP_append, isStarted] at started
  | leave _ _ => exact absurd countP_isStarted_exitStory started
  | _ => exact absurd rfl started

/-- Behind the barrier a worker dispatches what it waits for the lock with, and nothing else. -/
theorem Turn.behind_barrier (turn : Turn h x notes x') (barred : x.Barred)
    (unstarted : notes.countP isStarted = 0)
    (doomed : x.isRunning = true → x.stopRequested = true) :
    dispatched notes ++ x'.waiting.toList = x.waiting.toList := by
  have exits : dispatched (x.exitStory h) = [] ∧ x.exit.waiting = none := by
    unfold exitStory exit
    split
    · split <;> exact ⟨rfl, rfl⟩
    · exact ⟨rfl, rfl⟩
  cases turn with
  | enqueue place body _ => cases place <;> rfl
  | start id _ _ => simp [isStarted] at unstarted
  | take record rest idle queued =>
    -- it would have found the queue aborted
    have asked := barred.aborted.trans (doomed (by simp [isRunning, idle]))
    simp [queued] at asked
  | «begin» record since holding => simp [dispatched?, waiting, holding]
  | finish record since elapsed dispatching => simp [dispatched?, waiting, dispatching]
  | panic record since dispatching =>
    have untold : dispatched (x.exitStory h ++ [.panicked h record]) = [] := by
      simpa [dispatched, dispatched?] using exits.1
    have waits : x.waiting = none := by simp [waiting, dispatching]
    rw [untold, exits.2, waits]
    rfl
  | leave idle _ =>
    have waits : x.waiting = none := by simp [waiting, idle]
    rw [exits.1, exits.2, waits]
    rfl
  | _ => rfl

/-- Nobody but the worker takes a record in hand, and behind the barrier it does not. -/
theorem Turn.held_behind_barrier (turn : Turn h x notes x') (barred : x.Barred)
    (doomed : x.isRunning = true → x.stopRequested = true) {record : Record π}
    (held : x'.held = some record) : x.held = some record := by
  have exited : x.exit.held = none := by simp [Handler.held]
  cases turn with
  | enqueue place body _ => cases place <;> exact held
  | start id _ _ => cases held
  | take record rest idle queued =>
    have asked := barred.aborted.trans (doomed (by simp [isRunning, idle]))
    simp [queued] at asked
  | «begin» record since holding => simpa [Handler.held, holding, Worker.held] using held
  | finish record since elapsed _ => cases held
  | panic _ _ _ => simp [exited] at held
  | leave _ _ => simp [exited] at held
  | _ => exact held

@[simp] theorem waiting_outline (x : Handler π) : x.outline.waiting = x.waiting := by
  rcases hx : x.worker with _ | _ | _ | _ <;> simp [waiting, outline, hx, Worker.outline]

end Handler

namespace World

variable {u v w : World π} {x : Handler π}

theorem Reachable.barred_outline (reach : Reachable w) (outlined : w.outline? h = some x) :
    x.Barred := by
  refine reach.turns (P := fun x _ => x.Barred) ?_ (fun _ _ _ _ barred turn => turn.barred barred) x
    outlined
  rintro x ⟨_, _, _, _, _, _, rfl⟩
  exact ⟨rfl, nofun⟩

theorem Reachable.barred (reach : Reachable w) (hx : w.handlers[h]? = some x) : x.Barred := by
  obtain ⟨aborted, present⟩ := reach.barred_outline (outline?_eq_some.mpr ⟨x, hx, rfl⟩)
  exact ⟨aborted, fun asked => x.isRunning_outline.symm.trans (present asked)⟩

/-- The dispatches of a handler, with the one that its worker waits for the lock with. -/
def served (w : World π) (h : HandlerId) : List (Record π) :=
  dispatched (w.story h) ++ (((w.outline? h).bind Handler.waiting).toList)

theorem served_eq (hx : w.handlers[h]? = some x) :
    w.served h = dispatched (w.story h) ++ x.waiting.toList := by
  rw [served, outline?, hx]
  simp

/-- Without a start of a worker, a handler on whose worker a stop is pending takes up no record. -/
theorem Doomed.served (reach : Reachable v) (doomed : v.Doomed h) (step : Next v w)
    (same : w.startups h = v.startups h) : w.served h = v.served h := by
  rcases step.evolves h with still | ⟨x, notes, x', outlined, turn, outlined', told⟩
  · rw [World.served, still.1, still.2, World.served]
  · have unstarted : notes.countP isStarted = 0 := by
      rw [World.startups, told, List.countP_append, World.startups] at same
      omega
    have kept := turn.behind_barrier (reach.barred_outline outlined) unstarted (doomed x outlined)
    have split : dispatched (notes ++ v.story h) = dispatched (v.story h) ++ dispatched notes := by
      simp [dispatched]
    simp only [World.served, outlined, outlined', told, split, Option.bind_some, List.append_assoc,
      kept]

theorem Doomed.served_run (reach : Reachable v) (doomed : v.Doomed h) (run : Run v w)
    (same : w.startups h = v.startups h) : w.served h = v.served h := by
  induction run with
  | refl => rfl
  | @tail u w before step ih =>
    have le := Run.startups_le (h := h) before
    have le' := Run.startups_le (h := h) (.single step)
    have doomed' : u.Doomed h := doomed.run before (by omega)
    exact (doomed'.served (reach.run before) step (by omega)).trans (ih (by omega))

theorem Doomed.held {y : Handler π} (reach : Reachable v) (doomed : v.Doomed h) (step : Next v w)
    (hx : v.handlers[h]? = some x) (hy : w.handlers[h]? = some y) {record : Record π}
    (held : y.held = some record) : x.held = some record := by
  have outlined : v.outline? h = some x.outline := outline?_eq_some.mpr ⟨x, hx, rfl⟩
  have outlined' : w.outline? h = some y.outline := outline?_eq_some.mpr ⟨y, hy, rfl⟩
  rw [← y.held_outline] at held
  rw [← x.held_outline]
  rcases step.evolves h with ⟨same, -⟩ | ⟨x₀, notes, y₀, outlined₀, turn, outlined₀', -⟩
  · rw [outlined, outlined', Option.some.injEq] at same
    rwa [← same]
  · obtain rfl := Option.some.inj (outlined.symm.trans outlined₀)
    obtain rfl := Option.some.inj (outlined'.symm.trans outlined₀')
    exact turn.held_behind_barrier (reach.barred_outline outlined) (doomed _ outlined) held

/-- No step loses a handler. -/
theorem Run.outline_isSome (run : Run v w) (there : (v.outline? h).isSome = true) :
    (w.outline? h).isSome = true := by
  induction run with
  | refl => exact there
  | tail _ step ih =>
    rcases step.evolves h with ⟨same, -⟩ | ⟨_, _, _, -, -, outlined, -⟩
    · rwa [same]
    · rw [outlined]
      rfl

theorem Next.launched {y : Handler π} (step : Next v w) (more : w.startups h ≠ v.startups h)
    (hy : w.handlers[h]? = some y) :
    y.isRunning = true ∧ y.held = none ∧ y.queue.aborted = false ∧ y.stopRequested = false := by
  rcases step.evolves h with still | ⟨x, notes, x', -, turn, outlined, told⟩
  · exact absurd still.startups more
  · have started : notes.countP isStarted ≠ 0 := by
      rw [World.startups, told, List.countP_append, World.startups] at more
      omega
    obtain rfl := Option.some.inj
      ((outline?_eq_some.mpr ⟨y, hy, rfl⟩ : w.outline? h = some y.outline).symm.trans outlined)
    obtain ⟨running, empty, heard, unasked⟩ := turn.launched started
    exact ⟨y.isRunning_outline.symm.trans running, y.held_outline.symm.trans empty, heard, unasked⟩

/-- In every reachable world a handler's queue is aborted just while a stop is pending, and a stop
is pending on a worker only: a stop or a destruction of a handler with a worker brings this about,
and with the worker the abort is gone. While the stop is pending, and on to the start of the next
worker, nothing is dispatched but the record that waits for the lock, if there is one, and no step
takes another record in hand. A new worker has no record in hand and finds no abort. -/
theorem stop_bars_queue (reach : Reachable v) (hx : v.handlers[h]? = some x) :
    (x.queue.aborted = true ↔ x.stopRequested = true) ∧
    (x.stopRequested = true → x.isRunning = true) ∧
    (x.isRunning = false → x.queue.aborted = false) ∧
    (x.isRunning = true → x.isDestroyed = false → ∀ w,
      Calls (.stop h) v w ∨ Calls (.destroy h) v w → w.Stopping h) ∧
    (x.stopRequested = true → ∀ u, Run v u → u.startups h = v.startups h →
      ∃ y, u.handlers[h]? = some y ∧
        dispatched (u.story h) ++ y.waiting.toList = dispatched (v.story h) ++ x.waiting.toList ∧
        ∀ u' z, Next u u' → u'.handlers[h]? = some z →
          ∀ record, z.held = some record → y.held = some record) ∧
    ∀ w y, Next v w → w.startups h ≠ v.startups h → w.handlers[h]? = some y →
      y.isRunning = true ∧ y.held = none ∧ y.queue.aborted = false ∧ y.stopRequested = false := by
  obtain ⟨aborted, present⟩ := reach.barred hx
  refine ⟨by rw [aborted], present, ?_, ?_, ?_, fun w y step more => step.launched more⟩
  · intro idle
    rw [aborted, ← Bool.not_eq_true]
    exact fun asked => absurd ((present asked).symm.trans idle) nofun
  · intro running alive w calls
    exact Calls.stopping calls ⟨x, find?_eq_some.mpr ⟨hx, alive⟩, running, rfl⟩
  · intro asked u run same
    have doomed : v.Doomed h := by
      intro y outlined _
      obtain rfl := Option.some.inj
        ((outline?_eq_some.mpr ⟨x, hx, rfl⟩ : v.outline? h = _).symm.trans outlined)
      exact asked
    have there : (v.outline? h).isSome = true := by simp [outline?, hx]
    obtain ⟨_, outlined⟩ := Option.isSome_iff_exists.mp (run.outline_isSome there)
    obtain ⟨y, hy, -⟩ := outline?_eq_some.mp outlined
    have kept := doomed.served_run reach run same
    rw [served_eq hy, served_eq hx] at kept
    refine ⟨y, hy, kept, fun u' z step hz record => ?_⟩
    exact (doomed.run run same).held (reach.run run) step hy hz

/-- An event is taken by a worker that cannot get its lock, and the handler is stopped. What is
signalled and started afterwards makes no difference: once the lock is free, the event in hand is
dispatched, and nothing else. -/
theorem held_event_dispatched_after_stop :
    let w₀ : World Nat := {
      locks := [none]
      handlers := [{ config := { name := "a" }, types := .ofList [⟨"A", "a"⟩], lock := some 0 }] }
    let v := w₀.steps 20 [.lock 0, .act (.start 0), .act (.signal 0 .tail "A" 1 []),
      .act (.signal 0 .tail "A" 2 []), .stopAsync 0]
    let u := v.steps 20 [.act (.signal 0 .head "A" 3 []), .act (.start 0), .unlock 0]
    (v.find? 0).map (fun x => (x.stopRequested, x.waiting.map Record.serial)) =
      some (true, some 0) ∧
    ((dispatched (v.story 0)).map Record.serial, (dispatched (u.story 0)).map Record.serial) =
      ([], [0]) ∧
    ∃ x y, v.handlers[0]? = some x ∧ u.handlers[0]? = some y ∧
      dispatched (u.story 0) ++ y.waiting.toList = dispatched (v.story 0) ++ x.waiting.toList := by
  intro w₀ v u
  have fresh : Fresh w₀ := by
    refine fresh_of_handlers 1 1 fun x hx => ?_
    exact ⟨_, _, _, _, _, _, List.mem_singleton.mp hx⟩
  have reach : Reachable v := fresh.reachable.steps 20 _
  have pending : (v.find? 0).map (fun x => (x.stopRequested, x.waiting.map Record.serial)) =
      some (true, some 0) := by decide +kernel
  obtain ⟨x, found, same⟩ := Option.map_eq_some_iff.mp pending
  obtain ⟨asked, -⟩ := Prod.mk.inj same
  obtain ⟨hx, -⟩ := find?_eq_some.mp found
  have run : Run v u := steps_run 20 v _
  obtain ⟨-, -, -, -, barrier, -⟩ := stop_bars_queue reach hx
  obtain ⟨y, hy, kept, -⟩ := barrier asked u run (by decide +kernel)
  exact ⟨pending, by decide +kernel, x, y, hx, hy, kept⟩

end World
end EventEngine
