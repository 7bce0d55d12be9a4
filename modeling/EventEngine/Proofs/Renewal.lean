import EventEngine.Proofs.Delivery
import EventEngine.Proofs.Pasts.Renewed
import EventEngine.Proofs.StopBarrier
import EventEngine.Proofs.Timeouts
import Mathlib.Data.List.Induction

/-!
# A restarted handler

A completed stop leaves a handler at rest, so that it goes on as a new one would. Only its alarms
may come back: a clock may still know of one, and if the handler is given another clock, it may
register the same id there. Then what the old alarm fires is taken for a timeout.
-/
namespace EventEngine

variable {π : Type} {h g : HandlerId}

open Occurrence

namespace Handler

/-- The last worker was ended by a completed stop: of the completed stops and the starts that came
to the making of a worker, the last one is a stop. -/
def endedByStop (story : List (Occurrence π)) : Bool :=
  (story.find? fun o => o.isLaunch || o.isStopped).any isStopped

variable {x x' : Handler π} {notes story : List (Occurrence π)}

/-- A worker that a stop ends leaves neither a worker nor an alarm, and only a start makes them. -/
theorem Turn.ended (turn : Turn h x notes x') (disarmed : x.Disarmed story)
    (ended : endedByStop story = true → x.worker = none ∧ x.timeoutAlarm = none) :
    endedByStop (notes ++ story) = true → x'.worker = none ∧ x'.timeoutAlarm = none := by
  cases turn with
  | enqueue place body _ => cases place <;> exact ended
  | clear _ => exact ended
  | configure setup => exact ended
  | setClock c => exact ended
  | beginStart => exact ended
  | skipStart _ _ => exact ended
  | start id _ _ => exact nofun
  | refuse idle _ => exact fun _ => ⟨idle, rfl⟩
  | crash id _ _ => exact nofun
  | requestStop running => exact fun closed => ⟨(ended closed).1, rfl⟩
  | take record rest atWork _ =>
    intro closed
    simp [(ended closed).1] at atWork
  | «begin» record since atWork =>
    intro closed
    simp [(ended closed).1] at atWork
  | finish record since elapsed atWork =>
    intro closed
    simp [(ended closed).1] at atWork
  | panic record since atWork =>
    intro closed
    refine ⟨worker_exit, ?_⟩
    by_cases asked : x.stopRequested = true
    · rw [timeoutAlarm_exit, disarmed.requested (by simp [atWork]) asked]
    · rw [exitStory, if_neg asked] at closed
      simp [(ended closed).1] at atWork
  | leave atWork abort =>
    have running : x.worker.isSome = true := by simp [atWork]
    intro _
    refine ⟨worker_exit, ?_⟩
    rw [timeoutAlarm_exit, disarmed.requested running (disarmed.aborted running abort)]
  | destroy idle => exact ended

end Handler

namespace World

variable {u v w : World π} {x : Handler π} {ops : List (Operation π)}

/-- A handler whose last worker was ended by a completed stop is at rest. -/
theorem Reachable.atRest (reach : Reachable w) (found : w.find? h = some x)
    (ended : Handler.endedByStop (w.story h) = true) : x.AtRest := by
  obtain ⟨hx, alive⟩ := find?_eq_some.mp found
  have closed := reach.turns (h := h) (P := fun x story => x.Disarmed story ∧
    (Handler.endedByStop story = true → x.worker = none ∧ x.timeoutAlarm = none)) ?_ ?_
  · obtain ⟨-, closed⟩ := closed x.outline (outline?_eq_some.mpr ⟨x, hx, rfl⟩)
    obtain ⟨idle, unregistered⟩ := closed ended
    have worker : x.worker = none := by simpa [Handler.outline] using idle
    obtain ⟨aborted, present⟩ := reach.barred hx
    have unasked : x.stopRequested = false := by
      refine (Bool.not_eq_true _).mp fun asked => ?_
      simpa [Handler.isRunning, worker] using present asked
    exact ⟨worker, aborted.trans unasked, unasked, unregistered, alive⟩
  · rintro x ⟨_, _, _, _, _, _, rfl⟩
    exact ⟨⟨by simp, by simp, by simp⟩, by simp⟩
  · rintro x notes x' story ⟨disarmed, closed⟩ turn
    exact ⟨turn.disarmed disarmed, turn.ended disarmed closed⟩

/-- What the dispatchers of a handler were given, in order. -/
def dispatches (w : World π) (h : HandlerId) : List (RecordBody π) :=
  (dispatched (w.story h)).map Record.body

/-- The world after operations with the handlers as they are. A wait for an exit of `h` is concluded
counting all its exits. -/
def withOld (w : World π) (h : HandlerId) (ops : List (Operation π)) : World π :=
  w.afterAll (ops.map (w.pastOf h).operation)

/-- The world after operations with a new handler in place of `h`. -/
def withNew (w : World π) (h : HandlerId) (ops : List (Operation π)) : World π :=
  (w.renewed h).afterAll ops

/-- Operations come to the same as if `h` were new: they go in the same way, handlers run or not and
have the same number of records queued, dispatchers are given the same, and what has been counted is
more than before by what is counted then. All that happens is the same, but that records are
numbered on. -/
structure AsNew (w : World π) (h : HandlerId) (ops : List (Operation π)) : Prop where
  outcomes : w.outcomes (ops.map (w.pastOf h).operation) =
    ((w.renewed h).outcomes ops).map (Option.map (w.pastOf h).progress)
  running (g : HandlerId) : ((w.withOld h ops).handlers[g]?).map Handler.isRunning =
    ((w.withNew h ops).handlers[g]?).map Handler.isRunning
  pending (g : HandlerId) : ((w.withOld h ops).handlers[g]?).map Handler.pending =
    ((w.withNew h ops).handlers[g]?).map Handler.pending
  dispatches (g : HandlerId) :
    (w.withOld h ops).dispatches g = w.dispatches g ++ (w.withNew h ops).dispatches g
  metrics (x : Handler π) : w.handlers[h]? = some x →
    ((w.withOld h ops).handlers[h]?).map Handler.metrics =
      ((w.withNew h ops).handlers[h]?).map fun y => x.metrics.plus y.metrics
  others (g : HandlerId) : g ≠ h → ((w.withOld h ops).handlers[g]?).map Handler.metrics =
    ((w.withNew h ops).handlers[g]?).map Handler.metrics
  history : (w.withOld h ops).history =
    (w.withNew h ops).history.map (w.pastOf h).occurrence ++ w.history

/-- In `u` the next alarm that a thread of clock `c` fires is one that `h` had before `w`, and `h`
has registered its id. -/
def Haunted (w : World π) (h : HandlerId) (u : World π) (c : ClockId) (generation : Nat) : Prop :=
  ∃ f, (u.clock c).nextFiring? u.now generation = some f ∧ f.callback = .handler h ∧
    f.id < (w.clock c).nextId ∧ u.registered? h = some f.id

/-! ## Operations that are not disturbed -/

theorem story_world (p : Past π) : (p.world w).story h =
    (w.story h).map p.occurrence ++ p.history.filter (·.milestone? = some h) := by
  have about : ∀ o : Occurrence π, (p.occurrence o).milestone? = o.milestone? := by
    rintro ⟨⟩ <;> rfl
  simp only [story, Past.history_world, List.filter_append, List.filter_map, Function.comp_def,
    about]

theorem dispatches_world (p : Past π) : (p.world w).dispatches h =
    (dispatched (p.history.filter (·.milestone? = some h))).map Record.body ++ w.dispatches h := by
  have given : ∀ o : Occurrence π, (p.occurrence o).dispatched?.map Record.body =
      o.dispatched?.map Record.body := by
    rintro ⟨⟩ <;> rfl
  simp only [dispatches, dispatched, story_world, List.reverse_append, List.filterMap_append,
    List.map_append, List.map_filterMap, ← List.map_reverse, List.filterMap_map,
    Function.comp_def, given]

/-- Operations that fire no alarm of the past come to the same with a new handler. -/
theorem asNew_of_undisturbed (settled : ∀ c, (w.clock c).Settled) (hx : w.handlers[h]? = some x)
    (rest : x.AtRest) (quiet : (w.pastOf h).Undisturbed (w.renewed h) ops) :
    w.withOld h ops = (w.pastOf h).world (w.withNew h ops) ∧ w.AsNew h ops := by
  have fits := fits_renewed (h := h) settled
  obtain ⟨left, outcomes⟩ := Past.afterAll_world fits quiet
  rw [world_pastOf settled hx rest] at left outcomes
  have same : w.withOld h ops = (w.pastOf h).world (w.withNew h ops) := left
  refine ⟨same, outcomes, fun g => ?_, fun g => ?_, fun g => ?_, fun y hy => ?_, fun g ne => ?_, ?_⟩
  · rw [same, Past.handlers_world, Option.map_map]
    exact congrArg (Option.map · _) (funext fun y => (w.pastOf h).isRunning_handler g y)
  · rw [same, Past.handlers_world, Option.map_map]
    exact congrArg (Option.map · _) (funext fun y => (w.pastOf h).pending_handler g y)
  · rw [same, dispatches_world]
    rfl
  · have left : ((w.pastOf h).residue h).metrics = y.metrics := by
      rw [residue_pastOf_self, residue_eq hy]
    rw [same, Past.handlers_world, Option.map_map, ← left]
    rfl
  · rw [same, Past.handlers_world, Option.map_map]
    refine congrArg (Option.map · _) (funext fun y => ?_)
    rw [Function.comp_apply, Past.handler, residue_pastOf_ne ne, Metrics.new_plus]
  · rw [same]
    rfl

/-! ## Alarms that come back -/

theorem registered?_world (p : Past π) : (p.world w).registered? h = w.registered? h := by
  rw [registered?, Past.find?_world, registered?]
  cases w.find? h <;> rfl

/-- A timeout of the alarm that is registered is queued. -/
theorem pending_signalTimeout {y : Handler π} {id : AlarmId} (deadline : Instant)
    (found : v.find? g = some y) (registered : y.timeoutAlarm = some id)
    (configured : y.timeout.isSome = true) :
    ((v.signalTimeout g id deadline).handlers[g]?).map Handler.pending = some (y.pending + 1) := by
  obtain ⟨setup, timeout⟩ := Option.isSome_iff_exists.mp configured
  have queued : v.signalTimeout g id deadline = v.enqueue g y .head
      (.timeout setup ⟨id, deadline, .ofDeadline deadline v.now v.wallStart⟩) := by
    rw [signalTimeout, found]
    simp only [registered, if_pos, timeout]
  obtain ⟨hy, -⟩ := find?_eq_some.mp found
  rw [queued]
  simp [enqueue, hy, Handler.enqueue, Handler.pending, Queue.length]

/-- The first alarm of the past that its owner takes for its own makes a difference. -/
theorem not_asNew_of_disturbs (reach : Reachable w) (hx : w.handlers[h]? = some x)
    (rest : x.AtRest) (quiet : (w.pastOf h).Undisturbed (w.renewed h) ops) {c : ClockId}
    {generation : Nat} (disturbs : (w.pastOf h).Disturbs (w.withNew h ops) c generation) :
    ¬ w.AsNew h (ops ++ [.timer c generation]) := by
  intro asNew
  have fits : (w.pastOf h).Fits (w.withNew h ops) := (fits_renewed reach.settled).afterAll ops
  obtain ⟨same, -⟩ := asNew_of_undisturbed reach.settled hx rest quiet
  obtain ⟨f, g, next, owned, registered⟩ := disturbs
  obtain ⟨rfl, -⟩ := owner_pastOf.mp owned
  obtain ⟨v, handlers, moved, moved'⟩ := Past.moveTimer_disturbs fits next owned
  rw [← same] at moved'
  have new : w.withNew g (ops ++ [.timer c generation]) = v := by
    rw [withNew, afterAll_concat, ← withNew, after, operate, moved]
    rfl
  have old : w.withOld g (ops ++ [.timer c generation]) =
      (w.pastOf g).world (v.signalTimeout g f.id f.deadline) := by
    rw [withOld, List.map_append, List.map_singleton, afterAll_concat, ← withOld, after]
    simp only [Past.operation, operate, moved']
    rfl
  -- the handler has the alarm, and so it has a timeout
  obtain ⟨y, found, alarm⟩ := registered?_eq_some.mp registered
  obtain ⟨hy, alive⟩ := find?_eq_some.mp found
  have configured : y.timeout.isSome = true := by
    have hy' : (w.withOld g ops).handlers[g]? = some ((w.pastOf g).handler g y) := by
      rw [same, Past.handlers_world, hy]
      rfl
    have alarm' : ((w.pastOf g).handler g y).timeoutAlarm = some f.id := alarm
    exact configured_of_registered (x := (w.pastOf g).handler g y) (reach.run (afterAll_run ..)) hy'
      (by simp [alarm'])
  have hy' : v.handlers[g]? = some y := by rw [handlers, hy]
  have counted : Handler.pending ∘ (w.pastOf g).handler g = Handler.pending :=
    funext fun y => (w.pastOf g).pending_handler g y
  have pending := asNew.pending g
  rw [old, new, Past.handlers_world, Option.map_map, counted,
    pending_signalTimeout f.deadline (find?_eq_some.mpr ⟨hy', alive⟩) alarm configured,
    hy'] at pending
  exact Nat.succ_ne_self _ (Option.some.inj pending)

/-- An alarm of the past makes a difference in the renewed world where its owner is haunted in the
old one. -/
theorem disturbs_iff (settled : ∀ c, (w.clock c).Settled) {c : ClockId} {generation : Nat}
    (run : Run (w.renewed h) v) : (w.pastOf h).Disturbs v c generation ↔
      w.Haunted h ((w.pastOf h).world v) c generation := by
  have issued : ((w.renewed h).clock c).nextId = (w.clock c).nextId := by
    rw [clock_renewed]
    rfl
  have next : (((w.pastOf h).world v).clock c).nextFiring? ((w.pastOf h).world v).now generation =
      ((v.clock c).nextFiring? v.now generation).map (Firing.map ((w.pastOf h).callback c)) := by
    rw [Past.clock_world, Past.now_world, Clock.nextFiring?_map]
  constructor
  · rintro ⟨f, g, fires, owned, registered⟩
    obtain ⟨rfl, known⟩ := owner_pastOf.mp owned
    refine ⟨f.map ((w.pastOf g).callback c), by rw [next, fires]; rfl, ?_, ?_, ?_⟩
    · exact (congrArg (fun owner => (owner.map AlarmOwner.handler).getD f.callback) owned)
    · exact (settled c f.id _ known).1.1
    · rw [registered?_world]
      exact registered
  · rintro ⟨f', fires', callback, old, registered⟩
    rw [next] at fires'
    obtain ⟨f, fires, rfl⟩ := Option.map_eq_some_iff.mp fires'
    rw [registered?_world] at registered
    refine ⟨f, h, fires, ?_, registered⟩
    cases owned : (w.pastOf h).owner c f.id with
    | some g => rw [(owner_pastOf.mp owned).1]
    | none =>
      -- the new handler has no alarm under an id issued before
      have own : f.callback = .handler h := by
        simpa [Firing.map, Past.callback, owned] using callback
      obtain ⟨t, ready, fired⟩ := Clock.nextFiring?_eq_some.mp fires
      have taken := Clock.mem_taken_of_fires (Clock.thread?_eq_some ready).1 fired
      have known := run.knows_issued (issued ▸ old) (.inr ⟨f, taken, rfl, own⟩)
      rw [clock_renewed, Clock.knows_map] at known
      obtain ⟨owner, -, disowned⟩ := known
      unfold AlarmOwner.disown at disowned
      split at disowned
      · cases disowned
      · next other => exact absurd disowned other

/-- A handler that goes on with one clock registers only ids that this clock has still to issue. -/
theorem registered_of_clings {c : ClockId} (unregistered : w.registered? h = none)
    (ops : List (Operation π))
    (clings : ∀ before, before <+: ops → (w.withOld h before).Clings h c) {id : AlarmId}
    (registered : (w.withOld h ops).registered? h = some id) : (w.clock c).nextId ≤ id := by
  induction ops using List.reverseRecOn with
  | nil => exact absurd (unregistered.symm.trans registered) nofun
  | append_singleton ops op ih =>
    have earlier : (w.withOld h ops).registered? h = some id → (w.clock c).nextId ≤ id :=
      ih fun before le => clings before (le.trans (List.prefix_append ..))
    have run : Run w (w.withOld h ops) := afterAll_run ..
    have last : w.withOld h (ops ++ [op]) =
        (w.withOld h ops).after ((w.pastOf h).operation op) := by
      rw [withOld, List.map_append, List.map_singleton, afterAll_concat, ← withOld]
    rw [last] at registered
    rcases after_cases (w.withOld h ops) ((w.pastOf h).operation op) with same | step
    · exact earlier (same ▸ registered)
    · rcases step.registered_cases registered with kept | ⟨x, d, hx, clock, issued⟩
      · exact earlier kept
      · obtain ⟨uses, pending⟩ := clings ops (List.prefix_append ..) x hx
        have same : d = c := by
          rcases clock with now | began
          · exact now.symm.trans uses
          · exact pending d began
        rw [issued, same]
        exact run.nextId_le

theorem registered?_of_atRest (hx : w.handlers[h]? = some x) (rest : x.AtRest) :
    w.registered? h = none := by
  rw [registered?, find?_eq_some.mpr ⟨hx, rest.isDestroyed⟩]
  exact rest.timeoutAlarm

/-- A handler that goes on with the clock that knows of its alarms is not haunted. -/
theorem not_haunted_of_clings (unregistered : w.registered? h = none)
    (clings : ∀ c id, (w.clock c).Knows id (.handler h) →
      ∀ before, before <+: ops → (w.withOld h before).Clings h c) (c : ClockId)
    (generation : Nat) : ¬ w.Haunted h (w.withOld h ops) c generation := by
  rintro ⟨f, fires, callback, old, registered⟩
  have run : Run w (w.withOld h ops) := afterAll_run ..
  obtain ⟨t, ready, fired⟩ := Clock.nextFiring?_eq_some.mp fires
  have taken := Clock.mem_taken_of_fires (Clock.thread?_eq_some ready).1 fired
  have known := run.knows_issued old (.inr ⟨f, taken, rfl, callback⟩)
  have le := registered_of_clings unregistered ops (clings c f.id known) registered
  exact absurd old (Nat.not_lt_of_le le)

/-- A handler whose last worker was ended by a completed stop is as good as a new one that is handed
what is queued: whatever is done from then on, by whoever and in whatever order, it comes to the
same, as long as no alarm that it had before fires under an id that it has registered since. The
first such alarm gives it a timeout that the new one does not get. There is no such alarm if the
handler keeps the clock that still knows of its alarms, or if no clock knows of any. -/
theorem as_good_as_new_iff (reach : Reachable w) (found : w.find? h = some x)
    (ended : Handler.endedByStop (w.story h) = true) (ops : List (Operation π)) :
    ((∀ before, before <+: ops → w.AsNew h before) ↔
      ∀ before c generation later, ops = before ++ .timer c generation :: later →
        ¬ w.Haunted h (w.withOld h before) c generation) ∧
    ((∀ c id, (w.clock c).Knows id (.handler h) →
        ∀ before, before <+: ops → (w.withOld h before).Clings h c) → w.AsNew h ops) ∧
    (w.isAwaited h = false → x.pending = 0 → (w.renewed h).handlers[h]? = some {
      config := x.config, canSpawn := x.canSpawn, types := x.types, lock := x.lock
      timeout := x.timeout, clock := x.clock, starts := x.starts, handles := x.handles }) := by
  obtain ⟨hx, -⟩ := find?_eq_some.mp found
  have rest := reach.atRest found ended
  -- as long as nothing disturbs the operations, the two worlds stay alike
  have alike : ∀ {before}, (w.pastOf h).Undisturbed (w.renewed h) before →
      (∀ c generation, (w.pastOf h).Disturbs (w.withNew h before) c generation ↔
        w.Haunted h (w.withOld h before) c generation) ∧ w.AsNew h before := by
    intro before quiet
    obtain ⟨same, asNew⟩ := asNew_of_undisturbed reach.settled hx rest quiet
    refine ⟨fun c generation => ?_, asNew⟩
    rw [same]
    exact disturbs_iff reach.settled (afterAll_run ..)
  have undisturbed : (∀ before c generation later, ops = before ++ .timer c generation :: later →
      ¬ w.Haunted h (w.withOld h before) c generation) →
        (w.pastOf h).Undisturbed (w.renewed h) ops := by
    intro unhaunted
    rcases Past.undisturbed_or_first (w.pastOf h) (w.renewed h) ops with
      quiet | ⟨before, c, generation, later, split, quiet, disturbs⟩
    · exact quiet
    · exact absurd (((alike quiet).1 c generation).mp disturbs)
        (unhaunted before c generation later split)
  refine ⟨⟨fun asNew => ?_, fun unhaunted before le => ?_⟩, fun clings => ?_,
    fun unawaited empty => ?_⟩
  · rcases Past.undisturbed_or_first (w.pastOf h) (w.renewed h) ops with
      quiet | ⟨before, c, generation, later, split, quiet, disturbs⟩
    · intro before c generation later split haunted
      have quiet' := quiet.before split
      exact quiet before c generation later split (((alike quiet').1 c generation).mpr haunted)
    · refine absurd (asNew (before ++ [.timer c generation]) ?_)
        (not_asNew_of_disturbs reach hx rest quiet disturbs)
      exact ⟨later, by rw [split, List.append_assoc]; rfl⟩
  · obtain ⟨later, split⟩ := le
    exact (alike ((undisturbed unhaunted).before split.symm)).2
  · refine (alike (undisturbed fun before c generation later split => ?_)).2
    refine not_haunted_of_clings (registered?_of_atRest hx rest)
      (fun c id known before' le => ?_) c generation
    exact clings c id known before' (le.trans ⟨_, split.symm⟩)
  · simp [renewed, hx, anew_residue hx unawaited empty]

/-- A dispatcher panics and leaves an alarm on clock 0. The handler is started and stopped once
more, and then given clock 1, where its next alarm has the same id. When the old alarm fires, a
timeout is queued, and on a new handler there is none. -/
theorem old_alarm_times_out_anew :
    let w₀ : World Nat := {
      clocks := [{}, {}]
      handlers := [{ config := { name := "a" }, types := .ofList [⟨"A", "a"⟩], clock := some 0 }] }
    let w := w₀.steps 20 [.act (.setTimeout 0 (.ofParts 2 0) 0 []), .act (.start 0),
      .act (.signal 0 .tail "A" 1 [.panic]), .act (.start 0), .act (.stop 0)]
    let before : List (Operation Nat) := [.act (.setClock 0 1), .act (.start 0),
      .act (.advance (.ofParts 2 0)), .timer 0 0, .timer 0 0]
    let ops := before ++ [.timer 0 0]
    Handler.endedByStop (w.story 0) = true ∧
    (((w.withOld 0 ops).handlers[0]?).map Handler.pending,
      ((w.withNew 0 ops).handlers[0]?).map Handler.pending) = (some 1, some 0) ∧
    ¬ ∀ before, before <+: ops → w.AsNew 0 before := by
  intro w₀ w before ops
  have fresh : Fresh w₀ := by
    refine fresh_of_handlers 2 0 fun x hx => ?_
    exact ⟨_, _, _, _, _, _, List.mem_singleton.mp hx⟩
  have reach : Reachable w := fresh.reachable.steps 20 _
  obtain ⟨x, found⟩ : ∃ x, w.find? 0 = some x :=
    Option.isSome_iff_exists.mp (by decide +kernel)
  have ended : Handler.endedByStop (w.story 0) = true := by decide +kernel
  have haunted : w.Haunted 0 (w.withOld 0 before) 0 0 := by
    let u := w.withOld 0 before
    have fires : ((u.clock 0).nextFiring? u.now 0).map (fun f => (f.id, f.callback)) =
        some (1, .handler 0) := by decide +kernel
    obtain ⟨f, fires, same⟩ := Option.map_eq_some_iff.mp fires
    obtain ⟨id, callback⟩ := Prod.mk.inj same
    refine ⟨f, fires, callback, ?_, ?_⟩
    · rw [id]
      decide +kernel
    · rw [id]
      decide +kernel
  refine ⟨ended, by decide +kernel, fun asNew => ?_⟩
  exact (as_good_as_new_iff reach found ended ops).1.mp asNew before 0 0 [] rfl haunted

end World
end EventEngine
