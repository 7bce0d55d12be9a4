import EventEngine.Proofs.Counters
import EventEngine.Proofs.StopBarrier
import EventEngine.Proofs.Timeouts

/-!
# The lives of workers

Every worker that was started is at work, or its exit has completed a stop, or it was lost: a
dispatcher panicked while no stop was pending. So the counters of starts and stops differ by what is
lost and by the worker at work. A handler that is inside a dispatcher has a worker, whatever has
been asked of it.
-/
namespace EventEngine

variable {π : Type} {h : HandlerId}

namespace Occurrence

/-- The number of workers that a panic has ended while no stop was pending. The story is read
backwards: `stopped` says whether the exit of the worker in question has completed a stop. -/
def lost (stopped : Bool) : List (Occurrence π) → Nat
  | [] => 0
  | .started _ :: earlier => lost false earlier
  | .stopped _ :: earlier => lost true earlier
  | .panicked _ _ :: earlier => lost stopped earlier + if stopped then 0 else 1
  | _ :: earlier => lost stopped earlier

/-- A worker has been started, and since then no other start and no stop is told. -/
def Engaged (h : HandlerId) (story : List (Occurrence π)) : Prop :=
  ∃ life earlier, story = life ++ .started h :: earlier ∧
    ∀ o ∈ life, o.isStarted = false ∧ o.isStopped = false

/-- Each completed stop is that of a worker which has been started and not been stopped before. -/
def Paired (h : HandlerId) (story : List (Occurrence π)) : Prop :=
  ∀ later earlier, story = later ++ .stopped h :: earlier → Engaged h earlier

variable {o : Occurrence π} {story : List (Occurrence π)}

theorem Engaged.cons (engaged : Engaged h story) (started : o.isStarted = false)
    (stopped : o.isStopped = false) : Engaged h (o :: story) := by
  obtain ⟨life, earlier, rfl, quiet⟩ := engaged
  refine ⟨o :: life, earlier, rfl, fun o' member => ?_⟩
  rcases List.mem_cons.mp member with rfl | member
  · exact ⟨started, stopped⟩
  · exact quiet o' member

theorem Paired.cons (paired : Paired h story)
    (stops : o = .stopped h → Engaged h story) : Paired h (o :: story) := by
  intro later earlier split
  rcases List.cons_eq_append_iff.mp split with ⟨-, first⟩ | ⟨later, -, rest⟩
  · obtain ⟨same, rfl⟩ := List.cons.inj first
    exact stops same.symm
  · exact paired later earlier rest

theorem Paired.cons_quiet (paired : Paired h story) (stopped : o.isStopped = false) :
    Paired h (o :: story) := by
  refine paired.cons fun stops => ?_
  rw [stops] at stopped
  cases stopped

end Occurrence

open Occurrence

namespace Handler

variable {x x' : Handler π} {notes story : List (Occurrence π)}

/-- What a story tells of the worker at work, and of the stops. -/
structure Lives (h : HandlerId) (x : Handler π) (story : List (Occurrence π)) : Prop where
  /-- The worker at work has been started, and no stop of it has been completed. -/
  engaged : x.isRunning = true → Engaged h story
  /-- No dispatcher of the worker at work has panicked. -/
  unlost : x.isRunning = true → lost true story = lost false story
  paired : Paired h story

/-- The exit of a worker that was asked to stop completes a stop. -/
theorem paired_exitStory (engaged : Engaged h story) (paired : Paired h story) :
    Paired h (x.exitStory h ++ story) := by
  unfold exitStory
  split
  · split
    · exact paired.cons fun _ => engaged
    · have cleared : Paired h (.cleared h x.queue.events :: story) := paired.cons_quiet rfl
      exact cleared.cons fun _ => engaged.cons rfl rfl
  · exact paired

theorem Turn.lives (turn : Turn h x notes x') (lives : x.Lives h story) :
    x'.Lives h (notes ++ story) := by
  obtain ⟨engaged, unlost, paired⟩ := lives
  cases turn with
  | enqueue place body _ =>
    cases place <;>
      exact ⟨fun atWork => (engaged atWork).cons rfl rfl, unlost, paired.cons_quiet rfl⟩
  | clear _ => exact ⟨fun atWork => (engaged atWork).cons rfl rfl, unlost, paired.cons_quiet rfl⟩
  | start id _ _ =>
    exact ⟨fun _ => ⟨[], story, rfl, List.forall_mem_nil _⟩, fun _ => rfl, paired.cons_quiet rfl⟩
  | crash id idle _ =>
    have left : x.isRunning = false := by simp [isRunning, idle]
    refine ⟨fun atWork => ?_, fun atWork => ?_, paired.cons_quiet rfl⟩
    · cases left.symm.trans atWork
    · cases left.symm.trans atWork
  | take record rest idle _ =>
    have atWork : x.isRunning = true := by simp [isRunning, idle]
    exact ⟨fun _ => engaged atWork, fun _ => unlost atWork, paired⟩
  | «begin» record since holding =>
    have atWork : x.isRunning = true := by simp [isRunning, holding]
    exact ⟨fun _ => (engaged atWork).cons rfl rfl, fun _ => unlost atWork, paired.cons_quiet rfl⟩
  | finish record since elapsed dispatching =>
    have atWork : x.isRunning = true := by simp [isRunning, dispatching]
    exact ⟨fun _ => (engaged atWork).cons rfl rfl, fun _ => unlost atWork, paired.cons_quiet rfl⟩
  | panic record since dispatching =>
    have atWork : x.isRunning = true := by simp [isRunning, dispatching]
    rw [List.append_assoc]
    refine ⟨by simp, by simp, paired_exitStory ?_ (paired.cons_quiet rfl)⟩
    exact (engaged atWork).cons rfl rfl
  | leave idle _ =>
    have atWork : x.isRunning = true := by simp [isRunning, idle]
    exact ⟨by simp, by simp, paired_exitStory (engaged atWork) paired⟩
  | configure setup => exact ⟨engaged, unlost, paired⟩
  | setClock c => exact ⟨engaged, unlost, paired⟩
  | beginStart => exact ⟨engaged, unlost, paired⟩
  | skipStart _ _ => exact ⟨engaged, unlost, paired⟩
  | refuse _ _ => exact ⟨engaged, unlost, paired⟩
  | requestStop _ => exact ⟨engaged, unlost, paired⟩
  | destroy _ => exact ⟨engaged, unlost, paired⟩

/-- A turn with these notes loses the worker: its dispatcher panics and no stop is pending. -/
def Loses (x : Handler π) (notes : List (Occurrence π)) : Prop :=
  notes.countP isPanicked ≠ 0 ∧ x.stopRequested = false

instance (x : Handler π) (notes : List (Occurrence π)) : Decidable (x.Loses notes) :=
  inferInstanceAs (Decidable (_ ∧ _))

theorem lost_exitStory : lost false (x.exitStory h ++ story) = lost x.stopRequested story := by
  unfold exitStory
  split
  · next asked => split <;> simp [lost, asked]
  · next unasked => simp [unasked]

/-- A turn that loses the worker is told as a loss, and no other turn is. -/
theorem Turn.lost (turn : Turn h x notes x') (barred : x.Barred) (lives : x.Lives h story) :
    lost false (notes ++ story) = lost false story + if x.Loses notes then 1 else 0 := by
  cases turn with
  | panic record since dispatching =>
    have unlost := lives.unlost (by simp [isRunning, dispatching])
    rw [List.append_assoc, lost_exitStory]
    cases asked : x.stopRequested <;> simp [Occurrence.lost, Loses, asked, isPanicked, unlost]
  | leave idle aborted =>
    have asked : x.stopRequested = true := barred.aborted.symm.trans aborted
    have unlost := lives.unlost (by simp [isRunning, idle])
    simp [lost_exitStory, Loses, asked, unlost]
  | _ => simp [Occurrence.lost, Loses, isPanicked]

/-- A turn starts a worker, or completes a stop, or loses the worker, or leaves it. -/
theorem Turn.balance (turn : Turn h x notes x') (barred : x.Barred) :
    notes.countP isStarted + (if x.isRunning then 1 else 0) =
      notes.countP isStopped + (if x.Loses notes then 1 else 0) +
        if x'.isRunning then 1 else 0 := by
  have stops : (x.exitStory h).countP isStopped = if x.stopRequested then 1 else 0 := by
    unfold exitStory
    split
    · split <;> rfl
    · rfl
  cases turn with
  | enqueue place body _ => cases place <;> rfl
  | start id idle _ =>
    have stopped : x.isRunning = false := by simp [isRunning, idle]
    rw [if_pos (show (Handler.startedWith _ id).isRunning = true from rfl)]
    simp [stopped, Loses, isStarted, isStopped, isPanicked]
  | crash id idle _ =>
    have stopped : x.isRunning = false := by simp [isRunning, idle]
    rw [if_neg (show ¬ (Handler.armedWith _ id).isRunning = true from by
      simp [armedWith, prepare, isRunning, idle])]
    simp [stopped, Loses, isStarted, isStopped, isPanicked]
  | take record rest idle _ => simp [isRunning, idle, Loses]
  | «begin» record since holding =>
    simp [isRunning, holding, Loses, isStarted, isStopped, isPanicked]
  | finish record since elapsed dispatching =>
    simp [isRunning, dispatching, Loses, isStarted, isStopped, isPanicked]
  | panic record since dispatching =>
    cases asked : x.stopRequested <;>
      simp [stops, asked, Loses, isRunning, dispatching, isStarted, isStopped, isPanicked]
  | leave idle aborted =>
    have asked : x.stopRequested = true := barred.aborted.symm.trans aborted
    simp [stops, asked, Loses, isRunning, idle]
  | _ => rfl

end Handler

namespace World

variable {v w : World π} {x : Handler π}

def losses (w : World π) (h : HandlerId) : Nat := lost false (w.story h)

theorem Reachable.lives (reach : Reachable w) (outlined : w.outline? h = some x) :
    x.Lives h (w.story h) := by
  refine reach.turns (P := Handler.Lives h) ?_ (fun _ _ _ _ lives turn => turn.lives lives) x
    outlined
  rintro x ⟨_, _, _, _, _, _, rfl⟩
  exact ⟨nofun, nofun, fun later earlier split => by simp at split⟩

/-- The workers that were started are those whose stop was completed, those that were lost, and the
one at work. -/
theorem Reachable.balance (reach : Reachable w) (outlined : w.outline? h = some x) :
    w.startups h = w.stops h + w.losses h + if x.isRunning then 1 else 0 := by
  have balanced := reach.turns (h := h) (P := fun x story => (x.Barred ∧ x.Lives h story) ∧
    story.countP isStarted = story.countP isStopped + lost false story +
      if x.isRunning then 1 else 0) ?_ ?_
  · exact (balanced x outlined).2
  · rintro x ⟨_, _, _, _, _, _, rfl⟩
    exact ⟨⟨⟨rfl, nofun⟩, nofun, nofun, fun later earlier split => by simp at split⟩, rfl⟩
  · rintro x notes x' story ⟨⟨barred, lives⟩, balanced⟩ turn
    refine ⟨⟨turn.barred barred, turn.lives lives⟩, ?_⟩
    have kept := turn.balance barred
    rw [turn.lost barred lives, List.countP_append, List.countP_append]
    omega

/-- A handler with a worker has not been destroyed. -/
theorem Reachable.alive (reach : Reachable w) : ∀ x, w.outline? h = some x →
    x.isRunning = true → x.isDestroyed = false := by
  refine reach.induct (P := fun w => ∀ x, w.outline? h = some x →
    x.isRunning = true → x.isDestroyed = false) ?_ ?_
  · intro w fresh x outlined running
    obtain ⟨y, hy, rfl⟩ := outline?_eq_some.mp outlined
    obtain ⟨_, _, _, _, _, _, rfl⟩ := fresh.handlers y (List.mem_of_getElem? hy)
    cases running
  · intro v w _ alive step x outlined running
    rcases step.evolves h with ⟨same, -⟩ | ⟨y, notes, y', outlined', turn, outlined'', told⟩
    · exact alive x (same ▸ outlined) running
    · obtain rfl := Option.some.inj (outlined.symm.trans outlined'')
      have before := alive y outlined'
      cases turn with
      | enqueue place body _ => cases place <;> exact before running
      | start id _ _ =>
        -- only a handler that is there can be started
        have launched : w.launches h ≠ v.launches h := by
          simp [launches, told, List.countP_cons, isLaunch]
        obtain ⟨t, c, _, _, _, calm, comes, -⟩ := step.launch launched
        obtain ⟨z, found, -⟩ := comes.clock
        obtain ⟨hz, there⟩ := find?_eq_some.mp found
        obtain ⟨u, hu, same⟩ := outline?_eq_some.mp ((calm.still h).1.trans outlined')
        obtain rfl := Option.some.inj (hu.symm.trans hz)
        exact (congrArg Handler.isDestroyed same).symm.trans there
      | take record rest idle _ => exact before (by simp [Handler.isRunning, idle])
      | «begin» record since holding => exact before (by simp [Handler.isRunning, holding])
      | finish record since elapsed dispatching =>
        exact before (by simp [Handler.isRunning, dispatching])
      | panic _ _ _ => simp at running
      | leave _ _ => simp at running
      | destroy idle => simp [Handler.isRunning, Handler.release, idle] at running
      | _ => exact before running

/-- The steps that lose a worker are told as losses, and no other steps are. -/
theorem Next.losses (reach : Reachable v) (step : Next v w) (hx : v.handlers[h]? = some x) :
    w.losses h = v.losses h +
      if w.panics h ≠ v.panics h ∧ x.stopRequested = false then 1 else 0 := by
  have outlined : v.outline? h = some x.outline := outline?_eq_some.mpr ⟨x, hx, rfl⟩
  rcases step.evolves h with ⟨-, told⟩ | ⟨y, notes, y', outlined', turn, -, told⟩
  · simp [World.losses, panics, told]
  · obtain rfl := Option.some.inj (outlined.symm.trans outlined')
    have lost := turn.lost (reach.barred_outline outlined) (reach.lives outlined)
    have panics : w.panics h ≠ v.panics h ↔ notes.countP isPanicked ≠ 0 := by
      simp only [World.panics, told, List.countP_append]
      omega
    rw [World.losses, told, lost, World.losses]
    simp only [Handler.Loses, panics]
    rfl

/-- Whoever asks while a dispatch is in progress is told that the handler is running, and only its
own worker is told that it is the current thread. -/
theorem perform_while_dispatching (reach : Reachable w) (hx : w.handlers[h]? = some x)
    (dispatching : x.current.isSome = true) (who : Caller) :
    w.perform who (.isRunning h) = (w, .replied (.flag true)) ∧
      w.perform who (.isCurrent h) = (w, .replied (.flag (who = .worker h))) := by
  have running : x.isRunning = true := by
    unfold Handler.current at dispatching
    split at dispatching
    · next atWork => simp [Handler.isRunning, atWork]
    · cases dispatching
  have alive := reach.alive x.outline (outline?_eq_some.mpr ⟨x, hx, rfl⟩)
    (x.isRunning_outline.trans running)
  have found : w.find? h = some x := find?_eq_some.mpr ⟨hx, alive⟩
  simp [perform, withHandler, found, running]

/-- In every reachable world a handler's counter of starts is that of stops, more by the workers
that were lost and by the one at work; in words of 64 bits, and before that in numbers. A worker is
lost in a step in which its dispatcher panics while no stop is pending, and in no other step. Each
completed stop comes after the start of its worker, with no other start or stop between them. While
a record that was handed to a dispatcher is not completed, everyone is told that the handler is
running, and its worker alone that it is the current thread. -/
theorem lives_accounted (reach : Reachable w) (hx : w.handlers[h]? = some x) :
    x.metrics.starts =
      x.metrics.stops + .ofNat (w.losses h) + (if x.isRunning then 1 else 0) ∧
    (x.metrics.starts = .ofNat (w.startups h) ∧ x.metrics.stops = .ofNat (w.stops h) ∧
      w.startups h = w.stops h + w.losses h + if x.isRunning then 1 else 0) ∧
    ((Fresh w → w.losses h = 0) ∧ ∀ v, Next w v → v.losses h =
      w.losses h + if v.panics h ≠ w.panics h ∧ x.stopRequested = false then 1 else 0) ∧
    (∀ later earlier, w.story h = later ++ .stopped h :: earlier →
      ∃ life before, earlier = life ++ .started h :: before ∧
        ∀ o ∈ life, o.isStarted = false ∧ o.isStopped = false) ∧
    ∀ record ∈ dispatched (w.story h), record ∉ completed (w.story h) → ∀ who,
      w.perform who (.isRunning h) = (w, .replied (.flag true)) ∧
        w.perform who (.isCurrent h) = (w, .replied (.flag (who = .worker h))) := by
  have outlined : w.outline? h = some x.outline := outline?_eq_some.mpr ⟨x, hx, rfl⟩
  have counts := reach.counts hx
  have balanced := reach.balance outlined
  rw [x.isRunning_outline] at balanced
  refine ⟨?_, ⟨counts.starts, counts.stops, balanced⟩, ⟨?_, ?_⟩, (reach.lives outlined).paired, ?_⟩
  · calc x.metrics.starts = .ofNat (w.startups h) := counts.starts
      _ = .ofNat (w.stops h) + .ofNat (w.losses h) + (if x.isRunning then 1 else 0) := by
        rw [balanced, UInt64.ofNat_add, UInt64.ofNat_add]
        split <;> rfl
      _ = _ := by rw [counts.stops]; rfl
  · intro fresh
    simp [losses, story, fresh.history, lost]
  · exact fun v step => step.losses reach hx
  · intro record handed uncompleted who
    rw [(reach.accounted hx).handed] at handed
    have current := (List.mem_append.mp handed).resolve_left uncompleted
    exact perform_while_dispatching reach hx (by simp [Option.mem_toList.mp current]) who

/-- The first worker is lost to a panic. The second one is inside a dispatcher that has asked twice
for its stop; it still runs, and both starts are accounted for. -/
theorem running_after_own_stops :
    let w := (single Nat).steps 30 [.act (.start 0), .act (.signal 0 .tail "A" 1 [.panic]),
      .act (.start 0), .act (.signal 0 .tail "A" 2 [.stop 0, .destroy 0, .block])]
    ∃ x, w.handlers[0]? = some x ∧ x.stopRequested = true ∧
      x.metrics.starts = x.metrics.stops + 1 + 1 ∧
      w.perform .outside (.isRunning 0) = (w, .replied (.flag true)) ∧
      w.perform (.worker 0) (.isCurrent 0) = (w, .replied (.flag true)) := by
  intro w
  have reach : Reachable w := single_fresh.reachable.steps 30 _
  have seen : (w.handlers[0]?).map (fun x => (x.stopRequested, x.isRunning)) =
      some (true, true) := by decide +kernel
  obtain ⟨x, hx, shown⟩ := Option.map_eq_some_iff.mp seen
  obtain ⟨asked, running⟩ := Prod.mk.inj shown
  have lost : w.losses 0 = 1 := by decide +kernel
  obtain ⟨record, handed, unfinished⟩ : ∃ record ∈ dispatched (w.story 0),
      record ∉ completed (w.story 0) := by
    have serials : (dispatched (w.story 0)).map Record.serial = [0, 1] ∧
      (completed (w.story 0)).map Record.serial = [0] := by decide +kernel
    have late : 1 ∈ (dispatched (w.story 0)).map Record.serial := serials.1 ▸ by simp
    obtain ⟨record, handed, second⟩ := List.mem_map.mp late
    refine ⟨record, handed, fun finished => ?_⟩
    have first : record.serial ∈ [0] := serials.2 ▸ List.mem_map_of_mem finished
    simp [second] at first
  obtain ⟨balanced, -, -, -, told⟩ := lives_accounted reach hx
  rw [lost, running] at balanced
  exact ⟨x, hx, asked, balanced, (told record handed unfinished .outside).1,
    (told record handed unfinished (.worker 0)).2⟩

end World
end EventEngine
