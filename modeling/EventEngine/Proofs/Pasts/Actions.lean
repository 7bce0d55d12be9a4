import EventEngine.Proofs.Pasts.Basic
import EventEngine.Proofs.Turns.Effects

/-!
# Actions in a world with a past

An action goes in a world with a past as it does without: what it leaves is what it would leave
without the past, with the past. Only where an alarm is added, the past must not have had one under
the id that the clock issues.
-/
namespace EventEngine.Past

variable {π : Type} (p : Past π) (w : World π) (h : HandlerId) (x : Handler π)

/-! ## Clocks -/

theorem startClock_world (c : ClockId) :
    (p.world w).startClock c = (w.startClock c).map p.world id := by
  simp only [World.startClock, clock_world, Clock.start_map]
  cases (w.clock c).start with
  | ok started => simp [Except.map]
  | error e => rfl

theorem stopClock_world (c : ClockId) : (p.world w).stopClock c = p.world (w.stopClock c) := by
  simp [World.stopClock, Clock.stop_map]

/-- The id that a clock issues next is not one of the past. -/
def Free (c : ClockId) : Prop := p.owner c (w.clock c).nextId = none

variable {p w}

theorem Free.callback {c : ClockId} (free : p.Free w c) (owner : AlarmOwner) :
    p.callback c (w.clock c).nextId owner = owner := by
  rw [Past.callback, free]
  rfl

variable (p w)

theorem armTimeout_world {c : ClockId} (free : p.Free w c) :
    (p.world w).armTimeout h (p.handler h x) c = p.world (w.armTimeout h x c) := by
  have timeout : (p.handler h x).timeout = x.timeout := rfl
  have registered : ∀ (w : World π) id, (p.world w).modify h ({ · with timeoutAlarm := some id }) =
      p.world (w.modify h ({ · with timeoutAlarm := some id })) := fun w _ =>
    p.modify_world w h fun _ => rfl
  unfold World.armTimeout
  rw [timeout]
  split
  · rfl
  · next setup _ =>
    have added := Clock.addPeriodic_map (f := p.callback c) (k := w.clock c) w.now
      (.handler h) setup.interval
    rw [free.callback] at added
    simp [added, registered]

theorem disarmTimeout_world (c : Option ClockId) :
    (p.world w).disarmTimeout h (p.handler h x) c = p.world (w.disarmTimeout h x c) := by
  have alarm : (p.handler h x).timeoutAlarm = x.timeoutAlarm := rfl
  have forgotten : (p.world w).modify h ({ · with timeoutAlarm := none }) =
      p.world (w.modify h ({ · with timeoutAlarm := none })) := p.modify_world w h fun _ => rfl
  unfold World.disarmTimeout
  rw [alarm, forgotten]
  split
  · rfl
  · split
    · rfl
    · simp [Clock.remove_map]

/-! ## Start and stop -/

theorem spawnWorker_world (c : ClockId) :
    (p.world w).spawnWorker h c = (w.spawnWorker h c).map p.world id := by
  have launched : (p.world w).modify h Handler.launch = p.world (w.modify h Handler.launch) :=
    p.modify_world w h (p.launch_handler h)
  unfold World.spawnWorker
  rw [find?_world, launched]
  cases w.find? h with
  | none => rfl
  | some x =>
    have fault : (p.handler h x).spawnFault = x.spawnFault := rfl
    simp only [Option.map_some, fault, disarmTimeout_world]
    cases x.spawnFault with
    | none => rfl
    | some e => cases e <;> rfl

theorem beginStart_world :
    (p.world w).beginStart h (p.handler h x) = (w.beginStart h x).map p.world id := by
  have clock : (p.handler h x).clock = x.clock := rfl
  have adopted : (p.world w).modify h Handler.adopt = p.world (w.modify h Handler.adopt) :=
    p.modify_world w h fun _ => rfl
  simp only [World.beginStart, clock, adopted, startClock_world]
  rcases (w.modify h Handler.adopt).startClock (x.clock.getD sharedClock) with ⟨v, e | _⟩ <;> rfl

theorem endStart_world {c : ClockId} (free : p.Free w c) :
    (p.world w).endStart h c = (w.endStart h c).map p.world id := by
  have prepared : (p.world w).modify h Handler.prepare = p.world (w.modify h Handler.prepare) :=
    p.modify_world w h fun _ => rfl
  have free : p.Free (w.modify h Handler.prepare) c := free
  unfold World.endStart
  rw [find?_world]
  cases w.find? h with
  | none => rfl
  | some x =>
    simp only [Option.map_some, isRunning_handler, prepared, armTimeout_world _ _ _ _ free,
      spawnWorker_world]
    split <;> rfl

variable {p w h x}

/-- The first section of a start issues no id. -/
theorem Free.beginStart {v : World π} {c c' : ClockId} (begun : w.beginStart h x = (v, .ok c))
    (free : p.Free w c') : p.Free v c' := by
  obtain ⟨rfl, k, notices, started, rfl⟩ := World.beginStart_eq_ok.mp begun
  rw [Free, World.clock_setClock]
  split
  · next same =>
    rw [Clock.nextId_start started, same.1]
    exact free
  · exact free

variable (p w h x)

theorem start_world (free : ∀ c, p.Free w c) :
    (p.world w).start h (p.handler h x) = (w.start h x).map p.world id := by
  unfold World.start
  rw [beginStart_world]
  rcases begun : w.beginStart h x with ⟨v, e | c⟩
  · rfl
  · exact endStart_world p v h ((free c).beginStart begun)

theorem requestStop_world (who : Caller) (destroys : Bool) :
    (p.world w).requestStop who h (p.handler h x) destroys =
      (w.requestStop who h x destroys).map p.world (Option.map p.pause) := by
  have clock : (p.handler h x).clock = x.clock := rfl
  have asked : ∀ w : World π, (p.world w).modify h Handler.requestStop =
      p.world (w.modify h Handler.requestStop) := fun w => p.modify_world w h fun _ => rfl
  unfold World.requestStop
  rw [isRunning_handler, clock, disarmTimeout_world, asked]
  split
  · split <;> rfl
  · rfl

theorem concludeDestroy_world :
    (p.world w).concludeDestroy h = (w.concludeDestroy h).map p.world id := by
  have destroyed : (p.world w).modify h Handler.release = p.world (w.modify h Handler.release) :=
    p.modify_world w h fun _ => rfl
  unfold World.concludeDestroy
  rw [find?_world, destroyed]
  cases w.find? h with
  | none => rfl
  | some x =>
    simp only [Option.map_some, isRunning_handler]
    split <;> rfl

/-! ## Queues -/

theorem enqueue_world (place : Place) (body : RecordBody π) :
    (p.world w).enqueue h (p.handler h x) place body = p.world (w.enqueue h x place body) := by
  have queued : (p.world w).modify h (·.enqueue place body) =
      p.world (w.modify h (·.enqueue place body)) :=
    p.modify_world w h fun y => p.enqueue_handler h y place body
  rw [World.enqueue, queued]
  rfl

theorem signal_world (place : Place) (e : Event π) :
    (p.world w).signal h (p.handler h x) place e = (w.signal h x place e).map p.world id := by
  have types : (p.handler h x).types = x.types := rfl
  unfold World.signal
  rw [types]
  split
  · rw [enqueue_world]
    rfl
  · rfl

theorem clear_world : (p.world w).clear h (p.handler h x) = p.world (w.clear h x) := by
  have cleared : (p.world w).modify h Handler.clear = p.world (w.modify h Handler.clear) :=
    p.modify_world w h (p.clear_handler h)
  have empty : (p.handler h x).queue.isEmpty = x.queue.isEmpty := p.isEmpty_queue h x.queue
  unfold World.clear
  rw [empty, cleared]
  split <;> rfl

/-! ## Actions -/

theorem withHandler_world {f f' : Handler π → World π × Progress}
    (same : ∀ x, w.find? h = some x → f' (p.handler h x) = (f x).map p.world p.progress) :
    (p.world w).withHandler h f' = (w.withHandler h f).map p.world p.progress := by
  unfold World.withHandler
  rw [find?_world]
  cases found : w.find? h with
  | none => rfl
  | some x => exact same x found

theorem progress_replyOf (result : Except EventError Unit) :
    p.progress (World.replyOf result) = World.replyOf result := by
  cases result <;> rfl

theorem progress_startReply (result : Except StartFailure Unit) :
    p.progress (.replied (World.startReply result)) = .replied (World.startReply result) := rfl

/-- An action does the same whatever the past. -/
theorem perform_world (free : ∀ c, p.Free w c) (who : Caller) (action : Action π) :
    (p.world w).perform who action = (w.perform who action).map p.world p.progress := by
  cases action with
  | start h =>
    refine p.withHandler_world w h fun x _ => ?_
    rw [start_world p w h x free]
    exact Prod.ext rfl (p.progress_startReply _).symm
  | stop h =>
    refine p.withHandler_world w h fun x _ => ?_
    rw [requestStop_world]
    rcases w.requestStop who h x false with ⟨w', _ | pause⟩ <;> rfl
  | destroy h =>
    refine p.withHandler_world w h fun x _ => ?_
    rw [requestStop_world]
    rcases w.requestStop who h x true with ⟨w', _ | pause⟩
    · simp only [Prod.map_apply, Option.map_none, concludeDestroy_world]
      rfl
    · rfl
  | signal h place typeName payload script =>
    refine p.withHandler_world w h fun x _ => ?_
    rw [signal_world]
    exact Prod.ext rfl (p.progress_replyOf _).symm
  | clear h =>
    refine p.withHandler_world w h fun x _ => ?_
    rw [clear_world, pending_handler]
    rfl
  | isRunning h =>
    refine p.withHandler_world w h fun x _ => ?_
    rw [isRunning_handler]
    rfl
  | isCurrent h =>
    refine p.withHandler_world w h fun x _ => ?_
    rw [isRunning_handler]
    rfl
  | pending h =>
    refine p.withHandler_world w h fun x _ => ?_
    rw [pending_handler]
    rfl
  | name h => exact p.withHandler_world w h fun x _ => rfl
  | setTimeout h interval context script =>
    refine p.withHandler_world w h fun x _ => ?_
    have configured : (p.world w).modify h
        ({ · with timeout := some ⟨interval, context, script⟩ }) =
        p.world (w.modify h ({ · with timeout := some ⟨interval, context, script⟩ })) :=
      p.modify_world w h fun _ => rfl
    rw [configured]
    rfl
  | setClock h c =>
    refine p.withHandler_world w h fun x _ => ?_
    exact Prod.ext (p.modify_world w h fun _ => rfl) rfl
  | describe h =>
    refine p.withHandler_world w h fun x _ => ?_
    rw [text_handler]
    rfl
  | types h => exact p.withHandler_world w h fun x _ => rfl
  | containsType h typeName => exact p.withHandler_world w h fun x _ => rfl
  | advance d => rfl
  | threadName =>
    have name : (p.world w).threadName who = w.threadName who := by
      cases who with
      | outside => rfl
      | worker g => exact congrArg threadNameOf (p.nameOf_world w g)
    simp only [World.perform, name]
    rfl
  | isLockFree lock => rfl
  | block => rfl
  | panic => rfl

end EventEngine.Past
