import EventEngine.Proofs.Pasts.Actions
import EventEngine.Proofs.Timeouts

/-!
# Moves in a world with a past

A worker moves in a world with a past as it does without. So does a timer thread, unless it is about
to fire an alarm of the past under an id that its handler has registered again: then the handler is
given a timeout that it would not have without the past.
-/
namespace EventEngine.Past

variable {π : Type} (p : Past π) (w : World π) (h : HandlerId) (x : Handler π)

/-! ## Workers -/

theorem setWorker_world (worker : Worker π) :
    (p.world w).setWorker h (p.worker h worker) = p.world (w.setWorker h worker) :=
  p.modify_world_of w h fun _ => rfl

theorem leave_world : (p.world w).leave h (p.handler h x) = p.world (w.leave h x) := by
  have left : (p.world w).modify h Handler.exit = p.world (w.modify h Handler.exit) :=
    p.modify_world w h (p.exit_handler h)
  have asked : (p.handler h x).stopRequested = x.stopRequested := rfl
  have empty : (p.handler h x).queue.isEmpty = x.queue.isEmpty := p.isEmpty_queue h x.queue
  unfold World.leave
  rw [left, asked, empty]
  split
  · split <;> rfl
  · rfl

theorem finishDispatch_world (record : Record π) (since : Instant) :
    (p.world w).finishDispatch h (p.handler h x) (p.record h record) since =
      p.world (w.finishDispatch h x record since) := by
  have finished : (p.world w).modify h (fun x =>
        { x.recordDispatch record.body (w.now.since since) with worker := some .idle }) =
      p.world (w.modify h (fun x =>
        { x.recordDispatch record.body (w.now.since since) with worker := some .idle })) := by
    refine p.modify_world w h fun y => ?_
    rw [recordDispatch_handler]
    rfl
  have lock : (p.handler h x).lock = x.lock := rfl
  have body : (p.record h record).body = record.body := rfl
  unfold World.finishDispatch
  rw [now_world, body, finished, lock]
  show ((p.world _).setHolder x.lock none).note _ = _
  rw [setHolder_world]
  rfl

theorem panicDispatch_world (record : Record π) :
    (p.world w).panicDispatch h (p.handler h x) (p.record h record) =
      p.world (w.panicDispatch h x record) := by
  have freed : ((p.world w).setHolder (p.handler h x).lock none).note
      (.panicked h (p.record h record)) =
        p.world ((w.setHolder x.lock none).note (.panicked h record)) := by
    rw [← note_world, ← setHolder_world]
    rfl
  simp only [World.panicDispatch, freed, find?_world]
  cases ((w.setHolder x.lock none).note (.panicked h record)).find? h with
  | none => rfl
  | some y => exact p.leave_world _ h y

theorem resume_world (record : Record π) (since : Instant) (script : List (Action π))
    (reply : Reply) : (p.world w).resume h (p.record h record) since script reply =
      p.world (w.resume h record since script reply) := by
  have gone_on := p.setWorker_world w h (.dispatching record since script none)
  simp only [worker, Option.map_none] at gone_on
  rw [World.resume, gone_on]
  rfl

theorem pauseEnd?_world (pause : Pause) : (p.world w).pauseEnd? (p.pause pause) =
    (w.pauseEnd? pause).map (Prod.map p.world id) := by
  cases pause with
  | blocked => rfl
  | exit h exits destroys =>
    simp only [World.pauseEnd?, Past.pause, find?_world]
    cases w.find? h with
    | none => rfl
    | some x =>
      have counted : (p.handler h x).exits = (p.residue h).exits + exits ↔ x.exits = exits :=
        Nat.add_left_cancel_iff
      simp only [Option.map_some, counted, concludeDestroy_world]
      split
      · rfl
      · split <;> rfl

theorem dispatchAction_world (free : ∀ c, p.Free w c) (record : Record π) (since : Instant)
    (action : Action π) (rest : List (Action π)) :
    (p.world w).dispatchAction h (p.handler h x) (p.record h record) since action rest =
      p.world (w.dispatchAction h x record since action rest) := by
  have begun := p.setWorker_world w h (.dispatching record since rest none)
  simp only [worker, Option.map_none] at begun
  have free : ∀ c, p.Free (w.setWorker h (.dispatching record since rest none)) c := free
  simp only [World.dispatchAction, begun, p.perform_world _ free]
  rcases (w.setWorker h (.dispatching record since rest none)).perform (.worker h) action with
    ⟨v, reply | pause | _⟩
  · rfl
  · exact p.setWorker_world v h (.dispatching record since rest (some pause))
  · exact p.panicDispatch_world v h x record

/-- A dispatch goes on after the same pauses, counting on exits. -/
theorem resumes_world (record : Record π) (since : Instant) (script : List (Action π))
    (pause : Pause) :
    ((p.world w).pauseEnd? (p.pause pause)).map
        (fun (w, reply) => w.resume h (p.record h record) since script reply) =
      ((w.pauseEnd? pause).map fun (w, reply) => w.resume h record since script reply).map
        p.world := by
  rw [pauseEnd?_world, Option.map_map, Option.map_map]
  refine congrArg (Option.map · _) (funext fun ended => ?_)
  exact p.resume_world ended.1 h record since script ended.2

/-- A worker moves in the same way whatever the past. -/
theorem moveWorker_world (free : ∀ c, p.Free w c) :
    (p.world w).moveWorker h = (w.moveWorker h).map p.world := by
  unfold World.moveWorker
  rw [find?_world]
  cases w.find? h with
  | none => rfl
  | some x =>
    have lock : (p.handler h x).lock = x.lock := rfl
    have queued : (p.handler h x).queue = p.queue h x.queue := rfl
    have working : (p.handler h x).worker = x.worker.map (p.worker h) := rfl
    simp only [Option.map_some, Option.bind_eq_bind, Option.bind_some, working]
    rcases x.worker with _ | _ | record | ⟨record, since, _ | ⟨action, rest⟩, _ | pause⟩
    · rfl
    · simp only [worker, Option.map_some, Option.bind_some, queued, leave_world]
      rcases x.queue with ⟨_ | ⟨record, rest⟩, _ | _⟩
      · rfl
      · rfl
      · exact congrArg some (p.modify_world_of w h fun _ => rfl)
      · rfl
    · have begun := p.setWorker_world (w.setHolder x.lock (some (.worker h))) h
        (.dispatching record (w.setHolder x.lock (some (.worker h))).now record.body.script none)
      simp only [worker, Option.map_none] at begun
      simp only [worker, Option.map_some, Option.bind_some, lock, canDispatch_world,
        setHolder_world]
      split
      · exact congrArg (fun v => some (World.note v (.began h (p.record h record)))) begun
      · rfl
    · exact congrArg some (p.finishDispatch_world w h x record since)
    · exact p.resumes_world w h record since [] pause
    · exact congrArg some (p.dispatchAction_world w h x free record since action rest)
    · exact p.resumes_world w h record since (action :: rest) pause

theorem release_world : (p.world w).release h = (w.release h).map p.world id := by
  unfold World.release
  rw [find?_world]
  cases w.find? h with
  | none => rfl
  | some x =>
    have working : (p.handler h x).worker = x.worker.map (p.worker h) := rfl
    simp only [Option.map_some, Option.bind_some, working]
    rcases x.worker with _ | _ | record | ⟨record, since, script, _ | _ | pause⟩
    case some.dispatching.some.blocked =>
      exact Prod.ext (p.resume_world w h record since script .released) rfl
    all_goals rfl

/-! ## Timer threads -/

theorem signalTimeout_world (alarm : AlarmId) (deadline : Instant) :
    (p.world w).signalTimeout h alarm deadline = p.world (w.signalTimeout h alarm deadline) := by
  unfold World.signalTimeout
  rw [find?_world]
  cases w.find? h with
  | none => rfl
  | some x =>
    have alarm : (p.handler h x).timeoutAlarm = x.timeoutAlarm := rfl
    have timeout : (p.handler h x).timeout = x.timeout := rfl
    simp only [Option.map_some, alarm, timeout]
    split
    · split
      · exact p.enqueue_world w h x _ _
      · rfl
    · rfl

theorem deliver_world (f : Firing AlarmOwner) :
    (p.world w).deliver f = p.world (w.deliver f) := by
  unfold World.deliver
  split
  · exact p.signalTimeout_world ..
  · rfl

/-- What the world knows of the alarms of the past is nobody's, and their ids are issued. -/
def Fits : Prop := ∀ c id g, p.owner c id = some g → (w.clock c).Sole id .other

/-- The next alarm that a thread of the clock fires is one of the past, and its owner has registered
its id again. -/
def Disturbs (c : ClockId) (generation : Nat) : Prop :=
  ∃ f g, (w.clock c).nextFiring? w.now generation = some f ∧ p.owner c f.id = some g ∧
    w.registered? g = some f.id

variable {p w}

theorem Fits.callback (fits : p.Fits w) {c : ClockId} {f : Firing AlarmOwner} {g : HandlerId}
    (owned : p.owner c f.id = some g) (taken : f ∈ (w.clock c).taken) : f.callback = .other :=
  (fits c f.id g owned).2 f taken rfl

theorem Fits.free (fits : p.Fits w) (c : ClockId) : p.Free w c := by
  unfold Free
  cases owned : p.owner c (w.clock c).nextId with
  | none => rfl
  | some g => exact absurd (fits c _ g owned).1.1 (Nat.lt_irrefl _)

theorem ticked_world (c : ClockId) (t : Timer AlarmOwner) :
    (p.world w).ticked c (t.map (p.callback c)) = p.world (w.ticked c t) := by
  rw [World.ticked, clock_world, now_world, Clock.move_map, setClock_world, World.ticked]

/-- An alarm that the past does not own is delivered as it is without the past. -/
theorem deliver_unowned {c : ClockId} {f : Firing AlarmOwner} (unowned : p.owner c f.id = none) :
    (p.world w).deliver (f.map (p.callback c)) = p.world (w.deliver f) := by
  have same : f.map (p.callback c) = f := by
    rw [Firing.map, Past.callback, unowned]
    rfl
  rw [same, deliver_world]

/-- An alarm of the past is delivered to its owner. -/
theorem deliver_owned {c : ClockId} {f : Firing AlarmOwner} {g : HandlerId}
    (owned : p.owner c f.id = some g) :
    (p.world w).deliver (f.map (p.callback c)) = p.world (w.signalTimeout g f.id f.deadline) := by
  have callback : (f.map (p.callback c)).callback = .handler g := by
    rw [Firing.map, Past.callback, owned]
    rfl
  rw [World.deliver, callback, ← signalTimeout_world]
  rfl

/-- A timer thread moves in the same way, unless it fires an alarm of the past that its owner takes
for its own. -/
theorem moveTimer_world (fits : p.Fits w) {c : ClockId} {generation : Nat}
    (quiet : ¬ p.Disturbs w c generation) :
    (p.world w).moveTimer c generation = (w.moveTimer c generation).map p.world := by
  rw [World.moveTimer_eq, World.moveTimer_eq, clock_world, now_world, Clock.thread?_map]
  cases ready : (w.clock c).thread? w.now generation with
  | none => rfl
  | some t =>
    simp only [Option.map_some, Clock.move_map, ticked_world]
    cases fires : ((w.clock c).move w.now t).2.1 with
    | none => rfl
    | some f =>
      refine congrArg some ?_
      simp only [Option.map_some, Option.getD_some]
      cases owned : p.owner c f.id with
      | none => exact deliver_unowned owned
      | some g =>
        have taken := Clock.mem_taken_of_fires (Clock.thread?_eq_some ready).1 fires
        have unregistered : (w.ticked c t).registered? g ≠ some f.id := fun registered =>
          quiet ⟨f, g, Clock.nextFiring?_eq_some.mpr ⟨t, ready, fires⟩, owned, registered⟩
        rw [deliver_owned owned, World.signalTimeout_unregistered f.deadline unregistered,
          World.deliver, fits.callback owned taken]

/-- If it does, then the owner is given a timeout by this move, and would be given nothing without
the past. -/
theorem moveTimer_disturbs (fits : p.Fits w) {c : ClockId} {generation : Nat}
    {f : Firing AlarmOwner} {g : HandlerId}
    (next : (w.clock c).nextFiring? w.now generation = some f) (owned : p.owner c f.id = some g) :
    ∃ v : World π, v.handlers = w.handlers ∧ w.moveTimer c generation = some v ∧
      (p.world w).moveTimer c generation = some (p.world (v.signalTimeout g f.id f.deadline)) := by
  obtain ⟨t, ready, fires⟩ := Clock.nextFiring?_eq_some.mp next
  have taken := Clock.mem_taken_of_fires (Clock.thread?_eq_some ready).1 fires
  refine ⟨w.ticked c t, rfl, ?_, ?_⟩
  · rw [World.moveTimer_eq, ready, Option.map_some, fires, Option.map_some, Option.getD_some,
      World.deliver, fits.callback owned taken]
  · rw [World.moveTimer_eq, clock_world, now_world, Clock.thread?_map, ready]
    simp only [Option.map_some, Clock.move_map, fires, ticked_world, deliver_owned owned,
      Option.getD_some]

/-! ## Operations -/

theorem addAlarm_world {c : ClockId} (free : p.Free w c) (deadline : Instant) :
    (p.world w).addAlarm c deadline = p.world (w.addAlarm c deadline) := by
  have added := Clock.add_map (f := p.callback c) (k := w.clock c) .other deadline none
  rw [free.callback] at added
  simp [World.addAlarm, Clock.addOnce, added]

theorem addPeriodicAlarm_world {c : ClockId} (free : p.Free w c) (period : Duration) :
    (p.world w).addPeriodicAlarm c period = p.world (w.addPeriodicAlarm c period) := by
  have added := Clock.addPeriodic_map (f := p.callback c) (k := w.clock c) w.now .other
    period
  rw [free.callback] at added
  simp [World.addPeriodicAlarm, added]

theorem removeAlarm_world (c : ClockId) (alarm : AlarmId) :
    (p.world w).removeAlarm c alarm = p.world (w.removeAlarm c alarm) := by
  simp [World.removeAlarm, Clock.remove_map]

theorem panicTimer_world (c : ClockId) (generation : Nat) :
    (p.world w).panicTimer c generation = p.world (w.panicTimer c generation) := by
  simp [World.panicTimer, Clock.dropTimer_map]

theorem nextId_world (c : ClockId) : ((p.world w).clock c).nextId = (w.clock c).nextId := by
  rw [clock_world]
  rfl

variable (p w) in
theorem beginStart?_world (h : HandlerId) :
    (p.world w).beginStart? h = (w.beginStart? h).map p.world := by
  unfold World.beginStart?
  rw [find?_world]
  cases w.find? h with
  | none => rfl
  | some x =>
    simp only [Option.map_some, Option.bind_some, beginStart_world]
    rcases w.beginStart h x with ⟨v, e | c⟩
    · rfl
    · exact congrArg some (p.modify_world v h fun _ => rfl)

variable (p w) in
theorem endStart?_world (h : HandlerId) {c : ClockId} (free : p.Free w c) :
    (p.world w).endStart? h c = (w.endStart? h c).map (Prod.map p.world id) := by
  have entered : (p.world w).modify h (·.entered c) = p.world (w.modify h (·.entered c)) :=
    p.modify_world w h fun _ => rfl
  have free : p.Free (w.modify h (·.entered c)) c := free
  unfold World.endStart?
  rw [find?_world]
  cases w.find? h with
  | none => rfl
  | some x =>
    have starts : (p.handler h x).starts = x.starts := rfl
    simp only [Option.map_some, Option.bind_some, starts, entered, endStart_world _ _ _ free]
    split <;> rfl

/-- An operation goes in a world with a past as it does without, unless it fires an alarm of the
past that its owner takes for its own. -/
theorem operate_world (fits : p.Fits w) (op : Operation π)
    (quiet : ∀ c generation, op = .timer c generation → ¬ p.Disturbs w c generation) :
    (p.world w).operate (p.operation op) =
      (w.operate op).map (Prod.map p.world p.progress) := by
  cases op with
  | act action => exact congrArg some (p.perform_world w fits.free .outside action)
  | conclude pause =>
    simp only [operation, World.operate, pauseEnd?_world, Option.map_map]
    rfl
  | worker h =>
    simp only [operation, World.operate, p.moveWorker_world w h fits.free, Option.map_map]
    rfl
  | timer c generation =>
    simp only [operation, World.operate, moveTimer_world fits (quiet c generation rfl),
      Option.map_map]
    rfl
  | beginStart h =>
    simp only [operation, World.operate, beginStart?_world, Option.map_map]
    rfl
  | endStart h c =>
    simp only [operation, World.operate, p.endStart?_world w h (fits.free c), Option.map_map]
    rfl
  | lock l =>
    simp only [operation, World.operate, holder_world, setHolder_world]
    split <;> rfl
  | unlock l =>
    simp only [operation, World.operate, holder_world, setHolder_world]
    split <;> rfl
  | release h => exact congrArg some (by rw [release_world]; rfl)
  | startClock c =>
    refine congrArg some ?_
    rw [startClock_world]
    exact Prod.ext rfl (p.progress_startReply _).symm
  | stopClock c => exact congrArg some (Prod.ext (p.stopClock_world w c) rfl)
  | addAlarm c deadline =>
    refine congrArg some (Prod.ext (addAlarm_world (fits.free c) deadline) ?_)
    exact congrArg (fun id => Progress.replied (.count id)) (nextId_world c)
  | addPeriodicAlarm c period =>
    refine congrArg some (Prod.ext (addPeriodicAlarm_world (fits.free c) period) ?_)
    exact congrArg (fun id => Progress.replied (.count id)) (nextId_world c)
  | removeAlarm c alarm =>
    refine congrArg some (Prod.ext (removeAlarm_world c alarm) ?_)
    simp only [clock_world, Clock.remove_map]
    rfl
  | panicTimer c generation => exact congrArg some (Prod.ext (panicTimer_world c generation) rfl)

/-! ## Operations in a row -/

theorem Fits.after (fits : p.Fits w) (op : Operation π) : p.Fits (w.after op) := by
  rcases w.after_cases op with same | step
  · rwa [same]
  · exact fun c id g owned => (step.ticks.steps c).sole (fits c id g owned)

theorem Fits.afterAll (fits : p.Fits w) (ops : List (Operation π)) : p.Fits (w.afterAll ops) := by
  induction ops generalizing w with
  | nil => exact fits
  | cons op rest ih => exact ih (fits.after op)

/-- No operation fires an alarm of the past that its owner takes for its own. -/
def Undisturbed (p : Past π) (w : World π) (ops : List (Operation π)) : Prop :=
  ∀ before c generation later, ops = before ++ .timer c generation :: later →
    ¬ p.Disturbs (w.afterAll before) c generation

theorem undisturbed_nil : p.Undisturbed w [] := by
  intro before c generation later same
  simp at same

theorem undisturbed_cons {op : Operation π} {rest : List (Operation π)} :
    p.Undisturbed w (op :: rest) ↔
      (∀ c generation, op = .timer c generation → ¬ p.Disturbs w c generation) ∧
        p.Undisturbed (w.after op) rest := by
  constructor
  · intro quiet
    refine ⟨fun c generation same => quiet [] c generation rest (by rw [same]; rfl), ?_⟩
    intro before c generation later same
    exact quiet (op :: before) c generation later (congrArg (op :: ·) same)
  · rintro ⟨first, quiet⟩ before c generation later same
    cases before with
    | nil => exact first c generation (List.cons.inj same).1
    | cons op' before =>
      obtain ⟨rfl, left⟩ := List.cons.inj same
      exact quiet before c generation later left

theorem Undisturbed.before {ops before later : List (Operation π)} (quiet : p.Undisturbed w ops)
    (split : ops = before ++ later) : p.Undisturbed w before := by
  intro first c generation rest same
  refine quiet first c generation (rest ++ later) ?_
  rw [split, same, List.append_assoc]
  rfl

/-- Operations that are disturbed are disturbed for a first time. -/
theorem undisturbed_or_first (p : Past π) (w : World π) (ops : List (Operation π)) :
    p.Undisturbed w ops ∨ ∃ before c generation later,
      ops = before ++ .timer c generation :: later ∧ p.Undisturbed w before ∧
        p.Disturbs (w.afterAll before) c generation := by
  induction ops generalizing w with
  | nil => exact .inl undisturbed_nil
  | cons op rest ih =>
    by_cases first : ∃ c generation, op = .timer c generation ∧ p.Disturbs w c generation
    · obtain ⟨c, generation, same, disturbs⟩ := first
      exact .inr ⟨[], c, generation, rest, by rw [same]; rfl, undisturbed_nil, disturbs⟩
    · have first : ∀ c generation, op = .timer c generation → ¬ p.Disturbs w c generation :=
        fun c generation same disturbs => first ⟨c, generation, same, disturbs⟩
      rcases ih (w.after op) with quiet | ⟨before, c, generation, later, same, quiet, disturbs⟩
      · exact .inl (undisturbed_cons.mpr ⟨first, quiet⟩)
      · refine .inr ⟨op :: before, c, generation, later, congrArg (op :: ·) same, ?_, disturbs⟩
        exact undisturbed_cons.mpr ⟨first, quiet⟩

theorem after_world (fits : p.Fits w) {op : Operation π}
    (quiet : ∀ c generation, op = .timer c generation → ¬ p.Disturbs w c generation) :
    (p.world w).after (p.operation op) = p.world (w.after op) ∧
      (p.world w).outcome (p.operation op) = (w.outcome op).map p.progress := by
  rw [World.after, World.outcome, operate_world fits op quiet, World.after, World.outcome]
  cases w.operate op <;> exact ⟨rfl, rfl⟩

/-- Undisturbed operations go in a world with a past as they do without. -/
theorem afterAll_world (fits : p.Fits w) {ops : List (Operation π)} (quiet : p.Undisturbed w ops) :
    (p.world w).afterAll (ops.map p.operation) = p.world (w.afterAll ops) ∧
      (p.world w).outcomes (ops.map p.operation) =
        (w.outcomes ops).map (Option.map p.progress) := by
  induction ops generalizing w with
  | nil => exact ⟨rfl, rfl⟩
  | cons op rest ih =>
    obtain ⟨first, quiet⟩ := undisturbed_cons.mp quiet
    obtain ⟨after, outcome⟩ := after_world fits first
    obtain ⟨left, outcomes⟩ := ih (fits.after op) quiet
    constructor
    · exact (congrArg (fun v => v.afterAll (rest.map p.operation)) after).trans left
    · simp only [List.map_cons, World.outcomes, outcome, after, outcomes]

end EventEngine.Past
