import EventEngine.Proofs.Sides.Confined

/-!
# What one side does alone

An operation on one side of a divided world goes as it would go if there were nothing on the other
side: it answers the same, and it leaves the part on its side as it would leave the part alone.
-/
namespace EventEngine.World

variable {π : Type} {z : Sides} {s : Bool} {h : HandlerId} {c : ClockId} {w : World π}
  {x : Handler π}

/-! ## Clocks -/

theorem startClock_part (near : z.clock c = s) :
    (w.part z s).startClock c = (w.startClock c).map (part z s) id := by
  unfold startClock
  rw [clock_part near]
  cases (w.clock c).start with
  | ok started => exact congrArg (·, _) (setClock_part near)
  | error e => rfl

theorem stopClock_part (near : z.clock c = s) :
    (w.part z s).stopClock c = (w.stopClock c).part z s := by
  unfold stopClock
  rw [clock_part near]
  exact setClock_part near

theorem armTimeout_part (near : z.handler h = s) (clock : z.clock c = s) :
    (w.part z s).armTimeout h x c = (w.armTimeout h x c).part z s := by
  unfold armTimeout
  rw [clock_part clock]
  split
  · rfl
  · simp only [now_part, setClock_part clock, modify_part near]

theorem disarmTimeout_part {c : Option ClockId} (near : z.handler h = s)
    (clock : ∀ c', c = some c' → z.clock c' = s) :
    (w.part z s).disarmTimeout h x c = (w.disarmTimeout h x c).part z s := by
  unfold disarmTimeout
  rw [modify_part near]
  split
  · rfl
  · split
    · rfl
    · next c =>
      simp only [clock_part (clock c rfl), setClock_part (clock c rfl)]

/-! ## Start and stop -/

theorem spawnWorker_part (near : z.handler h = s) (clock : z.clock c = s) :
    (w.part z s).spawnWorker h c = (w.spawnWorker h c).map (part z s) id := by
  have there : ∀ c', some c = some c' → z.clock c' = s := by
    rintro c' ⟨⟩
    exact clock
  unfold spawnWorker
  rw [find?_part near]
  split
  · rfl
  · simp only [modify_part near, disarmTimeout_part near there]
    split <;> exact congrArg (·, _) (note_part near)

theorem beginStart_part (near : z.handler h = s) (within : x.Within z s) :
    (w.part z s).beginStart h x = (w.beginStart h x).map (part z s) id := by
  unfold beginStart
  simp only [modify_part near, startClock_part within.clock]
  rcases startClock _ _ with ⟨v, e | _⟩ <;> rfl

theorem endStart_part (near : z.handler h = s) (clock : z.clock c = s) :
    (w.part z s).endStart h c = (w.endStart h c).map (part z s) id := by
  unfold endStart
  rw [find?_part near]
  split
  · rfl
  · split
    · rfl
    · rw [modify_part near, armTimeout_part near clock, spawnWorker_part near clock]

theorem start_part (near : z.handler h = s) (within : x.Within z s) :
    (w.part z s).start h x = (w.start h x).map (part z s) id := by
  unfold start
  rw [beginStart_part near within]
  rcases begun : w.beginStart h x with ⟨v, e | c⟩
  · rfl
  · obtain ⟨rfl, -⟩ := beginStart_eq_ok.mp begun
    exact endStart_part near within.clock

theorem requestStop_part (near : z.handler h = s) (within : x.Within z s) (who : Caller)
    (destroys : Bool) : (w.part z s).requestStop who h x destroys =
      (w.requestStop who h x destroys).map (part z s) id := by
  have clock : ∀ c, x.clock = some c → z.clock c = s := by
    intro c same
    have own := within.clock
    rwa [same] at own
  unfold requestStop
  rw [disarmTimeout_part near clock, modify_part near, note_part (o := .abortRequested h) near]
  split
  · split
    · exact congrArg (·, none) (note_part near)
    · rfl
  · rfl

theorem concludeDestroy_part (near : z.handler h = s) :
    (w.part z s).concludeDestroy h = (w.concludeDestroy h).map (part z s) id := by
  unfold concludeDestroy
  rw [find?_part near, modify_part near]
  split
  · rfl
  · split
    · rfl
    · exact congrArg (·, _) (note_part near)

/-! ## Queues -/

theorem enqueue_part (near : z.handler h = s) (place : Place) (body : RecordBody π) :
    (w.part z s).enqueue h x place body = (w.enqueue h x place body).part z s := by
  rw [enqueue, modify_part near]
  exact note_part near

theorem signal_part (near : z.handler h = s) (place : Place) (e : Event π) :
    (w.part z s).signal h x place e = (w.signal h x place e).map (part z s) id := by
  unfold signal
  split
  · exact congrArg (·, _) (enqueue_part near place _)
  · exact congrArg (·, _) (note_part near)

theorem clear_part (near : z.handler h = s) :
    (w.part z s).clear h x = (w.clear h x).part z s := by
  unfold clear
  rw [modify_part near]
  split
  · rfl
  · exact note_part near

/-! ## Actions -/

theorem withHandler_part {f f' : Handler π → World π × Progress} (sided : w.Sided z)
    (near : z.handler h = s)
    (same : ∀ x, x.Within z s → f' x = (f x).map (part z s) id) :
    (w.part z s).withHandler h f' = (w.withHandler h f).map (part z s) id := by
  unfold withHandler
  rw [find?_part near]
  split
  · next x found => exact same x (near ▸ sided.handlers (find?_eq_some.mp found).1)
  · rfl

/-- An action goes as it would go on its side alone. -/
theorem perform_part (sided : w.Sided z) {who : Caller}
    (caller : ∀ g, who = .worker g → z.handler g = s) {action : Action π}
    (within : action.within z s = true) :
    (w.part z s).perform who action = (w.perform who action).map (part z s) id := by
  have near : ∀ h, action.target? = some h → z.handler h = s := fun h =>
    Action.handler_of_target within
  cases action with
  | start h =>
    refine withHandler_part sided (near h rfl) fun x own => ?_
    rw [start_part (near h rfl) own]
    rfl
  | stop h =>
    refine withHandler_part sided (near h rfl) fun x own => ?_
    rw [requestStop_part (near h rfl) own]
    rcases w.requestStop who h x false with ⟨v, _ | pause⟩ <;> rfl
  | destroy h =>
    refine withHandler_part sided (near h rfl) fun x own => ?_
    rw [requestStop_part (near h rfl) own]
    rcases w.requestStop who h x true with ⟨v, _ | pause⟩
    · simp only [Prod.map_apply, id_eq, concludeDestroy_part (near h rfl)]
      rfl
    · rfl
  | signal h place typeName payload script =>
    refine withHandler_part sided (near h rfl) fun x _ => ?_
    rw [signal_part (near h rfl)]
    rfl
  | clear h =>
    refine withHandler_part sided (near h rfl) fun x _ => ?_
    rw [clear_part (near h rfl)]
    rfl
  | setTimeout h interval context script =>
    refine withHandler_part sided (near h rfl) fun x _ => ?_
    rw [modify_part (near h rfl)]
    exact congrArg (·, _) (note_part (near h rfl))
  | setClock h c =>
    refine withHandler_part sided (near h rfl) fun x _ => ?_
    rw [modify_part (near h rfl)]
    rfl
  | isRunning h => exact withHandler_part sided (near h rfl) fun _ _ => rfl
  | isCurrent h => exact withHandler_part sided (near h rfl) fun _ _ => rfl
  | pending h => exact withHandler_part sided (near h rfl) fun _ _ => rfl
  | name h => exact withHandler_part sided (near h rfl) fun _ _ => rfl
  | describe h => exact withHandler_part sided (near h rfl) fun _ _ => rfl
  | types h => exact withHandler_part sided (near h rfl) fun _ _ => rfl
  | containsType h typeName => exact withHandler_part sided (near h rfl) fun _ _ => rfl
  | advance d => cases within
  | threadName =>
    have name : (w.part z s).threadName who = w.threadName who := by
      cases who with
      | outside => rfl
      | worker g => exact congrArg threadNameOf (nameOf_part (caller g rfl))
    rw [perform, name]
    rfl
  | isLockFree lock =>
    rw [perform, holder_part (eq_of_beq within)]
    rfl
  | block => rfl
  | panic => rfl

/-! ## Workers -/

theorem setWorker_part (near : z.handler h = s) (worker : Worker π) :
    (w.part z s).setWorker h worker = (w.setWorker h worker).part z s := modify_part near

theorem leave_part (near : z.handler h = s) :
    (w.part z s).leave h x = (w.leave h x).part z s := by
  unfold leave
  rw [modify_part near]
  split
  · split
    · exact note_part near
    · simp only
      rw [note_part (o := .cleared h x.queue.events) near]
      exact note_part near
  · rfl

theorem finishDispatch_part (near : z.handler h = s) (lock : ∀ l, x.lock = some l → z.lock l = s)
    (record : Record π) (since : Instant) :
    (w.part z s).finishDispatch h x record since =
      (w.finishDispatch h x record since).part z s := by
  unfold finishDispatch
  simp only [now_part, modify_part near, setHolder_part lock]
  exact note_part near

theorem panicDispatch_part (near : z.handler h = s) (lock : ∀ l, x.lock = some l → z.lock l = s)
    (record : Record π) :
    (w.part z s).panicDispatch h x record = (w.panicDispatch h x record).part z s := by
  have told : ((w.part z s).setHolder x.lock none).note (.panicked h record) =
      ((w.setHolder x.lock none).note (.panicked h record)).part z s := by
    rw [setHolder_part lock]
    exact note_part near
  unfold panicDispatch
  simp only [told, find?_part near]
  split
  · exact leave_part near
  · rfl

theorem resume_part (near : z.handler h = s) (record : Record π) (since : Instant)
    (script : List (Action π)) (reply : Reply) :
    (w.part z s).resume h record since script reply =
      (w.resume h record since script reply).part z s := by
  rw [resume, setWorker_part near]
  exact note_part near

theorem pauseEnd?_part {pause : Pause} (near : pause.Within z s) :
    (w.part z s).pauseEnd? pause = (w.pauseEnd? pause).map (Prod.map (part z s) id) := by
  cases pause with
  | blocked => rfl
  | exit h exits destroys =>
    simp only [pauseEnd?, find?_part (show z.handler h = s from near),
      concludeDestroy_part (show z.handler h = s from near)]
    split
    · rfl
    · split
      · rfl
      · split <;> rfl

theorem dispatchAction_part (sided : w.Sided z) (near : z.handler h = s)
    (lock : ∀ l, x.lock = some l → z.lock l = s) (record : Record π) (since : Instant)
    {action : Action π} {rest : List (Action π)}
    (script : Action.withinAll z s (action :: rest) = true) :
    (w.part z s).dispatchAction h x record since action rest =
      (w.dispatchAction h x record since action rest).part z s := by
  obtain ⟨within, rest_within⟩ := Action.withinAll_cons.mp script
  have begun : Confined z s w (w.setWorker h (.dispatching record since rest none)) :=
    Confined.refl.setWorker near ⟨rest_within, nofun⟩
  have caller : ∀ g, Caller.worker h = .worker g → z.handler g = s := by
    rintro g ⟨⟩
    exact near
  unfold dispatchAction
  rw [setWorker_part near, perform_part (begun sided).1 caller within]
  rcases (w.setWorker h (.dispatching record since rest none)).perform (.worker h) action with
    ⟨v, reply | pause | _⟩
  · exact note_part near
  · exact setWorker_part near _
  · exact panicDispatch_part near lock record

/-- A worker moves as it would on its side alone. -/
theorem moveWorker_part (sided : w.Sided z) (near : z.handler h = s) :
    (w.part z s).moveWorker h = (w.moveWorker h).map (part z s) := by
  unfold moveWorker
  rw [find?_part near]
  cases found : w.find? h with
  | none => rfl
  | some x =>
    have within : x.Within z s := near ▸ sided.handlers (find?_eq_some.mp found).1
    cases hworker : x.worker with
    | none => simp [hworker]
    | some worker =>
      have at_work := within.worker worker hworker
      simp only [Option.bind_eq_bind, Option.bind_some, hworker]
      rcases worker with _ | record | ⟨record, since, _ | ⟨action, rest⟩, _ | pause⟩
      · simp only [leave_part near, modify_part near]
        split <;> rfl
      · simp only [canDispatch_part within.lock, setHolder_part within.lock, now_part,
          setWorker_part near]
        split
        · exact congrArg some (note_part near)
        · rfl
      · exact congrArg some (finishDispatch_part near within.lock record since)
      · simp only [pauseEnd?_part (at_work.2 pause rfl), Option.map_map]
        exact congrArg (Option.map · _) (funext fun _ => resume_part near ..)
      · exact congrArg some (dispatchAction_part sided near within.lock record since at_work.1)
      · simp only [pauseEnd?_part (at_work.2 pause rfl), Option.map_map]
        exact congrArg (Option.map · _) (funext fun _ => resume_part near ..)

theorem release_part (near : z.handler h = s) :
    (w.part z s).release h = (w.release h).map (part z s) id := by
  unfold release
  rw [find?_part near]
  split
  · exact congrArg (·, _) (resume_part near ..)
  · rfl

/-! ## Timer threads -/

theorem signalTimeout_part (near : z.handler h = s) (alarm : AlarmId) (deadline : Instant) :
    (w.part z s).signalTimeout h alarm deadline = (w.signalTimeout h alarm deadline).part z s := by
  unfold signalTimeout
  rw [find?_part near]
  split
  · rfl
  · split
    · split
      · exact enqueue_part near ..
      · rfl
    · rfl

theorem deliver_part {f : Firing AlarmOwner}
    (near : ∀ h, f.callback = .handler h → z.handler h = s) :
    (w.part z s).deliver f = (w.deliver f).part z s := by
  unfold deliver
  split
  · next h callback => exact signalTimeout_part (near h callback) ..
  · rfl

theorem ticked_part (near : z.clock c = s) (t : Timer AlarmOwner) :
    (w.part z s).ticked c t = (w.ticked c t).part z s := by
  rw [ticked, clock_part near]
  exact setClock_part near

/-- A timer thread moves as it would on its side alone. -/
theorem moveTimer_part (sided : w.Sided z) (near : z.clock c = s) (generation : Nat) :
    (w.part z s).moveTimer c generation = (w.moveTimer c generation).map (part z s) := by
  rw [moveTimer_eq, moveTimer_eq, clock_part near, now_part]
  cases ready : (w.clock c).thread? w.now generation with
  | none => rfl
  | some t =>
    simp only [Option.map_some, ticked_part near]
    cases fires : ((w.clock c).move w.now t).2.1 with
    | none => rfl
    | some f =>
      have taken := Clock.mem_taken_of_fires (Clock.thread?_eq_some ready).1 fires
      refine congrArg some (deliver_part fun h callback => ?_)
      exact (sided.clocks (.inr ⟨f, taken, rfl, callback⟩)).trans near

/-! ## Operations -/

theorem beginStart?_part (sided : w.Sided z) (near : z.handler h = s) :
    (w.part z s).beginStart? h = (w.beginStart? h).map (part z s) := by
  unfold beginStart?
  rw [find?_part near]
  cases found : w.find? h with
  | none => rfl
  | some x =>
    have within : x.Within z s := near ▸ sided.handlers (find?_eq_some.mp found).1
    simp only [Option.bind_some, beginStart_part near within]
    rcases w.beginStart h x with ⟨v, e | c⟩
    · rfl
    · exact congrArg some (modify_part near)

theorem endStart?_part (sided : w.Sided z) (near : z.handler h = s) :
    (w.part z s).endStart? h c = (w.endStart? h c).map (Prod.map (part z s) id) := by
  unfold endStart?
  rw [find?_part near]
  cases found : w.find? h with
  | none => rfl
  | some x =>
    have within : x.Within z s := near ▸ sided.handlers (find?_eq_some.mp found).1
    simp only [Option.bind_some]
    split
    · next pending =>
      rw [modify_part near, endStart_part near (within.starts c pending)]
      rfl
    · rfl

/-- An operation on one side goes as it would on that side alone. -/
theorem operate_part (sided : w.Sided z) {op : Operation π} (within : op.Within z s) :
    (w.part z s).operate op = (w.operate op).map (Prod.map (part z s) id) := by
  cases op with
  | act action =>
    have outside : ∀ g, Caller.outside = .worker g → z.handler g = s := nofun
    exact congrArg some (perform_part sided outside within)
  | conclude pause =>
    simp only [operate, pauseEnd?_part (show pause.Within z s from within), Option.map_map]
    rfl
  | worker h =>
    simp only [operate, moveWorker_part sided (show z.handler h = s from within), Option.map_map]
    rfl
  | timer c generation =>
    simp only [operate, moveTimer_part sided (show z.clock c = s from within), Option.map_map]
    rfl
  | beginStart h =>
    simp only [operate, beginStart?_part sided (show z.handler h = s from within), Option.map_map]
    rfl
  | endStart h c =>
    simp only [operate, endStart?_part sided (show z.handler h = s from within), Option.map_map]
    rfl
  | lock l =>
    have near : ∀ l', some l = some l' → z.lock l' = s := by
      rintro l' ⟨⟩
      exact within
    simp only [operate, holder_part (near l rfl), setHolder_part near]
    split <;> rfl
  | unlock l =>
    have near : ∀ l', some l = some l' → z.lock l' = s := by
      rintro l' ⟨⟩
      exact within
    simp only [operate, holder_part (near l rfl), setHolder_part near]
    split <;> rfl
  | release h =>
    simp only [operate, release_part (show z.handler h = s from within)]
    rfl
  | startClock c =>
    simp only [operate, startClock_part (show z.clock c = s from within)]
    rfl
  | stopClock c =>
    simp only [operate, stopClock_part (show z.clock c = s from within)]
    rfl
  | addAlarm c deadline =>
    have near : z.clock c = s := within
    simp only [operate, addAlarm, clock_part near, setClock_part near]
    rfl
  | addPeriodicAlarm c period =>
    have near : z.clock c = s := within
    simp only [operate, addPeriodicAlarm, clock_part near, now_part, setClock_part near]
    rfl
  | removeAlarm c id =>
    have near : z.clock c = s := within
    simp only [operate, removeAlarm, clock_part near, setClock_part near]
    rfl
  | panicTimer c generation =>
    have near : z.clock c = s := within
    simp only [operate, panicTimer, clock_part near, setClock_part near]
    rfl

end EventEngine.World
