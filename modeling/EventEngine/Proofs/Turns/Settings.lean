import EventEngine.Proofs.Clocks.Ticks

/-!
# Who configures a timeout

The timeout of a handler is what was configured last, and nothing but the call that configures it
changes it: no start or stop, no exit of a worker and no alarm.
-/
namespace EventEngine.World

variable {π : Type} {h g : HandlerId} {u v w : World π} {x : Handler π}

def timeout? (w : World π) (h : HandlerId) : Option (TimeoutSetup π) :=
  (w.handlers[h]?).bind Handler.timeout

theorem timeout?_eq (hx : w.handlers[h]? = some x) : w.timeout? h = x.timeout := by
  rw [timeout?, hx]
  rfl

theorem timeout_outline? (w : World π) (h : HandlerId) :
    (w.outline? h).bind Handler.timeout = w.timeout? h := by
  unfold outline? timeout?
  cases w.handlers[h]? <;> rfl

theorem Still.timeout? (still : Still h v w) : w.timeout? h = v.timeout? h := by
  rw [← timeout_outline?, still.1, timeout_outline?]

@[simp] theorem timeout?_note (w : World π) (o : Occurrence π) :
    (w.note o).timeout? h = w.timeout? h := rfl

@[simp] theorem timeout?_setClock (w : World π) (c : ClockId) (k : Clock AlarmOwner)
    (notices : List ClockNotice) : (w.setClock c k notices).timeout? h = w.timeout? h := rfl

@[simp] theorem timeout?_setHolder (w : World π) (lock : Option LockId) (who : Option Caller) :
    (w.setHolder lock who).timeout? h = w.timeout? h := by
  simp [timeout?]

theorem timeout?_modify {f : Handler π → Handler π} (keeps : ∀ x, (f x).timeout = x.timeout) :
    (w.modify g f).timeout? h = w.timeout? h := by
  rw [timeout?, handlers_modify]
  split
  · rw [timeout?]
    cases w.handlers[h]? with
    | none => rfl
    | some x => exact keeps x
  · rfl

@[simp] theorem timeout?_setWorker (w : World π) (worker : Worker π) :
    (w.setWorker g worker).timeout? h = w.timeout? h :=
  timeout?_modify fun _ => rfl

@[simp] theorem timeout?_armTimeout (w : World π) (x : Handler π) (c : ClockId) :
    (w.armTimeout g x c).timeout? h = w.timeout? h := by
  unfold armTimeout
  split
  · rfl
  · exact timeout?_modify fun _ => rfl

@[simp] theorem timeout?_disarmTimeout (w : World π) (x : Handler π) (c : Option ClockId) :
    (w.disarmTimeout g x c).timeout? h = w.timeout? h := by
  have forgotten : (w.modify g ({ · with timeoutAlarm := none })).timeout? h = w.timeout? h :=
    timeout?_modify fun _ => rfl
  unfold disarmTimeout
  split
  · rfl
  · split <;> exact forgotten

@[simp] theorem timeout?_enqueue (w : World π) (x : Handler π) (place : Place)
    (body : RecordBody π) : (w.enqueue g x place body).timeout? h = w.timeout? h :=
  timeout?_modify fun _ => by cases place <;> rfl

@[simp] theorem timeout?_leave (w : World π) (x : Handler π) :
    (w.leave g x).timeout? h = w.timeout? h := by
  have left : (w.modify g Handler.exit).timeout? h = w.timeout? h :=
    timeout?_modify fun _ => Handler.timeout_exit
  unfold leave
  split
  · split <;> exact left
  · exact left

@[simp] theorem timeout?_panicDispatch (w : World π) (x : Handler π) (record : Record π) :
    (w.panicDispatch g x record).timeout? h = w.timeout? h := by
  unfold panicDispatch
  simp only
  split <;> simp

/-! ## Actions -/

theorem timeout?_installs {c : ClockId} (installs : Installs w g x c v) :
    v.timeout? h = w.timeout? h := by
  have armed : (w.armed g x c).timeout? h = w.timeout? h := by
    rw [World.armed, timeout?_armTimeout]
    exact timeout?_modify fun _ => rfl
  cases installs with
  | running _ => rfl
  | launched _ _ => rw [timeout?_note, timeout?_modify (f := Handler.launch) fun _ => rfl, armed]
  | refused _ _ => rw [timeout?_note, timeout?_disarmTimeout, armed]
  | crashed _ _ => exact armed

theorem timeout?_adopted : (w.adopted g).timeout? h = w.timeout? h := timeout?_modify fun _ => rfl

theorem timeout?_start (found : w.find? g = some x) :
    (w.start g x).1.timeout? h = w.timeout? h := by
  have started := starts found
  generalize (w.start g x).1 = w' at started
  cases started with
  | failed _ => exact timeout?_adopted
  | opened _ installs => exact (timeout?_installs installs).trans timeout?_adopted

theorem timeout?_requestStop (who : Caller) (destroys : Bool) :
    (w.requestStop who g x destroys).1.timeout? h = w.timeout? h := by
  have requested : ((w.disarmTimeout g x x.clock).modify g Handler.requestStop).timeout? h =
      w.timeout? h := by
    rw [timeout?_modify (f := Handler.requestStop) fun _ => rfl, timeout?_disarmTimeout]
  unfold requestStop
  split
  · split <;> exact requested
  · rfl

theorem timeout?_concludeDestroy : (w.concludeDestroy g).1.timeout? h = w.timeout? h := by
  unfold concludeDestroy
  split
  · rfl
  · split
    · rfl
    · exact timeout?_modify fun _ => rfl

theorem timeout?_withHandler {f : Handler π → World π × Progress}
    (keeps : ∀ x, w.find? g = some x → (f x).1.timeout? h = w.timeout? h) :
    (w.withHandler g f).1.timeout? h = w.timeout? h := by
  unfold withHandler
  split
  · next x found => exact keeps x found
  · rfl

/-- An action leaves the timeout of a handler alone, unless it configures it. -/
theorem timeout?_perform (who : Caller) {action : Action π}
    (other : ∀ interval context script, action ≠ .setTimeout h interval context script) :
    (w.perform who action).1.timeout? h = w.timeout? h := by
  cases action with
  | start g => exact timeout?_withHandler fun x found => timeout?_start found
  | stop g =>
    refine timeout?_withHandler fun x _ => ?_
    have asked := timeout?_requestStop (w := w) (g := g) (x := x) (h := h) who false
    split <;> next answered => rw [answered] at asked; exact asked
  | destroy g =>
    refine timeout?_withHandler fun x _ => ?_
    have asked := timeout?_requestStop (w := w) (g := g) (x := x) (h := h) who true
    split
    · next answered =>
      rw [answered] at asked
      exact asked
    · next answered =>
      rw [answered] at asked
      exact timeout?_concludeDestroy.trans asked
  | signal g place typeName payload script =>
    refine timeout?_withHandler fun x _ => ?_
    simp only [Prod.map_fst, signal]
    split <;> simp
  | clear g =>
    refine timeout?_withHandler fun x _ => ?_
    simp only [World.clear]
    split
    · rfl
    · exact timeout?_modify fun _ => rfl
  | setTimeout g interval context script =>
    have ne : g ≠ h := fun same => other interval context script (same ▸ rfl)
    exact timeout?_withHandler fun x _ => by simp [timeout?, ne]
  | setClock g c => exact timeout?_withHandler fun x _ => timeout?_modify fun _ => rfl
  | advance d => rfl
  | threadName => rfl
  | isLockFree lock => rfl
  | block => rfl
  | panic => rfl
  | _ => exact timeout?_withHandler fun x _ => rfl

/-! ## Steps -/

theorem timeout?_moveTimer {c : ClockId} {generation : Nat}
    (moved : w.moveTimer c generation = some v) :
    v.timeout? h = w.timeout? h := by
  obtain ⟨t, -, rfl⟩ := moveTimer_eq_some.mp moved
  have ticked : (w.ticked c t).timeout? h = w.timeout? h := rfl
  cases ((w.clock c).move w.now t).2.1 with
  | none => exact ticked
  | some f =>
    have delivered := delivers (w.ticked c t) f
    simp only [Option.map_some, Option.getD_some]
    generalize (w.ticked c t).deliver f = v at delivered
    cases delivered with
    | ignored => exact ticked
    | queued _ _ _ _ => exact (timeout?_enqueue ..).trans ticked

theorem timeout?_pauseEnd {pause : Pause} {reply : Reply}
    (ended : w.pauseEnd? pause = some (v, reply)) : v.timeout? h = w.timeout? h := by
  rcases pauseEnd?_cases ended with rfl | ⟨g, rfl⟩
  · rfl
  · exact timeout?_concludeDestroy

/-- A dispatch that performs an action leaves the timeout of a handler alone, unless it configures
it. -/
theorem timeout?_dispatchAction {record : Record π} {since : Instant} {action : Action π}
    {rest : List (Action π)}
    (other : ∀ interval context script, action ≠ .setTimeout h interval context script) :
    (w.dispatchAction g x record since action rest).timeout? h = w.timeout? h := by
  have performed := (timeout?_perform (w := w.setWorker g (.dispatching record since rest none))
    (.worker g) other).trans (timeout?_setWorker ..)
  unfold dispatchAction
  split <;> next answered => rw [answered] at performed; simpa using performed

theorem timeout?_moveWorker (moved : w.moveWorker g = some v) : v.timeout? h = w.timeout? h ∨
    ∃ interval context script, Calls (.setTimeout h interval context script) w v := by
  unfold moveWorker at moved
  obtain ⟨x, found, moved⟩ := Option.bind_eq_some_iff.mp moved
  obtain ⟨worker, hworker, moved⟩ := Option.bind_eq_some_iff.mp moved
  cases worker with
  | idle =>
    simp only at moved
    split at moved
    · cases moved
    · cases moved
      exact .inl (timeout?_modify fun _ => rfl)
    · cases moved
      exact .inl (timeout?_leave ..)
  | holding record =>
    simp only at moved
    split at moved
    · cases moved
      simp
    · cases moved
  | dispatching record since script pause =>
    cases pause with
    | some pause =>
      simp only at moved
      obtain ⟨⟨u, reply⟩, ended, rfl⟩ := Option.map_eq_some_iff.mp moved
      exact .inl ((timeout?_setWorker ..).trans (timeout?_pauseEnd ended))
    | none =>
      cases script with
      | nil =>
        obtain rfl := Option.some.inj moved
        refine .inl ?_
        rw [finishDispatch, timeout?_note, timeout?_setHolder]
        exact timeout?_modify fun _ => rfl
      | cons action rest =>
        obtain rfl := Option.some.inj moved
        by_cases configures :
            ∃ interval context script, action = .setTimeout h interval context script
        · obtain ⟨interval, context, script, rfl⟩ := configures
          exact .inr ⟨interval, context, script, .dispatch found hworker⟩
        · refine .inl (timeout?_dispatchAction fun interval context script same => ?_)
          exact configures ⟨interval, context, script, same⟩

/-- Nothing but a call that configures the timeout of a handler changes it. -/
theorem Next.timeout? (step : Next v w) (h : HandlerId) : w.timeout? h = v.timeout? h ∨
    ∃ interval context script, Calls (.setTimeout h interval context script) v w := by
  cases step with
  | act action =>
    by_cases configures : ∃ interval context script, action = .setTimeout h interval context script
    · obtain ⟨interval, context, script, rfl⟩ := configures
      exact .inr ⟨interval, context, script, .outside v⟩
    · refine .inl (timeout?_perform .outside fun interval context script same => ?_)
      exact configures ⟨interval, context, script, same⟩
  | conclude ended => exact .inl (timeout?_pauseEnd ended)
  | worker moved => exact timeout?_moveWorker moved
  | timer moved => exact .inl (timeout?_moveTimer moved)
  | beginStart found begun =>
    obtain ⟨rfl, k, notices, -, rfl⟩ := beginStart_eq_ok.mp begun
    refine .inl ((timeout?_modify fun _ => ?_).trans timeout?_adopted)
    rfl
  | @endStart _ _ c found _ =>
    have installed := timeout?_installs (h := h) (installs (find?_entered found c) c)
    exact .inl (installed.trans (timeout?_modify fun _ => rfl))
  | lock _ => exact .inl (timeout?_setHolder ..)
  | unlock _ => exact .inl (timeout?_setHolder ..)
  | release g =>
    refine .inl ?_
    unfold World.release
    split
    · exact timeout?_setWorker ..
    · rfl
  | startClock c =>
    refine .inl ?_
    unfold World.startClock
    split <;> rfl
  | stopClock c => exact .inl rfl
  | addAlarm c deadline => exact .inl rfl
  | addPeriodicAlarm c period => exact .inl rfl
  | removeAlarm c id => exact .inl rfl
  | panicTimer c generation => exact .inl rfl

end EventEngine.World
