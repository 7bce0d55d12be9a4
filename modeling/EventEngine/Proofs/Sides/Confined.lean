import EventEngine.Proofs.Sides.Basic

/-!
# What stays on one side

An operation on one side of a divided world leaves the world divided and the part on the other side
as it is. This is built up from the single changes: to a handler, to a clock, to a lock, and to what
is noted.
-/
namespace EventEngine.World

open Action (withinAll)

variable {π : Type} {z : Sides} {s : Bool} {g : HandlerId} {u v w : World π} {x : Handler π}

/-- The alarms that are added are none of a handler of the other side. -/
def OnSide (z : Sides) (s : Bool) (_ : Clock AlarmOwner) (a : Alarm AlarmOwner) : Prop :=
  ∀ h, a.callback = .handler h → z.handler h = s

/-- What happens to a divided world leaves it divided, and the part on the other side as it is. -/
def Confined (z : Sides) (s : Bool) (v w : World π) : Prop :=
  v.Sided z → w.Sided z ∧ w.part z (!s) = v.part z (!s)

namespace Confined

theorem refl : Confined z s w w := fun sided => ⟨sided, rfl⟩

theorem trans (first : Confined z s u v) (second : Confined z s v w) : Confined z s u w := by
  intro sided
  obtain ⟨sided', same⟩ := first sided
  obtain ⟨sided'', same'⟩ := second sided'
  exact ⟨sided'', same'.trans same⟩

theorem note {o : Occurrence π} (confined : Confined z s v w) (near : z.occurrence o = s) :
    Confined z s v (w.note o) :=
  confined.trans fun sided => ⟨⟨sided.handlers, sided.clocks⟩, part_note near⟩

theorem modify {f : Handler π → Handler π} (confined : Confined z s v w)
    (near : z.handler g = s) (keeps : ∀ x, x.Within z s → (f x).Within z s) :
    Confined z s v (w.modify g f) := by
  refine confined.trans fun sided => ⟨⟨fun {h y} hy => ?_, sided.clocks⟩, part_modify near⟩
  rw [handlers_modify] at hy
  split at hy
  · next same =>
    subst same
    obtain ⟨x, hx, rfl⟩ := Option.map_eq_some_iff.mp hy
    rw [near]
    exact keeps x (near ▸ sided.handlers hx)
  · exact sided.handlers hy

theorem setClock {c : ClockId} {k : Clock AlarmOwner} {notices : List ClockNotice}
    (confined : Confined z s v w) (near : z.clock c = s)
    (step : Clock.Step (OnSide z s) (w.clock c) k) : Confined z s v (w.setClock c k notices) := by
  refine confined.trans fun sided =>
    ⟨⟨sided.handlers, fun {c' id h} knows => ?_⟩, part_setClock near⟩
  rw [clock_setClock] at knows
  split at knows
  · next same =>
    rw [← same.1]
    rcases step.knows_cases knows with earlier | ⟨a, added, -, -, own⟩
    · exact sided.clocks earlier
    · exact (added h own).trans near.symm
  · exact sided.clocks knows

theorem setHolder {lock : Option LockId} {who : Option Caller} (confined : Confined z s v w)
    (near : ∀ l, lock = some l → z.lock l = s) : Confined z s v (w.setHolder lock who) := by
  refine confined.trans fun sided => ⟨⟨?_, ?_⟩, part_setHolder near⟩
  · intro h y hy
    rw [handlers_setHolder] at hy
    exact sided.handlers hy
  · intro c id h knows
    rw [clock_congr (clocks_setHolder ..)] at knows
    exact sided.clocks knows

theorem setWorker {worker : Worker π} (confined : Confined z s v w) (near : z.handler g = s)
    (at_work : worker.Within z s) : Confined z s v (w.setWorker g worker) :=
  confined.modify near fun _ within => within.setWorker worker at_work

theorem armTimeout {c : ClockId} (confined : Confined z s v w) (near : z.handler g = s)
    (clock : z.clock c = s) : Confined z s v (w.armTimeout g x c) := by
  unfold World.armTimeout
  split
  · exact confined
  · have own : ∀ h, AlarmOwner.handler g = .handler h → z.handler h = s := by
      rintro h ⟨⟩
      exact near
    exact (confined.setClock clock (.add _ _ _ _ own)).modify near fun _ within => { within with }

theorem disarmTimeout {c : Option ClockId} (confined : Confined z s v w) (near : z.handler g = s)
    (clock : ∀ c', c = some c' → z.clock c' = s) : Confined z s v (w.disarmTimeout g x c) := by
  have forgotten : Confined z s v (w.modify g ({ · with timeoutAlarm := none })) :=
    confined.modify near fun _ within => { within with }
  unfold World.disarmTimeout
  split
  · exact confined
  · next id _ =>
    split
    · exact forgotten
    · next c => exact forgotten.setClock (clock c rfl) (.remove _ id)

theorem enqueue {place : Place} {body : RecordBody π} (confined : Confined z s v w)
    (near : z.handler g = s) (script : withinAll z s body.script = true) :
    Confined z s v (w.enqueue g x place body) :=
  .note (.modify confined near fun _ within => within.enqueue place script) near

theorem leave (confined : Confined z s v w) (near : z.handler g = s) :
    Confined z s v (w.leave g x) := by
  have left : Confined z s v (w.modify g Handler.exit) :=
    confined.modify near fun _ within => within.exit
  unfold World.leave
  split
  · split
    · exact left.note near
    · refine (left.note ?_).note ?_ <;> exact near
  · exact left

end Confined

/-! ## Actions -/

theorem confined_installs {c : ClockId} (near : z.handler g = s) (clock : z.clock c = s)
    (installs : Installs w g x c v) : Confined z s w v := by
  have armed : Confined z s w (w.armed g x c) :=
    .armTimeout (.modify .refl near fun _ within => { within with }) near clock
  cases installs with
  | running _ => exact .refl
  | launched _ _ => exact .note (.modify armed near fun _ within => within.launch) near
  | refused _ _ =>
    refine .note (.disarmTimeout armed near ?_) near
    rintro c' ⟨⟩
    exact clock
  | crashed _ _ => exact .note armed near

theorem confined_adopted (near : z.handler g = s) : Confined z s w (w.adopted g) :=
  Confined.refl.modify near fun _ within => { within with clock := within.clock }

theorem confined_start (near : z.handler g = s) (within : x.Within z s)
    (found : w.find? g = some x) : Confined z s w (w.start g x).1 := by
  have adopted : Confined z s w (w.adopted g) := confined_adopted near
  have started := starts found
  generalize (w.start g x).1 = w' at started
  cases started with
  | failed _ => exact adopted
  | opened started installs =>
    exact (adopted.setClock within.clock (.start started)).trans
      (confined_installs near within.clock installs)

theorem confined_beginStart? (begun : w.beginStart? g = some v) (near : z.handler g = s) :
    Confined z s w v := by
  intro sided
  obtain ⟨x, c, k, notices, found, rfl, started, rfl⟩ := beginStart?_eq_some.mp begun
  have within : x.Within z s := near ▸ sided.handlers (find?_eq_some.mp found).1
  have adopted : Confined z s w (w.adopted g) := confined_adopted near
  refine (adopted.setClock within.clock (.start started)).modify near (fun y own => ?_) sided
  refine { own with starts := fun c member => ?_ }
  rcases List.mem_cons.mp member with rfl | earlier
  · exact within.clock
  · exact own.starts c earlier

theorem confined_endStart? {c : ClockId} {reply : Reply}
    (ended : w.endStart? g c = some (v, reply)) (near : z.handler g = s) : Confined z s w v := by
  intro sided
  obtain ⟨x, found, pending, result⟩ := endStart?_eq_some.mp ended
  cases result
  have within : x.Within z s := near ▸ sided.handlers (find?_eq_some.mp found).1
  have enters : Confined z s w (w.modify g (·.entered c)) :=
    Confined.refl.modify near fun _ other =>
      { other with starts := fun c' member => other.starts c' (List.mem_of_mem_erase member) }
  have installs := installs (find?_entered found c) c
  exact enters.trans (confined_installs near (within.starts c pending) installs) sided

theorem confined_requestStop (near : z.handler g = s) (within : x.Within z s) (who : Caller)
    (destroys : Bool) : Confined z s w (w.requestStop who g x destroys).1 := by
  have clock : ∀ c, x.clock = some c → z.clock c = s := by
    intro c same
    have own := within.clock
    rwa [same] at own
  have asked : Confined z s w (((w.disarmTimeout g x x.clock).modify g Handler.requestStop).note
      (.abortRequested g)) := by
    refine .note (.modify (.disarmTimeout .refl near clock) near fun _ within => ?_) near
    exact { within with }
  unfold requestStop
  split
  · split
    · exact asked.note near
    · exact asked
  · exact .refl

theorem confined_concludeDestroy (near : z.handler g = s) :
    Confined z s w (w.concludeDestroy g).1 := by
  unfold concludeDestroy
  split
  · exact .refl
  · split
    · exact .refl
    · exact .note (.modify .refl near fun _ within => { within with }) near

theorem confined_withHandler {f : Handler π → World π × Progress} (near : z.handler g = s)
    (step : ∀ x, w.find? g = some x → x.Within z s → Confined z s w (f x).1) :
    Confined z s w (w.withHandler g f).1 := by
  intro sided
  unfold withHandler
  split
  · next x found => exact step x found (near ▸ sided.handlers (find?_eq_some.mp found).1) sided
  · exact ⟨sided, rfl⟩

theorem perform_confined (who : Caller) {action : Action π} (within : action.within z s = true) :
    Confined z s w (w.perform who action).1 := by
  have near : ∀ h, action.target? = some h → z.handler h = s := fun h =>
    Action.handler_of_target within
  have nothing : Confined z s w w := .refl
  cases action with
  | start g =>
    exact confined_withHandler (near g rfl) fun x found own => confined_start (near g rfl) own found
  | stop g =>
    refine confined_withHandler (near g rfl) fun x _ own => ?_
    have asks := confined_requestStop (w := w) (near g rfl) own who false
    split <;> next answered => rw [answered] at asks; exact asks
  | destroy g =>
    refine confined_withHandler (near g rfl) fun x _ own => ?_
    have asks := confined_requestStop (w := w) (near g rfl) own who true
    split
    · next answered =>
      rw [answered] at asks
      exact asks
    · next answered =>
      rw [answered] at asks
      exact asks.trans (confined_concludeDestroy (near g rfl))
  | signal g place typeName payload script =>
    obtain ⟨-, script⟩ := Bool.and_eq_true_iff.mp within
    refine confined_withHandler (near g rfl) fun x _ _ => ?_
    simp only [Prod.map_fst, signal]
    split
    · exact nothing.enqueue (near g rfl) script
    · exact nothing.note (near g rfl)
  | clear g =>
    refine confined_withHandler (near g rfl) fun x _ _ => ?_
    simp only [World.clear]
    split
    · exact nothing
    · exact .note (.modify nothing (near g rfl) fun _ own => own.clear) (near g rfl)
  | setTimeout g interval context script =>
    obtain ⟨-, script⟩ := Bool.and_eq_true_iff.mp within
    refine confined_withHandler (near g rfl) fun x _ _ => ?_
    refine .note (.modify nothing (near g rfl) fun _ own => { own with timeout := ?_ }) (near g rfl)
    rintro _ ⟨⟩
    exact script
  | setClock g c =>
    obtain ⟨-, clock⟩ := Bool.and_eq_true_iff.mp within
    refine confined_withHandler (near g rfl) fun x _ _ => ?_
    exact nothing.modify (near g rfl) fun _ own => { own with clock := eq_of_beq clock }
  | isRunning g => exact confined_withHandler (near g rfl) fun _ _ _ => nothing
  | isCurrent g => exact confined_withHandler (near g rfl) fun _ _ _ => nothing
  | pending g => exact confined_withHandler (near g rfl) fun _ _ _ => nothing
  | name g => exact confined_withHandler (near g rfl) fun _ _ _ => nothing
  | describe g => exact confined_withHandler (near g rfl) fun _ _ _ => nothing
  | types g => exact confined_withHandler (near g rfl) fun _ _ _ => nothing
  | containsType g typeName => exact confined_withHandler (near g rfl) fun _ _ _ => nothing
  | advance d => cases within
  | threadName => exact nothing
  | isLockFree lock => exact nothing
  | block => exact nothing
  | panic => exact nothing

/-- An action that makes its thread wait blocks it, or waits for the exit of the handler that it
operates on. -/
theorem perform_waits {who : Caller} {action : Action π} {pause : Pause}
    (waits : (w.perform who action).2 = .waits pause) : pause = .blocked ∨
      ∃ h exits destroys, pause = .exit h exits destroys ∧ action.target? = some h := by
  have answers : ∀ result, replyOf result ≠ .waits pause := by
    intro result
    cases result <;> simp [replyOf]
  have exit : ∀ {h : HandlerId} {y : Handler π} {destroys : Bool} {v : World π},
      w.requestStop who h y destroys = (v, some pause) → pause = .exit h y.exits destroys := by
    intro h y destroys v asked
    unfold requestStop at asked
    grind
  cases action with
  | block => exact .inl (by cases waits; rfl)
  | stop h =>
    simp only [perform, withHandler] at waits
    grind [Action.target?]
  | destroy h =>
    simp only [perform, withHandler] at waits
    grind [Action.target?]
  | _ =>
    simp only [perform, withHandler] at waits
    grind

/-! ## Moves -/

theorem confined_panicDispatch {record : Record π} (near : z.handler g = s)
    (lock : ∀ l, x.lock = some l → z.lock l = s) : Confined z s w (w.panicDispatch g x record) := by
  have told : Confined z s w ((w.setHolder x.lock none).note (.panicked g record)) :=
    .note (.setHolder .refl lock) near
  unfold panicDispatch
  simp only
  split
  · exact told.leave near
  · exact told

theorem confined_finishDispatch {record : Record π} {since : Instant} (near : z.handler g = s)
    (lock : ∀ l, x.lock = some l → z.lock l = s) :
    Confined z s w (w.finishDispatch g x record since) := by
  refine .note (.setHolder (.modify .refl near fun y within => ?_) lock) near
  have counted : (y.recordDispatch record.body (w.now.since since)).Within z s := { within with }
  exact counted.setWorker .idle trivial

theorem confined_dispatchAction {record : Record π} {since : Instant} {action : Action π}
    {rest : List (Action π)} (near : z.handler g = s)
    (lock : ∀ l, x.lock = some l → z.lock l = s)
    (script : withinAll z s (action :: rest) = true) :
    Confined z s w (w.dispatchAction g x record since action rest) := by
  obtain ⟨within, rest_within⟩ := Action.withinAll_cons.mp script
  have begun : Confined z s w (w.setWorker g (.dispatching record since rest none)) :=
    Confined.refl.setWorker near ⟨rest_within, nofun⟩
  have performed := begun.trans (perform_confined (.worker g) within)
  unfold dispatchAction
  split
  · next answered =>
    rw [answered] at performed
    exact performed.note near
  · next pause answered =>
    rw [answered] at performed
    refine performed.setWorker near ⟨rest_within, ?_⟩
    rintro _ ⟨⟩
    rcases perform_waits (congrArg Prod.snd answered) with rfl | ⟨h, _, _, rfl, target⟩
    · trivial
    · exact Action.handler_of_target within target
  · next answered =>
    rw [answered] at performed
    exact performed.trans (confined_panicDispatch near lock)

theorem confined_pauseEnd {pause : Pause} {reply : Reply} (near : pause.Within z s)
    (ended : w.pauseEnd? pause = some (v, reply)) : Confined z s w v := by
  cases pause with
  | blocked => cases ended
  | exit h exits destroys =>
    simp only [pauseEnd?] at ended
    split at ended
    · cases ended
      exact .refl
    · split at ended
      · cases ended
      · split at ended
        · have same : (w.concludeDestroy h).1 = v := congrArg Prod.fst (Option.some.inj ended)
          exact same ▸ confined_concludeDestroy near
        · cases ended
          exact .refl

theorem confined_moveWorker (moved : w.moveWorker g = some v) (near : z.handler g = s) :
    Confined z s w v := by
  intro sided
  unfold moveWorker at moved
  obtain ⟨x, found, moved⟩ := Option.bind_eq_some_iff.mp moved
  obtain ⟨worker, hworker, moved⟩ := Option.bind_eq_some_iff.mp moved
  have within : x.Within z s := near ▸ sided.handlers (find?_eq_some.mp found).1
  have at_work := within.worker worker hworker
  cases worker with
  | idle =>
    rcases wait_cases x.queue with ⟨-, waited⟩ | ⟨-, -, waited⟩ | ⟨record, rest, queued, waited⟩
    · simp only [waited, Option.some.injEq] at moved
      exact moved ▸ Confined.refl.leave near sided
    · simp [waited] at moved
    · simp only [waited, Option.some.injEq] at moved
      subst moved
      have scripts := within.queue
      rw [queued] at scripts
      obtain ⟨first, others⟩ := List.forall_mem_cons.mp scripts
      refine Confined.modify .refl near (fun y own => ?_) sided
      have taken : ({ y with queue := { events := rest } } : Handler π).Within z s :=
        { own with queue := others }
      exact taken.setWorker (.holding record) first
  | holding record =>
    simp only at moved
    split at moved
    · cases moved
      have begun : Confined z s w ((w.setHolder x.lock (some (.worker g))).setWorker g
          (.dispatching record (w.setHolder x.lock (some (.worker g))).now record.body.script
            none)) :=
        .setWorker (.setHolder .refl within.lock) near ⟨at_work, nofun⟩
      exact begun.note near sided
    · cases moved
  | dispatching record since script pause =>
    obtain ⟨script_within, pause_within⟩ := at_work
    cases pause with
    | some pause =>
      simp only at moved
      obtain ⟨⟨u, reply⟩, ended, rfl⟩ := Option.map_eq_some_iff.mp moved
      have ended := confined_pauseEnd (pause_within pause rfl) ended
      exact Confined.note (ended.setWorker near ⟨script_within, nofun⟩) near sided
    | none =>
      cases script with
      | nil =>
        obtain rfl := Option.some.inj moved
        exact confined_finishDispatch near within.lock sided
      | cons action rest =>
        obtain rfl := Option.some.inj moved
        exact confined_dispatchAction near within.lock script_within sided

theorem confined_release (near : z.handler g = s) : Confined z s w (w.release g).1 := by
  intro sided
  unfold World.release
  split
  · next released =>
    obtain ⟨x, found, hworker⟩ := Option.bind_eq_some_iff.mp released
    have within := near ▸ sided.handlers (find?_eq_some.mp found).1
    obtain ⟨script, -⟩ := within.worker _ hworker
    exact Confined.note (Confined.refl.setWorker near ⟨script, nofun⟩) near sided
  · exact ⟨sided, rfl⟩

theorem confined_deliver {f : Firing AlarmOwner}
    (near : ∀ h, f.callback = .handler h → z.handler h = s) : Confined z s w (w.deliver f) := by
  intro sided
  have delivered := delivers w f
  generalize w.deliver f = v at delivered
  cases delivered with
  | ignored => exact ⟨sided, rfl⟩
  | queued callback found registered configured =>
    have near := near _ callback
    have within := near ▸ sided.handlers (find?_eq_some.mp found).1
    exact Confined.refl.enqueue near (within.timeout _ configured) sided

theorem confined_moveTimer {c : ClockId} {generation : Nat}
    (moved : w.moveTimer c generation = some v) (near : z.clock c = s) :
    Confined z s w v := by
  intro sided
  obtain ⟨t, ready, rfl⟩ := moveTimer_eq_some.mp moved
  have ticked : Confined z s w (w.ticked c t) :=
    Confined.refl.setClock near (.move _ (Clock.thread?_eq_some ready).1)
  cases fires : ((w.clock c).move w.now t).2.1 with
  | none => exact ticked sided
  | some f =>
    refine ticked.trans (confined_deliver fun h callback => ?_) sided
    have taken := Clock.mem_taken_of_fires (Clock.thread?_eq_some ready).1 fires
    exact (sided.clocks (.inr ⟨f, taken, rfl, callback⟩)).trans near

/-! ## Operations -/

/-- Whatever is done on one side leaves the other as it is. -/
theorem operate_confined {op : Operation π} {out : Progress} (within : op.Within z s)
    (operated : w.operate op = some (v, out)) : Confined z s w v := by
  have nobody : ∀ h, AlarmOwner.other = .handler h → z.handler h = s := nofun
  cases op with
  | act action =>
    have same : (w.perform .outside action).1 = v := congrArg Prod.fst (Option.some.inj operated)
    exact same ▸ perform_confined .outside within
  | conclude pause =>
    obtain ⟨⟨u, reply⟩, ended, same⟩ := Option.map_eq_some_iff.mp operated
    cases same
    exact confined_pauseEnd within ended
  | worker h =>
    obtain ⟨u, moved, same⟩ := Option.map_eq_some_iff.mp operated
    cases same
    exact confined_moveWorker moved within
  | timer c generation =>
    obtain ⟨u, moved, same⟩ := Option.map_eq_some_iff.mp operated
    cases same
    exact confined_moveTimer moved within
  | beginStart h =>
    obtain ⟨u, begun, same⟩ := Option.map_eq_some_iff.mp operated
    cases same
    exact confined_beginStart? begun within
  | endStart h c =>
    obtain ⟨⟨u, reply⟩, ended, same⟩ := Option.map_eq_some_iff.mp operated
    cases same
    exact confined_endStart? ended within
  | lock l =>
    simp only [operate] at operated
    split at operated
    · cases operated
      exact Confined.refl.setHolder fun _ same => Option.some.inj same ▸ within
    · cases operated
  | unlock l =>
    simp only [operate] at operated
    split at operated
    · cases operated
      exact Confined.refl.setHolder fun _ same => Option.some.inj same ▸ within
    · cases operated
  | release h =>
    have same : (w.release h).1 = v := congrArg Prod.fst (Option.some.inj operated)
    exact same ▸ confined_release within
  | startClock c =>
    have same : (w.startClock c).1 = v := congrArg Prod.fst (Option.some.inj operated)
    subst same
    unfold World.startClock
    split
    · next started => exact Confined.refl.setClock within (.start started)
    · exact .refl
  | stopClock c =>
    cases operated
    exact Confined.refl.setClock within (.stop _)
  | addAlarm c deadline =>
    cases operated
    exact Confined.refl.setClock within (.add _ _ _ _ nobody)
  | addPeriodicAlarm c period =>
    cases operated
    exact Confined.refl.setClock within (.add _ _ _ _ nobody)
  | removeAlarm c id =>
    cases operated
    exact Confined.refl.setClock within (.remove _ id)
  | panicTimer c generation =>
    cases operated
    exact Confined.refl.setClock within (.drop _ generation)

end EventEngine.World
