import EventEngine.Proofs.LockExclusion

/-!
# What a worker is doing

A worker goes its way from record to record by its own moves: it takes a record, begins with the
script of the record, performs it action by action, and is done with the record at the end of the
script. No other thread has a part in it, except that it starts the worker or releases it.
-/
namespace EventEngine

variable {π : Type} {h : HandlerId}

namespace Worker

/-- What a step does to what a worker is doing, if there is one. -/
inductive Step (now : Instant) : Option (Worker π) → Option (Worker π) → Prop where
  | same (worker : Option (Worker π)) : Step now worker worker
  | start : Step now none (some .idle)
  | take (record : Record π) : Step now (some .idle) (some (.holding record))
  | begin (record : Record π) : Step now (some (.holding record))
      (some (.dispatching record now record.body.script none))
  | perform (record : Record π) (since : Instant) (action : Action π) (rest : List (Action π))
      (pause : Option Pause) : Step now (some (.dispatching record since (action :: rest) none))
        (some (.dispatching record since rest pause))
  | resume (record : Record π) (since : Instant) (script : List (Action π)) (pause : Pause) :
      Step now (some (.dispatching record since script (some pause)))
        (some (.dispatching record since script none))
  | finish (record : Record π) (since : Instant) :
      Step now (some (.dispatching record since [] none)) (some .idle)
  | leave (worker : Worker π) : Step now (some worker) none

/-- All that is left of a script is the end of the script of its record. -/
def OnScript : Option (Worker π) → Prop
  | some (.dispatching record _ script _) => script <:+ record.body.script
  | _ => True

/-- A step goes on with the script that the dispatch has begun with. -/
theorem Step.onScript {now : Instant} {before after : Option (Worker π)}
    (step : Step now before after) (onScript : OnScript before) : OnScript after := by
  cases step with
  | same _ => exact onScript
  | begin record => exact List.suffix_refl _
  | perform record since action rest pause => exact (List.suffix_cons action rest).trans onScript
  | resume record since script pause => exact onScript
  | _ => trivial

end Worker

/-- A worker that appears in a turn has just been started. -/
theorem Handler.Turn.starts {x x' : Handler π} {notes : List (Occurrence π)}
    (turn : Turn h x notes x') (idle : x.worker = none) :
    x'.worker = none ∨ x'.worker = some .idle := by
  cases turn with
  | enqueue place body _ => cases place <;> exact .inl idle
  | start id _ => exact .inr rfl
  | take record rest atWork _ => exact absurd (idle.symm.trans atWork) nofun
  | «begin» record since atWork => exact absurd (idle.symm.trans atWork) nofun
  | finish record since elapsed _ => exact .inr rfl
  | panic record since atWork => exact absurd (idle.symm.trans atWork) nofun
  | leave atWork _ => exact absurd (idle.symm.trans atWork) nofun
  | _ => exact .inl idle

/-- Only the worker that waits for the lock with a record begins with its dispatch. -/
theorem Handler.Turn.begins {x x' : Handler π} {notes : List (Occurrence π)} {record : Record π}
    (turn : Turn h x notes x') (began : record ∈ Occurrence.dispatched notes) :
    ∃ since, x.worker = some (.holding record) ∧
      x'.worker = some (.dispatching record since [] none) := by
  cases turn with
  | «begin» next since holding =>
    obtain rfl : record = next := by simpa [Occurrence.dispatched?] using began
    exact ⟨since, holding, rfl⟩
  | panic _ _ _ => simp [Occurrence.dispatched?] at began
  | leave _ _ =>
    have quiet : Occurrence.dispatched (x.exitStory h ++ []) = Occurrence.dispatched [] :=
      Handler.dispatched_exitStory
    rw [List.append_nil] at quiet
    simp [quiet] at began
  | _ => simp [Occurrence.dispatched?] at began

namespace World

variable {g : HandlerId} {c : ClockId} {u v w : World π} {x : Handler π}

def worker? (w : World π) (h : HandlerId) : Option (Worker π) :=
  (w.handlers[h]?).bind Handler.worker

theorem worker?_eq (hx : w.handlers[h]? = some x) : w.worker? h = x.worker := by
  rw [worker?, hx]
  rfl

theorem SameWorker.of_handlers (same : w.handlers[h]? = v.handlers[h]?) : SameWorker h v w :=
  fun x _ hx hworker => ⟨x, same.trans hx, hworker⟩

theorem worker_outline? (w : World π) (h : HandlerId) :
    (w.outline? h).bind Handler.worker = (w.worker? h).map Worker.outline := by
  unfold outline? worker?
  cases w.handlers[h]? <;> rfl

/-- Who leaves the workers alone may still start one. -/
theorem SameWorker.step {now : Instant} (same : SameWorker h v w) (evolves : Evolves h v w) :
    Worker.Step now (v.worker? h) (w.worker? h) := by
  cases before : v.worker? h with
  | some worker =>
    obtain ⟨x, hx, hworker⟩ := Option.bind_eq_some_iff.mp before
    obtain ⟨y, hy, hworker'⟩ := same x worker hx hworker
    rw [worker?_eq hy, hworker']
    exact .same _
  | none =>
    have absent : (v.outline? h).bind Handler.worker = none := by rw [worker_outline?, before]; rfl
    have after := w.worker_outline? h
    rcases evolves with still | ⟨x, notes, x', hx, turn, hx', -⟩
    · rw [still.1, absent] at after
      rw [Option.map_eq_none_iff.mp after.symm]
      exact .same _
    · rw [hx, Option.bind_some] at absent
      rw [hx', Option.bind_some] at after
      rcases turn.starts absent with idle | started
      · rw [idle] at after
        rw [Option.map_eq_none_iff.mp after.symm]
        exact .same _
      · rw [started] at after
        obtain ⟨worker, there, outlined⟩ := Option.map_eq_some_iff.mp after.symm
        cases worker with
        | idle => rw [there]; exact .start
        | _ => cases outlined

/-! ## Moves of a worker -/

theorem handlers_leave_ne (ne : g ≠ h) : (w.leave g x).handlers[h]? = w.handlers[h]? := by
  unfold leave
  split
  · split <;> simp [ne]
  · simp [ne]

theorem handlers_panicDispatch_ne {record : Record π} (ne : g ≠ h) :
    (w.panicDispatch g x record).handlers[h]? = w.handlers[h]? := by
  unfold panicDispatch
  simp only
  split
  · rw [handlers_leave_ne ne]
    simp
  · simp

/-- A worker leaves the other workers alone. -/
theorem sameWorker_moveWorker (moved : w.moveWorker g = some v) (ne : g ≠ h) :
    SameWorker h w v := by
  have apart : ∀ (u : World π) worker, SameWorker h u (u.setWorker g worker) := fun u worker =>
    .of_handlers (by simp [setWorker, ne])
  unfold moveWorker at moved
  obtain ⟨x, found, moved⟩ := Option.bind_eq_some_iff.mp moved
  obtain ⟨worker, hworker, moved⟩ := Option.bind_eq_some_iff.mp moved
  cases worker with
  | idle =>
    simp only at moved
    split at moved
    · cases moved
    · cases moved
      exact .of_handlers (by simp [ne])
    · cases moved
      exact .of_handlers (handlers_leave_ne ne)
  | holding record =>
    simp only at moved
    split at moved
    · cases moved
      exact .of_handlers (by simp [setWorker, ne])
    · cases moved
  | dispatching record since script pause =>
    cases pause with
    | some pause =>
      simp only at moved
      obtain ⟨⟨u, reply⟩, ended, rfl⟩ := Option.map_eq_some_iff.mp moved
      exact (pauseEnd?_effect (.worker g) ended).sameWorker.trans (apart u _)
    | none =>
      cases script with
      | nil =>
        obtain rfl := Option.some.inj moved
        exact .of_handlers (by simp [finishDispatch, ne])
      | cons action rest =>
        obtain rfl := Option.some.inj moved
        have effect := perform_effect (w.setWorker g (.dispatching record since rest none))
          (.worker g) action
        refine (apart w _).trans (effect.sameWorker.trans ?_)
        unfold dispatchAction
        split
        · next performed => rw [performed]; exact .of_handlers rfl
        · next performed => rw [performed]; exact apart _ _
        · next performed =>
          rw [performed]
          exact .of_handlers (handlers_panicDispatch_ne ne)

theorem worker?_setWorker {worker : Worker π} (hx : w.handlers[g]? = some x) :
    (w.setWorker g worker).worker? g = some worker := by
  simp [worker?, setWorker, hx]

theorem worker?_leave (hx : w.handlers[g]? = some x) {y : Handler π} :
    (w.leave g y).worker? g = none := by
  rw [worker?_eq (handlers_leave hx), Handler.worker_exit]

theorem worker?_panicDispatch {record : Record π} {y : Handler π} (found : w.find? g = some y) :
    (w.panicDispatch g x record).worker? g = none := by
  rw [panicDispatch_eq found]
  exact worker?_leave (by simpa using (find?_eq_some.mp found).1)

/-- What a worker does by performing an action: it goes on, waits, or is gone. -/
theorem worker?_dispatchAction {record : Record π} {since : Instant} {action : Action π}
    {rest : List (Action π)} (found : w.find? g = some x) :
    (∃ pause, (w.dispatchAction g x record since action rest).worker? g =
      some (.dispatching record since rest pause)) ∨
    (w.dispatchAction g x record since action rest).worker? g = none := by
  obtain ⟨hx, alive⟩ := find?_eq_some.mp found
  have begun : (w.setWorker g (.dispatching record since rest none)).worker? g =
      some (.dispatching record since rest none) := worker?_setWorker hx
  have effect := perform_effect (w.setWorker g (.dispatching record since rest none)) (.worker g)
    action
  obtain ⟨y, hy, hworker⟩ := Option.bind_eq_some_iff.mp begun
  obtain ⟨z, hz, hworker'⟩ := effect.sameWorker y _ hy hworker
  unfold dispatchAction
  split
  · next performed =>
    rw [performed] at hz
    exact .inl ⟨none, (worker?_eq hz).trans hworker'⟩
  · next pause performed =>
    rw [performed] at hz
    exact .inl ⟨some pause, worker?_setWorker hz⟩
  · next performed =>
    obtain rfl := perform_panics (congrArg Prod.snd performed)
    obtain ⟨rfl, -⟩ := Prod.mk.inj performed
    have found' : (w.setWorker g (.dispatching record since rest none)).find? g =
        some { x with worker := some (.dispatching record since rest none) } :=
      find?_eq_some.mpr ⟨by simp [setWorker, hx], alive⟩
    exact .inr (worker?_panicDispatch found')

/-- What a worker does by its own moves. -/
theorem step_moveWorker (moved : w.moveWorker g = some v) :
    Worker.Step w.now (w.worker? g) (v.worker? g) := by
  unfold moveWorker at moved
  obtain ⟨x, found, moved⟩ := Option.bind_eq_some_iff.mp moved
  obtain ⟨worker, hworker, moved⟩ := Option.bind_eq_some_iff.mp moved
  obtain ⟨hx, -⟩ := find?_eq_some.mp found
  rw [worker?_eq hx, hworker]
  cases worker with
  | idle =>
    simp only at moved
    split at moved
    · cases moved
    · next record queue _ =>
      cases moved
      rw [worker?_eq (x := { x with queue, worker := some (.holding record) }) (by simp [hx])]
      exact .take record
    · cases moved
      rw [worker?_leave hx]
      exact .leave _
  | holding record =>
    simp only at moved
    split at moved
    · cases moved
      have there : (w.setHolder x.lock (some (.worker g))).handlers[g]? = some x := by
        rw [handlers_setHolder, hx]
      rw [now_setHolder]
      exact (worker?_setWorker there).symm ▸ .begin record
    · cases moved
  | dispatching record since script pause =>
    cases pause with
    | some pause =>
      simp only at moved
      obtain ⟨⟨u, reply⟩, ended, rfl⟩ := Option.map_eq_some_iff.mp moved
      obtain ⟨y, hy, -⟩ := (pauseEnd?_effect (.worker g) ended).sameWorker x _ hx hworker
      have resumed : (u.resume g record since script reply).worker? g =
          some (.dispatching record since script none) := worker?_setWorker hy
      rw [resumed]
      exact .resume record since script pause
    | none =>
      cases script with
      | nil =>
        obtain rfl := Option.some.inj moved
        have finished : (w.finishDispatch g x record since).worker? g = some .idle := by
          simp [worker?, finishDispatch, hx]
        rw [finished]
        exact .finish record since
      | cons action rest =>
        obtain rfl := Option.some.inj moved
        have performed : (∃ pause, (w.dispatchAction g x record since action rest).worker? g =
            some (.dispatching record since rest pause)) ∨
            (w.dispatchAction g x record since action rest).worker? g = none :=
          worker?_dispatchAction found
        rcases performed with ⟨pause, goes⟩ | gone
        · rw [goes]
          exact .perform record since action rest pause
        · rw [gone]
          exact .leave _

/-- A blocked dispatch that is released goes on. -/
theorem step_release {now : Instant} (w : World π) (g h : HandlerId) :
    Worker.Step now (w.worker? h) ((w.release g).1.worker? h) := by
  unfold World.release
  split
  · next record since script released =>
    obtain ⟨x, found, hworker⟩ := Option.bind_eq_some_iff.mp released
    obtain ⟨hx, -⟩ := find?_eq_some.mp found
    by_cases same : g = h
    · subst same
      have resumed : (w.resume g record since script .released).worker? g =
          some (.dispatching record since script none) := worker?_setWorker hx
      rw [worker?_eq hx, hworker, resumed]
      exact .resume record since script .blocked
    · have apart : (w.resume g record since script .released).worker? h = w.worker? h := by
        simp [worker?, resume, setWorker, same]
      rw [apart]
      exact .same _
  · exact .same _

/-- What a step does to what the worker of a handler is doing. -/
theorem Next.worker_step (step : Next v w) (h : HandlerId) :
    Worker.Step v.now (v.worker? h) (w.worker? h) := by
  have evolves := step.evolves h
  have kept : w.handlers[h]? = v.handlers[h]? → Worker.Step v.now (v.worker? h) (w.worker? h) :=
    fun same => (SameWorker.of_handlers same).step evolves
  cases step with
  | act action => exact (perform_effect v .outside action).sameWorker.step evolves
  | conclude ended => exact (pauseEnd?_effect .outside ended).sameWorker.step evolves
  | @worker _ g moved =>
    by_cases same : g = h
    · exact same ▸ step_moveWorker moved
    · exact (sameWorker_moveWorker moved same).step evolves
  | timer moved => exact (sameWorker_moveTimer moved).step evolves
  | beginStart found begun =>
    obtain ⟨rfl, k, notices, started, rfl⟩ := beginStart_eq_ok.mp begun
    exact (.beginStart found started : Effect v .outside _).sameWorker.step evolves
  | endStart found pending =>
    exact (.endStart found pending : Effect v .outside _).sameWorker.step evolves
  | lock _ => exact kept (by simp)
  | unlock _ => exact kept (by simp)
  | release g => exact step_release v g h
  | startClock c =>
    refine kept ?_
    unfold World.startClock
    split <;> rfl
  | stopClock c => exact kept rfl
  | addAlarm c deadline => exact kept rfl
  | addPeriodicAlarm c period => exact kept rfl
  | removeAlarm c id => exact kept rfl
  | panicTimer c generation => exact kept rfl

/-- A worker inside a dispatch has still to perform an end of the script of the record that it
dispatches, whatever else happens. -/
theorem Reachable.onScript (reach : Reachable w) (h : HandlerId) :
    Worker.OnScript (w.worker? h) := by
  refine reach.induct (P := fun w => Worker.OnScript (w.worker? h)) ?_ ?_
  · intro w fresh
    have absent : w.worker? h = none := by
      cases hx : w.handlers[h]? with
      | none => rw [worker?, hx]; rfl
      | some x =>
        obtain ⟨_, _, _, _, _, _, rfl⟩ := fresh.handlers x (List.mem_of_getElem? hx)
        rw [worker?_eq hx]
    rw [absent]
    trivial
  · intro v w _ onScript step
    exact (step.worker_step h).onScript onScript

/-- A dispatch begins with the whole script of its record. -/
theorem Next.begins (step : Next v w) {record : Record π}
    (told : w.story h = .began h record :: v.story h) :
    w.worker? h = some (.dispatching record v.now record.body.script none) := by
  rcases step.evolves h with ⟨-, same⟩ | ⟨x, notes, x', hx, turn, hx', told'⟩
  · exact absurd (told.symm.trans same) (List.cons_ne_self _ _)
  · have noted : notes = [.began h record] := List.append_cancel_right (told'.symm.trans told)
    have began : record ∈ Occurrence.dispatched notes := by simp [noted, Occurrence.dispatched?]
    obtain ⟨since, holding, dispatching⟩ := turn.begins began
    have before := v.worker_outline? h
    have after := w.worker_outline? h
    rw [hx, Option.bind_some, holding] at before
    rw [hx', Option.bind_some, dispatching] at after
    have steps := step.worker_step h
    generalize v.worker? h = o at before steps
    generalize w.worker? h = o' at after steps ⊢
    cases steps with
    | same _ => cases before.trans after.symm
    | «begin» next =>
      obtain rfl := Worker.holding.inj (Option.some.inj before)
      rfl
    | leave _ => cases after
    | _ => cases before

end World
end EventEngine
