import EventEngine.Proofs.Delivery
import EventEngine.Proofs.Clocks.Ticks
import EventEngine.Proofs.Operations

/-!
# Who asks a worker to stop

Only a stop and a destruction ask the worker of a handler to stop, and only a clear discards what is
queued on a handler that has not been asked. No other step does either, whoever makes it.
-/
namespace EventEngine.World

variable {π : Type} {h g : HandlerId} {u v w : World π} {x : Handler π}

def Unasked (w : World π) (h : HandlerId) : Prop :=
  ∀ x, w.handlers[h]? = some x → x.stopRequested = false

/-- A handler without a pending stop is not asked to stop, and nothing queued on it is discarded. -/
def Spares (h : HandlerId) (v w : World π) : Prop :=
  v.Unasked h → w.Unasked h ∧
    Occurrence.discarded (w.story h) = Occurrence.discarded (v.story h)

namespace Spares

theorem refl : Spares h w w := fun unasked => ⟨unasked, rfl⟩

theorem trans (first : Spares h u v) (second : Spares h v w) : Spares h u w := by
  intro unasked
  obtain ⟨unasked', kept⟩ := first unasked
  obtain ⟨unasked'', kept'⟩ := second unasked'
  exact ⟨unasked'', kept'.trans kept⟩

theorem of_still (still : Still h v w) : Spares h v w := by
  intro unasked
  refine ⟨fun y hy => ?_, by rw [still.2]⟩
  have outlined : v.outline? h = some y.outline :=
    still.1.symm.trans (outline?_eq_some.mpr ⟨y, hy, rfl⟩)
  obtain ⟨x, hx, same⟩ := outline?_eq_some.mp outlined
  have asked : y.stopRequested = x.stopRequested := (congrArg (·.stopRequested) same).symm
  exact asked.trans (unasked x hx)

theorem note {o : Occurrence π} (spares : Spares h v w) (keeps : o.discards = []) :
    Spares h v (w.note o) := by
  refine spares.trans fun unasked => ⟨unasked, ?_⟩
  rw [story_note]
  split
  · rw [Occurrence.discarded_cons, keeps, List.append_nil]
  · rfl

theorem modify {f : Handler π → Handler π} (spares : Spares h v w)
    (keeps : ∀ x, x.stopRequested = false → (f x).stopRequested = false) :
    Spares h v (w.modify g f) := by
  refine spares.trans fun unasked => ⟨fun y hy => ?_, rfl⟩
  rw [handlers_modify] at hy
  split at hy
  · next same =>
    subst same
    obtain ⟨x, hx, rfl⟩ := Option.map_eq_some_iff.mp hy
    exact keeps x (unasked x hx)
  · exact unasked y hy

theorem setClock {c : ClockId} {k : Clock AlarmOwner} {notices : List ClockNotice}
    (spares : Spares h v w) : Spares h v (w.setClock c k notices) :=
  spares.trans (of_still (still_setClock ..))

theorem setHolder {lock : Option LockId} {who : Option Caller} (spares : Spares h v w) :
    Spares h v (w.setHolder lock who) :=
  spares.trans (of_still (still_setHolder ..))

theorem armTimeout {x : Handler π} {c : ClockId} (spares : Spares h v w) :
    Spares h v (w.armTimeout g x c) := by
  unfold World.armTimeout
  split
  · exact spares
  · exact spares.setClock.modify fun _ unasked => unasked

theorem disarmTimeout {x : Handler π} {c : Option ClockId} (spares : Spares h v w) :
    Spares h v (w.disarmTimeout g x c) := by
  unfold World.disarmTimeout
  split
  · exact spares
  · split
    · exact spares.modify fun _ unasked => unasked
    · exact .setClock (.modify spares fun _ unasked => unasked)

theorem setWorker {worker : Worker π} (spares : Spares h v w) :
    Spares h v (w.setWorker g worker) :=
  spares.modify fun _ unasked => unasked

theorem enqueue {place : Place} {body : RecordBody π} (spares : Spares h v w) :
    Spares h v (w.enqueue g x place body) := by
  refine .note (.modify spares fun y unasked => ?_) rfl
  cases place <;> exact unasked

/-- The exit of a worker that was not asked to stop discards nothing. -/
theorem leave (spares : Spares h v w) (hx : w.handlers[g]? = some x) :
    Spares h v (w.leave g x) := by
  by_cases hg : g = h
  · subst hg
    refine spares.trans fun unasked => ?_
    have kept : x.stopRequested = false := unasked x hx
    refine ⟨fun y hy => ?_, ?_⟩
    · rw [handlers_leave hx] at hy
      cases hy
      simp [Handler.exit, kept]
    · rw [story_leave, Handler.exitStory, if_neg (by simp [kept]), List.nil_append]
  · exact spares.trans (of_still (still_leave_ne hg))

end Spares

/-! ## Actions -/

theorem spares_installs {c : ClockId} (installs : Installs w g x c v) : Spares h w v := by
  have arms : Spares h w (w.armed g x c) := (Spares.refl.modify fun _ _ => rfl).armTimeout
  cases installs with
  | running _ => exact .refl
  | launched _ _ => exact .note (.modify arms fun _ unasked => unasked) rfl
  | refused _ _ => exact .note arms.disarmTimeout rfl
  | crashed _ _ => exact .note arms rfl

theorem spares_adopted : Spares h w (w.adopted g) := Spares.refl.modify fun _ unasked => unasked

theorem spares_start (found : w.find? g = some x) : Spares h w (w.start g x).1 := by
  have started := starts found
  generalize (w.start g x).1 = w' at started
  cases started with
  | failed _ => exact spares_adopted
  | opened _ installs => exact spares_adopted.setClock.trans (spares_installs installs)

theorem spares_beginStart? (begun : w.beginStart? g = some v) : Spares h w v := by
  obtain ⟨x, c, k, notices, -, rfl, -, rfl⟩ := beginStart?_eq_some.mp begun
  exact spares_adopted.setClock.modify fun _ unasked => unasked

theorem spares_endStart? {c : ClockId} {result : World π × Reply}
    (ended : w.endStart? g c = some result) : Spares h w result.1 := by
  obtain ⟨x, found, -, rfl⟩ := endStart?_eq_some.mp ended
  have enters : Spares h w (w.modify g (·.entered c)) := Spares.refl.modify fun _ unasked => unasked
  exact enters.trans (spares_installs (installs (find?_entered found c) c))

theorem spares_concludeDestroy : Spares h w (w.concludeDestroy g).1 := by
  unfold concludeDestroy
  split
  · exact .refl
  · split
    · exact .refl
    · exact .note (.modify .refl fun _ unasked => unasked) rfl

theorem spares_withHandler {f : Handler π → World π × Progress}
    (step : ∀ x, w.find? g = some x → Spares h w (f x).1) :
    Spares h w (w.withHandler g f).1 := by
  unfold withHandler
  split
  · next x found => exact step x found
  · exact .refl

/-- An action other than a stop, a destruction or a clear of the handler spares it. -/
theorem perform_spares (who : Caller) {action : Action π} (stop : action ≠ .stop h)
    (destroy : action ≠ .destroy h) (clear : action ≠ .clear h) :
    Spares h w (w.perform who action).1 := by
  have nothing : Spares h w w := .refl
  cases action with
  | start g => exact spares_withHandler fun x found => spares_start found
  | stop g =>
    have ne : g ≠ h := fun same => stop (same ▸ rfl)
    refine spares_withHandler fun x _ => ?_
    have asks := Spares.of_still (still_requestStop_ne (w := w) (x := x) who false ne)
    split <;> next answered => rw [answered] at asks; exact asks
  | destroy g =>
    have ne : g ≠ h := fun same => destroy (same ▸ rfl)
    refine spares_withHandler fun x _ => ?_
    have asks := Spares.of_still (still_requestStop_ne (w := w) (x := x) who true ne)
    split
    · next answered =>
      rw [answered] at asks
      exact asks
    · next answered =>
      rw [answered] at asks
      exact asks.trans spares_concludeDestroy
  | signal g place typeName payload script =>
    refine spares_withHandler fun x _ => ?_
    simp only [Prod.map_fst, signal]
    split
    · exact nothing.enqueue
    · exact nothing.note rfl
  | clear g =>
    have ne : g ≠ h := fun same => clear (same ▸ rfl)
    refine spares_withHandler fun x _ => ?_
    simp only [World.clear]
    split
    · exact nothing
    · exact .of_still ((still_modify_ne ne).trans
        (still_note (by simpa [Occurrence.milestone?] using ne)))
  | setTimeout g interval context script =>
    exact spares_withHandler fun x _ => .note (.modify nothing fun _ unasked => unasked) rfl
  | setClock g c => exact spares_withHandler fun x _ => .modify nothing fun _ unasked => unasked
  | isRunning g => exact spares_withHandler fun x _ => nothing
  | isCurrent g => exact spares_withHandler fun x _ => nothing
  | pending g => exact spares_withHandler fun x _ => nothing
  | name g => exact spares_withHandler fun x _ => nothing
  | describe g => exact spares_withHandler fun x _ => nothing
  | types g => exact spares_withHandler fun x _ => nothing
  | containsType g typeName => exact spares_withHandler fun x _ => nothing
  | advance d => exact .of_still (still_advance d)
  | threadName => exact nothing
  | isLockFree lock => exact nothing
  | block => exact nothing
  | panic => exact nothing

/-! ## Steps -/

theorem spares_deliver (f : Firing AlarmOwner) : Spares h w (w.deliver f) := by
  have delivered := delivers w f
  generalize w.deliver f = v at delivered
  cases delivered with
  | ignored => exact .refl
  | queued _ _ _ _ => exact Spares.refl.enqueue

theorem spares_moveTimer {c : ClockId} {generation : Nat}
    (moved : w.moveTimer c generation = some v) : Spares h w v := by
  obtain ⟨t, -, rfl⟩ := moveTimer_eq_some.mp moved
  have ticks : Spares h w (w.ticked c t) := Spares.refl.setClock
  cases ((w.clock c).move w.now t).2.1 with
  | none => exact ticks
  | some f => exact ticks.trans (spares_deliver f)

/-- A worker that was not asked to stop leaves by a panic, and discards nothing. -/
theorem spares_panicDispatch {record : Record π} : Spares h w (w.panicDispatch g x record) := by
  have told : Spares h w ((w.setHolder x.lock none).note (.panicked g record)) :=
    .note (.setHolder .refl) rfl
  unfold panicDispatch
  simp only
  split
  · next y found => exact told.leave (find?_eq_some.mp found).1
  · exact told

theorem spares_dispatchAction {record : Record π} {since : Instant} {action : Action π}
    {rest : List (Action π)} (found : w.find? g = some x)
    (hworker : x.worker = some (.dispatching record since (action :: rest) none))
    (stop : action ≠ .stop h) (destroy : action ≠ .destroy h) (clear : action ≠ .clear h) :
    Spares h w (w.dispatchAction g x record since action rest) := by
  by_cases panics : action = .panic
  · subst panics
    exact Spares.refl.setWorker.trans spares_panicDispatch
  · obtain ⟨t, before, after⟩ := calm_dispatchAction (find?_eq_some.mp found).1 hworker panics
    exact (Spares.of_still (before.still h)).trans
      ((perform_spares (.worker g) stop destroy clear).trans (.of_still (after.still h)))

/-- A move of a worker spares every handler, or performs an action. -/
theorem moveWorker_cases (moved : w.moveWorker g = some v) :
    (∀ h, Spares h w v) ∨ ∃ x record since action rest, w.find? g = some x ∧
      x.worker = some (.dispatching record since (action :: rest) none) ∧
      v = w.dispatchAction g x record since action rest := by
  unfold moveWorker at moved
  obtain ⟨x, found, moved⟩ := Option.bind_eq_some_iff.mp moved
  obtain ⟨worker, hworker, moved⟩ := Option.bind_eq_some_iff.mp moved
  obtain ⟨hx, -⟩ := find?_eq_some.mp found
  cases worker with
  | idle =>
    left
    intro h
    rcases wait_cases x.queue with ⟨-, waited⟩ | ⟨-, -, waited⟩ | ⟨record, rest, -, waited⟩
    · simp only [waited, Option.some.injEq] at moved
      exact moved ▸ Spares.refl.leave hx
    · simp [waited] at moved
    · simp only [waited, Option.some.injEq] at moved
      exact moved ▸ Spares.refl.modify fun _ unasked => unasked
  | holding record =>
    left
    intro h
    simp only at moved
    split at moved
    · cases moved
      exact .note (.setWorker (.setHolder .refl)) rfl
    · cases moved
  | dispatching record since script pause =>
    cases pause with
    | some pause =>
      left
      intro h
      simp only at moved
      obtain ⟨⟨u, reply⟩, ended, rfl⟩ := Option.map_eq_some_iff.mp moved
      have concluded : Spares h w u := by
        rcases pauseEnd?_cases ended with rfl | ⟨g', rfl⟩
        · exact .refl
        · exact spares_concludeDestroy
      exact .note concluded.setWorker rfl
    | none =>
      cases script with
      | nil =>
        left
        intro h
        obtain rfl := Option.some.inj moved
        exact .note (.setHolder (.modify .refl fun _ unasked => unasked)) rfl
      | cons action rest =>
        exact .inr ⟨x, record, since, action, rest, found, hworker, (Option.some.inj moved).symm⟩

/-- Who asks a handler to stop, or discards what is queued on it while it is not asked, calls for
it: no other step does. -/
theorem Next.spares (step : Next v w) (h : HandlerId) :
    Calls (.stop h) v w ∨ Calls (.destroy h) v w ∨ Calls (.clear h) v w ∨ Spares h v w := by
  have spared : Spares h v w →
      Calls (.stop h) v w ∨ Calls (.destroy h) v w ∨ Calls (.clear h) v w ∨ Spares h v w :=
    fun spares => .inr (.inr (.inr spares))
  have called : ∀ action : Action π, Calls action v w →
      (action ≠ .stop h → action ≠ .destroy h → action ≠ .clear h → Spares h v w) →
      Calls (.stop h) v w ∨ Calls (.destroy h) v w ∨ Calls (.clear h) v w ∨ Spares h v w := by
    intro action calls otherwise
    by_cases stop : action = .stop h
    · exact .inl (stop ▸ calls)
    by_cases destroy : action = .destroy h
    · exact .inr (.inl (destroy ▸ calls))
    by_cases clear : action = .clear h
    · exact .inr (.inr (.inl (clear ▸ calls)))
    exact spared (otherwise stop destroy clear)
  cases step with
  | act action => exact called action (.outside v) (perform_spares .outside)
  | conclude ended =>
    rcases pauseEnd?_cases ended with rfl | ⟨g, rfl⟩
    · exact spared .refl
    · exact spared spares_concludeDestroy
  | worker moved =>
    rcases moveWorker_cases moved with
      spares | ⟨x, record, since, action, rest, found, hworker, rfl⟩
    · exact spared (spares h)
    · exact called action (.dispatch found hworker) (spares_dispatchAction found hworker)
  | timer moved => exact spared (spares_moveTimer moved)
  | beginStart found begun =>
    obtain ⟨rfl, k, notices, -, rfl⟩ := beginStart_eq_ok.mp begun
    exact spared (spares_adopted.setClock.modify fun _ unasked => unasked)
  | @endStart g _ c found _ =>
    have enters : Spares h v (v.modify g (·.entered c)) :=
      Spares.refl.modify fun _ unasked => unasked
    exact spared (enters.trans (spares_installs (installs (find?_entered found c) c)))
  | lock _ => exact spared (.setHolder .refl)
  | unlock _ => exact spared (.setHolder .refl)
  | release g =>
    apply spared
    unfold World.release
    split
    · exact .note (.setWorker .refl) rfl
    · exact .refl
  | startClock c =>
    apply spared
    unfold World.startClock
    split
    · exact .setClock .refl
    · exact .refl
  | stopClock c => exact spared (.setClock .refl)
  | addAlarm c deadline => exact spared (.setClock .refl)
  | addPeriodicAlarm c period => exact spared (.setClock .refl)
  | removeAlarm c id => exact spared (.setClock .refl)
  | panicTimer c generation => exact spared (.setClock .refl)

end EventEngine.World
