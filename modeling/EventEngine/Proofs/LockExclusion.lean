import EventEngine.Proofs.DispatchOrder

/-!
# Exclusion by dispatch locks

A worker holds the dispatch lock of its handler from the beginning of a dispatch to its end, and at
no other time. `Handover` lists what a step does to the locks: it leaves them alone, a dispatch
begins or ends, or the outside takes a lock or gives one back.
-/
namespace EventEngine

variable {π : Type} {h g : HandlerId}

open Occurrence

namespace Handler

variable {x x' : Handler π} {notes : List (Occurrence π)}

/-- The lock under which the handler dispatches at present. -/
def guard? (x : Handler π) : Option LockId := x.current.bind fun _ => x.lock

theorem guard?_eq_some {l : LockId} :
    x.guard? = some l ↔ x.lock = some l ∧ x.current.isSome = true := by
  cases hx : x.current <;> simp [guard?, hx]

@[simp] theorem guard?_outline (x : Handler π) : x.outline.guard? = x.guard? := by
  simp [guard?, show x.outline.lock = x.lock from rfl]

@[simp] theorem lock_exit : x.exit.lock = x.lock := by
  unfold exit
  split <;> rfl

theorem guard?_of_idle (idle : x.current = none) : x.guard? = none := by simp [guard?, idle]

/-- A handler that has no worker, or whose worker stays where it is, dispatches as before. -/
theorem Turn.guard?_of_worker (turn : Turn h x notes x')
    (same : x.worker.isSome = true → x'.worker = x.worker) : x'.guard? = x.guard? := by
  cases turn with
  | enqueue place body _ => cases place <;> rfl
  | start id idle _ => simp [guard?, current, idle, startedWith, launch]
  | take record rest idle _ => simp [guard?, current, idle]
  | «begin» record since holding => simp [holding] at same
  | finish record since elapsed dispatching => simp [dispatching] at same
  | panic record since dispatching => simp [dispatching] at same
  | leave idle _ => simp [idle] at same
  | _ => rfl

/-- No turn gives a handler another lock. -/
theorem Turn.lock (turn : Turn h x notes x') : x'.lock = x.lock := by
  cases turn with
  | enqueue place body _ => cases place <;> rfl
  | panic _ _ _ => exact lock_exit
  | leave _ _ => exact lock_exit
  | _ => rfl

/-- A turn that completes a dispatch ends the one in progress. -/
theorem Turn.completes (turn : Turn h x notes x') (ends : completed notes ≠ []) :
    x.current.isSome = true ∧ x'.current = none := by
  have exits : completed (x.exitStory h) = [] := by
    unfold exitStory
    split
    · split <;> rfl
    · rfl
  cases turn with
  | finish record since elapsed dispatching => exact ⟨by simp [current, dispatching], rfl⟩
  | panic record since dispatching => simp [current, dispatching]
  | leave _ _ => exact absurd exits ends
  | _ => exact absurd rfl ends

end Handler

namespace World

variable {u v w : World π} {x : Handler π} {l : LockId}

def guard? (w : World π) (h : HandlerId) : Option LockId := (w.outline? h).bind Handler.guard?

theorem guard?_eq (hx : w.handlers[h]? = some x) : w.guard? h = x.guard? := by
  simp [guard?, outline?, hx]

theorem Still.guard? (still : Still h v w) : w.guard? h = v.guard? h := by
  rw [World.guard?, still.1, World.guard?]

theorem guard?_of_sameWorker (same : SameWorker h v w) (evolves : Evolves h v w) :
    w.guard? h = v.guard? h := by
  rcases evolves with still | ⟨x, notes, x', hx, turn, hx', -⟩
  · exact still.guard?
  · obtain ⟨y, hy, rfl⟩ := outline?_eq_some.mp hx
    obtain ⟨y', hy', rfl⟩ := outline?_eq_some.mp hx'
    rw [guard?_eq hy, guard?_eq hy', ← y.guard?_outline, ← y'.guard?_outline]
    refine turn.guard?_of_worker fun busy => ?_
    obtain ⟨worker, hworker⟩ : ∃ worker, y.worker = some worker :=
      Option.isSome_iff_exists.mp (by simpa [Handler.outline] using busy)
    obtain ⟨z, hz, hworker'⟩ := same y worker hy hworker
    obtain rfl := Option.some.inj (hy'.symm.trans hz)
    simp [Handler.outline, hworker, hworker']

/-! ## What a step does to the locks -/

@[simp] theorem locks_armTimeout (w : World π) (c : ClockId) :
    (w.armTimeout g x c).locks = w.locks := by
  unfold armTimeout
  split <;> rfl

@[simp] theorem locks_disarmTimeout (w : World π) (c : Option ClockId) :
    (w.disarmTimeout g x c).locks = w.locks := by
  unfold disarmTimeout
  split
  · rfl
  · split <;> rfl

theorem locks_installs {c : ClockId} (installs : Installs w g x c v) : v.locks = w.locks := by
  have armed : (w.armed g x c).locks = w.locks := by simp [armed]
  cases installs with
  | running _ => rfl
  | launched _ _ => exact armed
  | refused _ _ => exact (locks_disarmTimeout ..).trans armed
  | crashed _ _ => exact armed

theorem locks_start (found : w.find? g = some x) : (w.start g x).1.locks = w.locks := by
  have started := starts found
  generalize (w.start g x).1 = w' at started
  cases started with
  | failed _ => rfl
  | opened _ installs => exact (locks_installs installs).trans rfl

theorem locks_requestStop (who : Caller) (destroys : Bool) :
    (w.requestStop who g x destroys).1.locks = w.locks := by
  unfold requestStop
  split
  · split <;> simp
  · rfl

/-- No action touches a lock. -/
theorem Effect.locks {who : Caller} (effect : Effect v who w) : w.locks = v.locks := by
  cases effect with
  | start found => exact locks_start found
  | endStart found _ => exact (locks_installs (installs (find?_entered found _) _)).trans rfl
  | stop destroys _ _ => exact locks_requestStop who destroys
  | _ => rfl

theorem locks_leave (w : World π) (g : HandlerId) (x : Handler π) :
    (w.leave g x).locks = w.locks := by
  unfold leave
  split
  · split <;> rfl
  · rfl

theorem locks_moveTimer {c : ClockId} {generation : Nat}
    (moved : w.moveTimer c generation = some v) : v.locks = w.locks := by
  have delivered : ∀ (u : World π) f, (u.deliver f).locks = u.locks := by
    intro u f
    have delivers := delivers u f
    generalize u.deliver f = u' at delivers
    cases delivers <;> rfl
  unfold moveTimer at moved
  obtain ⟨t, -, moved⟩ := Option.bind_eq_some_iff.mp moved
  simp only at moved
  split at moved
  · cases moved
    rw [delivered, locks_setClock]
  · cases moved
    rfl

theorem sameWorker_moveTimer {c : ClockId} {generation : Nat}
    (moved : w.moveTimer c generation = some v) :
    SameWorker h w v := by
  have delivered : ∀ (u : World π) f, SameWorker h w u → SameWorker h w (u.deliver f) := by
    intro u f same
    have delivers := delivers u f
    generalize u.deliver f = u' at delivers
    cases delivers with
    | ignored => exact same
    | queued _ _ _ _ => exact .note (same.modify fun _ _ _ => rfl)
  unfold moveTimer at moved
  obtain ⟨t, -, moved⟩ := Option.bind_eq_some_iff.mp moved
  simp only at moved
  split at moved
  · cases moved
    exact delivered _ _ (.setClock .refl)
  · cases moved
    exact .setClock .refl

theorem holder_congr (same : w.locks = v.locks) (l : LockId) : w.holder l = v.holder l := by
  rw [holder, same, holder]

theorem locks_setHolder_congr {lock : Option LockId} {who : Option Caller}
    (same : w.locks = v.locks) : (w.setHolder lock who).locks = (v.setHolder lock who).locks := by
  cases lock <;> simp [setHolder, same]

theorem holder_of_locks {lock : Option LockId} {who : Option Caller}
    (set : w.locks = (v.setHolder lock who).locks) (there : l < v.locks.length) :
    w.holder l = if lock = some l then who else v.holder l := by
  rw [holder_congr set]
  cases lock with
  | none => simp [setHolder]
  | some m =>
    simp only [setHolder, holder, List.getD_eq_getElem?_getD, List.getElem?_set, Option.some.injEq]
    grind

/-- What a step does to the locks, and to those who dispatch under them. -/
inductive Handover (v w : World π) : Prop where
  | keep : w.locks = v.locks → (∀ h, w.guard? h = v.guard? h) → Handover v w
  | enter {h : HandlerId} {lock : Option LockId} : v.canDispatch lock = true →
      v.guard? h = none → w.guard? h = lock →
      w.locks = (v.setHolder lock (some (.worker h))).locks →
      (∀ g, g ≠ h → w.guard? g = v.guard? g) → Handover v w
  | quit {h : HandlerId} : w.guard? h = none →
      w.locks = (v.setHolder (v.guard? h) none).locks →
      (∀ g, g ≠ h → w.guard? g = v.guard? g) → Handover v w
  | lock {l : LockId} : v.holder l = none →
      w.locks = (v.setHolder (some l) (some .outside)).locks →
      (∀ h, w.guard? h = v.guard? h) → Handover v w
  | unlock {l : LockId} : v.holder l = some .outside →
      w.locks = (v.setHolder (some l) none).locks → (∀ h, w.guard? h = v.guard? h) → Handover v w

theorem guard?_setWorker_ne {worker : Worker π} (ne : h ≠ g) :
    (w.setWorker g worker).guard? h = w.guard? h :=
  (still_modify_ne (Ne.symm ne)).guard?

theorem panicDispatch_eq {y : Handler π} {record : Record π} (found : w.find? g = some y) :
    w.panicDispatch g x record =
      ((w.setHolder x.lock none).note (.panicked g record)).leave g y := by
  have found' : ((w.setHolder x.lock none).note (.panicked g record)).find? g = some y := by
    simpa using found
  simp only [panicDispatch, found']

theorem Next.handover (step : Next v w) : Handover v w := by
  cases step.happening with
  | act before effect after =>
    refine .keep (after.locks.trans (effect.locks.trans before.locks)) fun h => ?_
    rw [(after.still h).guard?, ← (before.still h).guard?]
    exact guard?_of_sameWorker effect.sameWorker (effect.evolves h)
  | @take g x record rest found idle _ same =>
    subst same
    obtain ⟨hx, -⟩ := find?_eq_some.mp found
    refine .keep rfl fun h => ?_
    by_cases hg : g = h
    · subst hg
      rw [guard?_eq hx, guard?_eq (x := { x with
        queue := { events := rest }, worker := some (.holding record) }) (by simp [hx])]
      simp [Handler.guard?, Handler.current, idle]
    · exact (still_modify_ne hg).guard?
  | @«begin» g x record found holding free same =>
    subst same
    obtain ⟨hx, -⟩ := find?_eq_some.mp found
    refine .enter (h := g) free ?_ ?_ rfl fun h ne => ?_
    · rw [guard?_eq hx]
      exact Handler.guard?_of_idle (by simp [Handler.current, holding])
    · rw [guard?_eq (x := { x with
        worker := some (.dispatching record v.now record.body.script none) })
        (by simp [setWorker, hx])]
      rfl
    · rw [(still_note (by simpa [Occurrence.milestone?] using ne.symm)).guard?,
        guard?_setWorker_ne ne, (still_setHolder _ _).guard?]
  | @finish g x record since found dispatching same =>
    subst same
    obtain ⟨hx, -⟩ := find?_eq_some.mp found
    have guarded : v.guard? g = x.lock := by
      rw [guard?_eq hx]
      simp [Handler.guard?, Handler.current, dispatching]
    refine .quit (h := g) ?_ (by rw [guarded]; exact locks_setHolder_congr rfl) fun h ne => ?_
    · rw [guard?_eq (x := { x.recordDispatch record.body (v.now.since since) with
        worker := some .idle }) (by simp [finishDispatch, hx])]
      exact Handler.guard?_of_idle rfl
    · rw [finishDispatch, (still_note (by simpa [Occurrence.milestone?] using ne.symm)).guard?,
        (still_setHolder _ _).guard?, (still_modify_ne ne.symm).guard?]
  | @panic g x record since rest found dispatching same =>
    subst same
    obtain ⟨hx, alive⟩ := find?_eq_some.mp found
    have guarded : v.guard? g = x.lock := by
      rw [guard?_eq hx]
      simp [Handler.guard?, Handler.current, dispatching]
    have hx' : (v.setWorker g (.dispatching record since rest none)).handlers[g]? =
        some { x with worker := some (.dispatching record since rest none) } := by
      simp [setWorker, hx]
    rw [panicDispatch_eq (find?_eq_some.mpr ⟨hx', alive⟩)]
    refine .quit (h := g) ?_ ?_ fun h ne => ?_
    · rw [guard?_eq (handlers_leave (by simpa using hx'))]
      exact Handler.guard?_of_idle (by simp [Handler.current])
    · rw [locks_leave, guarded]
      exact locks_setHolder_congr rfl
    · rw [(still_leave_ne ne.symm).guard?,
        (still_note (by simpa [Occurrence.milestone?] using ne.symm)).guard?,
        (still_setHolder _ _).guard?, guard?_setWorker_ne ne]
  | @leave g x found idle _ same =>
    subst same
    obtain ⟨hx, -⟩ := find?_eq_some.mp found
    refine .keep (locks_leave ..) fun h => ?_
    by_cases hg : g = h
    · subst hg
      rw [guard?_eq hx, guard?_eq (handlers_leave hx)]
      simp [Handler.guard?, Handler.current, idle]
    · exact (still_leave_ne hg).guard?
  | timer moved =>
    refine .keep (locks_moveTimer moved) fun h => ?_
    exact guard?_of_sameWorker (sameWorker_moveTimer moved) (moveTimer_evolves moved)
  | clock _ same => exact same ▸ .keep rfl fun h => (still_setClock ..).guard?
  | lock free same => exact same ▸ .lock free rfl fun h => (still_setHolder _ _).guard?
  | unlock held same => exact same ▸ .unlock held rfl fun h => (still_setHolder _ _).guard?

/-! ## Who holds a lock -/

namespace Handover

theorem length_locks (handover : Handover v w) : w.locks.length = v.locks.length := by
  have set : ∀ lock who, (v.setHolder lock who).locks.length = v.locks.length := by
    intro lock who
    cases lock <;> simp [setHolder]
  cases handover with
  | keep locks _ => rw [locks]
  | enter _ _ _ locks _ => rw [locks, set]
  | quit _ locks _ => rw [locks, set]
  | lock _ locks _ => rw [locks, set]
  | unlock _ locks _ => rw [locks, set]

/-- Who gives a lock back leaves it free, and who takes it found it free. -/
theorem holder_cases (handover : Handover v w) (there : l < v.locks.length) :
    w.holder l = v.holder l ∨ v.holder l = none ∨ w.holder l = none := by
  cases handover with
  | keep locks _ => exact .inl (holder_congr locks l)
  | @enter _ lock free _ _ locks _ =>
    rw [holder_of_locks locks there]
    split
    · next same => exact .inr (.inl (by simpa [canDispatch, same] using free))
    · exact .inl rfl
  | quit _ locks _ =>
    rw [holder_of_locks locks there]
    split
    · exact .inr (.inr rfl)
    · exact .inl rfl
  | lock free locks _ =>
    rw [holder_of_locks locks there]
    split
    · next same => exact .inr (.inl (Option.some.inj same ▸ free))
    · exact .inl rfl
  | unlock _ locks _ =>
    rw [holder_of_locks locks there]
    split
    · exact .inr (.inr rfl)
    · exact .inl rfl

end Handover

/-- A lock is held by a worker just while its handler dispatches under it. -/
def Guarded (w : World π) : Prop :=
  ∀ l, l < w.locks.length → ∀ h, w.holder l = some (.worker h) ↔ w.guard? h = some l

theorem Handover.guarded (handover : Handover v w) (guarded : v.Guarded) : w.Guarded := by
  intro l there h
  rw [handover.length_locks] at there
  have held := guarded l there
  cases handover with
  | keep locks same => rw [holder_congr locks, same, held]
  | @enter g lock free outside inside locks same =>
    rw [holder_of_locks locks there]
    by_cases hg : h = g
    · subst hg
      rw [inside]
      split
      · next mine => simp [mine]
      · next other => simp [held, outside, other]
    · rw [same h hg]
      split
      · next mine =>
        have unheld : v.holder l = none := by simpa [canDispatch, mine] using free
        simp [← held, unheld, Ne.symm hg]
      · exact held h
  | @quit g outside locks same =>
    rw [holder_of_locks locks there]
    by_cases hg : h = g
    · subst hg
      rw [outside]
      split
      · simp
      · next other => simpa [held] using other
    · rw [same h hg]
      split
      · next mine =>
        have theirs := (held g).mpr mine
        simp [← held, theirs, Ne.symm hg]
      · exact held h
  | lock free locks same =>
    rw [holder_of_locks locks there, same]
    split
    · next mine =>
      obtain rfl := Option.some.inj mine
      simp [← held, free]
    · exact held h
  | unlock outside locks same =>
    rw [holder_of_locks locks there, same]
    split
    · next mine =>
      obtain rfl := Option.some.inj mine
      simp [← held, outside]
    · exact held h

theorem Reachable.guarded (reach : Reachable w) : w.Guarded := by
  refine reach.induct (P := Guarded) ?_ fun v w _ guarded step => step.handover.guarded guarded
  intro w fresh l there h
  have free : w.holder l = none := by
    rw [holder, List.getD_eq_getElem?_getD, List.getElem?_eq_getElem there]
    exact fresh.locks _ (List.getElem_mem there)
  have idle : w.guard? h = none := by
    cases hx : w.handlers[h]? with
    | none => simp [guard?, outline?, hx]
    | some x =>
      obtain ⟨_, _, _, _, _, _, rfl⟩ := fresh.handlers x (List.mem_of_getElem? hx)
      rw [guard?_eq hx]
      rfl
  simp [free, idle]

theorem Reachable.dispatching_iff (reach : Reachable w) (there : l < w.locks.length)
    (hx : w.handlers[h]? = some x) (lock : x.lock = some l) :
    x.current.isSome = true ↔ w.holder l = some (.worker h) := by
  rw [reach.guarded l there h, guard?_eq hx, Handler.guard?_eq_some]
  simp [lock]

/-! ## From the beginning of a dispatch to its end -/

theorem Run.length_locks (run : Run v w) : w.locks.length = v.locks.length := by
  induction run with
  | refl => rfl
  | tail _ step ih => exact step.handover.length_locks.trans ih

/-- A handler keeps its lock for good. -/
theorem Run.lock (run : Run v w) (hx : v.handlers[h]? = some x) :
    ∃ y, w.handlers[h]? = some y ∧ y.lock = x.lock := by
  induction run with
  | refl => exact ⟨x, hx, rfl⟩
  | tail _ step ih =>
    obtain ⟨y, hy, kept⟩ := ih
    have outlined := outline?_eq_some.mpr ⟨y, hy, rfl⟩
    rcases step.evolves h with ⟨same, -⟩ | ⟨x', notes, y', hx', turn, hy', -⟩
    · obtain ⟨z, hz, same⟩ := outline?_eq_some.mp (same.trans outlined)
      exact ⟨z, hz, (congrArg Handler.lock same).trans kept⟩
    · obtain ⟨z, hz, rfl⟩ := outline?_eq_some.mp hy'
      obtain rfl := Option.some.inj (hx'.symm.trans outlined)
      exact ⟨z, hz, (turn.lock).trans kept⟩

/-- A dispatch that has not been completed in the end goes on all the time. -/
theorem dispatching_between (reach : Reachable v) (before : Run v u) (after : Run u w)
    (hx : v.handlers[h]? = some x) (dispatching : x.current.isSome = true) {y : Handler π}
    (hy : u.handlers[h]? = some y)
    (unended : completed (w.story h) = completed (v.story h)) : y.current.isSome = true := by
  obtain ⟨notes, told⟩ := Run.story_append (h := h) before
  obtain ⟨notes', told'⟩ := Run.story_append (h := h) after
  have handed := congrArg List.length (reach.accounted hx).handed
  have handed' := congrArg List.length ((reach.run before).accounted hy).handed
  have lengths := congrArg List.length unended
  simp only [told', told, dispatched, completed, List.reverse_append, List.filterMap_append,
    List.length_append] at handed handed' lengths
  cases hcurrent : y.current with
  | some record => rfl
  | none =>
    obtain ⟨record, current⟩ := Option.isSome_iff_exists.mp dispatching
    simp only [hcurrent, current, Option.toList_none, Option.toList_some, List.length_nil,
      List.length_singleton] at handed handed'
    omega

/-- The step that completes a dispatch gives the lock back. -/
theorem Next.gives_back (reach : Reachable v) (step : Next v w) (there : l < v.locks.length)
    (hx : v.handlers[h]? = some x) (lock : x.lock = some l)
    (ended : completed (w.story h) ≠ completed (v.story h)) : w.holder l = none := by
  have outlined : v.outline? h = some x.outline := outline?_eq_some.mpr ⟨x, hx, rfl⟩
  rcases step.evolves h with ⟨-, told⟩ | ⟨x', notes, y, hx', turn, hy, told⟩
  · exact absurd (congrArg completed told) ended
  · obtain rfl := Option.some.inj (hx'.symm.trans outlined)
    have ends : completed notes ≠ [] := by
      intro nothing
      apply ended
      rw [told, completed, List.reverse_append, List.filterMap_append]
      exact (congrArg _ nothing).trans (List.append_nil _)
    obtain ⟨dispatching, idle⟩ := turn.completes ends
    obtain ⟨z, hz, rfl⟩ := outline?_eq_some.mp hy
    rw [Handler.current_outline] at dispatching idle
    have held := (reach.dispatching_iff there hx lock).mp dispatching
    have there' : l < w.locks.length := step.handover.length_locks ▸ there
    have unheld : w.holder l ≠ some (.worker h) := by
      rw [Ne, (reach.next step).guarded l there' h, guard?_eq hz, Handler.guard?_of_idle idle]
      simp
    rcases step.handover.holder_cases there with same | free | free
    · exact absurd (same.trans held) unheld
    · simp [free] at held
    · exact free

/-- A handler is inside a dispatcher just while its worker holds the dispatch lock, and no other
worker ever holds it. So the dispatches of handlers that share a lock are never in progress at the
same time, nor while the outside holds it: from the beginning of a dispatch to its end the lock is
the worker's at every moment, the step that ends the dispatch, by a panic too, leaves it free, and
nobody takes it who has not found it free. -/
theorem dispatches_exclusive (reach : Reachable w) (there : l < w.locks.length) :
    (∀ (h : HandlerId) x, w.handlers[h]? = some x → x.lock = some l →
      (x.current.isSome = true ↔ w.holder l = some (.worker h))) ∧
    (∀ h, w.holder l = some (.worker h) →
      ∃ x, w.handlers[h]? = some x ∧ x.lock = some l ∧ x.current.isSome = true) ∧
    (∀ (g h : HandlerId) x y, w.handlers[g]? = some x → w.handlers[h]? = some y → x.lock = some l →
      y.lock = some l → x.current.isSome = true → y.current.isSome = true → g = h) ∧
    (w.holder l = some .outside → ∀ (h : HandlerId) x, w.handlers[h]? = some x → x.lock = some l →
      x.current = none) ∧
    (∀ u v (h : HandlerId) x, Run w u → Run u v → w.handlers[h]? = some x → x.lock = some l →
      x.current.isSome = true → completed (v.story h) = completed (w.story h) →
      u.holder l = some (.worker h)) ∧
    (∀ v (h : HandlerId) x, Next w v → w.handlers[h]? = some x → x.lock = some l →
      completed (v.story h) ≠ completed (w.story h) → v.holder l = none) ∧
    ∀ v, Next w v → v.holder l = w.holder l ∨ w.holder l = none ∨ v.holder l = none := by
  have inside : ∀ h x, w.handlers[h]? = some x → x.lock = some l →
      (x.current.isSome = true ↔ w.holder l = some (.worker h)) :=
    fun h x hx lock => reach.dispatching_iff there hx lock
  refine ⟨inside, ?_, ?_, ?_, ?_, ?_, ?_⟩
  · intro h held
    obtain ⟨y, outlined, guards⟩ := Option.bind_eq_some_iff.mp ((reach.guarded l there h).mp held)
    obtain ⟨x, hx, rfl⟩ := outline?_eq_some.mp outlined
    rw [Handler.guard?_outline] at guards
    exact ⟨x, hx, Handler.guard?_eq_some.mp guards⟩
  · intro g h x y hx hy lock lock' busy busy'
    have held := (inside g x hx lock).mp busy
    have held' := (inside h y hy lock').mp busy'
    simpa [held] using held'
  · intro outside h x hx lock
    by_contra busy
    have held := (inside h x hx lock).mp (Option.isSome_iff_ne_none.mpr busy)
    simp [outside] at held
  · intro u v h x before after hx lock busy unended
    obtain ⟨y, hy, kept⟩ := before.lock hx
    have there' : l < u.locks.length := before.length_locks ▸ there
    refine ((reach.run before).dispatching_iff there' hy (kept.trans lock)).mp ?_
    exact dispatching_between reach before after hx busy hy unended
  · intro v h x step hx lock ended
    exact step.gives_back reach there hx lock ended
  · intro v step
    exact step.handover.holder_cases there

/-- Two handlers share a lock. While a dispatch of the first one is blocked, the second has taken an
event and waits; once the first dispatch has panicked, the second handler dispatches. -/
theorem lock_passed_on_by_panic :
    let handler (name : String) : Handler Nat :=
      { config := { name }, types := .ofList [⟨"A", "a"⟩], lock := some 0 }
    let w₀ : World Nat := { locks := [none], handlers := [handler "a", handler "b"] }
    let w := w₀.steps 20 [.act (.start 0), .act (.start 1),
      .act (.signal 0 .tail "A" 1 [.block, .panic]), .act (.signal 1 .tail "A" 2 [.block])]
    let v := w.steps 20 [.release 0]
    (w.holder 0 = some (.worker 0) ∧
      ∃ y, w.handlers[1]? = some y ∧ y.waiting.isSome = true ∧ y.current = none) ∧
    v.holder 0 = some (.worker 1) ∧
      ∃ x, v.handlers[0]? = some x ∧ x.lock = some 0 ∧ x.current = none := by
  intro handler w₀ w v
  have fresh : Fresh w₀ := by
    refine fresh_of_handlers 1 1 fun x hx => ?_
    rcases List.mem_cons.mp hx with rfl | hx
    · exact ⟨_, _, _, _, _, _, rfl⟩
    · exact ⟨_, _, _, _, _, _, List.mem_singleton.mp hx⟩
  have reach : Reachable w := fresh.reachable.steps 20 _
  have reach' : Reachable v := reach.steps 20 _
  obtain ⟨inside, -, alone, -⟩ := dispatches_exclusive (l := 0) reach (by decide +kernel)
  obtain ⟨inside', -, alone', -⟩ := dispatches_exclusive (l := 0) reach' (by decide +kernel)
  have first : (w.handlers[0]?).map (fun x => (x.lock, x.current.isSome)) =
      some (some 0, true) := by decide +kernel
  have second : (w.handlers[1]?).map (fun y => (y.lock, y.waiting.isSome)) =
      some (some 0, true) := by decide +kernel
  have first' : (v.handlers[0]?).map Handler.lock = some (some 0) := by decide +kernel
  have second' : (v.handlers[1]?).map (fun y => (y.lock, y.current.isSome)) =
      some (some 0, true) := by decide +kernel
  obtain ⟨x, hx, shown⟩ := Option.map_eq_some_iff.mp first
  obtain ⟨own, busy⟩ := Prod.mk.inj shown
  obtain ⟨y, hy, shown⟩ := Option.map_eq_some_iff.mp second
  obtain ⟨own', waits⟩ := Prod.mk.inj shown
  obtain ⟨x', hx', ownX⟩ := Option.map_eq_some_iff.mp first'
  obtain ⟨y', hy', shown⟩ := Option.map_eq_some_iff.mp second'
  obtain ⟨ownY, busy'⟩ := Prod.mk.inj shown
  refine ⟨⟨(inside 0 x hx own).mp busy, y, hy, waits, ?_⟩,
    (inside' 1 y' hy' ownY).mp busy', x', hx', ownX, ?_⟩
  · by_contra idle
    exact absurd (alone 0 1 x y hx hy own own' busy (Option.isSome_iff_ne_none.mpr idle)) nofun
  · by_contra idle
    exact absurd (alone' 0 1 x' y' hx' hy' ownX ownY (Option.isSome_iff_ne_none.mpr idle) busy')
      nofun

end World
end EventEngine
