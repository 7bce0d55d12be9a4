import EventEngine.Proofs.Turns.Actions

/-!
# What a step does to one handler

Every step of a run is at most one turn of every handler. What the progress of a script and the
reply to an action add to the action itself does not count as a turn.
-/
namespace EventEngine.World

variable {π : Type} {h g : HandlerId} {v w w' : World π}

/-! ## Exits -/

theorem handlers_leave {x y : Handler π} (hx : w.handlers[g]? = some x) :
    (w.leave g y).handlers[g]? = some x.exit := by
  unfold leave
  split
  · split <;> simp [hx]
  · simp [hx]

theorem story_leave {x : Handler π} :
    (w.leave g x).story g = x.exitStory g ++ w.story g := by
  unfold leave Handler.exitStory
  split
  · split
    · rw [story_note_self rfl, story_modify]
      rfl
    · rw [story_note_self rfl, story_note_self rfl, story_modify]
      rfl
  · rfl

theorem still_leave_ne {x : Handler π} (ne : g ≠ h) : Still h w (w.leave g x) := by
  have left : Still h w (w.modify g Handler.exit) := still_modify_ne ne
  unfold leave
  split
  · split
    · exact left.trans (still_note (by simpa [Occurrence.milestone?] using ne))
    · exact (left.trans (still_note (by simpa [Occurrence.milestone?] using ne))).trans
        (still_note (by simpa [Occurrence.milestone?] using ne))
  · exact left

theorem leave_evolves {x : Handler π} (hx : w.handlers[g]? = some x)
    (idle : x.worker = some .idle) (aborted : x.queue.aborted = true) :
    Evolves h w (w.leave g x) := by
  by_cases hg : g = h
  · subst hg
    have turn : Handler.Turn g x.outline (x.exitStory g) x.exit.outline := by
      rw [Handler.outline_exit]
      exact .leave (x := x.outline) (by simp [Handler.outline, idle, Worker.outline]) aborted
    exact .inr (turned_of hx (handlers_leave hx) turn story_leave)
  · exact .inl (still_leave_ne hg)

/-! ## Moves of a worker -/

/-- A worker inside a dispatch, in outline. -/
theorem outline_dispatching {x : Handler π} {record : Record π} {since : Instant}
    {script : List (Action π)} {pause : Option Pause}
    (hworker : x.worker = some (.dispatching record since script pause)) :
    x.outline.worker = some (.dispatching record since [] none) := by
  simp [Handler.outline, hworker, Worker.outline]

theorem panicDispatch_evolves {x y : Handler π} {record : Record π} {since : Instant}
    {script : List (Action π)} {pause : Option Pause} (found : w.find? g = some x)
    (hworker : x.worker = some (.dispatching record since script pause)) :
    Evolves h w (w.panicDispatch g y record) := by
  obtain ⟨hx, -⟩ := find?_eq_some.mp found
  have found' : ((w.setHolder y.lock none).note (.panicked g record)).find? g = some x := by
    simpa using found
  simp only [panicDispatch, found']
  by_cases hg : g = h
  · subst hg
    have turn : Handler.Turn g x.outline (x.exitStory g ++ [.panicked g record])
        x.exit.outline := by
      rw [Handler.outline_exit]
      exact .panic (x := x.outline) record since (outline_dispatching hworker)
    refine .inr (turned_of hx (handlers_leave (by simpa using hx)) turn ?_)
    rw [story_leave, story_note_self rfl, (still_setHolder _ _).2, List.append_assoc]
    rfl
  · exact .inl (((still_setHolder _ _).trans
      (still_note (by simpa [Occurrence.milestone?] using hg))).trans (still_leave_ne hg))

theorem finishDispatch_evolves {x : Handler π} {record : Record π} {since : Instant}
    (hx : w.handlers[g]? = some x)
    (hworker : x.worker = some (.dispatching record since [] none)) :
    Evolves h w (w.finishDispatch g x record since) := by
  unfold finishDispatch
  by_cases hg : g = h
  · subst hg
    refine .inr (turned_of hx (y := { x.recordDispatch record.body (w.now.since since) with
        worker := some .idle }) (by simp [hx])
      (.finish (x := x.outline) record since (w.now.since since) (outline_dispatching hworker)) ?_)
    rw [story_note_self rfl, (still_setHolder _ _).2, story_modify]
    rfl
  · exact .inl (((still_modify_ne hg).trans (still_setHolder _ _)).trans
      (still_note (by simpa [Occurrence.milestone?] using hg)))

theorem begin_evolves {x : Handler π} {record : Record π} (hx : w.handlers[g]? = some x)
    (hworker : x.worker = some (.holding record)) :
    Evolves h w (((w.setHolder x.lock (some (.worker g))).setWorker g
      (.dispatching record w.now record.body.script none)).note (.began g record)) := by
  by_cases hg : g = h
  · subst hg
    have turn : Handler.Turn g x.outline [.began g record]
        { x with worker := some (.dispatching record w.now record.body.script none) }.outline :=
      .begin (x := x.outline) record w.now (by simp [Handler.outline, hworker, Worker.outline])
    refine .inr (turned_of hx (by simp [setWorker, hx]) turn ?_)
    rw [story_note_self rfl, setWorker, story_modify, (still_setHolder _ _).2]
    rfl
  · exact .inl (((still_setHolder _ _).trans (still_modify_ne hg)).trans
      (still_note (by simpa [Occurrence.milestone?] using hg)))

/-! ## Moves of a timer thread -/

/-- What the callback of an alarm comes to: nothing, or the handler that has registered the alarm is
given its timeout. -/
inductive Delivers (w : World π) (f : Firing AlarmOwner) : World π → Prop where
  | ignored : Delivers w f w
  | queued {g : HandlerId} {x : Handler π} {setup : TimeoutSetup π} :
      f.callback = .handler g → w.find? g = some x → x.timeoutAlarm = some f.id →
      x.timeout = some setup →
      Delivers w f
        (w.enqueue g x .head
          (.timeout setup ⟨f.id, f.deadline, .ofDeadline f.deadline w.now w.wallStart⟩))

theorem delivers (w : World π) (f : Firing AlarmOwner) : Delivers w f (w.deliver f) := by
  unfold deliver
  split
  · next g callback =>
    unfold signalTimeout
    split
    · exact .ignored
    · next x found =>
      split
      · next registered =>
        split
        · next setup configured => exact .queued callback found registered configured
        · exact .ignored
      · exact .ignored
  · exact .ignored

theorem deliver_evolves (w : World π) (f : Firing AlarmOwner) (h : HandlerId) :
    Evolves h w (w.deliver f) := by
  have delivered := delivers w f
  generalize w.deliver f = v at delivered
  cases delivered with
  | ignored => exact .inl .refl
  | queued _ found registered configured =>
    exact enqueue_evolves (find?_eq_some.mp found).1 ⟨configured, registered⟩

theorem moveTimer_evolves {c : ClockId} {generation : Nat}
    (moved : w.moveTimer c generation = some w') : Evolves h w w' := by
  unfold moveTimer at moved
  obtain ⟨t, -, moved⟩ := Option.bind_eq_some_iff.mp moved
  have ticked := still_setClock (h := h) (w := w) c ((w.clock c).move w.now t).1
    ((w.clock c).move w.now t).2.2
  simp only at moved
  split at moved
  · cases moved
    exact ticked.then (deliver_evolves ..)
  · cases moved
    exact .inl ticked

/-! ## Steps -/

/-- Every step of a run is at most one turn of every handler. -/
theorem Next.evolves (step : Next v w) (h : HandlerId) : Evolves h v w := by
  cases step.happening with
  | act before effect after =>
    exact (before.still h).then ((effect.evolves h).then (after.still h))
  | @take g x record rest found atWork queued same =>
    have idle : x.outline.worker = some .idle := by
      simp [Handler.outline, atWork, Worker.outline]
    rw [same]
    exact modify_evolves (find?_eq_some.mp found).1 (.take (x := x.outline) record rest idle queued)
  | «begin» found holding _ same => exact same ▸ begin_evolves (find?_eq_some.mp found).1 holding
  | finish found dispatching same =>
    exact same ▸ finishDispatch_evolves (find?_eq_some.mp found).1 dispatching
  | @panic g x record since rest found dispatching same =>
    obtain ⟨hx, alive⟩ := find?_eq_some.mp found
    have begun : Still h v (v.setWorker g (.dispatching record since rest none)) :=
      still_setWorker hx dispatching rfl
    have hx' : (v.setWorker g (.dispatching record since rest none)).handlers[g]? =
        some { x with worker := some (.dispatching record since rest none) } := by
      simp [setWorker, hx]
    rw [same]
    exact begun.then (panicDispatch_evolves (find?_eq_some.mpr ⟨hx', alive⟩) rfl)
  | leave found idle aborted same =>
    exact same ▸ leave_evolves (find?_eq_some.mp found).1 idle aborted
  | timer moved => exact moveTimer_evolves moved
  | clock _ same => exact .inl (same ▸ still_setClock ..)
  | lock _ same => exact .inl (same ▸ still_setHolder ..)
  | unlock _ same => exact .inl (same ▸ still_setHolder ..)

/-- A handler keeps the settings and the types that it was made with. -/
theorem Next.fixed (step : Next v w) {y : Handler π} (hy : w.outline? h = some y) :
    ∃ x, v.outline? h = some x ∧ y.config = x.config ∧ y.canSpawn = x.canSpawn ∧
      y.types = x.types := by
  rcases step.evolves h with still | ⟨x, notes, x', hx, turn, hx', -⟩
  · exact ⟨y, still.1.symm.trans hy, rfl, rfl, rfl⟩
  · obtain rfl := Option.some.inj (hx'.symm.trans hy)
    exact ⟨x, hx, turn.fixed⟩

/-- What holds of a handler to which nothing has happened, and is kept by every turn, holds of every
handler in every reachable world. -/
theorem Reachable.turns {P : Handler π → List (Occurrence π) → Prop}
    (fresh : ∀ x : Handler π, x.New → P x [])
    (turn : ∀ x notes x' story, P x story → Handler.Turn h x notes x' → P x' (notes ++ story))
    (reach : Reachable w) : ∀ x, w.outline? h = some x → P x (w.story h) := by
  refine reach.induct (P := fun w => ∀ x, w.outline? h = some x → P x (w.story h)) ?_ ?_
  · intro w start x hx
    obtain ⟨y, hy, rfl⟩ := outline?_eq_some.mp hx
    have new : y.New := start.handlers y (List.mem_of_getElem? hy)
    rw [show w.story h = [] by simp [story, start.history]]
    exact fresh y.outline (Handler.new_outline new)
  · intro v w _ ih step x hx
    rcases step.evolves h with ⟨same, told⟩ | ⟨y, notes, y', hy, turned, hy', told⟩
    · rw [told]
      exact ih x (same ▸ hx)
    · rw [hy', Option.some.injEq] at hx
      rw [told, ← hx]
      exact turn y notes y' _ (ih y hy) turned

/-- Nothing of a story is forgotten. -/
theorem Run.story_append {h : HandlerId} (run : Run v w) :
    ∃ notes, w.story h = notes ++ v.story h := by
  induction run with
  | refl => exact ⟨[], rfl⟩
  | tail _ step ih =>
    obtain ⟨notes, told⟩ := ih
    rcases step.evolves h with ⟨-, told'⟩ | ⟨-, notes', -, -, -, -, told'⟩
    · exact ⟨notes, told'.trans told⟩
    · exact ⟨notes' ++ notes, by rw [told', told, List.append_assoc]⟩

/-- What has been told of a handler can only become more. -/
theorem Run.countP_story_le {h : HandlerId} (run : Run v w) (told : Occurrence π → Bool) :
    (v.story h).countP told ≤ (w.story h).countP told := by
  obtain ⟨notes, later⟩ := Run.story_append (h := h) run
  rw [later, List.countP_append]
  exact Nat.le_add_left _ _

end EventEngine.World
