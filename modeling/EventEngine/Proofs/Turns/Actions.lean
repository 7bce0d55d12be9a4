import EventEngine.Proofs.Turns.Effects

/-!
# What an action does to one handler

Every effect of an action is at most one turn of every handler.
-/
namespace EventEngine.World

variable {π : Type} {h g : HandlerId} {u v w : World π}

/-! ## Records -/

theorem enqueue_evolves {x : Handler π} {place : Place} {body : RecordBody π}
    (hx : w.handlers[g]? = some x) (admits : x.Admits body) :
    Evolves h w (w.enqueue g x place body) := by
  by_cases hg : g = h
  · subst hg
    have outlined : (x.enqueue place body).outline = x.outline.enqueue place body := by
      cases place <;> rfl
    have turn : Handler.Turn g x.outline [.enqueued g place (x.nextRecord body)]
        (x.enqueue place body).outline := by
      rw [outlined]
      exact .enqueue (x := x.outline) place body (by cases body <;> exact admits)
    refine .inr (turned_of hx (by simp [enqueue, hx]) turn ?_)
    rw [enqueue, story_note_self rfl, story_modify]
    rfl
  · exact .inl ((still_modify_ne hg).trans (still_note (by simpa [Occurrence.milestone?] using hg)))

theorem clear_evolves {x : Handler π} (hx : w.handlers[g]? = some x)
    (full : x.queue.isEmpty = false) :
    Evolves h w ((w.modify g Handler.clear).note (.cleared g x.queue.events)) := by
  by_cases hg : g = h
  · subst hg
    have turn : Handler.Turn g x.outline [.cleared g x.queue.events] x.clear.outline :=
      .clear (x := x.outline) full
    refine .inr (turned_of hx (by simp [hx]) turn ?_)
    rw [story_note_self rfl, story_modify]
    rfl
  · exact .inl ((still_modify_ne hg).trans (still_note (by simpa [Occurrence.milestone?] using hg)))

/-! ## Start and stop -/

theorem still_armTimeout_ne {x : Handler π} {c : ClockId} (ne : g ≠ h) :
    Still h w (w.armTimeout g x c) := by
  unfold armTimeout
  split
  · exact .refl
  · exact (still_setClock ..).trans (still_modify_ne ne)

theorem story_armTimeout {x : Handler π} {c : ClockId} :
    (w.armTimeout g x c).story h = w.story h := by
  unfold armTimeout
  split
  · rfl
  · rw [story_modify, story_setClock]

theorem still_disarmTimeout_ne {x : Handler π} {c : Option ClockId} (ne : g ≠ h) :
    Still h w (w.disarmTimeout g x c) := by
  unfold disarmTimeout
  split
  · exact .refl
  · split
    · exact still_modify_ne ne
    · exact (still_modify_ne ne).trans (still_setClock ..)

theorem story_disarmTimeout {x : Handler π} {c : Option ClockId} :
    (w.disarmTimeout g x c).story h = w.story h := by
  unfold disarmTimeout
  split
  · rfl
  · split
    · rfl
    · rw [story_setClock, story_modify]

theorem still_armed_ne {x : Handler π} {c : ClockId} (ne : g ≠ h) : Still h w (w.armed g x c) :=
  (still_modify_ne ne).trans (still_armTimeout_ne ne)

theorem story_armed {x : Handler π} {c : ClockId} : (w.armed g x c).story h = w.story h := by
  rw [armed, story_armTimeout, story_modify]

theorem still_installs_ne {x : Handler π} {c : ClockId} (installs : Installs w g x c v)
    (ne : g ≠ h) : Still h w v := by
  cases installs with
  | running _ => exact .refl
  | launched _ _ =>
    exact ((still_armed_ne ne).trans (still_modify_ne ne)).trans
      (still_note (by simpa [Occurrence.milestone?] using ne))
  | refused _ _ =>
    exact ((still_armed_ne ne).trans (still_disarmTimeout_ne ne)).trans
      (still_note (by simp [Occurrence.milestone?]))
  | crashed _ _ =>
    exact (still_armed_ne ne).trans (still_note (by simpa [Occurrence.milestone?] using ne))

theorem still_start_ne {x : Handler π} (found : w.find? g = some x) (ne : g ≠ h) :
    Still h w (w.start g x).1 := by
  have started := starts found
  generalize (w.start g x).1 = w' at started
  cases started with
  | failed _ => exact still_modify_ne ne
  | opened _ installs =>
    exact ((still_modify_ne ne).trans (still_setClock ..)).trans (still_installs_ne installs ne)

theorem enters_outline {x : Handler π} {clock : Option ClockId} {starts : List ClockId}
    (enters : x.Enters clock starts) : x.outline.Enters clock starts := by
  cases enters with
  | atOnce => exact .atOnce (x := x.outline)
  | later member => exact .later (x := x.outline) member

/-- The second section of a start is a turn of a handler without a worker. -/
theorem installs_evolves {x : Handler π} {clock : Option ClockId} {starts : List ClockId}
    {c : ClockId} (hx : v.handlers[g]? = some x) (enters : x.Enters clock starts)
    (installs : Installs u g { x with clock, starts } c w)
    (hy : u.handlers[g]? = some { x with clock, starts }) (told : u.story g = v.story g)
    (stays : x.isRunning = true → Evolves g v u) : Evolves g v w := by
  have armed := handlers_armed hy c
  have enters := enters_outline enters
  cases installs with
  | running running => exact stays running
  | launched idle _ =>
    refine .inr (turned_of hx
      (y := ({ x with clock, starts } : Handler π).startedWith (u.clock c).nextId)
      (by simp [armed, Handler.startedWith])
      (.start (x := x.outline) _ (by simpa [Handler.outline] using idle) enters) ?_)
    rw [story_note_self rfl, story_modify, story_armed, told]
    rfl
  | refused idle _ =>
    refine .inr (turned_of hx (y := ({ x with clock, starts } : Handler π).startRefused)
      (handlers_disarmTimeout armed)
      (.refuse (x := x.outline) (by simpa [Handler.outline] using idle) enters) ?_)
    rw [(still_note (by simp [Occurrence.milestone?])).2, story_disarmTimeout, story_armed, told]
    rfl
  | crashed idle _ =>
    refine .inr (turned_of hx
      (y := ({ x with clock, starts } : Handler π).armedWith (u.clock c).nextId) armed
      (.crash (x := x.outline) _ (by simpa [Handler.outline] using idle) enters) ?_)
    rw [story_note_self rfl, story_armed, told]
    rfl

theorem adopted_evolves {x : Handler π} (hx : w.handlers[g]? = some x) :
    Evolves h w (w.adopted g) :=
  modify_evolves hx (.setClock (x := x.outline) _)

/-- A start makes the handler take a clock, or gives it a worker, or finds that it cannot. -/
theorem start_evolves {x : Handler π} (found : w.find? g = some x) :
    Evolves h w (w.start g x).1 := by
  by_cases hg : g = h
  · subst hg
    obtain ⟨hx, -⟩ := find?_eq_some.mp found
    have started := starts found
    generalize (w.start g x).1 = w' at started
    cases started with
    | failed _ => exact adopted_evolves hx
    | opened _ installs =>
      have hy := (find?_eq_some.mp (find?_adopted found)).1
      exact installs_evolves hx .atOnce installs hy (story_setClock ..) fun _ =>
        (adopted_evolves hx).then (still_setClock ..)
  · exact .inl (still_start_ne found hg)

theorem still_beginStart_ne {c : ClockId} {k : Clock AlarmOwner} {notices : List ClockNotice}
    (ne : g ≠ h) : Still h w (((w.adopted g).setClock c k notices).modify g (·.opened c)) :=
  ((still_modify_ne ne).trans (still_setClock ..)).trans (still_modify_ne ne)

theorem beginStart_evolves {x : Handler π} (hx : w.handlers[g]? = some x) (k : Clock AlarmOwner)
    (notices : List ClockNotice) :
    Evolves h w (((w.adopted g).setClock (x.clock.getD sharedClock) k notices).modify g
      (·.opened (x.clock.getD sharedClock))) := by
  by_cases hg : g = h
  · subst hg
    refine .inr (turned_of hx (y := x.adopt.opened (x.clock.getD sharedClock))
      (by simp [adopted, hx]) (.beginStart (x := x.outline)) ?_)
    rw [story_modify, story_setClock]
    rfl
  · exact .inl (still_beginStart_ne hg)

theorem endStart_evolves {x : Handler π} {c : ClockId} (found : w.find? g = some x)
    (member : c ∈ x.starts) : Evolves h w ((w.modify g (·.entered c)).endStart g c).1 := by
  have entered := find?_entered found c
  have installs := installs entered c
  by_cases hg : g = h
  · subst hg
    obtain ⟨hx, -⟩ := find?_eq_some.mp found
    have skips : x.isRunning = true → Evolves g w (w.modify g (·.entered c)) := fun running =>
      modify_evolves hx (.skipStart (x := x.outline) (by simpa using running) member)
    exact installs_evolves hx (.later member) installs (find?_eq_some.mp entered).1 rfl skips
  · exact .inl ((still_modify_ne hg).trans (still_installs_ne installs hg))

theorem still_requestStop_ne {x : Handler π} (who : Caller) (destroys : Bool) (ne : g ≠ h) :
    Still h w (w.requestStop who g x destroys).1 := by
  have noted : Still h w
      (((w.disarmTimeout g x x.clock).modify g Handler.requestStop).note (.abortRequested g)) :=
    ((still_disarmTimeout_ne ne).trans (still_modify_ne ne)).trans
      (still_note (by simp [Occurrence.milestone?]))
  unfold requestStop
  split
  · split
    · exact noted.trans (still_note (by simp [Occurrence.milestone?]))
    · exact noted
  · exact .refl

theorem requestStop_evolves {x : Handler π} (hx : w.handlers[g]? = some x) (who : Caller)
    (destroys : Bool) : Evolves h w (w.requestStop who g x destroys).1 := by
  by_cases hg : g = h
  · subst hg
    unfold requestStop
    split
    · next running =>
      have requested :
          Evolves g w ((w.disarmTimeout g x x.clock).modify g Handler.requestStop) := by
        refine .inr (turned_of hx (y := x.stopRequest) ?_
          (.requestStop (x := x.outline) (by simpa using running)) ?_)
        · simp [handlers_disarmTimeout hx, Handler.stopRequest]
        · rw [story_modify, story_disarmTimeout]
          rfl
      have noted := requested.then
        (still_note (o := .abortRequested g) (by simp [Occurrence.milestone?]))
      split
      · exact noted.then (still_note (by simp [Occurrence.milestone?]))
      · exact noted
    · exact .inl .refl
  · exact .inl (still_requestStop_ne who destroys hg)

/-- Every action is at most one turn of every handler. -/
theorem Effect.evolves {who : Caller} (effect : Effect v who w) (h : HandlerId) :
    Evolves h v w := by
  cases effect with
  | none => exact .inl .refl
  | start found => exact start_evolves found
  | beginStart found _ => exact beginStart_evolves (find?_eq_some.mp found).1 ..
  | endStart found member => exact endStart_evolves found member
  | stop destroys found _ => exact requestStop_evolves (find?_eq_some.mp found).1 who destroys
  | @release g x found idle =>
    have turn : Handler.Turn g x.outline [] x.release.outline :=
      .destroy (x := x.outline) (by simp [Handler.outline, idle])
    exact (modify_evolves (find?_eq_some.mp found).1 turn).then
      (still_note (by simp [Occurrence.milestone?]))
  | signal place e found resolved => exact enqueue_evolves (find?_eq_some.mp found).1 resolved
  | refuse g error => exact .inl (still_note (by simp [Occurrence.milestone?]))
  | clear found full => exact clear_evolves (find?_eq_some.mp found).1 full
  | @configure g x setup found =>
    exact (modify_evolves (find?_eq_some.mp found).1 (.configure (x := x.outline) setup)).then
      (still_note (by simp [Occurrence.milestone?]))
  | @setClock g x c found =>
    exact modify_evolves (find?_eq_some.mp found).1 (.setClock (x := x.outline) c)
  | advance d => exact .inl (still_advance d)

end EventEngine.World
