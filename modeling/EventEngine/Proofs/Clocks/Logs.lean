import EventEngine.Proofs.Clocks.Fates
import EventEngine.Proofs.Clocks.Ticks

/-!
# The timelines of a run

The history of a world holds the log of each of its clocks. In a step of a run a timer thread of
one clock moves or is ended by a panic, or no timer thread does anything and the clocks are only
used: time passes, they are started and stopped, alarms are added and removed. So each clock, with
the time and its log, goes through a timeline, and all that holds of timelines holds of it.
-/
namespace EventEngine

variable {π : Type}

namespace Timeline

variable {α : Type} {t u : Timeline α}

/-- A step in which no timer thread moves. -/
inductive Tended : Timeline α → Timeline α → Prop where
  | advance (t : Timeline α) (d : Duration) : Tended t (t.advance d)
  | start {t : Timeline α} {clock : Clock α} {notices : List ClockNotice} :
      t.clock.start = .ok (clock, notices) → Tended t (t.turn clock notices)
  | stop (t : Timeline α) : Tended t t.stop
  | addOnce (t : Timeline α) (callback : α) (deadline : Instant) :
      Tended t (t.addOnce callback deadline)
  | addPeriodic (t : Timeline α) (callback : α) (period : Duration) :
      Tended t (t.addPeriodic callback period)
  | remove (t : Timeline α) (id : AlarmId) : Tended t (t.remove id)

theorem Tended.next (tended : Tended t u) : Next t u := by
  cases tended with
  | advance d => exact .idle (.advance t d)
  | start started => exact .idle (.start started)
  | stop => exact .idle (.stop t)
  | addOnce callback deadline => exact .addOnce t callback deadline
  | addPeriodic callback period => exact .addPeriodic t callback period
  | remove id => exact .remove t id

end Timeline

namespace World

variable {h g : HandlerId} {c : ClockId} {u v w : World π} {x : Handler π}

/-- A clock of the world, with the time and what has happened on it. -/
def timeline (w : World π) (c : ClockId) : Timeline AlarmOwner := ⟨w.now, w.clock c, w.notices c⟩

theorem timeline_note {o : Occurrence π} (other : ∀ c, o.notice? c = none) :
    (w.note o).timeline c = w.timeline c := by
  rw [timeline, notices_note other]
  rfl

@[simp] theorem timeline_modify {f : Handler π → Handler π} :
    (w.modify g f).timeline c = w.timeline c := rfl

@[simp] theorem timeline_setHolder {lock : Option LockId} {who : Option Caller} :
    (w.setHolder lock who).timeline c = w.timeline c := by
  cases lock <;> rfl

theorem Calm.timeline (calm : Calm v w) : w.timeline c = v.timeline c := by
  rw [World.timeline, calm.now, calm.clock, calm.notices, World.timeline]

theorem notices_setClock (c' : ClockId) (k : Clock AlarmOwner) (notices : List ClockNotice) :
    (w.setClock c' k notices).notices c =
      if c' = c then notices.reverse ++ w.notices c else w.notices c := by
  have told : (notices.map (.clock c') : List (Occurrence π)).reverse.filterMap
      (Occurrence.notice? c) = if c' = c then notices.reverse else [] := by
    rw [← List.map_reverse, List.filterMap_map]
    split
    · next same => simp [Occurrence.notice?, same]
    · next other => simp [Function.comp_def, Occurrence.notice?, other]
  simp only [World.notices, setClock, List.filterMap_append, told]
  split <;> rfl

theorem timeline_setClock {c' : ClockId} (there : c < w.clocks.length) (k : Clock AlarmOwner)
    (notices : List ClockNotice) : (w.setClock c' k notices).timeline c =
      if c' = c then (w.timeline c).turn k notices else w.timeline c := by
  rw [timeline, notices_setClock, clock_setClock]
  by_cases same : c' = c
  · subst same
    rw [if_pos ⟨rfl, there⟩, if_pos rfl, if_pos rfl]
    rfl
  · rw [if_neg fun both => same both.1, if_neg same, if_neg same]
    rfl

/-! ## Steps in which no timer thread moves -/

/-- No timer thread of a clock moves. -/
def Tends (c : ClockId) (v w : World π) : Prop :=
  Relation.ReflTransGen Timeline.Tended (v.timeline c) (w.timeline c)

theorem tends_of_eq (same : w.timeline c = v.timeline c) : Tends c v w := by
  unfold Tends
  rw [same]

theorem Tends.refl : Tends c w w := tends_of_eq rfl

theorem Tends.trans (first : Tends c u v) (second : Tends c v w) : Tends c u w :=
  Relation.ReflTransGen.trans first second

theorem Tends.run (tends : Tends c v w) : Timeline.Run (v.timeline c) (w.timeline c) :=
  Relation.ReflTransGen.mono (fun _ _ => Timeline.Tended.next) _ _ tends

theorem Tends.note {o : Occurrence π} (tends : Tends c v w) (other : ∀ c, o.notice? c = none) :
    Tends c v (w.note o) := tends.trans (tends_of_eq (timeline_note other))

theorem Tends.modify {f : Handler π → Handler π} (tends : Tends c v w) :
    Tends c v (w.modify g f) := tends

/-- A clock is used, and this is noted. -/
theorem Tends.setClock {c' : ClockId} {k : Clock AlarmOwner} {notices : List ClockNotice}
    (there : c < w.clocks.length) (tends : Tends c v w)
    (used : Timeline.Tended (w.timeline c') ((w.timeline c').turn k notices)) :
    Tends c v (w.setClock c' k notices) := by
  refine tends.trans ?_
  unfold Tends
  rw [timeline_setClock there]
  split
  · next same =>
    subst same
    exact .single used
  · exact .refl

theorem tends_disarmTimeout {c' : Option ClockId} (there : c < w.clocks.length) :
    Tends c w (w.disarmTimeout g x c') := by
  unfold disarmTimeout
  split
  · exact .refl
  · next id _ =>
    split
    · exact .refl
    · next c' =>
      have removes := Timeline.Tended.remove (w.timeline c') id
      exact Tends.refl.modify.setClock there removes

theorem tends_armTimeout {c' : ClockId} (there : c < w.clocks.length) :
    Tends c w (w.armTimeout g x c') := by
  unfold armTimeout
  split
  · exact .refl
  · next setup _ =>
    have adds := Timeline.Tended.addPeriodic (w.timeline c') (.handler g) setup.interval
    exact (Tends.refl.setClock there adds).modify

theorem tends_requestStop {who : Caller} {destroys : Bool} (there : c < w.clocks.length) :
    Tends c w (w.requestStop who g x destroys).1 := by
  have disarms : Tends c w (w.disarmTimeout g x x.clock) := tends_disarmTimeout there
  unfold requestStop
  split
  · split
    · exact (disarms.modify.note fun _ => rfl).note fun _ => rfl
    · exact disarms.modify.note fun _ => rfl
  · exact .refl

theorem tends_adopted {c' : ClockId} {k : Clock AlarmOwner} {notices : List ClockNotice}
    (there : c < w.clocks.length) (started : (w.clock c').start = .ok (k, notices)) :
    Tends c w ((w.adopted g).setClock c' k notices) := by
  have adopts : Tends c w (w.adopted g) := Tends.refl.modify
  exact adopts.setClock there (.start (t := w.timeline c') started)

theorem length_armed {c' : ClockId} : (w.armed g x c').clocks.length = w.clocks.length := by
  unfold armed armTimeout
  split <;> simp

theorem tends_installs {c' : ClockId} (there : c < w.clocks.length)
    (installs : Installs w g x c' v) : Tends c w v := by
  have prepares : Tends c w (w.modify g Handler.prepare) := Tends.refl.modify
  have arms : Tends c w (w.armed g x c') := prepares.trans (tends_armTimeout there)
  cases installs with
  | running _ => exact .refl
  | launched _ _ => exact arms.modify.note fun _ => rfl
  | refused _ _ =>
    exact (arms.trans (tends_disarmTimeout (by rwa [length_armed]))).note fun _ => rfl
  | crashed _ _ => exact arms.note fun _ => rfl

theorem tends_start (there : c < w.clocks.length) (found : w.find? g = some x) :
    Tends c w (w.start g x).1 := by
  have started := starts found
  generalize (w.start g x).1 = w' at started
  cases started with
  | failed _ => exact Tends.refl.modify
  | opened started installs =>
    exact (tends_adopted there started).trans
      (tends_installs (by simpa [adopted] using there) installs)

theorem Effect.tends {who : Caller} (effect : Effect v who w) (there : c < v.clocks.length) :
    Tends c v w := by
  cases effect with
  | none => exact .refl
  | start found => exact tends_start there found
  | beginStart _ started => exact (tends_adopted there started).modify
  | @endStart g x c' found _ =>
    have enters : Tends c v (v.modify g (·.entered c')) := Tends.refl.modify
    exact enters.trans (tends_installs there (installs (find?_entered found c') c'))
  | stop destroys _ _ => exact tends_requestStop there
  | release _ _ => exact Tends.refl.modify.note fun _ => rfl
  | signal place e _ _ => exact Tends.refl.modify.note fun _ => rfl
  | refuse g error => exact Tends.refl.note fun _ => rfl
  | clear _ _ => exact Tends.refl.modify.note fun _ => rfl
  | configure setup _ => exact Tends.refl.modify.note fun _ => rfl
  | setClock c _ => exact Tends.refl.modify
  | advance d => exact .single (.advance _ d)

theorem timeline_leave : (w.leave g x).timeline c = w.timeline c := by
  unfold leave
  split
  · split
    · exact timeline_note fun _ => rfl
    · exact (timeline_note fun _ => rfl).trans (timeline_note fun _ => rfl)
  · rfl

theorem timeline_panicDispatch {record : Record π} :
    (w.panicDispatch g x record).timeline c = w.timeline c := by
  have told : ((w.setHolder x.lock none).note (.panicked g record)).timeline c = w.timeline c :=
    (timeline_note fun _ => rfl).trans timeline_setHolder
  unfold panicDispatch
  simp only
  split
  · exact timeline_leave.trans told
  · exact told

theorem timeline_finishDispatch {record : Record π} {since : Instant} :
    (w.finishDispatch g x record since).timeline c = w.timeline c :=
  (timeline_note fun _ => rfl).trans timeline_setHolder

/-! ## Moves of the timer threads -/

theorem timeline_deliver (w : World π) (f : Firing AlarmOwner) :
    (w.deliver f).timeline c = w.timeline c := by
  have delivered := delivers w f
  generalize w.deliver f = v at delivered
  cases delivered with
  | ignored => rfl
  | queued _ _ _ _ => exact timeline_note fun _ => rfl

/-- A timer thread of one clock moves, and nothing happens on the others. -/
theorem timeline_moveTimer {c' : ClockId} (there : c < w.clocks.length)
    {generation : Nat} (moved : w.moveTimer c' generation = some v) :
    ∃ t, (w.clock c').thread? w.now generation = some t ∧
      v.timeline c = if c' = c then (w.timeline c).move t else w.timeline c := by
  obtain ⟨t, ready, rfl⟩ := moveTimer_eq_some.mp moved
  refine ⟨t, ready, ?_⟩
  have ticks : (w.ticked c' t).timeline c =
      if c' = c then (w.timeline c).move t else w.timeline c := by
    rw [ticked, timeline_setClock there]
    split
    · next same =>
      subst same
      rfl
    · rfl
  cases ((w.clock c').move w.now t).2.1 with
  | none => exact ticks
  | some f => exact (timeline_deliver ..).trans ticks

/-! ## Steps -/

/-- A panic ends a timer thread of one clock, and nothing happens on the others. -/
theorem timeline_panicTimer {c' : ClockId} (there : c < w.clocks.length) (generation : Nat) :
    (w.panicTimer c' generation).timeline c =
      if c' = c then (w.timeline c).panic generation else w.timeline c := by
  rw [panicTimer, timeline_setClock there]
  split
  · next same =>
    subst same
    rfl
  · rfl

/-- In a step a timer thread moves, or is ended by a panic, or no timer thread does anything. -/
theorem Next.tends (step : Next v w) : (∃ c generation, v.moveTimer c generation = some w) ∨
    (∃ c generation, w = v.panicTimer c generation) ∨ ∀ c < v.clocks.length, Tends c v w := by
  cases step.happening with
  | act before effect after =>
    refine .inr (.inr fun c there => ?_)
    have acts := effect.tends (c := c) (by rwa [before.clocks])
    exact (tends_of_eq before.timeline).trans (acts.trans (tends_of_eq after.timeline))
  | take _ _ _ same => exact .inr (.inr fun c _ => tends_of_eq (by rw [same]; rfl))
  | «begin» _ _ _ same =>
    refine .inr (.inr fun c _ => tends_of_eq ?_)
    rw [same, timeline_note fun _ => rfl, setWorker, timeline_modify, timeline_setHolder]
  | finish _ _ same =>
    exact .inr (.inr fun c _ => tends_of_eq (by rw [same, timeline_finishDispatch]))
  | panic _ _ same =>
    refine .inr (.inr fun c _ => tends_of_eq ?_)
    rw [same, timeline_panicDispatch, setWorker, timeline_modify]
  | leave _ _ _ same => exact .inr (.inr fun c _ => tends_of_eq (by rw [same, timeline_leave]))
  | timer moved => exact .inl ⟨_, _, moved⟩
  | @clock c' k notices used same =>
    have tended : Timeline.Tended (v.timeline c') ((v.timeline c').turn k notices) →
        ∀ c < v.clocks.length, Tends c v w := by
      intro tended c there
      rw [same]
      exact Tends.refl.setClock there tended
    cases used with
    | start started => exact .inr (.inr (tended (.start started)))
    | stop => exact .inr (.inr (tended (.stop _)))
    | addOnce deadline => exact .inr (.inr (tended (.addOnce _ AlarmOwner.other deadline)))
    | addPeriodic period =>
      exact .inr (.inr (tended (.addPeriodic _ AlarmOwner.other period)))
    | remove id => exact .inr (.inr (tended (.remove _ id)))
    | panic generation => exact .inr (.inl ⟨c', generation, same⟩)
  | lock _ same => exact .inr (.inr fun c _ => tends_of_eq (by rw [same, timeline_setHolder]))
  | unlock _ same => exact .inr (.inr fun c _ => tends_of_eq (by rw [same, timeline_setHolder]))

/-- A step of a run is a run of each timeline. -/
theorem Next.timeline (step : Next v w) (there : c < v.clocks.length) :
    Timeline.Run (v.timeline c) (w.timeline c) := by
  rcases step.tends with ⟨c', generation, moved⟩ | ⟨c', generation, rfl⟩ | tends
  · obtain ⟨t, ready, same⟩ := timeline_moveTimer there moved
    rw [same]
    split
    · next eq =>
      subst eq
      exact .single (.idle (.move (Clock.thread?_eq_some ready).1))
    · exact .refl
  · rw [timeline_panicTimer there]
    split
    · exact .single (.idle (.panic _ generation))
    · exact .refl
  · exact (tends c there).run

theorem Run.timeline (run : Run v w) (there : c < v.clocks.length) :
    Timeline.Run (v.timeline c) (w.timeline c) := by
  induction run with
  | refl => exact .refl
  | tail before step ih => exact ih.trans (step.timeline (by rwa [Run.length_clocks before]))

/-- Every clock of a reachable world has come about by a run of its own. -/
theorem Reachable.timeline (reach : Reachable w) (there : c < w.clocks.length) :
    (w.timeline c).Reachable := by
  obtain ⟨w₀, fresh, run⟩ := reach
  have there₀ : c < w₀.clocks.length := by rwa [← Run.length_clocks run]
  obtain ⟨config, canSpawn, new⟩ := fresh.clocks _ (List.getElem_mem there₀)
  have first : w₀.timeline c = { now := w₀.now, clock := { config, canSpawn } } := by
    simp [World.timeline, World.clock, notices, fresh.history, there₀, new]
  refine ⟨config, canSpawn, w₀.now, fresh.now_le, ?_⟩
  rw [← first]
  exact Run.timeline run there₀

end World
end EventEngine
