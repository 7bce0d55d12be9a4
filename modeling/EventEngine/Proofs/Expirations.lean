import EventEngine.Proofs.TimeoutSettings
import EventEngine.Time.Calendar

/-!
# Expirations

A timeout tells the wall time of its deadline. It is computed when the alarm fires, by taking the
lateness off the wall time of this moment. An alarm never fires early, so the lateness is what has
passed since the deadline, and as long as wall times have calendar dates it can be taken off.
-/
namespace EventEngine

namespace WallTime

variable {deadline now : Instant} {zero : WallTime}

instance : LE WallTime := ⟨fun a b => a.nanos ≤ b.nanos⟩
instance (a b : WallTime) : Decidable (a ≤ b) := inferInstanceAs (Decidable (a.nanos ≤ b.nanos))

/-- The last wall time that has a calendar date: the end of the year 262142. -/
def latest : WallTime := ⟨8210266876799 * 1000000000 + 999999999⟩

example : latest.text = "262142-12-31T23:59:59.999999999Z" := by cbv

/-- A lateness as a span that can be taken off a wall time, if it is not too long. -/
def span? (late : Duration) : Option Duration :=
  if late.nanos ≤ maxLateness.nanos then some late else none

/-- The wall time a span earlier, if there is one. -/
def minus? (t : WallTime) (span : Duration) : Option WallTime :=
  if span.nanos ≤ t.nanos then some ⟨t.nanos - span.nanos⟩ else none

/-- The wall time of `deadline`, seen at `now` when it is `wall`, step by step: the lateness as a
span, or no span if it is too long, is taken off. -/
def project? (deadline now : Instant) (wall : WallTime) : Option WallTime :=
  wall.minus? ((span? (now.since deadline)).getD ⟨0⟩)

/-- This is how expirations are computed. -/
theorem project?_ofInstant (deadline now : Instant) (zero : WallTime) :
    project? deadline now (ofInstant now zero) = some (ofDeadline deadline now zero) := by
  have lateness : ((span? (now.since deadline)).getD ⟨0⟩).nanos =
      if (now.since deadline).nanos ≤ maxLateness.nanos then (now.since deadline).nanos else 0 := by
    unfold span?
    split <;> rfl
  have fits : ((span? (now.since deadline)).getD ⟨0⟩).nanos ≤ (ofInstant now zero).nanos := by
    have le : (now.since deadline).nanos ≤ now.nanos := Nat.sub_le ..
    have passed : now.nanos ≤ (ofInstant now zero).nanos := Nat.le_add_left ..
    rw [lateness]
    split
    · exact Nat.le_trans le passed
    · exact Nat.zero_le _
  rw [project?, minus?, if_pos fits, lateness]
  rfl

/-- No lateness is too long as long as wall times have calendar dates. -/
theorem span?_of_le_latest (deadline : Instant) (inRange : ofInstant now zero ≤ latest) :
    span? (now.since deadline) = some (now.since deadline) := by
  refine if_pos ?_
  calc (now.since deadline).nanos ≤ now.nanos := Nat.sub_le ..
    _ ≤ (ofInstant now zero).nanos := Nat.le_add_left ..
    _ ≤ latest.nanos := inRange
    _ ≤ maxLateness.nanos := by decide

/-- The wall time of a deadline that has come is exact, however long ago that was. -/
theorem project?_of_come (come : deadline ≤ now) (inRange : ofInstant now zero ≤ latest) :
    project? deadline now (ofInstant now zero) = some (ofInstant deadline zero) := by
  rw [Instant.le_def] at come
  have fits : (now.since deadline).nanos ≤ (ofInstant now zero).nanos :=
    Nat.le_trans (Nat.sub_le ..) (Nat.le_add_left ..)
  have exact :
      (ofInstant now zero).nanos - (now.since deadline).nanos = zero.nanos + deadline.nanos := by
    simp only [ofInstant, Instant.since]
    omega
  rw [project?, span?_of_le_latest deadline inRange, Option.getD_some, minus?, if_pos fits, exact]
  rfl

theorem ofDeadline_of_come (come : deadline ≤ now) (inRange : ofInstant now zero ≤ latest) :
    ofDeadline deadline now zero = ofInstant deadline zero := by
  have projected := project?_ofInstant deadline now zero
  rw [project?_of_come come inRange] at projected
  exact (Option.some.inj projected).symm

end WallTime

/-! ## Nothing fires early -/

namespace Timeline

variable {α : Type} {t u : Timeline α} {f : Firing α}

/-- In a step nothing is taken to be fired but what is due. -/
theorem Next.taken_cases (step : Next t u) (member : f ∈ u.clock.taken) :
    f ∈ t.clock.taken ∨ ∃ a ∈ t.clock.alarms.due t.now, f = a.firing := by
  have kept : Tended t u → f ∈ t.clock.taken := fun tended => tended.fires.1 ▸ member
  cases step with
  | idle idle =>
    cases idle with
    | advance d => exact .inl (kept (.advance t d))
    | start started => exact .inl (kept (.start started))
    | stop => exact .inl (kept (.stop t))
    | move serves => exact Clock.mem_taken_move serves member
    | panic generation =>
      obtain ⟨timer, there, batch⟩ := Clock.mem_taken.mp member
      exact .inl (Clock.mem_taken.mpr ⟨timer, (List.mem_filter.mp there).1, batch⟩)
  | addOnce callback deadline => exact .inl (kept (.addOnce t callback deadline))
  | addPeriodic callback period => exact .inl (kept (.addPeriodic t callback period))
  | remove id => exact .inl (kept (.remove t id))

/-- The deadline of what is to be fired has come. -/
theorem Reachable.come (reach : Reachable t) : ∀ f ∈ t.clock.taken, f.deadline ≤ t.now := by
  refine reach.induct (P := fun t => ∀ f ∈ t.clock.taken, f.deadline ≤ t.now) ?_ ?_
  · intro config canSpawn now _ f member
    cases member
  · intro t u reach come step f member
    refine Nat.le_trans ?_ (step.now_le reach.now_le).1
    rcases step.taken_cases member with earlier | ⟨a, due, rfl⟩
    · exact come f earlier
    · exact ((Schedule.mem_due_iff reach.sound.sorted).mp due).2

end Timeline

namespace World

open WallTime (ofInstant latest span? project?)

variable {π : Type} {h : HandlerId} {u v w : World π} {record : Record π} {setup : TimeoutSetup π}
  {e : TimeoutEvent}

/-- A timeout is queued when its deadline has come. -/
theorem Fires.come (fires : Fires h setup e record u v) (reach : Reachable u) :
    e.deadline ≤ u.now := by
  obtain ⟨c, generation, f, moved, next, -, rfl⟩ := fires.fired
  obtain ⟨timer, ready, fired⟩ := Clock.nextFiring?_eq_some.mp next
  have member := (Clock.thread?_eq_some ready).1
  exact (reach.timeline (lt_length_of_thread member)).come f
    (Clock.mem_taken_of_fires member fired)

/-! ## Wall time and monotonic time -/

theorem wallStart_setHolder (w : World π) (lock : Option LockId) (who : Option Caller) :
    (w.setHolder lock who).wallStart = w.wallStart := by
  cases lock <;> rfl

theorem wallStart_leave (w : World π) (g : HandlerId) (x : Handler π) :
    (w.leave g x).wallStart = w.wallStart := by
  unfold leave
  split
  · dsimp only
    split <;> rfl
  · rfl

theorem wallStart_disarmTimeout {g : HandlerId} {x : Handler π} {c : Option ClockId} :
    (w.disarmTimeout g x c).wallStart = w.wallStart := by
  unfold disarmTimeout
  split
  · rfl
  · split <;> rfl

theorem wallStart_requestStop {g : HandlerId} {x : Handler π} (who : Caller) (destroys : Bool) :
    (w.requestStop who g x destroys).1.wallStart = w.wallStart := by
  unfold requestStop
  split
  · split <;> exact wallStart_disarmTimeout
  · rfl

theorem wallStart_installs {g : HandlerId} {x : Handler π} {c : ClockId}
    (installs : Installs w g x c v) : v.wallStart = w.wallStart := by
  have armed : (w.armed g x c).wallStart = w.wallStart := by
    unfold armed armTimeout
    split <;> rfl
  cases installs with
  | running _ => rfl
  | launched _ _ => exact armed
  | refused _ _ => exact wallStart_disarmTimeout.trans armed
  | crashed _ _ => exact armed

theorem Effect.wallStart {who : Caller} (effect : Effect v who w) : w.wallStart = v.wallStart := by
  cases effect with
  | @start g x found =>
    have started := starts found
    generalize (v.start g x).1 = w at started
    cases started with
    | failed _ => rfl
    | opened _ installs => exact (wallStart_installs installs).trans rfl
  | @endStart g x c found _ =>
    exact (wallStart_installs (installs (find?_entered found c) c)).trans rfl
  | stop _ _ _ => exact wallStart_requestStop ..
  | _ => rfl

/-- Wall time and monotonic time advance together: what is the wall time at instant zero never
changes. -/
theorem Next.wallStart (step : Next v w) : w.wallStart = v.wallStart := by
  cases step.happening with
  | act before effect after =>
    exact after.wallStart.trans (effect.wallStart.trans before.wallStart)
  | @timer c generation moved =>
    obtain ⟨t, ready, rfl⟩ := moveTimer_eq_some.mp moved
    cases ((v.clock c).move v.now t).2.1 with
    | none => rfl
    | some f =>
      have delivered := delivers (v.ticked c t) f
      simp only [Option.map_some, Option.getD_some]
      generalize (v.ticked c t).deliver f = u at delivered
      cases delivered <;> rfl
  | «begin» _ _ _ same =>
    subst same
    exact wallStart_setHolder ..
  | finish _ _ same =>
    subst same
    exact wallStart_setHolder ..
  | @panic g x record since rest _ _ same =>
    subst same
    unfold panicDispatch
    dsimp only
    split
    · rw [wallStart_leave]
      exact wallStart_setHolder ..
    · exact wallStart_setHolder ..
  | leave _ _ _ same =>
    subst same
    exact wallStart_leave ..
  | lock _ same =>
    subst same
    exact wallStart_setHolder ..
  | unlock _ same =>
    subst same
    exact wallStart_setHolder ..
  | take _ _ _ same | clock _ same =>
    subst same
    rfl

theorem Run.wallStart (run : Run v w) : w.wallStart = v.wallStart := by
  induction run with
  | refl => rfl
  | tail _ step ih => exact step.wallStart.trans ih

theorem Run.now_le (run : Run v w) (reach : Reachable v) : v.now ≤ w.now := by
  induction run with
  | refl => exact Nat.le_refl _
  | tail before step ih => exact Nat.le_trans ih (step.now_le (reach.run before).now_le).1

theorem Fires.next (fires : Fires h setup e record u v) : Next u v := by
  obtain ⟨_, _, _, moved, -⟩ := fires.fired
  exact .timer moved

theorem Fires.expiration (fires : Fires h setup e record u v) :
    e.expiration = .ofDeadline e.deadline u.now u.wallStart := by
  obtain ⟨-, -, f, -, -, -, rfl⟩ := fires.fired
  rfl

/-- A timeout of the list has been queued in some record. -/
theorem mem_expiries (queued : e ∈ w.expiries h) : ∃ record setup,
    record.body = .timeout setup e ∧ record ∈ Occurrence.accepted (w.story h) := by
  obtain ⟨o, member, timeout⟩ := List.mem_filterMap.mp queued
  unfold Occurrence.expiry? at timeout
  split at timeout
  · next serial setup _ =>
    obtain rfl := Option.some.inj timeout
    exact ⟨_, setup, rfl, List.mem_filterMap.mpr ⟨_, member, rfl⟩⟩
  · cases timeout

/-- Every timeout that is ever queued was queued when its alarm fired, at its deadline or later. As
long as the wall time of this moment has a calendar date, its expiration is the wall time of its
deadline, to the nanosecond and however late that was, and so not after the firing. This does not
depend on when wall times begin: wherever they do, the lateness is a span, it can be taken off, and
what is left is the wall time of the deadline. -/
theorem expiration_is_wall_time_of_deadline (reach : Reachable w) (queued : e ∈ w.expiries h) :
    ∃ setup record u v, Reachable u ∧ Fires h setup e record u v ∧ Run v w ∧
      e.deadline ≤ u.now ∧ u.now ≤ w.now ∧ u.wallStart = w.wallStart ∧
      project? e.deadline u.now (ofInstant u.now u.wallStart) = some e.expiration ∧
      (ofInstant u.now u.wallStart ≤ latest →
        e.expiration = ofInstant e.deadline u.wallStart ∧
        e.expiration ≤ ofInstant u.now u.wallStart) ∧
      ∀ zero : WallTime, ofInstant u.now zero ≤ latest →
        span? (u.now.since e.deadline) = some (u.now.since e.deadline) ∧
        project? e.deadline u.now (ofInstant u.now zero) = some (ofInstant e.deadline zero) := by
  obtain ⟨record, setup, timeout, accepted⟩ := mem_expiries queued
  obtain ⟨u, v, reach', fires, run⟩ := fires_of_accepted reach timeout accepted
  have come := fires.come reach'
  have rest : Run u w := .head fires.next run
  refine ⟨setup, record, u, v, reach', fires, run, come, rest.now_le reach',
    rest.wallStart.symm, ?_, fun inRange => ?_, fun zero inRange => ⟨?_, ?_⟩⟩
  · rw [WallTime.project?_ofInstant, fires.expiration]
  · have exact : e.expiration = ofInstant e.deadline u.wallStart :=
      fires.expiration.trans (WallTime.ofDeadline_of_come come inRange)
    exact ⟨exact, exact ▸ Nat.add_le_add_left come _⟩
  · exact WallTime.span?_of_le_latest _ inRange
  · exact WallTime.project?_of_come come inRange

/-- A timeout every second, on a clock that stands still from the start of the handler until 5.5 s.
The first deadline is the only one that is not skipped, and it expires on time. -/
theorem late_timeout_expires_on_time :
    let w := (single Nat).steps 20 [.act (.setTimeout 0 (.ofParts 1 0) 0 []), .act (.start 0),
      .stopClock 0, .act (.advance (.ofParts 5 500000000)), .startClock 0]
    ∃ e, w.expiries 0 = [e] ∧ e.deadline = .ofParts 1 0 ∧
      w.now.since e.deadline = .ofParts 4 500000000 ∧ e.expiration = ⟨1700000001 * 1000000000⟩ := by
  intro w
  have reach : Reachable w := single_fresh.reachable.steps 20 _
  have deadlines : (w.expiries 0).map (·.deadline) = [.ofParts 1 0] := by decide +kernel
  obtain ⟨e, single, deadline⟩ := List.map_eq_singleton_iff.mp deadlines
  have queued : e ∈ w.expiries 0 := single ▸ List.mem_singleton_self e
  obtain ⟨_, _, u, v, -, -, -, -, le, zero, -, exact, -⟩ :=
    expiration_is_wall_time_of_deadline reach queued
  have now : w.now = .ofParts 5 500000000 := by decide +kernel
  have start : w.wallStart = .atStart := by decide +kernel
  rw [zero, start] at exact
  have inRange : ofInstant u.now ≤ latest := by
    have end_inRange : ofInstant w.now ≤ latest := by rw [now]; decide
    exact Nat.le_trans (Nat.add_le_add_left le _) end_inRange
  refine ⟨e, single, deadline, by rw [now, deadline]; decide, ?_⟩
  rw [(exact inRange).1, deadline]
  decide

end World
end EventEngine
