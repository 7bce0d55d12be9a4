import EventEngine.Proofs.Clocks.Firings
import EventEngine.Proofs.Expiry
import EventEngine.Proofs.OneAlarm

/-!
# Timeouts on the grid

The start of a worker registers a periodic alarm, and each firing of it queues a timeout as long as
it stays registered. The timeouts that it has queued are of batches that contain the alarm: each
batch gives at most one, and nothing else gives any. So they keep to the grid that begins with the
start, whatever else happens to the clock. They are queued in the order of their batches as long as
no two threads of the clock have a firing of the alarm in hand and no callback panics before the
rest of its batch. A callback that stops its own clock and starts it again can bring two threads
about, since its thread then fires its batch to the end.
-/
namespace EventEngine

variable {π : Type}

namespace Occurrence

def expiry? : Occurrence π → Option TimeoutEvent
  | enqueued _ _ ⟨_, .timeout _ e⟩ => some e
  | _ => none

theorem expiry?_eq_none {o : Occurrence π} (other : ¬ o.isTimeout = true) : o.expiry? = none := by
  unfold expiry?
  split
  · exact absurd rfl other
  · rfl

theorem isSome_expiry? (o : Occurrence π) : o.expiry?.isSome = o.isTimeout := by
  cases o with
  | enqueued g place record => obtain ⟨serial, _ | _⟩ := record <;> rfl
  | _ => rfl

end Occurrence

namespace World

variable {h g : HandlerId} {c : ClockId} {id : AlarmId} {u v w : World π} {x : Handler π}

/-- The timeouts that have been queued on handler `h`, in order. -/
def expiries (w : World π) (h : HandlerId) : List TimeoutEvent :=
  (w.story h).reverse.filterMap Occurrence.expiry?

theorem length_expiries (w : World π) (h : HandlerId) :
    (w.expiries h).length = w.timeouts h := by
  rw [expiries, List.length_filterMap_eq_countP, List.countP_reverse,
    funext Occurrence.isSome_expiry?, timeouts]

theorem expiries_append {notes : List (Occurrence π)} (told : w.story h = notes ++ v.story h) :
    w.expiries h = v.expiries h ++ notes.reverse.filterMap Occurrence.expiry? := by
  rw [expiries, told, List.reverse_append, List.filterMap_append, expiries]

theorem expiries_congr (told : w.story h = v.story h) : w.expiries h = v.expiries h := by
  rw [expiries, told, expiries]

theorem Evolves.expiries_append (evolves : Evolves h v w) :
    ∃ new, w.expiries h = v.expiries h ++ new := by
  rcases evolves with still | ⟨_, notes, _, -, -, -, told⟩
  · exact ⟨[], by rw [expiries_congr still.2, List.append_nil]⟩
  · exact ⟨_, World.expiries_append told⟩

theorem Evolves.expiries (evolves : Evolves h v w) (timeouts : w.timeouts h = v.timeouts h) :
    w.expiries h = v.expiries h := by
  rcases evolves with still | ⟨_, notes, _, -, -, -, told⟩
  · exact expiries_congr still.2
  · have unheard : notes.countP Occurrence.isTimeout = 0 := by
      rw [World.timeouts, told, List.countP_append, World.timeouts] at timeouts
      omega
    rw [World.expiries_append told, List.filterMap_eq_nil_iff.mpr, List.append_nil]
    intro o member
    exact Occurrence.expiry?_eq_none (List.countP_eq_zero.mp unheard o (List.mem_reverse.mp member))

/-! ## Starts of workers -/

/-- What the start of a worker does to the clock that its handler uses: a periodic alarm is added
and registered. -/
structure Arms (h : HandlerId) (c : ClockId) (p : Duration) (v w : World π) : Prop where
  now : w.now = v.now
  registered : w.registered? h = some (v.clock c).nextId
  nextId : (w.clock c).nextId = (v.clock c).nextId + 1
  alarms (a : Alarm AlarmOwner) : a ∈ (w.clock c).alarms ↔ a ∈ (v.clock c).alarms ∨
    a = ⟨(v.clock c).nextId, v.now.deadlineAfter p, some p, .handler h⟩
  taken : (w.clock c).taken = (v.clock c).taken
  batches (id : AlarmId) : (w.timeline c).batches id = (v.timeline c).batches id

theorem alarms_comes {t : World π} {y : Handler π} (comes : Comes t h c y u) (c' : ClockId) :
    (u.clock c').alarms = (t.clock c').alarms := by
  cases comes with
  | atOnce _ _ started => exact alarms_adopted started
  | later _ _ => rfl

theorem tends_comes {t : World π} {y : Handler π} {c' : ClockId} (there : c' < t.clocks.length)
    (comes : Comes t h c y u) : Tends c' t u := by
  cases comes with
  | atOnce _ _ started => exact tends_adopted there started
  | later _ _ => exact Tends.refl.modify

/-- What the handler knows of its alarm once a start has come to the making of a worker. -/
theorem Launches.bond? (launched : Launches w h x c v) (hx : w.handlers[h]? = some x) :
    v.bond? h = some ((x.timeout.map fun _ => (w.clock c).nextId).or x.timeoutAlarm, x.clock) := by
  rw [← bond?_armed hx]
  cases launched with
  | launched _ _ => exact bond?_modify fun _ => rfl
  | crashed _ _ => rfl

/-- The start of a worker adds its alarm to the clock that the handler uses, or used when the start
began. Where no start is in progress on another clock, the handler keeps this one. -/
theorem Next.arms {setup : TimeoutSetup π} (step : Next v w)
    (launched : w.launches h ≠ v.launches h) (hx : v.handlers[h]? = some x)
    (timeout : x.timeout = some setup) :
    ∃ c, (x.clock.getD sharedClock = c ∨ c ∈ x.starts) ∧
      (c < v.clocks.length → Arms h c (Alarm.clampPeriod setup.interval) v w) ∧
      (x.OnClock → ∀ z, w.handlers[h]? = some z → z.clock = some c) := by
  obtain ⟨t, c, y, u, w', before, comes, launches, after⟩ := step.launch launched
  obtain ⟨x', _, _, found, -, made⟩ := comes.handler
  -- the handler differs at most in its clock, in pending starts and in how far a script has got
  have same : x'.outline = x.outline :=
    Option.some.inj ((outline?_eq_some.mpr ⟨x', (find?_eq_some.mp found).1, rfl⟩).symm.trans
      ((before.still h).1.trans (outline?_eq_some.mpr ⟨x, hx, rfl⟩)))
  have timeout : y.timeout = some setup := by
    rw [made]
    exact (congrArg (·.timeout) same).trans timeout
  have clock : x'.clock = x.clock := congrArg (·.clock) same
  have starts : x'.starts = x.starts := congrArg (·.starts) same
  refine ⟨c, ?_, fun there => ?_, fun onClock z hz => ?_⟩
  · obtain ⟨z, found', uses⟩ := comes.clock
    obtain rfl := Option.some.inj (found'.symm.trans found)
    exact clock ▸ starts ▸ uses
  · have there_t : c < t.clocks.length := by rwa [before.clocks]
    have ticks : Ticks Clock.NoAlarm t u := comes.ticks
    have there_u : c < u.clocks.length := ticks.length ▸ there_t
    have issued : (u.clock c).nextId = (v.clock c).nextId := by
      rw [comes.nextId, before.clock]
    have clock : w.clock c = (u.armed h y c).clock c := by
      rw [after.clock, clock_congr launches.clocks]
    have tends : Tends c v w :=
      (tends_of_eq before.timeline).trans ((tends_comes there_t comes).trans
        ((tends_installs there_u launches.installs).trans (tends_of_eq after.timeline)))
    obtain ⟨taken, batches⟩ := Timeline.fires_of_tended tends
    refine ⟨?_, ?_, ?_, fun a => ?_, taken, batches⟩
    · rw [after.now, now_installs launches.installs, comes.now, before.now]
    · rw [(after.still h).registered?, launches.registered? comes.found, ← issued]
      simp [timeout]
    · rw [clock, clock_armed timeout there_u, ← issued]
      rfl
    · rw [clock, mem_alarms_armed_iff there_u, issued]
      simp [timeout, newAlarm, comes.now, before.now, alarms_comes comes, before.clock]
  · obtain ⟨z', hz', outlined⟩ := outline?_eq_some.mp
      ((after.still h).1.symm.trans (outline?_eq_some.mpr ⟨z, hz, rfl⟩))
    have kept : z'.clock = z.clock := congrArg (·.clock) outlined
    have bond := launches.bond? (find?_eq_some.mp comes.found).1
    rw [bond?_eq hz', Option.some.injEq] at bond
    rw [← kept, (Prod.mk.inj bond).2]
    cases comes with
    | atOnce _ uses _ => exact congrArg some uses
    | later found' pending =>
      obtain rfl := Option.some.inj (found'.symm.trans found)
      exact clock.trans (onClock c (starts ▸ pending))

/-- What a clock has taken, it has issued before. -/
theorem Reachable.taken_lt (reach : Reachable w) {f : Firing AlarmOwner}
    (member : f ∈ (w.clock c).taken) : f.id < (w.clock c).nextId :=
  (reach.settled c f.id f.callback (.inr ⟨f, member, rfl, rfl⟩)).1.1

/-- The alarm that a start registers is on the grid that begins with the start. -/
theorem Arms.gridded {p : Duration} (arms : Arms h c p v w) (reach : Reachable v)
    (there : c < v.clocks.length) :
    Timeline.Gridded v.now p (v.clock c).nextId (w.timeline c) := by
  have untaken : (w.timeline c).batches (v.clock c).nextId = [] :=
    (arms.batches _).trans ((reach.timeline there).batches_eq_nil (Nat.le_refl _))
  have new : ∀ a ∈ (w.clock c).alarms, a.id = (v.clock c).nextId →
      a = ⟨(v.clock c).nextId, v.now.deadlineAfter p, some p, .handler h⟩ := by
    intro a member named
    rcases (arms.alarms a).mp member with earlier | same
    · exact absurd named (Nat.ne_of_lt ((reach.sound c).ids a earlier))
    · exact same
  refine ⟨Nat.le_of_eq (congrArg _ arms.now.symm), ?_, ?_, ?_, ?_, ?_⟩
  · exact arms.nextId ▸ Nat.lt_succ_self _
  · rw [untaken]
    exact nofun
  · intro a member named
    rw [new a member named]
  · rw [untaken]
    exact fun _ => OnGrid.nil
  · rw [untaken]
    intro _ fits a member named
    rw [new a member named]
    have first := Instant.deadlineAfter_gridPoint fits
    simpa [Instant.gridPoint] using first

/-! ## Timeouts of one clock -/

variable {ok : World π → World π → Prop}

/-- A run in which no worker of `h` is started, by steps for which `ok` holds, with the timeouts
that the timer threads of clock `c` queue on `h`, in order. -/
inductive Expires (c : ClockId) (h : HandlerId) (ok : World π → World π → Prop) (w : World π) :
    List TimeoutEvent → World π → Prop where
  | refl : Expires c h ok w [] w
  | timer {es new : List TimeoutEvent} {u v : World π} {generation : Nat} :
      Expires c h ok w es u → ok u v → u.moveTimer c generation = some v →
      v.expiries h = u.expiries h ++ new → Expires c h ok w (es ++ new) v
  | other {es : List TimeoutEvent} {u v : World π} : Expires c h ok w es u → ok u v → Next u v →
      (∀ generation, u.moveTimer c generation ≠ some v) → v.launches h = u.launches h →
      Expires c h ok w es v

theorem Expires.run {es : List TimeoutEvent} (expires : Expires c h ok w es u) : Run w u := by
  induction expires with
  | refl => exact .refl
  | timer _ _ moved _ ih => exact ih.tail (.timer moved)
  | other _ _ step _ _ ih => exact ih.tail step

/-- Every run without a start of the worker is one of these. -/
theorem expires_of_run (run : Relation.ReflTransGen (fun u v => ok u v ∧ Next u v) w u)
    (launches : u.launches h = w.launches h) (c : ClockId) : ∃ es, Expires c h ok w es u := by
  induction run with
  | refl => exact ⟨[], .refl⟩
  | @tail u v before step ih =>
    obtain ⟨fine, step⟩ := step
    have run : Run w u := Relation.ReflTransGen.mono (fun _ _ => And.right) _ _ before
    have le := Run.launches_le (h := h) run
    have le' := (step.evolves h).launches_le
    obtain ⟨es, expires⟩ := ih (by omega)
    by_cases moved : ∃ generation, u.moveTimer c generation = some v
    · obtain ⟨generation, moved⟩ := moved
      obtain ⟨new, more⟩ := (step.evolves h).expiries_append
      exact ⟨_, .timer expires fine moved more⟩
    · exact ⟨es, .other expires fine step (not_exists.mp moved) (by omega)⟩

/-! ## Timeouts and batches -/

/-- What a move of a timer thread queues on `h`: nothing, or one timeout of the alarm that `h` has
registered. -/
theorem expiries_moveTimer (reach : Reachable u) {generation : Nat}
    (moved : u.moveTimer c generation = some v)
    {t : Timer AlarmOwner} (ready : (u.clock c).thread? u.now generation = some t) :
    (v.expiries h = u.expiries h ∧ ∀ f, ((u.clock c).move u.now t).2.1 = some f →
      ¬ (f.callback = .handler h ∧ u.registered? h = some f.id)) ∨
    ∃ f, ((u.clock c).move u.now t).2.1 = some f ∧ f.callback = .handler h ∧
      u.registered? h = some f.id ∧ v.expiries h = u.expiries h ++
        [⟨f.id, f.deadline, .ofDeadline f.deadline u.now u.wallStart⟩] := by
  obtain ⟨t', ready', rfl⟩ := moveTimer_eq_some.mp moved
  obtain rfl := Option.some.inj (ready.symm.trans ready')
  have ticked : (u.ticked c t).story h = u.story h := story_setClock ..
  cases fires : ((u.clock c).move u.now t).2.1 with
  | none => exact .inl ⟨expiries_congr ticked, nofun⟩
  | some f =>
    by_cases own : f.callback = .handler h ∧ u.registered? h = some f.id
    · obtain ⟨callback, registered⟩ := own
      obtain ⟨x, setup, queued⟩ := deliver_of_registered reach
        (rfl : (u.ticked c t).handlers[h]? = u.handlers[h]?) callback registered
      refine .inr ⟨f, rfl, callback, registered, ?_⟩
      have told : ((u.ticked c t).deliver f).story h = [.enqueued h .head (x.nextRecord (.timeout
          setup ⟨f.id, f.deadline, .ofDeadline f.deadline u.now u.wallStart⟩))] ++ u.story h := by
        rw [queued, enqueue, story_note_self rfl, story_modify, ticked]
        rfl
      exact expiries_append told
    · refine .inl ⟨?_, ?_⟩
      · rcases deliver_cases (u.ticked c t) f with ⟨-, told⟩ | hit
        · exact expiries_congr (told.trans ticked)
        · exact absurd hit own
      · intro f' same
        obtain rfl := Option.some.inj same
        exact own

/-- The timeouts that clock `c` has queued on `h` are of batches with the alarm `id`, one of each,
and so is what is still to be fired of the alarm. -/
structure Follows (c : ClockId) (h : HandlerId) (id : AlarmId) (es : List TimeoutEvent)
    (u : World π) : Prop where
  sole : (u.clock c).Sole id (.handler h)
  only : ∀ id', u.registered? h = some id' → id' = id
  alarms : ∀ e ∈ es, e.alarm = id
  within :
    (es.map (·.deadline) ++ (u.clock c).pending id).Subperm (((u.timeline c).batches id).map (·.2))

theorem Follows.among {es : List TimeoutEvent} (follows : Follows c h id es u) :
    (es.map (·.deadline)).Subperm (((u.timeline c).batches id).map (·.2)) :=
  (List.sublist_append_left _ _).subperm.trans follows.within

/-- The timeouts have come in the order of the batches. As long as the alarm is registered, only
those are missing that are still to be fired. -/
structure InOrder (c : ClockId) (h : HandlerId) (id : AlarmId) (es : List TimeoutEvent)
    (u : World π) : Prop where
  first : es.map (·.deadline) <+: ((u.timeline c).batches id).map (·.2)
  rest : u.registered? h = some id →
    es.map (·.deadline) ++ (u.clock c).pending id = ((u.timeline c).batches id).map (·.2)

/-- A callback panics, and its thread has taken more than it has fired. -/
def Loses (c : ClockId) (u v : World π) : Prop :=
  ∃ t ∈ (u.clock c).timers, t.phase.batch ≠ [] ∧ v = u.panicTimer c t.generation

/-- No two timer threads of the clock have a firing of the alarm in hand, and no callback panics
before the rest of its batch. -/
structure Smooth (c : ClockId) (id : AlarmId) (u v : World π) : Prop where
  alone : ((u.clock c).pending id).length ≤ 1
  lossless : ¬ Loses c u v

/-- What a move queues on `h` is what it fires of the alarm, if the alarm is registered. -/
theorem Follows.queues {es new : List TimeoutEvent} (reach : Reachable u)
    (follows : Follows c h id es u) {generation : Nat}
    (moved : u.moveTimer c generation = some v) (more : v.expiries h = u.expiries h ++ new)
    {t : Timer AlarmOwner} (ready : (u.clock c).thread? u.now generation = some t) :
    (∀ e ∈ new, e.alarm = id) ∧ (u.registered? h ≠ some id → new = []) ∧
    (u.registered? h = some id → new.map (·.deadline) =
      Clock.deadlinesOf id ((u.clock c).move u.now t).2.1.toList) := by
  rcases expiries_moveTimer (h := h) reach moved ready with
    ⟨same, silent⟩ | ⟨f, fires, callback, registered, told⟩
  · obtain rfl : new = [] := List.append_right_eq_self.mp (more.symm.trans same)
    refine ⟨nofun, fun _ => rfl, fun registered => ?_⟩
    cases fires : ((u.clock c).move u.now t).2.1 with
    | none => rfl
    | some f =>
      -- an alarm with this id is the handler's own, and would have queued a timeout
      have other : f.id ≠ id := by
        rintro rfl
        have taken := Clock.mem_taken_of_fires (Clock.thread?_eq_some ready).1 fires
        exact silent f fires ⟨follows.sole.2 f taken rfl, registered⟩
      simp [Clock.deadlinesOf, other]
  · obtain rfl := List.append_cancel_left (more.symm.trans told)
    have named : f.id = id := follows.only _ registered
    refine ⟨by simp [named], fun other => absurd (named ▸ registered) other, fun _ => ?_⟩
    simp [fires, Clock.deadlinesOf, named]

/-- How a move of a timer thread of the clock changes what is queued, what is still to be fired and
what has been taken of the alarm. -/
inductive Shifts (c : ClockId) (h : HandlerId) (id : AlarmId) (new : List TimeoutEvent)
    (u v : World π) : Prop where
  | fires {front fired back : List Instant} :
      (v.timeline c).batches id = (u.timeline c).batches id →
      (u.clock c).pending id = front ++ fired ++ back → (v.clock c).pending id = front ++ back →
      (u.registered? h ≠ some id → new = []) →
      (u.registered? h = some id → new.map (·.deadline) = fired) → Shifts c h id new u v
  | takes {entries : List (Instant × Instant)} : new = [] →
      (v.timeline c).batches id = (u.timeline c).batches id ++ entries →
      (v.clock c).pending id = (u.clock c).pending id ++ entries.map (·.2) → Shifts c h id new u v

theorem Follows.shifts {es new : List TimeoutEvent} (reach : Reachable u)
    (there : c < u.clocks.length) (follows : Follows c h id es u) {generation : Nat}
    (moved : u.moveTimer c generation = some v) (more : v.expiries h = u.expiries h ++ new) :
    (∀ e ∈ new, e.alarm = id) ∧ Shifts c h id new u v := by
  obtain ⟨t, ready, timeline⟩ := timeline_moveTimer there moved
  rw [if_pos rfl] at timeline
  obtain ⟨alarms, silent, queued⟩ := follows.queues reach moved more ready
  have shifted := Timeline.move_fires (reach.timeline there) (Clock.thread?_eq_some ready).1 id
  rw [← timeline] at shifted
  refine ⟨alarms, ?_⟩
  rcases shifted with ⟨batches, front, back, before, after⟩ | ⟨idle, -, entries, -, batches, after⟩
  · exact .fires batches before after silent queued
  · refine .takes ?_ batches after
    by_cases registered : u.registered? h = some id
    · have nothing : ((u.clock c).move u.now t).2.1 = none := idle
      simpa [nothing, Clock.deadlinesOf] using queued registered
    · exact silent registered

/-- A move of a timer thread of the clock. -/
theorem Follows.timer {es new : List TimeoutEvent} (reach : Reachable u)
    (there : c < u.clocks.length) (follows : Follows c h id es u) {generation : Nat}
    (moved : u.moveTimer c generation = some v)
    (more : v.expiries h = u.expiries h ++ new) : Follows c h id (es ++ new) v := by
  have ticks : Ticks Clock.NoAlarm u v := ticks_moveTimer moved
  have kept : ∀ id', v.registered? h = some id' → u.registered? h = some id' := fun _ =>
    (Next.evolves (.timer moved) h).registered (bides_moveTimer moved).launches
  obtain ⟨alarms, shifts⟩ := follows.shifts reach there moved more
  refine ⟨(ticks.steps c).sole follows.sole, fun id' held => follows.only id' (kept id' held), ?_,
    ?_⟩
  · intro e member
    rcases List.mem_append.mp member with earlier | member
    · exact follows.alarms e earlier
    · exact alarms e member
  have within := follows.within
  rw [List.map_append, List.append_assoc]
  cases shifts with
  | @fires front fired back batches before after silent queued =>
    have part : (new.map (·.deadline)).Sublist fired := by
      by_cases registered : u.registered? h = some id
      · rw [queued registered]
      · rw [silent registered]
        exact List.nil_sublist _
    rw [before, List.append_assoc] at within
    rw [batches, after]
    -- what is queued moves to the front, and the rest of what is fired is dropped
    have moves : (new.map (·.deadline) ++ (front ++ back)).Subperm (front ++ (fired ++ back)) :=
      (List.perm_append_comm_assoc ..).subperm.trans
        ((part.append_right back).append_left front).subperm
    exact ((List.subperm_append_left _).mpr moves).trans within
  | takes silent batches after =>
    subst silent
    rw [batches, after, List.map_append, List.map_nil, List.nil_append, ← List.append_assoc]
    exact (List.subperm_append_right _).mpr within

/-- Where at most one firing of the alarm is in hand, what is fired of it is all that there is. -/
theorem InOrder.timer {es new : List TimeoutEvent} (reach : Reachable u)
    (there : c < u.clocks.length) (follows : Follows c h id es u) (inOrder : InOrder c h id es u)
    (alone : ((u.clock c).pending id).length ≤ 1) {generation : Nat} (moved : u.moveTimer c generation = some v)
    (more : v.expiries h = u.expiries h ++ new) : InOrder c h id (es ++ new) v := by
  have kept : v.registered? h = some id → u.registered? h = some id :=
    (Next.evolves (.timer moved) h).registered (bides_moveTimer moved).launches
  obtain ⟨-, shifts⟩ := follows.shifts reach there moved more
  have balance : u.registered? h = some id →
      (es ++ new).map (·.deadline) ++ (v.clock c).pending id =
        ((v.timeline c).batches id).map (·.2) := by
    intro registered
    have rest := inOrder.rest registered
    rw [List.map_append, List.append_assoc]
    cases shifts with
    | @fires front fired back batches before after _ queued =>
      rw [← queued registered] at before
      rw [batches, after, ← rest, before]
      have few : (front ++ new.map (·.deadline) ++ back).length ≤ 1 := before ▸ alone
      congr 1
      cases front with
      | nil => rfl
      | cons d front =>
        have none : new = [] := by
          have one : new.length = 0 := by
            simp only [List.length_append, List.length_cons, List.length_map] at few
            omega
          exact List.eq_nil_of_length_eq_zero one
        simp [none]
    | takes silent batches after =>
      subst silent
      rw [batches, after, List.map_append, List.map_nil, List.nil_append, ← List.append_assoc, rest]
  refine ⟨?_, fun registered => balance (kept registered)⟩
  by_cases registered : u.registered? h = some id
  · exact ⟨_, balance registered⟩
  · cases shifts with
    | fires batches _ _ silent _ =>
      rw [silent registered, List.append_nil, batches]
      exact inOrder.first
    | takes silent batches _ =>
      rw [silent, List.append_nil, batches, List.map_append]
      exact inOrder.first.trans (List.prefix_append _ _)

/-- In any other step nothing is taken from the clock's schedule and nothing is fired. What has been
taken is left to be fired, unless a callback panics. -/
theorem Next.untouched (there : c < u.clocks.length) (step : Next u v)
    (elsewhere : ∀ generation, u.moveTimer c generation ≠ some v) :
    (v.clock c).taken.Sublist (u.clock c).taken ∧
      (¬ Loses c u v → (v.clock c).taken = (u.clock c).taken) ∧
      ∀ id, (v.timeline c).batches id = (u.timeline c).batches id := by
  have unused : v.timeline c = u.timeline c → (v.clock c).taken.Sublist (u.clock c).taken ∧
      (¬ Loses c u v → (v.clock c).taken = (u.clock c).taken) ∧
      ∀ id, (v.timeline c).batches id = (u.timeline c).batches id := by
    intro same
    have taken : (v.clock c).taken = (u.clock c).taken := congrArg (·.clock.taken) same
    exact ⟨taken ▸ .refl _, fun _ => taken, fun id => by rw [same]⟩
  rcases step.tends with ⟨c', generation, moved⟩ | ⟨c', generation, rfl⟩ | tends
  · obtain ⟨t, -, same⟩ := timeline_moveTimer there moved
    have ne : c' ≠ c := by
      rintro rfl
      exact elsewhere generation moved
    exact unused (same.trans (if_neg ne))
  · have panics : (u.panicTimer c' generation).timeline c = _ := timeline_panicTimer there generation
    by_cases eq : c' = c
    · subst eq
      rw [if_pos rfl] at panics
      have taken : ((u.panicTimer c' generation).clock c').taken =
          ((u.clock c').dropTimer generation).taken := congrArg (·.clock.taken) panics
      rw [taken]
      refine ⟨Clock.taken_dropTimer _ _, fun lossless => ?_, fun id => by rw [panics]; rfl⟩
      refine Clock.taken_dropTimer_of_fired fun t member same => ?_
      by_contra unfired
      exact lossless ⟨t, member, unfired, by rw [same]⟩
    · exact unused (panics.trans (if_neg eq))
  · obtain ⟨taken, batches⟩ := Timeline.fires_of_tended (tends c there)
    have taken : (v.clock c).taken = (u.clock c).taken := taken
    exact ⟨taken ▸ .refl _, fun _ => taken, batches⟩

theorem Next.pending_sublist (there : c < u.clocks.length) (step : Next u v)
    (elsewhere : ∀ generation, u.moveTimer c generation ≠ some v) :
    ((v.clock c).pending id).Sublist ((u.clock c).pending id) :=
  ((step.untouched there elsewhere).1.filter _).map _

theorem Follows.other {es : List TimeoutEvent} (there : c < u.clocks.length)
    (follows : Follows c h id es u) (step : Next u v)
    (elsewhere : ∀ generation, u.moveTimer c generation ≠ some v)
    (launches : v.launches h = u.launches h) : Follows c h id es v := by
  have kept : ∀ id', v.registered? h = some id' → u.registered? h = some id' := fun _ =>
    (step.evolves h).registered launches
  obtain ⟨-, -, batches⟩ := step.untouched there elsewhere
  refine ⟨(step.ticks.steps c).sole follows.sole,
    fun id' held => follows.only id' (kept id' held), follows.alarms, ?_⟩
  rw [batches]
  exact ((step.pending_sublist there elsewhere).append_left _).subperm.trans follows.within

theorem InOrder.other {es : List TimeoutEvent} (there : c < u.clocks.length)
    (inOrder : InOrder c h id es u) (lossless : ¬ Loses c u v) (step : Next u v)
    (elsewhere : ∀ generation, u.moveTimer c generation ≠ some v)
    (launches : v.launches h = u.launches h) : InOrder c h id es v := by
  obtain ⟨-, taken, batches⟩ := step.untouched there elsewhere
  have taken := taken lossless
  refine ⟨?_, fun registered => ?_⟩
  · rw [batches]
    exact inOrder.first
  · rw [Clock.pending, taken, batches]
    exact inOrder.rest ((step.evolves h).registered launches registered)

theorem Expires.follows {es : List TimeoutEvent} (reach : Reachable w)
    (there : c < w.clocks.length) (start : Follows c h id [] w)
    (expires : Expires c h ok w es u) : Follows c h id es u := by
  induction expires with
  | refl => exact start
  | timer before _ moved more ih =>
    exact ih.timer (reach.run before.run) (by rwa [Run.length_clocks before.run]) moved more
  | other before _ step elsewhere launches ih =>
    exact ih.other (by rwa [Run.length_clocks before.run]) step elsewhere launches

theorem Expires.inOrder {es : List TimeoutEvent} (reach : Reachable w)
    (there : c < w.clocks.length) (start : Follows c h id [] w) (begins : InOrder c h id [] w)
    (expires : Expires c h (Smooth c id) w es u) : InOrder c h id es u := by
  induction expires with
  | refl => exact begins
  | timer before smooth moved more ih =>
    have there' := (Run.length_clocks before.run).symm ▸ there
    exact ih.timer (reach.run before.run) there' (before.follows reach there start) smooth.alone
      moved more
  | other before smooth step elsewhere launches ih =>
    have there' := (Run.length_clocks before.run).symm ▸ there
    exact ih.other there' smooth.lossless step elsewhere launches

/-- A clock that never has two timer threads, and no callback that panics, fires its batches one
after the other. -/
theorem Expires.smooth {es : List TimeoutEvent} (reach : Reachable w) (there : c < w.clocks.length)
    (start : ((w.clock c).pending id).length ≤ 1)
    (expires : Expires c h (fun u v => (u.clock c).timers.length ≤ 1 ∧ ¬ Loses c u v) w es u) :
    Expires c h (Smooth c id) w es u ∧ ((u.clock c).pending id).length ≤ 1 := by
  induction expires with
  | refl => exact ⟨.refl, start⟩
  | @timer es new u v generation before fine moved more ih =>
    obtain ⟨before', alone⟩ := ih
    obtain ⟨one, lossless⟩ := fine
    refine ⟨.timer before' ⟨alone, lossless⟩ moved more, ?_⟩
    have there' : c < u.clocks.length := (Run.length_clocks before.run).symm ▸ there
    obtain ⟨t, ready, timeline⟩ := timeline_moveTimer there' moved
    rw [if_pos rfl] at timeline
    have member := (Clock.thread?_eq_some ready).1
    have shifted := Timeline.move_fires ((reach.run before.run).timeline there') member id
    rw [← timeline] at shifted
    rcases shifted with ⟨-, front, back, earlier, later⟩ | ⟨-, empty, entries, few, -, later⟩
    · have earlier : (u.clock c).pending id = _ := earlier
      have later : (v.clock c).pending id = _ := later
      rw [earlier] at alone
      rw [later]
      simp only [List.length_append] at alone ⊢
      omega
    · -- the only thread has fired all that it has taken
      have only : (u.clock c).timers = [t] := by
        obtain ⟨first, same⟩ := List.length_eq_one_iff.mp
          (Nat.le_antisymm one (List.length_pos_of_mem member))
        rw [same, List.mem_singleton] at member
        rw [same, member]
      have nothing : (u.timeline c).clock.pending id = [] := by
        have taken : (u.clock c).taken = [] := by simp [Clock.taken, only, empty]
        exact congrArg (Clock.deadlinesOf id) taken
      have later : (v.clock c).pending id = _ := later
      rw [later, nothing]
      simpa using few
  | @other es u v before fine step elsewhere launches ih =>
    obtain ⟨before', alone⟩ := ih
    refine ⟨.other before' ⟨alone, fine.2⟩ step elsewhere launches, ?_⟩
    have there' : c < u.clocks.length := (Run.length_clocks before.run).symm ▸ there
    exact Nat.le_trans (step.pending_sublist there' elsewhere).length_le alone

/-! ## Timeouts of other clocks -/

/-- A step in which no timer thread moves queues no timeout. -/
theorem Next.expiries (step : Next u v)
    (still : ∀ c generation, u.moveTimer c generation ≠ some v) :
    v.expiries h = u.expiries h := by
  cases step.use with
  | act act => exact (step.evolves h).expiries act.timeouts
  | timer moved => exact absurd moved (still _ _)
  | clock _ same => exact expiries_congr (same ▸ story_setClock ..)

/-- A clock that does not know of the alarm queues nothing on `h`. -/
theorem Follows.elsewhere {es : List TimeoutEvent} {c' : ClockId} (reach : Reachable u)
    (follows : Follows c h id es u)
    (unknown : u.registered? h = some id → ¬ (u.clock c').Knows id (.handler h))
    {generation : Nat}
    (moved : u.moveTimer c' generation = some v) : v.expiries h = u.expiries h := by
  obtain ⟨t, ready, -⟩ := moveTimer_eq_some.mp moved
  rcases expiries_moveTimer (h := h) reach moved ready with
    ⟨same, -⟩ | ⟨f, fires, callback, registered, -⟩
  · exact same
  · obtain rfl := follows.only _ registered
    have taken := Clock.mem_taken_of_fires (Clock.thread?_eq_some ready).1 fires
    exact absurd (.inr ⟨f, taken, rfl, callback⟩) (unknown registered)

/-- Where no other clock knows of the alarm, the timeouts of this clock are all that there are. -/
theorem Expires.all {es : List TimeoutEvent} (reach : Reachable w) (there : c < w.clocks.length)
    (start : Follows c h id [] w) (expires : Expires c h ok w es u)
    (unknown : ∀ c', c' ≠ c → ¬ (w.clock c').Knows id (.handler h)) :
    u.expiries h = w.expiries h ++ es ∧ (u.registered? h = some id →
      ∀ c', c' ≠ c → ¬ (u.clock c').Knows id (.handler h)) := by
  induction expires with
  | refl => exact ⟨(List.append_nil _).symm, fun _ => unknown⟩
  | @timer es new u v generation before _ moved more ih =>
    obtain ⟨all, unknown'⟩ := ih
    refine ⟨by rw [more, all, List.append_assoc], fun registered c' ne knows => ?_⟩
    have launches : v.launches h = u.launches h := (bides_moveTimer moved).launches
    have kept := (Next.evolves (.timer moved) h).registered launches registered
    exact unknown' kept c' ne ((Next.timer moved).knows launches registered knows)
  | @other es u v before _ step elsewhere launches ih =>
    obtain ⟨all, unknown'⟩ := ih
    have follows := before.follows reach there start
    refine ⟨?_, fun registered c' ne knows => ?_⟩
    · rw [← all]
      by_cases still : ∀ c generation, u.moveTimer c generation ≠ some v
      · exact step.expiries still
      · obtain ⟨c', moves⟩ := not_forall.mp still
        obtain ⟨generation, moved⟩ := not_forall_not.mp moves
        have ne : c' ≠ c := by
          rintro rfl
          exact elsewhere generation moved
        exact follows.elsewhere (reach.run before.run) (fun registered => unknown' registered c' ne)
          moved
    · have kept := (step.evolves h).registered launches registered
      exact unknown' kept c' ne (step.knows launches registered knows)

/-! ## The grid -/

theorem Arms.pending {p : Duration} (arms : Arms h c p v w) (reach : Reachable v) :
    (w.clock c).pending (v.clock c).nextId = [] := by
  have unfired : ∀ f ∈ (v.clock c).taken, f.id ≠ (v.clock c).nextId := fun f member =>
    Nat.ne_of_lt (reach.taken_lt member)
  rw [Clock.pending, arms.taken, Clock.deadlinesOf, List.filter_eq_nil_iff.mpr]
  · rfl
  · simpa using unfired

theorem Arms.follows {p : Duration} (arms : Arms h c p v w) (reach : Reachable v)
    (there : c < v.clocks.length) : Follows c h (v.clock c).nextId [] w := by
  have untaken : (w.timeline c).batches (v.clock c).nextId = [] :=
    (arms.batches _).trans ((reach.timeline there).batches_eq_nil (Nat.le_refl _))
  refine ⟨⟨⟨arms.nextId ▸ Nat.lt_succ_self _, ?_⟩, fun f member named => ?_⟩, ?_, nofun, ?_⟩
  · intro a member named
    rcases (arms.alarms a).mp member with earlier | rfl
    · exact absurd named (Nat.ne_of_lt ((reach.sound c).ids a earlier))
    · rfl
  · rw [arms.taken] at member
    exact absurd named (Nat.ne_of_lt (reach.taken_lt member))
  · intro id' registered
    exact Option.some.inj (registered.symm.trans arms.registered)
  · rw [untaken, arms.pending reach]
    exact .refl _

theorem Arms.inOrder {p : Duration} (arms : Arms h c p v w) (reach : Reachable v)
    (there : c < v.clocks.length) : InOrder c h (v.clock c).nextId [] w := by
  have untaken : (w.timeline c).batches (v.clock c).nextId = [] :=
    (arms.batches _).trans ((reach.timeline there).batches_eq_nil (Nat.le_refl _))
  refine ⟨List.nil_prefix, fun _ => ?_⟩
  rw [untaken, arms.pending reach]
  rfl

/-- A worker of `h` is started at `t₀` on clock `c`, with a timeout of period `p`, and its alarm is
added to this clock. Until the next start of a worker, the timeouts that this clock queues on `h`
are of the batches that contain the alarm, at most one of each. Where the points of the grid can be
represented, the first batch has it at `t₀ + p` and every later one at the first point of the grid
after the batch before was taken. So the deadlines of the timeouts are different points, and each
has come when its timeout is queued. As long as no two threads of the clock have a firing of the
alarm in hand and no callback panics before the rest of its batch, the timeouts are the first of
these batches, in their order, and the deadlines rise.
There are no other timeouts if no other clock knows of an alarm of `h` under the same id, and so if
`h` has never used another one. -/
theorem timeouts_on_grid {setup : TimeoutSetup π} (reach : Reachable v) (step : Next v w)
    (launched : w.launches h ≠ v.launches h) (hx : v.handlers[h]? = some x)
    (timeout : x.timeout = some setup)
    (there : ∀ c, x.clock.getD sharedClock = c ∨ c ∈ x.starts → c < v.clocks.length) :
    ∃ c id, (x.clock.getD sharedClock = c ∨ c ∈ x.starts) ∧ w.registered? h = some id ∧
      (∀ ok u, Relation.ReflTransGen (fun u v => ok u v ∧ Next u v) w u →
        u.launches h = w.launches h → ∃ es, Expires c h ok w es u) ∧
      ∀ es u, Expires c h (fun _ _ => True) w es u →
        let p := Alarm.clampPeriod setup.interval
        let batches := (u.timeline c).batches id
        Representable v.now p batches →
        OnGrid v.now p batches ∧
        (es.map (·.deadline)).Subperm (batches.map (·.2)) ∧
        (∀ e ∈ es, e.alarm = id ∧ e.deadline ≤ u.now ∧
          ∃ k, 1 ≤ k ∧ e.deadline = v.now.gridPoint p k) ∧
        (es.map (·.deadline)).Nodup ∧
        (Expires c h (Smooth c id) w es u → es.map (·.deadline) <+: batches.map (·.2) ∧
          es.Pairwise (fun e e' => e.deadline < e'.deadline)) ∧
        ((∀ c', c' ≠ c → ¬ (w.clock c').Knows id (.handler h)) →
          u.expiries h = w.expiries h ++ es) ∧
        ∀ w₀, Fresh w₀ → Relation.ReflTransGen (fun v w => Next v w ∧ v.Clings h c) w₀ w →
          u.expiries h = w.expiries h ++ es := by
  obtain ⟨c, uses, arms, -⟩ := step.arms launched hx timeout
  have there := there c uses
  have arms := arms there
  have reach' : Reachable w := reach.next step
  have there' : c < w.clocks.length := by rwa [Run.length_clocks (.single step)]
  have start := arms.follows reach there
  have pos : 0 < (Alarm.clampPeriod setup.interval).nanos :=
    Nat.lt_of_lt_of_le (by decide : 0 < Alarm.minPeriod.nanos) (Nat.le_max_right _ _)
  refine ⟨c, _, uses, arms.registered, fun ok u run launches => expires_of_run run launches c, ?_⟩
  intro es u expires p batches fits
  have follows := expires.follows reach' there' start
  have gridded := (arms.gridded reach there).run (reach'.timeline there') pos
    (Run.timeline expires.run there')
  have steady : OnGrid v.now p batches := gridded.taken fits
  have rising : (batches.map (·.2)).Pairwise (· < ·) := List.pairwise_map.mpr (steady.rising pos)
  have all : (∀ c', c' ≠ c → ¬ (w.clock c').Knows (v.clock c).nextId (.handler h)) →
      u.expiries h = w.expiries h ++ es := fun unknown =>
    (expires.all reach' there' start unknown).1
  refine ⟨steady, follows.among, fun e member => ?_, ?_, fun smooth => ?_, all,
    fun w₀ fresh clings => ?_⟩
  · have taken : e.deadline ∈ batches.map (·.2) :=
      follows.among.subset (List.mem_map_of_mem member)
    obtain ⟨b, hb, same⟩ := List.mem_map.mp taken
    obtain ⟨point, come⟩ := steady.point hb
    refine ⟨follows.alarms e member, ?_, same ▸ point⟩
    rw [← same]
    exact Nat.le_trans come (gridded.past b hb)
  · obtain ⟨_, same, among⟩ := follows.among
    have distinct : (batches.map (·.2)).Nodup := by
      refine rising.imp fun lt => ?_
      rintro rfl
      exact Nat.lt_irrefl _ lt
    exact same.nodup_iff.mp (distinct.sublist among)
  · have first := (smooth.inOrder reach' there' start (arms.inOrder reach there)).first
    exact ⟨first, List.pairwise_map.mp (rising.sublist first.sublist)⟩
  · exact all fun c' ne => unknown_of_clings fresh ne clings

/-- A timeout every second. The clock falls behind, and then it is stopped over a point of the grid:
there are timeouts for the points 1 s and 3 s, and none for those between. -/
theorem timeouts_skip_points :
    let v := ((single Nat).perform .outside (.setTimeout 0 (.ofParts 1 0) 0 [])).1
    let w := (v.perform .outside (.start 0)).1
    let u := w.steps 20 [.act (.advance (.ofParts 2 500000000)), .stopClock 0,
      .act (.advance (.ofParts 1 0)), .startClock 0]
    w.launches 0 ≠ v.launches 0 ∧ (u.expiries 0).map (·.deadline) = [.ofParts 1 0, .ofParts 3 0] ∧
      OnGrid .start (.ofParts 1 0) ((u.timeline 0).batches 1) ∧
      ((u.expiries 0).map (·.deadline)).Subperm (((u.timeline 0).batches 1).map (·.2)) := by
  intro v w u
  have reach : Reachable v := single_fresh.reachable.next (.act ..)
  have configured : (v.handlers[0]?).map
      (fun x => (x.timeout.map (·.interval), x.clock, x.starts)) =
        some (some (.ofParts 1 0), none, []) := by decide +kernel
  obtain ⟨x, hx, same⟩ := Option.map_eq_some_iff.mp configured
  obtain ⟨timeout, same⟩ := Prod.mk.inj same
  obtain ⟨clock, starts⟩ := Prod.mk.inj same
  obtain ⟨setup, timeout, interval⟩ := Option.map_eq_some_iff.mp timeout
  have launched : w.launches 0 ≠ v.launches 0 := by decide +kernel
  have shared : ∀ c, x.clock.getD sharedClock = c ∨ c ∈ x.starts → c = 0 := by
    rintro c (rfl | pending)
    · rw [clock]
      rfl
    · rw [starts] at pending
      cases pending
  obtain ⟨c, id, uses, registered, runs, grid⟩ := timeouts_on_grid reach (.act v (.start 0))
    launched hx timeout fun c uses => shared c uses ▸ (by decide +kernel)
  obtain rfl := shared c uses
  obtain rfl : id = 1 := by
    have first : w.registered? 0 = some 1 := by decide +kernel
    exact Option.some.inj (registered.symm.trans first)
  have run : Relation.ReflTransGen (fun u v : World Nat => True ∧ Next u v) w u :=
    Relation.ReflTransGen.mono (fun _ _ step => ⟨trivial, step⟩) _ _ (steps_run 20 w _)
  obtain ⟨es, expires⟩ := runs (fun _ _ => True) u run (by decide +kernel)
  have batches : (u.timeline 0).batches 1 =
      [(.ofParts 2 500000000, .ofParts 1 0), (.ofParts 3 500000000, .ofParts 3 0)] := by
    decide +kernel
  have fits : Representable .start (.ofParts 1 0) ((u.timeline 0).batches 1) := by
    rw [batches]
    exact representable_of_le (by decide) (by decide)
  have period : Alarm.clampPeriod setup.interval = .ofParts 1 0 := by
    rw [interval]
    decide
  have conclusion := grid es u expires
  simp only [period] at conclusion
  obtain ⟨steady, among, -, -, -, -, all⟩ := conclusion fits
  -- the handler has used no other clock
  have clings : (single Nat).Clings 0 0 ∧ v.Clings 0 0 := by
    refine ⟨fun y hy => ?_, fun y hy => ?_⟩
    · obtain rfl := Option.some.inj hy
      exact ⟨rfl, nofun⟩
    · obtain rfl := Option.some.inj (hx.symm.trans hy)
      exact ⟨congrArg (Option.getD · sharedClock) clock, fun c pending => shared c (.inr pending)⟩
  have kept : Relation.ReflTransGen (fun v w => Next v w ∧ v.Clings 0 0) (single Nat) w :=
    (Relation.ReflTransGen.single ⟨.act .., clings.1⟩).tail ⟨.act v (.start 0), clings.2⟩
  have before : w.expiries 0 = [] := by decide +kernel
  have queued : u.expiries 0 = es := by rw [all _ single_fresh kept, before, List.nil_append]
  refine ⟨launched, by decide +kernel, steady, ?_⟩
  rw [queued]
  exact among

/-- A timeout every second, and another alarm half a second after the start. At 1 s both are taken
in one batch. The callback of the other alarm stops the clock, which does not wait for the thread of
the callback, and starts it again; a second later the new thread queues the timeout of 2 s, and only
then the old one goes on to that of 1 s. Neither the handler nor its clock has been touched since
the start, and no callback has panicked. In the second run an alarm of 1 s is left on clock 0 by a
worker that has panicked; the handler is started with a timeout of 3 s on clock 1, where its alarm
has the same id, and gets a timeout at 1 s. -/
theorem timeouts_out_of_step :
    let second : Duration := .ofParts 1 0
    let v := (named "h").afterAll [.act (.setTimeout 0 second 0 [])]
    let w := v.afterAll [.act (.start 0)]
    let u := w.afterAll [.addAlarm 0 (.ofParts 0 500000000), .act (.advance second), .timer 0 0,
      .timer 0 0, .stopClock 0, .startClock 0, .act (.advance second), .timer 0 1, .timer 0 1,
      .timer 0 0]
    let v' := w.afterAll [.act (.signal 0 .tail "A" 0 [.panic]), .worker 0, .worker 0, .worker 0,
      .act (.setClock 0 1), .act (.setTimeout 0 (.ofParts 3 0) 0 [])]
    let w' := v'.afterAll [.act (.start 0)]
    let u' := w'.afterAll [.act (.advance second), .timer 0 0, .timer 0 0]
    (Run v w ∧ w.launches 0 ≠ v.launches 0 ∧ Run w u ∧ u.launches 0 = w.launches 0 ∧
      w.expiries 0 = [] ∧ (u.expiries 0).map (·.deadline) = [.ofParts 2 0, .ofParts 1 0]) ∧
    Run v' w' ∧ w'.launches 0 ≠ v'.launches 0 ∧ Run w' u' ∧ u'.launches 0 = w'.launches 0 ∧
      w'.now = .start ∧ w'.expiries 0 = [] ∧
      (u'.expiries 0).map (·.deadline) = [.ofParts 1 0] := by
  intro second v w u v' w' u'
  refine ⟨⟨afterAll_run v _, by decide +kernel, afterAll_run w _, by decide +kernel,
    by decide +kernel, by decide +kernel⟩, afterAll_run v' _, by decide +kernel,
    afterAll_run w' _, by decide +kernel, by decide +kernel, by decide +kernel, by decide +kernel⟩

end World
end EventEngine
