import EventEngine.Proofs.Clocks.CatchUp
import EventEngine.Proofs.Clocks.Grid
import EventEngine.Proofs.Clocks.Restarts

/-!
# Timer threads

A clock is served by the thread of its present generation and by no other. A stop begins a new
generation, in which there is no thread before the next start; a thread whose generation is over
fires the rest of its batch and takes nothing more. So whatever comes due is taken by one thread,
also if a callback stops its own clock and starts it again in the middle of a batch.
-/
namespace EventEngine

variable {α : Type}

namespace Clock

variable {k k' : Clock α} {kind : Clock α → Alarm α → Prop}

/-- The threads of the present generation. -/
def serving (k : Clock α) : List (Timer α) := k.timers.filter (·.generation = k.generation)

theorem serving_eq_nil : k.serving = [] ↔ k.generation ∉ k.timers.map (·.generation) := by
  simp [serving, List.filter_eq_nil_iff]

theorem Sound.generations_nodup (sound : k.Sound) : (k.timers.map (·.generation)).Nodup :=
  sound.generations.imp Nat.ne_of_lt

/-- No two threads have the same generation. -/
theorem Sound.eq_of_generation (sound : k.Sound) {timer other : Timer α}
    (member : timer ∈ k.timers) (member' : other ∈ k.timers)
    (same : timer.generation = other.generation) : timer = other :=
  List.inj_on_of_nodup_map sound.generations_nodup member member' same

theorem Sound.length_serving (sound : k.Sound) : k.serving.length ≤ 1 := by
  have current : ∀ timer ∈ k.serving, timer ∈ k.timers ∧ timer.generation = k.generation := by
    simp [serving]
  have distinct : k.serving.Nodup := (List.Nodup.of_map _ sound.generations_nodup).filter _
  rcases serving : k.serving with _ | ⟨first, _ | ⟨second, rest⟩⟩
  · simp
  · simp
  · rw [serving] at current distinct
    obtain ⟨member, same⟩ := current first (by simp)
    obtain ⟨member', same'⟩ := current second (by simp)
    have equal := sound.eq_of_generation member member' (same.trans same'.symm)
    simp [equal] at distinct

theorem mem_generations_dropTimer {generation gone : Nat} :
    generation ∈ (k.dropTimer gone).timers.map (·.generation) ↔
      generation ∈ k.timers.map (·.generation) ∧ generation ≠ gone := by
  simp only [dropTimer, List.mem_map, List.mem_filter, bne_iff_ne]
  constructor
  · rintro ⟨timer, ⟨member, other⟩, rfl⟩
    exact ⟨⟨timer, member, rfl⟩, other⟩
  · rintro ⟨⟨timer, member, rfl⟩, other⟩
    exact ⟨timer, ⟨member, other⟩, rfl⟩

/-! ## Threads whose generation is over -/

/-- The generation is over, and its thread has at most a rest of this batch left to fire. -/
def Retired (generation : Nat) (batch : List (Firing α)) (k : Clock α) : Prop :=
  generation < k.generation ∧
    ∀ timer ∈ k.timers, timer.generation = generation → timer.phase.batch <:+ batch

variable {generation : Nat} {batch : List (Firing α)} {timers : List (Timer α)}

theorem Sound.retired {timer : Timer α} (sound : k.Sound) (member : timer ∈ k.timers)
    (stale : timer.generation ≠ k.generation) :
    k.Retired timer.generation timer.phase.batch := by
  have bounded := sound.bounded _ (List.mem_map_of_mem member)
  refine ⟨Nat.lt_of_le_of_ne bounded stale, fun other member' same => ?_⟩
  exact sound.eq_of_generation member' member same ▸ List.suffix_refl _

/-- Waking a thread gives it nothing to fire. -/
theorem Retired.wakeOne (retired : k.Retired generation batch) :
    ({ k with timers := wakeOne k.timers } : Clock α).Retired generation batch := by
  refine ⟨retired.1, fun timer member same => ?_⟩
  obtain ⟨other, member', rfl | ⟨-, rfl⟩⟩ := mem_wakeOne member
  · exact retired.2 _ member' same
  · simpa using retired.2 other member' same

/-- What a thread does next is nothing new for the threads of other generations. -/
theorem Retired.setPhase (retired : k.Retired generation batch) {other : Nat}
    {phase : TimerPhase α} (rest : other = generation → phase.batch <:+ batch) :
    (k.setPhase other phase).Retired generation batch := by
  refine ⟨retired.1, fun timer' member' same => ?_⟩
  obtain ⟨timer, member, rfl⟩ := List.mem_map.mp member'
  split
  · next at_work =>
    rw [if_pos at_work] at same
    exact rest (at_work.symm.trans same)
  · next away =>
    rw [if_neg away] at same
    exact retired.2 timer member same

theorem Retired.dropTimer (retired : k.Retired generation batch) (other : Nat) :
    (k.dropTimer other).Retired generation batch :=
  ⟨retired.1, fun timer member => retired.2 timer (List.mem_filter.mp member).1⟩

/-- A generation that is over stays so, and its thread only gets on with its batch. -/
theorem Step.retired (step : Step kind k k') (retired : k.Retired generation batch) :
    k'.Retired generation batch := by
  cases step with
  | start started =>
    obtain ⟨-, rfl⟩ | ⟨-, -, rfl⟩ := start_cases started
    · exact retired
    · refine ⟨retired.1, fun timer member same => ?_⟩
      rcases List.mem_append.mp member with member | new
      · exact retired.2 timer member same
      · obtain rfl := List.mem_singleton.mp new
        exact absurd same (Nat.ne_of_gt retired.1)
  | stop =>
    obtain ⟨-, same⟩ | ⟨-, same⟩ := stop_cases k <;> rw [same]
    · exact retired
    · refine ⟨Nat.lt_succ_of_lt retired.1, fun timer' member' same => ?_⟩
      obtain ⟨timer, member, rfl⟩ := List.mem_map.mp member'
      simpa using retired.2 timer member same
  | add callback deadline period =>
    simp only [Clock.add]
    split
    · exact retired.wakeOne
    · exact retired
  | remove id =>
    obtain same | same := remove_cases k id <;> rw [same]
    · exact retired
    · exact retired.wakeOne
  | @move now timer member =>
    have moved := move_cases k now timer
    generalize k.move now timer = result at moved
    cases moved with
    | wake _ => exact retired.setPhase fun _ => List.nil_suffix
    | fire phase =>
      refine retired.setPhase fun same => ?_
      have rest := retired.2 timer member same
      rw [phase] at rest
      exact (List.suffix_cons _ _).trans rest
    | ends _ _ => exact retired.dropTimer _
    | sleep _ current _ =>
      exact retired.setPhase fun same => absurd (same.symm.trans current) (Nat.ne_of_lt retired.1)
    | take _ current _ =>
      have taken : (k.take now).1.Retired generation batch := retired
      exact taken.setPhase fun same => absurd (same.symm.trans current) (Nat.ne_of_lt retired.1)
  | drop other => exact retired.dropTimer other

end Clock

namespace Timeline

variable {t u v w : Timeline α}

theorem Next.retired {generation : Nat} {batch : List (Firing α)} (step : Next t u)
    (retired : t.clock.Retired generation batch) : u.clock.Retired generation batch := by
  rcases step.clock with same | stepped
  · rwa [same]
  · exact stepped.retired retired

theorem Run.retired {generation : Nat} {batch : List (Firing α)} (run : Run t u)
    (retired : t.clock.Retired generation batch) : u.clock.Retired generation batch := by
  induction run with
  | refl => exact retired
  | tail _ step ih => exact step.retired ih

/-! ## The thread that serves the clock -/

/-- What a step does to the service of a clock. -/
inductive Tenure (t : Timeline α) : Timeline α → Prop where
  | kept {u : Timeline α} : u.clock.isRunning = t.clock.isRunning →
      u.clock.generation = t.clock.generation → (u.Served ↔ t.Served) → Tenure t u
  | takenUp {u : Timeline α} : t.clock.isRunning = false → u.Served →
      u.clock.generation = t.clock.generation → Tenure t u
  | givenUp {u : Timeline α} : u.clock.isRunning = false →
      u.clock.generation = t.clock.generation + 1 → Tenure t u
  | killed : t.Served → Tenure t (t.panic t.clock.generation)

theorem Tenure.of_timers (running : u.clock.isRunning = t.clock.isRunning)
    (generation : u.clock.generation = t.clock.generation)
    (same : u.clock.timers.map (·.generation) = t.clock.timers.map (·.generation)) : Tenure t u :=
  .kept running generation (by rw [Served, generation, same, Served])

/-- The service does not depend on a thread whose generation is over. -/
theorem served_of_dropTimer {gone : Nat} (generation : u.clock.generation = t.clock.generation)
    (dropped : u.clock.timers = (t.clock.dropTimer gone).timers)
    (other : gone ≠ t.clock.generation) : u.Served ↔ t.Served := by
  rw [Served, generation, dropped, Clock.mem_generations_dropTimer]
  exact and_iff_left (Ne.symm other)

theorem move_tenure {timer : Timer α} : Tenure t (t.move timer) := by
  have moved := Clock.move_cases t.clock t.now timer
  have same : t.move timer =
    t.turn (t.clock.move t.now timer).1 (t.clock.move t.now timer).2.2 := rfl
  have phases : ∀ phase, (t.clock.setPhase timer.generation phase).timers.map (·.generation) =
      t.clock.timers.map (·.generation) := by
    intro phase
    simp only [Clock.setPhase, List.map_map]
    refine List.map_congr_left fun u _ => ?_
    simp only [Function.comp_apply]
    split <;> rfl
  rw [same]
  generalize t.clock.move t.now timer = result at moved
  cases moved with
  | ends _ stale => exact .kept rfl rfl (served_of_dropTimer rfl rfl stale)
  | wake _ => exact .of_timers rfl rfl (phases _)
  | fire _ => exact .of_timers rfl rfl (phases _)
  | sleep _ _ _ => exact .of_timers rfl rfl (phases _)
  | take _ _ _ => exact .of_timers rfl rfl (phases _)

theorem Next.tenure (step : Next t u) : Tenure t u := by
  have woken : ∀ timers : List (Timer α), (Clock.wakeOne timers).map (·.generation) =
    timers.map (·.generation) := Clock.generations_wakeOne
  have added : ∀ callback deadline period,
      Tenure t (t.turn (t.clock.add callback deadline period).1
        (t.clock.add callback deadline period).2.2) := by
    intro callback deadline period
    refine .of_timers rfl rfl ?_
    simp only [turn, Clock.add]
    split
    · exact woken _
    · rfl
  cases step with
  | idle idle =>
    cases idle with
    | advance d => exact .of_timers rfl rfl rfl
    | start started =>
      obtain ⟨-, rfl⟩ | ⟨stopped, -, rfl⟩ := Clock.start_cases started
      · exact .of_timers rfl rfl rfl
      · exact .takenUp stopped (by simp [Served, turn]) rfl
    | stop =>
      have stopped : t.stop.clock = t.clock.stop.1 := rfl
      obtain ⟨-, same⟩ | ⟨-, same⟩ := Clock.stop_cases t.clock <;> rw [same] at stopped
      · exact .of_timers (by rw [stopped]) (by rw [stopped]) (by rw [stopped])
      · exact .givenUp (by rw [stopped]) (by rw [stopped])
    | move _ => exact move_tenure
    | panic gone =>
      by_cases current : gone = t.clock.generation
      · subst current
        by_cases served : t.Served
        · exact .killed served
        · refine .kept rfl rfl (iff_of_false (fun still => ?_) served)
          exact served (Clock.mem_generations_dropTimer.mp still).1
      · exact .kept rfl rfl (served_of_dropTimer rfl rfl current)
  | addOnce callback deadline => exact added ..
  | addPeriodic callback period => exact added ..
  | remove id =>
    have removed : (t.remove id).clock = (t.clock.remove id).1 := rfl
    obtain same | same := Clock.remove_cases t.clock id <;> rw [same] at removed
    · exact .of_timers (by rw [removed]) (by rw [removed]) (by rw [removed])
    · exact .of_timers (by rw [removed]) (by rw [removed]) (by rw [removed, woken])

theorem Run.generation_le (run : Run t u) : t.clock.generation ≤ u.clock.generation := by
  induction run with
  | refl => exact Nat.le_refl _
  | tail _ step ih =>
    refine Nat.le_trans ih ?_
    cases step.tenure with
    | kept _ generation _ => exact Nat.le_of_eq generation.symm
    | takenUp _ _ generation => exact Nat.le_of_eq generation.symm
    | givenUp _ generation => exact generation ▸ Nat.le_succ _
    | killed _ => exact Nat.le_refl _

/-- On the way from `t₀` a panic ended the thread that served the clock, and no stop has come
since. -/
def Deserted (t₀ t : Timeline α) : Prop :=
  ∃ v, Run t₀ v ∧ v.Served ∧ v.clock.generation = t.clock.generation ∧
    Run (v.panic v.clock.generation) t

/-- A clock that has lost its thread gets no other one before it is stopped. -/
theorem unserved_of_run (run : Run t u) (running : t.clock.isRunning = true)
    (unserved : ¬ t.Served) (same : u.clock.generation = t.clock.generation) :
    u.clock.isRunning = true ∧ ¬ u.Served := by
  induction run with
  | refl => exact ⟨running, unserved⟩
  | @tail v u before step ih =>
    have le := Run.generation_le before
    have le' := Run.generation_le (.single step)
    obtain ⟨running, unserved⟩ := ih (by omega)
    cases step.tenure with
    | kept running' _ served => exact ⟨running'.trans running, fun is => unserved (served.mp is)⟩
    | takenUp stopped _ _ => exact absurd (stopped.symm.trans running) nofun
    | givenUp _ next => omega
    | killed served => exact absurd served unserved

theorem not_served_panic (t : Timeline α) : ¬ (t.panic t.clock.generation).Served :=
  fun served => (Clock.mem_generations_dropTimer.mp served).2 rfl

theorem Deserted.not_served {t₀ : Timeline α} (reach : Reachable t₀) (lost : Deserted t₀ t) :
    ¬ t.Served := by
  obtain ⟨v, before, served, same, after⟩ := lost
  have running : v.clock.isRunning = true := (reach.run before).sound.serves served
  exact (unserved_of_run after running (not_served_panic v) same.symm).2

/-- A clock that runs has a thread, unless it has lost it. -/
theorem deserted_of_run {t₀ : Timeline α} (stopped : t₀.clock.isRunning = false)
    (run : Run t₀ t) (running : t.clock.isRunning = true) (unserved : ¬ t.Served) :
    Deserted t₀ t := by
  induction run with
  | refl => exact absurd (stopped.symm.trans running) nofun
  | @tail v t before step ih =>
    cases step.tenure with
    | kept running' generation served =>
      obtain ⟨u, first, was, same, last⟩ :=
        ih (running'.symm.trans running) fun is => unserved (served.mpr is)
      exact ⟨u, first, was, same.trans generation.symm, last.tail step⟩
    | takenUp _ served _ => exact absurd served unserved
    | givenUp off _ => exact absurd (off.symm.trans running) nofun
    | killed served => exact ⟨v, before, served, rfl, .refl⟩

/-! ## Whoever takes -/

theorem mem_of_told {clock : Clock α} {notices new : List ClockNotice} {notice : ClockNotice}
    (told : (t.turn clock notices).notices = new ++ t.notices) (member : notice ∈ new) :
    notice ∈ notices := by
  have same : notices.reverse = new := List.append_cancel_right told
  rwa [← same, List.mem_reverse] at member

theorem taker_of_move {timer : Timer α} (member : timer ∈ t.clock.timers) {now : Instant}
    {batch : List (AlarmId × Instant)}
    (taken : .taken now batch ∈ (t.clock.move t.now timer).2.2) :
    timer ∈ t.clock.serving ∧ timer.phase = .awake [] ∧
      ∃ firings, ⟨timer.generation, .awake firings⟩ ∈ (t.move timer).clock.serving ∧
        batch = firings.map fun f => (f.id, f.deadline) := by
  have moved := Clock.move_cases t.clock t.now timer
  have same : t.move timer =
    t.turn (t.clock.move t.now timer).1 (t.clock.move t.now timer).2.2 := rfl
  rw [same]
  generalize t.clock.move t.now timer = result at moved taken
  cases moved with
  | wake _ => simp at taken
  | fire _ => simp at taken
  | ends _ _ => simp at taken
  | sleep _ _ _ => simp at taken
  | take phase current _ =>
    have contents : now = t.now ∧
        batch = (t.clock.alarms.due t.now).map fun a => (a.id, a.deadline) := by
      simpa [Clock.take] using taken
    refine ⟨List.mem_filter.mpr ⟨member, decide_eq_true current⟩, phase, _, List.mem_filter.mpr
      ⟨mem_setPhase (k := (t.clock.take t.now).1) member _, decide_eq_true current⟩, ?_⟩
    simpa [Alarm.firing, Function.comp_def] using contents.2

/-- A batch is taken by the thread that serves the clock, when it has fired all that it had. -/
theorem Next.taker (step : Next t u) {new : List ClockNotice}
    (told : u.notices = new ++ t.notices) {now : Instant} {batch : List (AlarmId × Instant)}
    (taken : .taken now batch ∈ new) :
    ∃ timer ∈ t.clock.serving, timer.phase = .awake [] ∧ u = t.move timer ∧
      ∃ firings, ⟨timer.generation, .awake firings⟩ ∈ u.clock.serving ∧
        batch = firings.map fun f => (f.id, f.deadline) := by
  cases step with
  | idle idle =>
    cases idle with
    | advance d =>
      obtain rfl : new = [] := List.self_eq_append_left.mp told
      cases taken
    | start started =>
      have taken := mem_of_told told taken
      unfold Clock.start at started
      split at started
      · cases started
        cases taken
      · split at started
        · cases started
          simp at taken
        · cases started
    | stop =>
      have taken := mem_of_told told taken
      unfold Clock.stop at taken
      split at taken <;> simp at taken
    | move member =>
      obtain ⟨serves, phase, holds⟩ := taker_of_move member (mem_of_told told taken)
      exact ⟨_, serves, phase, rfl, holds⟩
    | panic generation => cases mem_of_told told taken
  | addOnce callback deadline => simpa using mem_of_told told taken
  | addPeriodic callback period => simpa using mem_of_told told taken
  | remove id =>
    have taken : .taken now batch ∈ (t.clock.remove id).2.2 := mem_of_told told taken
    unfold Clock.remove at taken
    split at taken <;> simp at taken

/-! ## Occasions -/

/-- The second deadline is later, or it is the same one and time ends within a hundred years. -/
def FollowedBy (deadline later : Instant) : Prop :=
  deadline < later ∨ (deadline = later ∧ deadline.add? Instant.farFuture = none)

theorem followedBy_deadlineAfter {deadline : Instant} {period : Duration}
    (pos : 0 < period.nanos) : FollowedBy deadline (deadline.deadlineAfter period) := by
  unfold Instant.deadlineAfter
  split
  · next later added =>
    unfold Instant.add? at added
    split at added
    · cases added
      exact .inl (Nat.lt_add_of_pos_right pos)
    · cases added
  · cases far : deadline.add? Instant.farFuture with
    | none => exact .inr ⟨rfl, far⟩
    | some later =>
      unfold Instant.add? at far
      split at far
      · cases far
        exact .inl (Nat.lt_add_of_pos_right (by decide))
      · cases far

/-- A catch-up goes on from where it begins, and stays only where time has ended. -/
theorem followedBy_following {now deadline : Instant} {period : Duration}
    (pos : 0 < period.nanos) : FollowedBy deadline (Schedule.following now period deadline) := by
  have onwards : ∀ next skipped, FollowedBy deadline next →
      FollowedBy deadline (Schedule.catchUp now period next skipped).1 := by
    intro next skipped first
    induction next, skipped using Schedule.catchUp.induct now period with
    | case1 next skipped come moves ih =>
      rw [Schedule.catchUp_of_moves come moves]
      refine ih (.inl ?_)
      rcases first with less | ⟨rfl, -⟩
      · exact Nat.lt_trans less moves
      · exact moves
    | case2 next skipped come ends => rwa [Schedule.catchUp_of_ends ends]
    | case3 next skipped ahead => rwa [Schedule.catchUp_of_ahead ahead]
  rw [Schedule.following_eq]
  exact onwards _ 0 (followedBy_deadlineAfter pos)

/-- Whenever the alarm was taken it had a new deadline, and now it has one that follows. -/
structure Occasions (id : AlarmId) (t : Timeline α) : Prop where
  apart : ((t.batches id).map (·.2)).Pairwise FollowedBy
  ahead : ∀ a ∈ t.clock.alarms, a.id = id → ∀ b ∈ t.batches id, FollowedBy b.2 a.deadline

theorem occasions_of_nil {id : AlarmId} (none : t.batches id = []) : Occasions id t :=
  ⟨by simp [none], by simp [none]⟩

theorem FollowedBy.trans {t₁ t₂ t₃ : Instant} (first : FollowedBy t₁ t₂)
    (second : FollowedBy t₂ t₃) : FollowedBy t₁ t₃ := by
  rcases first with first | ⟨rfl, -⟩
  · rcases second with second | ⟨rfl, -⟩
    · exact .inl (Nat.lt_trans first second)
    · exact .inl first
  · exact second

theorem Reachable.occasions (reach : Reachable t) (id : AlarmId) : Occasions id t := by
  refine reach.induct (P := fun t => Occasions id t) (fun _ _ _ _ => occasions_of_nil rfl) ?_
  intro t u reach occasions step
  have change := step.change reach.sound
  by_cases issued : id < t.clock.nextId
  · rcases change.left_or_taken reach.ordered issued with
      ⟨told, kept⟩ | ⟨a, member, named, -, told, left⟩
    · refine ⟨told ▸ occasions.apart, fun b here same => ?_⟩
      rw [told]
      exact occasions.ahead b (kept b here same) same
    · have earlier := occasions.ahead a member named
      refine ⟨?_, fun b here same => ?_⟩
      · rw [told, List.map_append, List.pairwise_append]
        refine ⟨occasions.apart, List.pairwise_singleton _ _, ?_⟩
        simpa using fun deadline now contained => earlier (now, deadline) contained
      · obtain ⟨period, periodic, rfl⟩ := Alarm.renewed_eq_some.mp (left b here same)
        have lasts := reach.ordered.periods a member period periodic
        have follows : FollowedBy a.deadline (Schedule.following t.now period a.deadline) :=
          followedBy_following (Nat.lt_of_lt_of_le (by decide) lasts)
        intro b contained
        rcases List.mem_append.mp (told ▸ contained) with old | new
        · exact (earlier b old).trans follows
        · obtain rfl := List.mem_singleton.mp new
          exact follows
  · have later := Nat.le_of_not_lt issued
    have none := reach.batches_eq_nil later
    have reach' := reach.next step
    cases change with
    | add a _ _ _ told => exact occasions_of_nil ((batches_cons told rfl).trans none)
    | quiet _ _ same _ _ => exact occasions_of_nil (reach'.batches_eq_nil (same ▸ later))
    | remove _ _ _ same _ => exact occasions_of_nil (reach'.batches_eq_nil (same ▸ later))
    | take _ _ _ same _ _ => exact occasions_of_nil (reach'.batches_eq_nil (same ▸ later))

/-- A clock has a thread of its present generation unless it is stopped, or the thread that it had
was ended by a panic since the last stop, and never two. A thread whose generation is over never
takes a batch again and only fires the rest of the one that it has: every batch is taken by the one
thread that serves the clock, when it is done with its last batch. So whatever comes due is taken by
one thread: an alarm has a later deadline whenever it is taken again, as long as there are later
instants, and one that fires once is taken once. Starts and stops leave the schedule as it is. -/
theorem one_thread_serves {config : ClockConfig} {canSpawn : Nat → Bool} {now : Instant}
    (le : now ≤ Instant.last)
    (run : Run ({ now, clock := { config, canSpawn } } : Timeline α) t) :
    t.clock.serving.length ≤ 1 ∧
    (t.clock.serving = [] ↔
      t.clock.isRunning = false ∨ Deserted { now, clock := { config, canSpawn } } t) ∧
    (∀ timer ∈ t.clock.timers, timer.generation ≠ t.clock.generation → ∀ u, Run t u →
      timer.generation ≠ u.clock.generation ∧
        ∀ later ∈ u.clock.timers, later.generation = timer.generation →
          later.phase.batch <:+ timer.phase.batch) ∧
    (∀ u new, Next t u → u.notices = new ++ t.notices →
      ∀ instant batch, .taken instant batch ∈ new →
        ∃ timer ∈ t.clock.serving, timer.phase = .awake [] ∧ u = t.move timer ∧
          ∃ firings, ⟨timer.generation, .awake firings⟩ ∈ u.clock.serving ∧
            batch = firings.map fun f => (f.id, f.deadline)) ∧
    (∀ id, ((t.batches id).map (·.2)).Pairwise FollowedBy) ∧
    (∀ callback deadline u, Run (t.addOnce callback deadline) u →
      u.takings t.clock.nextId ≤ 1) ∧
    (∀ clock notices, t.clock.start = .ok (clock, notices) → clock.alarms = t.clock.alarms) ∧
    t.clock.stop.1.alarms = t.clock.alarms := by
  have reach : Reachable t := ⟨config, canSpawn, now, le, run⟩
  have new : Reachable ({ now, clock := { config, canSpawn } } : Timeline α) :=
    ⟨config, canSpawn, now, le, .refl⟩
  refine ⟨reach.sound.length_serving, ?_, ?_, ?_, fun id => (reach.occasions id).apart, ?_, ?_, ?_⟩
  · rw [Clock.serving_eq_nil]
    constructor
    · intro unserved
      cases running : t.clock.isRunning with
      | false => exact .inl rfl
      | true => exact .inr (deserted_of_run rfl run running unserved)
    · rintro (stopped | lost)
      · exact fun served => absurd (stopped.symm.trans (reach.sound.serves served)) nofun
      · exact lost.not_served new
  · intro timer member stale u run
    obtain ⟨ended, rest⟩ := run.retired (reach.sound.retired member stale)
    exact ⟨Nat.ne_of_lt ended, rest⟩
  · exact fun u new step told instant batch taken => step.taker told taken
  · intro callback deadline u run
    have added := reach.next (.addOnce t callback deadline)
    have fated := Fated.of_add (u := t.addOnce callback deadline) reach rfl rfl rfl rfl
    have one := (fated.run added run).one
    simp only [if_true] at one
    omega
  · intro clock notices started
    obtain ⟨-, rfl⟩ | ⟨-, -, rfl⟩ := Clock.start_cases started <;> rfl
  · obtain ⟨-, same⟩ | ⟨-, same⟩ := Clock.stop_cases t.clock <;> rw [same]

/-- The first callback of a batch stops its clock and starts it again. There are two threads then:
the new one serves the clock, and the old one, which has still to fire the other alarm, fires no
more than that. -/
theorem restarted_in_batch :
    let s := ClockSession.steps 20 {} [.act .start,
      .act (.add "a" (.ofParts 1 0) [.stop, .start]), .act (.addPeriodic "b" (.ofParts 1 0) [])]
    let t := (s.step 3 (.advance (.ofParts 1 0))).1
    Instant.start ≤ Instant.last ∧ Run {} t.timeline ∧
    t.clock.timers.map (fun timer => (timer.generation, timer.phase.batch.map (·.id))) =
      [(0, [2]), (1, [])] ∧
    t.clock.serving.length ≤ 1 ∧
    ∃ timer ∈ t.clock.timers, timer.generation = 0 ∧ timer.generation ≠ t.clock.generation ∧
      ∀ u, Run t.timeline u → timer.generation ≠ u.clock.generation ∧
        ∀ later ∈ u.clock.timers, later.generation = timer.generation →
          later.phase.batch <:+ timer.phase.batch := by
  intro s t
  have begins : Instant.start ≤ Instant.last := by decide
  have run : Run {} t.timeline :=
    (ClockSession.steps_run 20 {} _).trans (ClockSession.step_run 3 s _)
  have threads : t.clock.timers.map
      (fun timer => (timer.generation, timer.phase.batch.map (·.id))) = [(0, [2]), (1, [])] := by
    decide +kernel
  have old : ∃ timer ∈ t.clock.timers, timer.generation = 0 ∧
      timer.generation ≠ t.clock.generation := by decide +kernel
  clear_value t
  obtain ⟨timer, member, zero, stale⟩ := old
  obtain ⟨one, -, retired, -⟩ := one_thread_serves begins run
  exact ⟨begins, run, threads, one, timer, member, zero, stale, retired timer member stale⟩

end Timeline
end EventEngine
