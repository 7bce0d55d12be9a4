import EventEngine.Alarm.Clock
import Mathlib.Logic.Relation

/-!
# Steps of a clock

Whoever uses a clock starts it, stops it, adds an alarm or removes one, or is one of its timer
threads. Alarms come from additions only, and batches from alarms; each timer thread has a
generation of its own, and only the thread of the present generation can sleep.
-/
namespace EventEngine

variable {α : Type}

namespace Schedule

variable {a b : Alarm α} {s : Schedule α} {now : Instant}

@[simp] theorem mem_insert : b ∈ insert a s ↔ b = a ∨ b ∈ s := by
  induction s with
  | nil => simp [insert]
  | cons c rest ih =>
    unfold insert
    split
    · simp only [List.mem_cons, ih]
      exact or_left_comm
    · simp

@[simp] theorem mem_remove {id : AlarmId} : b ∈ s.remove id ↔ b ∈ s ∧ b.id ≠ id := by
  simp [remove]

theorem hasId_iff {id : AlarmId} : s.hasId id = true ↔ ∃ a ∈ s, a.id = id := by
  simp [hasId]

theorem mem_reschedule : b ∈ reschedule now s a ↔ b ∈ s ∨ ∃ period, a.period = some period ∧
    b = { a with deadline := following now period a.deadline } := by
  unfold reschedule
  split
  · next period periodic => simp [periodic, or_comm]
  · next once => simp [once]

/-- After the due alarms are taken there are those that were not due, and the periodic ones with a
new deadline. -/
theorem mem_afterTaking : b ∈ s.afterTaking now ↔ b ∈ s.dropWhile (·.deadline ≤ now) ∨
    ∃ a ∈ s.due now, ∃ period, a.period = some period ∧
      b = { a with deadline := following now period a.deadline } := by
  have rescheduled : ∀ (due rest : Schedule α), b ∈ due.foldl (reschedule now) rest ↔ b ∈ rest ∨
      ∃ a ∈ due, ∃ period, a.period = some period ∧
        b = { a with deadline := following now period a.deadline } := by
    intro due
    induction due with
    | nil => simp
    | cons a due ih =>
      intro rest
      rw [List.foldl_cons, ih, mem_reschedule, or_assoc]
      simp
  exact rescheduled _ _

/-- Deadlines stay in the range of time. -/
theorem following_le_last {period : Duration} {deadline : Instant}
    (le : deadline ≤ Instant.last) : following now period deadline ≤ Instant.last := by
  have caughtUp : ∀ (next : Instant) (skipped : UInt32), next ≤ Instant.last →
      (catchUp now period next skipped).1 ≤ Instant.last := by
    intro next skipped le
    induction next, skipped using catchUp.induct now period with
    | case1 next skipped ahead moves ih =>
      rw [catchUp, dif_pos ahead, dif_pos moves]
      exact ih (Instant.deadlineAfter_le_last le period)
    | case2 next skipped ahead ends =>
      rw [catchUp, dif_pos ahead, dif_neg ends]
      exact le
    | case3 next skipped caught =>
      rw [catchUp, dif_neg caught]
      exact le
  rw [following_eq]
  exact caughtUp _ _ (Instant.deadlineAfter_le_last le period)

/-! ## Order -/

theorem notAfter_iff : a.notAfter b = true ↔ a.deadline.nanos < b.deadline.nanos ∨
    (a.deadline.nanos = b.deadline.nanos ∧ a.id ≤ b.id) := by
  have same : a.deadline = b.deadline ↔ a.deadline.nanos = b.deadline.nanos :=
    ⟨congrArg _, fun eq => by cases ha : a.deadline; cases hb : b.deadline; simp_all⟩
  simp [Alarm.notAfter, Instant.lt_def, same]

theorem notAfter_trans {c : Alarm α} (ab : a.notAfter b = true) (bc : b.notAfter c = true) :
    a.notAfter c = true := by
  rw [notAfter_iff] at *
  rcases ab with ab | ⟨ab, le⟩ <;> rcases bc with bc | ⟨bc, le'⟩
  · exact .inl (by omega)
  · exact .inl (by omega)
  · exact .inl (by omega)
  · exact .inr ⟨by omega, Nat.le_trans le le'⟩

theorem notAfter_total (not : ¬ b.notAfter a = true) : a.notAfter b = true := by
  rw [notAfter_iff] at *
  by_cases earlier : a.deadline.nanos < b.deadline.nanos
  · exact .inl earlier
  · refine .inr ⟨by omega, Nat.le_of_not_lt fun later => not (.inr ⟨by omega, Nat.le_of_lt later⟩)⟩

/-- The earliest deadline first, alarms of one deadline in order of id. -/
def Sorted (s : Schedule α) : Prop := s.Pairwise fun a b => a.notAfter b = true

theorem Sorted.insert (sorted : Sorted s) : Sorted (insert a s) := by
  induction s with
  | nil => exact List.pairwise_singleton _ _
  | cons b rest ih =>
    obtain ⟨first, sorted'⟩ := List.pairwise_cons.mp sorted
    unfold Schedule.insert
    split
    · next before =>
      refine List.pairwise_cons.mpr ⟨fun c member => ?_, ih sorted'⟩
      rcases mem_insert.mp member with rfl | member
      · exact before
      · exact first c member
    · next after =>
      have head := notAfter_total after
      refine List.pairwise_cons.mpr ⟨fun c member => ?_, sorted⟩
      rcases List.mem_cons.mp member with rfl | member
      · exact head
      · exact notAfter_trans head (first c member)

theorem Sorted.afterTaking (sorted : Sorted s) : Sorted (s.afterTaking now) := by
  have rescheduled : ∀ (due rest : Schedule α), Sorted rest →
      Sorted (due.foldl (reschedule now) rest) := by
    intro due
    induction due with
    | nil => exact fun _ sorted => sorted
    | cons a due ih =>
      intro rest sorted
      refine ih _ ?_
      unfold reschedule
      split
      · exact sorted.insert
      · exact sorted
  exact rescheduled _ _ (List.Pairwise.sublist (List.dropWhile_sublist _) sorted)

/-- In a sorted schedule every alarm whose deadline has come is due. -/
theorem mem_due (sorted : Sorted s) (member : a ∈ s) (come : a.deadline ≤ now) : a ∈ s.due now := by
  induction s with
  | nil => cases member
  | cons b rest ih =>
    obtain ⟨first, sorted'⟩ := List.pairwise_cons.mp sorted
    rcases List.mem_cons.mp member with rfl | member
    · simp [due, come]
    · have come_b : b.deadline ≤ now := by
        have := notAfter_iff.mp (first a member)
        rw [Instant.le_def] at *
        omega
      have due_rest : a ∈ Schedule.due now rest := ih sorted' member
      simp only [due, List.takeWhile_cons, come_b, decide_true, if_true]
      exact List.mem_cons_of_mem _ due_rest

theorem mem_of_mem_due (member : a ∈ s.due now) : a ∈ s := List.takeWhile_subset _ member

end Schedule

/-- The same alarm, or a periodic one after it was taken. -/
def Alarm.Leads (a b : Alarm α) : Prop :=
  b = a ∨ ∃ now period, a.period = some period ∧
    b = { a with deadline := Schedule.following now period a.deadline }

theorem Alarm.Leads.id {a b : Alarm α} (leads : a.Leads b) : b.id = a.id := by
  obtain rfl | ⟨_, _, -, rfl⟩ := leads <;> rfl

theorem Alarm.Leads.callback {a b : Alarm α} (leads : a.Leads b) : b.callback = a.callback := by
  obtain rfl | ⟨_, _, -, rfl⟩ := leads <;> rfl

/-- The alarms that an awake thread has still to fire. -/
def TimerPhase.batch : TimerPhase α → List (Firing α)
  | asleep _ => []
  | awake batch => batch

@[simp] theorem TimerPhase.batch_wake (p : TimerPhase α) : p.wake.batch = p.batch := by
  cases p <;> rfl

@[simp] theorem TimerPhase.isAsleep_wake (p : TimerPhase α) : p.wake.isAsleep = false := by
  cases p <;> rfl

namespace Clock

/-- What has been taken to be fired, and has not been fired. -/
def taken (k : Clock α) : List (Firing α) := k.timers.flatMap (·.phase.batch)

/-- One step of a clock; the alarms that are added are of a kind. -/
inductive Step (kind : Clock α → Alarm α → Prop) : Clock α → Clock α → Prop where
  | start {k k' : Clock α} {notices : List ClockNotice} : k.start = .ok (k', notices) →
      Step kind k k'
  | stop (k : Clock α) : Step kind k k.stop.1
  | add (k : Clock α) (callback : α) (deadline : Instant) (period : Option Duration) :
      kind k ⟨k.nextId, deadline, period, callback⟩ → Step kind k (k.add callback deadline period).1
  | remove (k : Clock α) (id : AlarmId) : Step kind k (k.remove id).1
  | move {k : Clock α} (now : Instant) {t : Timer α} : t ∈ k.timers → Step kind k (k.move now t).1
  /-- A callback panics, which ends its thread. -/
  | drop (k : Clock α) (generation : Nat) : Step kind k (k.dropTimer generation)

abbrev Steps (kind : Clock α → Alarm α → Prop) : Clock α → Clock α → Prop :=
  Relation.ReflTransGen (Step kind)

abbrev NoAlarm : Clock α → Alarm α → Prop := fun _ _ => False

theorem NoAlarm.foreign (owner : α) (k : Clock α) (a : Alarm α) (added : NoAlarm k a) :
    a.callback ≠ owner := added.elim

variable {kind : Clock α → Alarm α → Prop} {k k' : Clock α}

/-- What one move of a thread comes to. -/
inductive Move (k : Clock α) (now : Instant) (t : Timer α) :
    Clock α × Option (Firing α) × List ClockNotice → Prop where
  | wake {wakeAt : Option Instant} : t.phase = .asleep wakeAt →
      Move k now t (k.setPhase t.generation (.awake []), none, [])
  | fire {f : Firing α} {rest : List (Firing α)} : t.phase = .awake (f :: rest) →
      Move k now t (k.setPhase t.generation (.awake rest), some f, [.fired f.id])
  | ends : t.phase = .awake [] → t.generation ≠ k.generation →
      Move k now t (k.dropTimer t.generation, none, [])
  | sleep : t.phase = .awake [] → t.generation = k.generation → k.alarms.due now = [] →
      Move k now t (k.setPhase t.generation (.asleep k.nextDeadline), none, [])
  | take : t.phase = .awake [] → t.generation = k.generation → k.alarms.due now ≠ [] →
      Move k now t ((k.take now).1.setPhase t.generation
        (.awake ((k.alarms.due now).map Alarm.firing)), none, (k.take now).2.2)

theorem move_cases (k : Clock α) (now : Instant) (t : Timer α) : Move k now t (k.move now t) := by
  unfold move
  split
  · next sleeping => exact .wake sleeping
  · next firing => exact .fire firing
  · next empty =>
    split
    · next current =>
      have taken : k.take now =
        ((k.take now).1, (k.alarms.due now).map Alarm.firing, (k.take now).2.2) := rfl
      by_cases due : k.alarms.due now = []
      · rw [taken, due]
        exact .sleep empty current due
      · obtain ⟨a, rest, first⟩ := List.exists_cons_of_ne_nil due
        have move : Move k now t _ := .take empty current due
        rw [taken, first]
        rw [first] at move
        exact move
    · next stale => exact .ends empty stale

/-! ## What is to be fired -/

theorem mem_taken {f : Firing α} : f ∈ k.taken ↔ ∃ t ∈ k.timers, f ∈ t.phase.batch := by
  simp [taken]

theorem mem_taken_setPhase {generation : Nat} {phase : TimerPhase α} {f : Firing α}
    (member : f ∈ (k.setPhase generation phase).taken) : f ∈ phase.batch ∨ f ∈ k.taken := by
  obtain ⟨t', ht', hf⟩ := mem_taken.mp member
  obtain ⟨t, ht, rfl⟩ := List.mem_map.mp ht'
  split at hf
  · exact .inl hf
  · exact .inr (mem_taken.mpr ⟨t, ht, hf⟩)

/-- Waking a thread gives it nothing to fire. -/
theorem mem_wakeOne {timers : List (Timer α)} {t : Timer α} (member : t ∈ wakeOne timers) :
    ∃ u ∈ timers, t = u ∨ (u.phase.isAsleep = true ∧ t = { u with phase := u.phase.wake }) := by
  induction timers with
  | nil => cases member
  | cons u rest ih =>
    unfold wakeOne at member
    split at member
    · next sleeping =>
      rcases List.mem_cons.mp member with rfl | member
      · exact ⟨u, by simp, .inr ⟨sleeping, rfl⟩⟩
      · exact ⟨t, by simp [member], .inl rfl⟩
    · rcases List.mem_cons.mp member with rfl | member
      · exact ⟨t, by simp, .inl rfl⟩
      · obtain ⟨u', hu', same⟩ := ih member
        exact ⟨u', by simp [hu'], same⟩

theorem generations_wakeOne (timers : List (Timer α)) :
    (wakeOne timers).map (·.generation) = timers.map (·.generation) := by
  induction timers with
  | nil => rfl
  | cons t rest ih =>
    unfold wakeOne
    split <;> simp [ih]

theorem mem_flatMap_wakeOne {timers : List (Timer α)} {f : Firing α} :
    f ∈ (wakeOne timers).flatMap (·.phase.batch) ↔ f ∈ timers.flatMap (·.phase.batch) := by
  induction timers with
  | nil => rfl
  | cons t rest ih =>
    unfold wakeOne
    split
    · simp
    · simp only [List.flatMap_cons, List.mem_append, ih]

/-! ## What a step keeps -/

theorem step_of_start {notices : List ClockNotice} (started : k.start = .ok (k', notices)) :
    Step NoAlarm k k' := .start started

theorem start_cases {notices : List ClockNotice} (started : k.start = .ok (k', notices)) :
    (k.isRunning = true ∧ k' = k) ∨
    (k.isRunning = false ∧ k.spawnFault = none ∧ k' = { k with
      isRunning := true, timers := k.timers ++ [⟨k.generation, .awake []⟩] }) := by
  unfold Clock.start at started
  split at started
  · next running =>
    cases started
    exact .inl ⟨running, rfl⟩
  · next stopped =>
    split at started
    · next spawns =>
      cases started
      exact .inr ⟨(Bool.not_eq_true _).mp stopped, spawns, rfl⟩
    · cases started

theorem alarms_start {notices : List ClockNotice} (started : k.start = .ok (k', notices)) :
    k'.alarms = k.alarms := by
  obtain ⟨-, rfl⟩ | ⟨-, -, rfl⟩ := start_cases started <;> rfl

theorem nextId_start {notices : List ClockNotice} (started : k.start = .ok (k', notices)) :
    k'.nextId = k.nextId := by
  obtain ⟨-, rfl⟩ | ⟨-, -, rfl⟩ := start_cases started <;> rfl

theorem stop_cases (k : Clock α) : (k.isRunning = false ∧ k.stop.1 = k) ∨
    (k.isRunning = true ∧ k.stop.1 = { k with
      isRunning := false, generation := k.generation + 1, timers := wakeAll k.timers }) := by
  unfold Clock.stop
  split
  · next running => exact .inr ⟨running, rfl⟩
  · next stopped => exact .inl ⟨(Bool.not_eq_true _).mp stopped, rfl⟩

theorem remove_cases (k : Clock α) (id : AlarmId) : (k.remove id).1 = k ∨
    (k.remove id).1 = { k with alarms := k.alarms.remove id, timers := wakeOne k.timers } := by
  unfold Clock.remove
  split
  · exact .inr rfl
  · exact .inl rfl

theorem mem_alarms_remove {id : AlarmId} {a : Alarm α} :
    a ∈ (k.remove id).1.alarms ↔ a ∈ k.alarms ∧ a.id ≠ id := by
  unfold Clock.remove
  split
  · exact Schedule.mem_remove
  · next absent =>
    refine ⟨fun member => ⟨member, fun same => absent ?_⟩, And.left⟩
    exact Schedule.hasId_iff.mpr ⟨a, member, same⟩

theorem Step.config (step : Step kind k k') : k'.config = k.config := by
  cases step with
  | start started => obtain ⟨-, rfl⟩ | ⟨-, -, rfl⟩ := start_cases started <;> rfl
  | stop => obtain ⟨-, same⟩ | ⟨-, same⟩ := stop_cases k <;> rw [same]
  | add callback deadline period => rfl
  | remove id => obtain same | same := remove_cases k id <;> rw [same]
  | @move now t member =>
    have moved := move_cases k now t
    generalize k.move now t = result at moved
    cases moved <;> rfl
  | drop generation => rfl

/-- No step changes under what circumstances a thread can be made. -/
theorem Step.spawnFault (step : Step kind k k') : k'.spawnFault = k.spawnFault := by
  cases step with
  | start started => obtain ⟨-, rfl⟩ | ⟨-, -, rfl⟩ := start_cases started <;> rfl
  | stop => obtain ⟨-, same⟩ | ⟨-, same⟩ := stop_cases k <;> rw [same] <;> rfl
  | add callback deadline period => rfl
  | remove id => obtain same | same := remove_cases k id <;> rw [same] <;> rfl
  | @move now t member =>
    have moved := move_cases k now t
    generalize k.move now t = result at moved
    cases moved <;> rfl
  | drop generation => rfl

theorem Step.nextId_le (step : Step kind k k') : k.nextId ≤ k'.nextId := by
  cases step with
  | start started => obtain ⟨-, rfl⟩ | ⟨-, -, rfl⟩ := start_cases started <;> exact Nat.le_refl _
  | stop => obtain ⟨-, same⟩ | ⟨-, same⟩ := stop_cases k <;> simp [same]
  | add callback deadline period => exact Nat.le_succ _
  | remove id => obtain same | same := remove_cases k id <;> simp [same]
  | @move now t member =>
    have moved := move_cases k now t
    generalize k.move now t = result at moved
    cases moved <;> exact Nat.le_refl _
  | drop generation => exact Nat.le_refl _

/-- Every alarm was there, perhaps at an earlier deadline, or is new. -/
theorem Step.alarms (step : Step kind k k') {a' : Alarm α} (member : a' ∈ k'.alarms) :
    (∃ a ∈ k.alarms, a.Leads a') ∨ (kind k a' ∧ a'.id = k.nextId) := by
  have kept : ∀ {a}, a ∈ k.alarms → ∃ b ∈ k.alarms, b.Leads a :=
    fun {a} member => ⟨a, member, .inl rfl⟩
  cases step with
  | start started =>
    obtain ⟨-, rfl⟩ | ⟨-, -, rfl⟩ := start_cases started <;> exact .inl (kept member)
  | stop =>
    obtain ⟨-, same⟩ | ⟨-, same⟩ := stop_cases k <;> rw [same] at member <;>
      exact .inl (kept member)
  | add callback deadline period allowed =>
    rcases Schedule.mem_insert.mp member with rfl | member
    · exact .inr ⟨allowed, rfl⟩
    · exact .inl (kept member)
  | remove id => exact .inl (kept (mem_alarms_remove.mp member).1)
  | @move now t _ =>
    have moved := move_cases k now t
    generalize k.move now t = result at moved member
    cases moved with
    | take _ _ _ =>
      rcases Schedule.mem_afterTaking.mp member with late | ⟨a, due, period, periodic, rfl⟩
      · exact .inl (kept (List.dropWhile_subset _ late))
      · exact .inl ⟨a, Schedule.mem_of_mem_due due, .inr ⟨now, period, periodic, rfl⟩⟩
    | _ => exact .inl (kept member)
  | drop generation => exact .inl (kept member)

theorem mem_taken_dropTimer {generation : Nat} {f : Firing α}
    (member : f ∈ (k.dropTimer generation).taken) : f ∈ k.taken := by
  obtain ⟨t, ht, hf⟩ := mem_taken.mp member
  exact mem_taken.mpr ⟨t, (List.mem_filter.mp ht).1, hf⟩

/-- What is to be fired after a move of a thread was so before, or is due and has been taken. -/
theorem mem_taken_move {now : Instant} {t : Timer α} (ht : t ∈ k.timers) {f : Firing α}
    (member : f ∈ (k.move now t).1.taken) :
    f ∈ k.taken ∨ ∃ a ∈ k.alarms.due now, f = a.firing := by
  have moved := move_cases k now t
  generalize k.move now t = result at moved member
  cases moved with
  | wake sleeping =>
    exact .inl ((mem_taken_setPhase member).resolve_left (by simp [TimerPhase.batch]))
  | @fire first rest firing =>
    rcases mem_taken_setPhase member with left | member
    · exact .inl (mem_taken.mpr ⟨t, ht, by rw [firing]; exact List.mem_cons_of_mem _ left⟩)
    · exact .inl member
  | ends empty stale => exact .inl (mem_taken_dropTimer member)
  | sleep _ _ _ =>
    exact .inl ((mem_taken_setPhase member).resolve_left (by simp [TimerPhase.batch]))
  | take _ _ _ =>
    rcases mem_taken_setPhase member with due | member
    · obtain ⟨a, ha, rfl⟩ := List.mem_map.mp due
      exact .inr ⟨a, ha, rfl⟩
    · exact .inl member

/-- Every alarm to be fired was so before, or was scheduled. -/
theorem Step.taken (step : Step kind k k') {f : Firing α} (member : f ∈ k'.taken) :
    f ∈ k.taken ∨ ∃ a ∈ k.alarms, f = a.firing := by
  cases step with
  | start started =>
    obtain ⟨-, rfl⟩ | ⟨-, -, rfl⟩ := start_cases started
    · exact .inl member
    · exact .inl (by simpa [Clock.taken, TimerPhase.batch] using member)
  | stop =>
    obtain ⟨-, same⟩ | ⟨-, same⟩ := stop_cases k <;> rw [same] at member
    · exact .inl member
    · exact .inl (by simpa [Clock.taken, wakeAll, List.flatMap_map] using member)
  | add callback deadline period allowed =>
    refine .inl ?_
    simp only [Clock.taken, Clock.add] at member
    split at member
    · exact mem_flatMap_wakeOne.mp member
    · exact member
  | remove id =>
    obtain same | same := remove_cases k id <;> rw [same] at member
    · exact .inl member
    · exact .inl (mem_flatMap_wakeOne.mp member)
  | move now ht =>
    rcases mem_taken_move ht member with earlier | ⟨a, due, rfl⟩
    · exact .inl earlier
    · exact .inr ⟨a, Schedule.mem_of_mem_due due, rfl⟩
  | drop generation => exact .inl (mem_taken_dropTimer member)

/-! ## Sound clocks -/

/-- What holds of every clock. -/
structure Sound (k : Clock α) : Prop where
  sorted : k.alarms.Sorted
  /-- Ids are issued in order. -/
  ids : ∀ a ∈ k.alarms, a.id < k.nextId
  /-- Every thread has a generation of its own, later ones later. -/
  generations : (k.timers.map (·.generation)).Pairwise (· < ·)
  bounded : ∀ g ∈ k.timers.map (·.generation), g ≤ k.generation
  /-- A stopped clock has only threads whose generation is over. -/
  serves : k.generation ∈ k.timers.map (·.generation) → k.isRunning = true
  /-- Threads whose generation is over do not sleep. -/
  awake : ∀ t ∈ k.timers, t.phase.isAsleep = true → t.generation = k.generation
  spawns : k.isRunning = true → k.spawnFault = none

theorem sound_new (config : ClockConfig) (canSpawn : Nat → Bool) :
    ({ config, canSpawn } : Clock α).Sound where
  sorted := .nil
  ids := by simp
  generations := .nil
  bounded := by simp
  serves := by simp
  awake := by simp
  spawns := by simp

/-- Scheduled alarms are told apart by their ids in 64 bits, up to 2^64 of them. -/
theorem Sound.ofNat_id_inj {a b : Alarm α} (sound : k.Sound) (few : k.nextId ≤ UInt64.size)
    (ha : a ∈ k.alarms) (hb : b ∈ k.alarms) :
    UInt64.ofNat a.id = UInt64.ofNat b.id ↔ a.id = b.id :=
  AlarmId.ofNat_inj few (sound.ids a ha) (sound.ids b hb)

/-- Only what the threads do has changed, and those that fell asleep were at work. -/
theorem Sound.rephase (sound : k.Sound) {timers : List (Timer α)}
    (same : timers.map (·.generation) = k.timers.map (·.generation))
    (awake : ∀ t ∈ timers, t.phase.isAsleep = true → t.generation = k.generation) :
    ({ k with timers } : Clock α).Sound where
  sorted := sound.sorted
  ids := sound.ids
  generations := same ▸ sound.generations
  bounded := same ▸ sound.bounded
  serves := same ▸ sound.serves
  awake := awake
  spawns := sound.spawns

theorem Sound.wakeOne (sound : k.Sound) : ({ k with timers := wakeOne k.timers } : Clock α).Sound :=
  sound.rephase (generations_wakeOne _) fun t ht asleep => by
    obtain ⟨u, hu, rfl | ⟨-, rfl⟩⟩ := mem_wakeOne ht
    · exact sound.awake t hu asleep
    · simp at asleep

theorem Sound.setPhase (sound : k.Sound) {generation : Nat} {phase : TimerPhase α}
    (current : phase.isAsleep = true → generation = k.generation) :
    (k.setPhase generation phase).Sound := by
  refine sound.rephase ?_ fun t' ht' asleep => ?_
  · rw [List.map_map]
    refine List.map_congr_left fun t _ => ?_
    simp only [Function.comp_apply]
    split <;> rfl
  · obtain ⟨t, ht, rfl⟩ := List.mem_map.mp ht'
    split at asleep
    · next same =>
      rw [if_pos same]
      exact same.trans (current asleep)
    · next other =>
      rw [if_neg other]
      exact sound.awake t ht asleep

theorem Sound.reschedule (sound : k.Sound) {alarms : Schedule α} {nextId : AlarmId}
    (sorted : alarms.Sorted) (ids : ∀ a ∈ alarms, a.id < nextId) :
    ({ k with alarms, nextId } : Clock α).Sound :=
  { sound with sorted, ids }

theorem Sound.dropTimer (sound : k.Sound) (generation : Nat) : (k.dropTimer generation).Sound := by
  have fewer : ((k.dropTimer generation).timers.map (·.generation)).Sublist
      (k.timers.map (·.generation)) := List.filter_sublist.map _
  exact {
    sorted := sound.sorted
    ids := sound.ids
    generations := sound.generations.sublist fewer
    bounded := fun g hg => sound.bounded g (fewer.subset hg)
    serves := fun present => sound.serves (fewer.subset present)
    awake := fun t ht => sound.awake t (List.mem_filter.mp ht).1
    spawns := sound.spawns }

theorem Step.sound (step : Step kind k k') (sound : k.Sound) : k'.Sound := by
  cases step with
  | start started =>
    obtain ⟨-, rfl⟩ | ⟨stopped, spawns, rfl⟩ := start_cases started
    · exact sound
    · have earlier : ∀ g ∈ k.timers.map (·.generation), g < k.generation := by
        intro g hg
        refine Nat.lt_of_le_of_ne (sound.bounded g hg) ?_
        rintro rfl
        simp [sound.serves hg] at stopped
      exact {
        sorted := sound.sorted
        ids := sound.ids
        generations := by
          simpa [List.pairwise_append, sound.generations] using earlier
        bounded := by
          simpa [or_imp, forall_and] using sound.bounded
        serves := fun _ => rfl
        awake := by
          simpa [or_imp, forall_and, TimerPhase.isAsleep] using sound.awake
        spawns := fun _ => spawns }
  | stop =>
    obtain ⟨-, same⟩ | ⟨running, same⟩ := stop_cases k <;> rw [same]
    · exact sound
    · have kept : (wakeAll k.timers).map (·.generation) = k.timers.map (·.generation) := by
        simp [wakeAll]
      exact {
        sorted := sound.sorted
        ids := sound.ids
        generations := kept ▸ sound.generations
        bounded := fun g hg => Nat.le_succ_of_le (sound.bounded g (kept ▸ hg))
        serves := fun present => absurd (sound.bounded _ (kept ▸ present)) (Nat.not_succ_le_self _)
        awake := by simp [wakeAll]
        spawns := by simp }
  | add callback deadline period =>
    have added : ({ k with
        alarms := k.alarms.insert ⟨k.nextId, deadline, period, callback⟩
        nextId := k.nextId + 1 } : Clock α).Sound := by
      refine sound.reschedule sound.sorted.insert fun a member => ?_
      rcases Schedule.mem_insert.mp member with rfl | member
      · exact Nat.lt_succ_self _
      · exact Nat.lt_succ_of_lt (sound.ids a member)
    simp only [Clock.add]
    split
    · exact added.wakeOne
    · exact added
  | remove id =>
    obtain same | same := remove_cases k id <;> rw [same]
    · exact sound
    · have removed : ({ k with alarms := k.alarms.remove id } : Clock α).Sound :=
        sound.reschedule (sound.sorted.sublist List.filter_sublist) fun a member =>
          sound.ids a (Schedule.mem_remove.mp member).1
      exact removed.wakeOne
  | @move now t member =>
    have moved := move_cases k now t
    generalize k.move now t = result at moved
    cases moved with
    | wake sleeping => exact sound.setPhase (by simp [TimerPhase.isAsleep])
    | fire firing => exact sound.setPhase (by simp [TimerPhase.isAsleep])
    | ends empty stale => exact sound.dropTimer _
    | sleep empty current _ => exact sound.setPhase fun _ => current
    | take empty current _ =>
      have taken : (k.take now).1.Sound := by
        refine sound.reschedule sound.sorted.afterTaking fun a member => ?_
        rcases Schedule.mem_afterTaking.mp member with late | ⟨b, due, period, -, rfl⟩
        · exact sound.ids a (List.dropWhile_subset _ late)
        · exact sound.ids b (Schedule.mem_of_mem_due due)
      exact taken.setPhase (by simp [TimerPhase.isAsleep])
  | drop generation => exact sound.dropTimer generation

/-! ## One thread among the others -/

theorem thread?_eq_some {t : Timer α} {now : Instant} {generation : Nat}
    (found : k.thread? now generation = some t) :
    t ∈ k.timers ∧ t.generation = generation ∧ Timer.canMove now t = true := by
  obtain ⟨same, moves⟩ : t.generation = generation ∧ Timer.canMove now t = true := by
    simpa using List.find?_some found
  exact ⟨List.mem_of_find?_eq_some found, same, moves⟩

section Among

variable {t : Timer α} {front back : List (Timer α)}

theorem Sound.others (sound : k.Sound) (among : k.timers = front ++ t :: back) :
    (∀ u ∈ front, u.generation ≠ t.generation) ∧ ∀ u ∈ back, u.generation ≠ t.generation := by
  have generations := sound.generations
  rw [among, List.map_append, List.map_cons, List.pairwise_append,
    List.pairwise_cons] at generations
  obtain ⟨-, ⟨after, -⟩, before⟩ := generations
  exact ⟨fun u hu => Nat.ne_of_lt (before _ (List.mem_map_of_mem hu) _ List.mem_cons_self),
    fun u hu => Nat.ne_of_gt (after _ (List.mem_map_of_mem hu))⟩

theorem Sound.setPhase_among (sound : k.Sound) (among : k.timers = front ++ t :: back)
    (phase : TimerPhase α) :
    k.setPhase t.generation phase = { k with timers := front ++ { t with phase } :: back } := by
  obtain ⟨before, after⟩ := sound.others among
  have same : ∀ timers : List (Timer α), (∀ u ∈ timers, u.generation ≠ t.generation) →
      timers.map (fun u => if u.generation = t.generation then { u with phase } else u) = timers :=
    fun timers other =>
      (List.map_congr_left fun u hu => if_neg (other u hu)).trans (List.map_id _)
  simp only [Clock.setPhase, among, List.map_append, List.map_cons, if_pos, same front before,
    same back after]

theorem Sound.dropTimer_among (sound : k.Sound) (among : k.timers = front ++ t :: back) :
    k.dropTimer t.generation = { k with timers := front ++ back } := by
  obtain ⟨before, after⟩ := sound.others among
  have same : ∀ timers : List (Timer α), (∀ u ∈ timers, u.generation ≠ t.generation) →
      timers.filter (·.generation != t.generation) = timers :=
    fun timers other => List.filter_eq_self.mpr fun u hu => by simpa using other u hu
  simp [Clock.dropTimer, among, same front before, same back after]

/-- The thread of the present generation is the last one. -/
theorem Sound.last (sound : k.Sound) (among : k.timers = front ++ t :: back)
    (current : t.generation = k.generation) : back = [] := by
  refine List.eq_nil_iff_forall_not_mem.mpr fun u member => ?_
  have generations := sound.generations
  rw [among, List.map_append, List.map_cons, List.pairwise_append, List.pairwise_cons, current]
    at generations
  have later := generations.2.1.1 _ (List.mem_map_of_mem member)
  have bounded := sound.bounded u.generation (List.mem_map_of_mem (by simp [among, member]))
  omega

/-- A thread that can move is found under its generation. -/
theorem Sound.thread? (sound : k.Sound) {now : Instant} (member : t ∈ k.timers)
    (moves : Timer.canMove now t = true) : k.thread? now t.generation = some t := by
  obtain ⟨front, back, among⟩ := List.append_of_mem member
  have before : ∀ u ∈ front,
      ¬ (decide (u.generation = t.generation) && Timer.canMove now u) = true :=
    fun u hu => by simp [(sound.others among).1 u hu]
  rw [Clock.thread?, among, List.find?_append, List.find?_eq_none.mpr before,
    Option.none_or, List.find?_cons_of_pos (by simp [moves])]

end Among

end Clock
end EventEngine
