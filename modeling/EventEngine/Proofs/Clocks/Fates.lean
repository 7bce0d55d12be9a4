import EventEngine.Proofs.Clocks.Wakeups

/-!
# Fates of alarms

An alarm that fires once is scheduled, until it is either removed or taken into a batch; a periodic
one is scheduled until it is removed. An id that is no longer scheduled never is again, and no later
batch contains it, whatever the callbacks of the batches already taken do.
-/
namespace EventEngine

variable {α : Type}

namespace ClockNotice

/-- The ids of the batch, where one was taken. -/
def takenIds : ClockNotice → List AlarmId
  | taken _ batch => batch.map (·.1)
  | _ => []

/-- Nothing was added, removed or taken. -/
def isQuiet : ClockNotice → Bool
  | added _ _ _ | removed _ | taken _ _ => false
  | _ => true

theorem takenIds_of_quiet {notice : ClockNotice} (quiet : notice.isQuiet = true) :
    notice.takenIds = [] := by
  cases notice with
  | taken now batch => cases quiet
  | _ => rfl

end ClockNotice

namespace Schedule

variable {s : Schedule α} {id : AlarmId}

theorem hasId_iff_mem_ids : s.hasId id = true ↔ id ∈ s.ids := hasId_iff.trans mem_ids.symm

theorem count_ids_insert (a : Alarm α) (s : Schedule α) (id : AlarmId) :
    (s.insert a).ids.count id = s.ids.count id + if a.id = id then 1 else 0 := by
  have same : (s.insert a).ids.Perm (a.id :: s.ids) := (insert_perm a s).map _
  rw [same.count_eq, List.count_cons]
  simp

theorem count_ids_remove (s : Schedule α) (gone id : AlarmId) :
    (s.remove gone).ids.count id = if gone = id then 0 else s.ids.count id := by
  induction s with
  | nil => simp [remove, ids]
  | cons a rest ih =>
    simp only [remove, ids] at ih
    by_cases leaves : a.id = gone
    · subst leaves
      simp only [remove, ids, List.filter_cons, bne_self_eq_false, Bool.false_eq_true, if_false,
        List.map_cons, List.count_cons, beq_iff_eq, ih]
      split <;> simp
    · simp only [remove, ids, List.filter_cons, bne_iff_ne.mpr leaves, if_true, List.map_cons,
        List.count_cons, beq_iff_eq, ih]
      by_cases same : gone = id
      · rw [if_pos same, if_pos same, if_neg (same ▸ leaves)]
      · rw [if_neg same, if_neg same]

/-- Which of the alarms of an id fire once is decided by the period that they share. -/
theorem count_ids_once {period : Option Duration}
    (shared : ∀ a ∈ s, a.id = id → a.period = period) :
    (ids (s.filter (·.period.isNone))).count id = if period = none then s.ids.count id else 0 := by
  induction s with
  | nil => simp [ids]
  | cons a rest ih =>
    have ih := ih fun b member => shared b (List.mem_cons_of_mem _ member)
    have first := shared a (by simp)
    by_cases named : a.id = id
    · rw [← first named] at ih ⊢
      cases periodic : a.period with
      | none => simpa [periodic, named] using ih
      | some period => simpa [periodic] using ih
    · have skips : ∀ l : Schedule α, (ids (a :: l)).count id = l.ids.count id := fun l =>
        List.count_cons_of_ne named
      rw [List.filter_cons, skips, ← ih]
      split
      · exact skips _
      · rfl

end Schedule

namespace Timeline

variable {t u v : Timeline α} {id : AlarmId}

/-- How often the alarm was taken into a batch. -/
def takings (t : Timeline α) (id : AlarmId) : Nat :=
  (t.notices.flatMap ClockNotice.takenIds).count id

/-- How often a removal of the alarm answered that it was scheduled. -/
def removals (t : Timeline α) (id : AlarmId) : Nat := t.notices.count (.removed id)

/-- What a step does to the schedule, and what it says of it. -/
inductive Change (t : Timeline α) : Timeline α → Prop where
  | quiet {u : Timeline α} (new : List ClockNotice) : u.clock.alarms = t.clock.alarms →
      u.clock.nextId = t.clock.nextId → u.notices = new ++ t.notices →
      (∀ notice ∈ new, notice.isQuiet = true) → Change t u
  | add {u : Timeline α} (a : Alarm α) : a.id = t.clock.nextId →
      u.clock.alarms = t.clock.alarms.insert a → u.clock.nextId = t.clock.nextId + 1 →
      u.notices = .added a.id a.deadline a.period :: t.notices → Change t u
  | remove (id : AlarmId) : id ∈ t.clock.alarms.ids →
      (t.remove id).clock.alarms = t.clock.alarms.remove id →
      (t.remove id).clock.nextId = t.clock.nextId →
      (t.remove id).notices = .removed id :: t.notices → Change t (t.remove id)
  | take {u : Timeline α} (skips : List ClockNotice) : t.clock.isRunning = true →
      u.clock.alarms = t.clock.alarms.afterTaking t.now → u.clock.nextId = t.clock.nextId →
      u.notices = skips ++
        .taken t.now ((t.clock.alarms.due t.now).map fun a => (a.id, a.deadline)) :: t.notices →
      (∀ notice ∈ skips, notice.isQuiet = true) → Change t u

theorem remove_change (t : Timeline α) (id : AlarmId) : Change t (t.remove id) := by
  by_cases scheduled : t.clock.alarms.hasId id = true
  · refine .remove id (Schedule.hasId_iff_mem_ids.mp scheduled) ?_ ?_ ?_ <;>
      simp [Timeline.remove, Clock.remove, turn, scheduled]
  · refine .quiet [] ?_ ?_ ?_ nofun <;>
      simp [Timeline.remove, Clock.remove, turn, scheduled]

theorem move_change {timer : Timer α} (sound : t.clock.Sound) (member : timer ∈ t.clock.timers) :
    Change t (t.move timer) := by
  have moved := Clock.move_cases t.clock t.now timer
  have same : t.move timer =
    t.turn (t.clock.move t.now timer).1 (t.clock.move t.now timer).2.2 := rfl
  rw [same]
  generalize t.clock.move t.now timer = result at moved
  cases moved with
  | wake _ => exact .quiet [] rfl rfl rfl nofun
  | fire _ => exact .quiet [_] rfl rfl rfl (by simp [ClockNotice.isQuiet])
  | ends _ _ => exact .quiet [] rfl rfl rfl nofun
  | sleep _ _ _ => exact .quiet [] rfl rfl rfl nofun
  | take _ current _ =>
    have running : t.clock.isRunning = true :=
      sound.serves (List.mem_map.mpr ⟨timer, member, current⟩)
    let skips := (t.clock.alarms.misses t.now).map fun m => ClockNotice.skipped m.1 m.2
    refine .take skips.reverse running rfl rfl ?_ ?_
    · simp [turn, Clock.take, skips]
    · intro notice skipped
      obtain ⟨miss, -, rfl⟩ := List.mem_map.mp (List.mem_reverse.mp skipped)
      rfl

theorem Next.change (step : Next t u) (sound : t.clock.Sound) : Change t u := by
  cases step with
  | idle idle =>
    cases idle with
    | advance d => exact .quiet [] rfl rfl rfl nofun
    | @start k notices started =>
      have quiet : ∀ notice ∈ notices.reverse, notice.isQuiet = true := by
        unfold Clock.start at started
        split at started
        · cases started
          exact nofun
        · split at started
          · cases started
            simp [ClockNotice.isQuiet]
          · cases started
      obtain ⟨-, rfl⟩ | ⟨-, -, rfl⟩ := Clock.start_cases started
      · exact .quiet _ rfl rfl rfl quiet
      · exact .quiet _ rfl rfl rfl quiet
    | stop =>
      have quiet : ∀ notice ∈ t.clock.stop.2.reverse, notice.isQuiet = true := by
        unfold Clock.stop
        split <;> simp [ClockNotice.isQuiet]
      obtain ⟨-, same⟩ | ⟨-, same⟩ := Clock.stop_cases t.clock
      · exact .quiet _ (congrArg (·.alarms) same) (congrArg (·.nextId) same) rfl quiet
      · exact .quiet _ (congrArg (·.alarms) same) (congrArg (·.nextId) same) rfl quiet
    | move member => exact move_change sound member
    | panic generation => exact .quiet [] rfl rfl rfl nofun
  | addOnce callback deadline => exact .add _ rfl rfl rfl rfl
  | addPeriodic callback period => exact .add _ rfl rfl rfl rfl
  | remove id => exact remove_change t id

/-! ## Counting -/

theorem takings_append {new : List ClockNotice} (told : u.notices = new ++ t.notices) :
    u.takings id = (new.flatMap ClockNotice.takenIds).count id + t.takings id := by
  rw [takings, told, List.flatMap_append, List.count_append, takings]

theorem removals_append {new : List ClockNotice} (told : u.notices = new ++ t.notices) :
    u.removals id = new.count (.removed id) + t.removals id := by
  rw [removals, told, List.count_append, removals]

theorem flatMap_takenIds_quiet {new : List ClockNotice}
    (quiet : ∀ notice ∈ new, notice.isQuiet = true) : new.flatMap ClockNotice.takenIds = [] :=
  List.flatMap_eq_nil_iff.mpr fun notice member =>
    ClockNotice.takenIds_of_quiet (quiet notice member)

theorem count_removed_quiet {new : List ClockNotice}
    (quiet : ∀ notice ∈ new, notice.isQuiet = true) : new.count (.removed id) = 0 :=
  List.count_eq_zero.mpr fun member => nomatch quiet _ member

/-- How the counts of an id change in a step. -/
theorem Change.counts (change : Change t u) (id : AlarmId) :
    (u.clock.alarms.ids.count id = t.clock.alarms.ids.count id ∧
      u.removals id = t.removals id ∧ u.takings id = t.takings id) ∨
    (id = t.clock.nextId ∧ u.clock.nextId = t.clock.nextId + 1 ∧
      u.removals id = t.removals id ∧ u.takings id = t.takings id) ∨
    (id ∈ t.clock.alarms.ids ∧ u.clock.alarms.ids.count id = 0 ∧
      u.removals id = t.removals id + 1 ∧ u.takings id = t.takings id) ∨
    (u.clock.alarms.ids.count id +
        (Schedule.ids ((t.clock.alarms.due t.now).filter (·.period.isNone))).count id =
        t.clock.alarms.ids.count id ∧
      u.removals id = t.removals id ∧
      u.takings id = t.takings id + (Schedule.ids (t.clock.alarms.due t.now)).count id) := by
  cases change with
  | quiet new alarms _ told quiet =>
    refine .inl ⟨by rw [alarms], ?_, ?_⟩
    · rw [removals_append told, count_removed_quiet quiet, Nat.zero_add]
    · rw [takings_append told, flatMap_takenIds_quiet quiet, List.count_nil, Nat.zero_add]
  | add a new alarms next told =>
    have removals : u.removals id = t.removals id := by simp [Timeline.removals, told]
    have takings : u.takings id = t.takings id := by
      simp [Timeline.takings, told, ClockNotice.takenIds]
    by_cases named : a.id = id
    · exact .inr (.inl ⟨named ▸ new, next, removals, takings⟩)
    · refine .inl ⟨?_, removals, takings⟩
      rw [alarms, Schedule.count_ids_insert, if_neg named, Nat.add_zero]
  | remove gone member alarms _ told =>
    have takings : (t.remove gone).takings id = t.takings id := by
      simp [Timeline.takings, told, ClockNotice.takenIds]
    by_cases named : gone = id
    · subst named
      refine .inr (.inr (.inl ⟨member, ?_, ?_, takings⟩))
      · rw [alarms, Schedule.count_ids_remove, if_pos rfl]
      · simp [Timeline.removals, told]
    · refine .inl ⟨?_, ?_, takings⟩
      · rw [alarms, Schedule.count_ids_remove, if_neg named]
      · simp [Timeline.removals, told, named]
  | take skips _ alarms _ told quiet =>
    refine .inr (.inr (.inr ⟨?_, ?_, ?_⟩))
    · rw [alarms]
      exact Schedule.count_ids_afterTaking ..
    · simp [Timeline.removals, told, count_removed_quiet quiet]
    · simp [Timeline.takings, told, flatMap_takenIds_quiet quiet, ClockNotice.takenIds,
        Schedule.ids, Function.comp_def, Nat.add_comm]

theorem Change.nextId_le (change : Change t u) : t.clock.nextId ≤ u.clock.nextId := by
  cases change with
  | quiet new alarms next told quiet => exact Nat.le_of_eq next.symm
  | add a new alarms next told => exact next ▸ Nat.le_succ _
  | remove id member alarms next told => exact Nat.le_of_eq next.symm
  | take skips running alarms next told quiet => exact Nat.le_of_eq next.symm

/-- The alarm of an id that was issued before has kept its period. -/
theorem Change.period_of_mem (change : Change t u) (issued : id < t.clock.nextId) {b : Alarm α}
    (member : b ∈ u.clock.alarms) (named : b.id = id) :
    ∃ a ∈ t.clock.alarms, a.id = id ∧ a.period = b.period := by
  cases change with
  | quiet new alarms next told quiet => exact ⟨b, alarms ▸ member, named, rfl⟩
  | add a new alarms next told =>
    rcases Schedule.mem_insert.mp (alarms ▸ member) with rfl | member
    · exact absurd (named.symm.trans new) (Nat.ne_of_lt issued)
    · exact ⟨b, member, named, rfl⟩
  | remove id member' alarms next told =>
    exact ⟨b, (Schedule.mem_remove.mp (alarms ▸ member)).1, named, rfl⟩
  | take skips running alarms next told quiet =>
    rcases Schedule.mem_afterTaking.mp (alarms ▸ member) with late | ⟨a, due, period, periodic, rfl⟩
    · exact ⟨b, List.dropWhile_subset _ late, named, rfl⟩
    · exact ⟨a, Schedule.mem_of_mem_due due, named, rfl⟩

theorem count_due_le (t : Timeline α) (id : AlarmId) :
    (Schedule.ids (t.clock.alarms.due t.now)).count id ≤ t.clock.alarms.ids.count id :=
  ((List.takeWhile_sublist _).map _).count_le id

/-! ## Fates -/

/-- The id was issued, and no alarm is scheduled under it. -/
def Gone (id : AlarmId) (t : Timeline α) : Prop :=
  id < t.clock.nextId ∧ id ∉ t.clock.alarms.ids

/-- An id that is gone stays gone, and is neither removed nor taken again. -/
theorem Gone.next (gone : Gone id t) (change : Change t u) :
    Gone id u ∧ u.removals id = t.removals id ∧ u.takings id = t.takings id := by
  obtain ⟨issued, absent⟩ := gone
  have issued' : id < u.clock.nextId := Nat.lt_of_lt_of_le issued change.nextId_le
  have none_left := List.count_eq_zero.mpr absent
  have due_le := count_due_le t id
  unfold Gone
  rw [← List.count_eq_zero]
  rcases change.counts id with same | new | removed | taken
  · exact ⟨⟨issued', same.1.trans none_left⟩, same.2⟩
  · exact absurd new.1 (Nat.ne_of_lt issued)
  · exact absurd removed.1 absent
  · exact ⟨⟨issued', by omega⟩, taken.2.1, by omega⟩

theorem Gone.run (reach : Reachable t) (gone : Gone id t) (run : Run t u) :
    Gone id u ∧ u.removals id = t.removals id ∧ u.takings id = t.takings id := by
  induction run with
  | refl => exact ⟨gone, rfl, rfl⟩
  | tail before step ih =>
    obtain ⟨gone, removals, takings⟩ := ih
    have change := step.change (reach.run before).sound
    obtain ⟨gone', removals', takings'⟩ := gone.next change
    exact ⟨gone', removals'.trans removals, takings'.trans takings⟩

/-- Nothing has happened under an id that is still to be issued. -/
theorem Reachable.unissued (reach : Reachable t) :
    ∀ id, t.clock.nextId ≤ id → t.removals id = 0 ∧ t.takings id = 0 := by
  refine reach.induct (P := fun t => ∀ id, t.clock.nextId ≤ id →
    t.removals id = 0 ∧ t.takings id = 0) (fun _ _ _ _ _ _ => ⟨rfl, rfl⟩) ?_
  intro t u reach unissued step id later
  have change := step.change reach.sound
  have later' : t.clock.nextId ≤ id := Nat.le_trans change.nextId_le later
  have absent : id ∉ t.clock.alarms.ids := by
    intro present
    obtain ⟨a, member, rfl⟩ := Schedule.mem_ids.mp present
    exact absurd (reach.sound.ids a member) (Nat.not_lt.mpr later')
  have none_left := List.count_eq_zero.mpr absent
  have due_le := count_due_le t id
  have before := unissued id later'
  rcases change.counts id with same | new | removed | taken
  · omega
  · exact absurd (new.1 ▸ new.2.1 ▸ later) (Nat.not_succ_le_self _)
  · exact absurd removed.1 absent
  · omega

/-- An alarm of this id and period was added, and it is either scheduled, or was removed, or was
taken never to be put back. -/
structure Fated (id : AlarmId) (period : Option Duration) (t : Timeline α) : Prop where
  issued : id < t.clock.nextId
  kept : ∀ a ∈ t.clock.alarms, a.id = id → a.period = period
  one : t.clock.alarms.ids.count id + t.removals id +
    (if period = none then t.takings id else 0) = 1

theorem Fated.next {period : Option Duration} (fated : Fated id period t) (change : Change t u) :
    Fated id period u where
  issued := Nat.lt_of_lt_of_le fated.issued change.nextId_le
  kept b member named := by
    obtain ⟨a, member, named, same⟩ := change.period_of_mem fated.issued member named
    exact same ▸ fated.kept a member named
  one := by
    have one := fated.one
    rcases change.counts id with ⟨scheduled, removals, takings⟩ | new | removed | taken
    · rw [scheduled, removals, takings]
      exact one
    · exact absurd new.1 (Nat.ne_of_lt fated.issued)
    · have present := List.count_pos_iff.mpr removed.1
      cases period with
      | none => simp only [if_true] at one ⊢; omega
      | some period => simp only [reduceCtorEq, if_false] at one ⊢; omega
    · have once := Schedule.count_ids_once (s := t.clock.alarms.due t.now) fun a due =>
        fated.kept a (Schedule.mem_of_mem_due due)
      cases period with
      | none => simp only [if_true] at one once ⊢; omega
      | some period => simp only [reduceCtorEq, if_false] at one once ⊢; omega

theorem Fated.run {period : Option Duration} (reach : Reachable t) (fated : Fated id period t)
    (run : Run t u) : Fated id period u := by
  induction run with
  | refl => exact fated
  | tail before step ih => exact ih.next (step.change (reach.run before).sound)

theorem Fated.of_add {a : Alarm α} (reach : Reachable t) (new : a.id = t.clock.nextId)
    (alarms : u.clock.alarms = t.clock.alarms.insert a)
    (next : u.clock.nextId = t.clock.nextId + 1)
    (told : u.notices = .added a.id a.deadline a.period :: t.notices) :
    Fated t.clock.nextId a.period u where
  issued := next ▸ Nat.lt_succ_self _
  kept b member named := by
    rcases Schedule.mem_insert.mp (alarms ▸ member) with rfl | member
    · rfl
    · exact absurd named (Nat.ne_of_lt (reach.sound.ids b member))
  one := by
    obtain ⟨removals, takings⟩ := reach.unissued t.clock.nextId (Nat.le_refl _)
    have absent : t.clock.alarms.ids.count t.clock.nextId = 0 := by
      refine List.count_eq_zero.mpr fun present => ?_
      obtain ⟨b, member, named⟩ := Schedule.mem_ids.mp present
      exact absurd named (Nat.ne_of_lt (reach.sound.ids b member))
    have removals' : u.removals t.clock.nextId = 0 := by
      simpa [Timeline.removals, told] using removals
    have takings' : u.takings t.clock.nextId = 0 := by
      simpa [Timeline.takings, told, ClockNotice.takenIds] using takings
    rw [alarms, Schedule.count_ids_insert, if_pos new, absent, removals', takings', ite_self]

theorem gone_remove (issued : id < t.clock.nextId) : Gone id (t.remove id) := by
  refine ⟨?_, fun present => ?_⟩
  · exact Nat.lt_of_lt_of_le issued (remove_change t id).nextId_le
  · obtain ⟨a, member, named⟩ := Schedule.mem_ids.mp present
    exact (Clock.mem_alarms_remove.mp member).2 named

/-- What a step says of removals and of batches. -/
theorem Change.told (change : Change t u) (ordered : t.clock.alarms.Ordered) :
    ∃ new, u.notices = new ++ t.notices ∧
      (∀ id, .removed id ∈ new → u = t.remove id ∧ id ∈ t.clock.alarms.ids) ∧
      ∀ now batch, .taken now batch ∈ new → now = t.now ∧ t.clock.isRunning = true ∧
        (batch.map (·.1)).Nodup ∧ ∀ entry ∈ batch, entry.2 ≤ now ∧
          ∃ a ∈ t.clock.alarms, a.id = entry.1 ∧ a.deadline = entry.2 := by
  cases change with
  | quiet new alarms next told quiet =>
    exact ⟨new, told, fun _ member => (nomatch quiet _ member),
      fun _ _ member => (nomatch quiet _ member)⟩
  | add a new alarms next told => exact ⟨[_], told, by simp, by simp⟩
  | remove id member alarms next told =>
    refine ⟨[_], told, fun id' removed => ?_, by simp⟩
    obtain rfl : id' = id := by simpa using removed
    exact ⟨rfl, member⟩
  | take skips running alarms next told quiet =>
    refine ⟨skips ++ [.taken t.now _], by rw [told, List.append_assoc]; rfl, ?_, ?_⟩
    · intro id removed
      rcases List.mem_append.mp removed with skip | same
      · exact nomatch quiet _ skip
      · simp at same
    · intro now batch taken
      rcases List.mem_append.mp taken with skip | same
      · exact nomatch quiet _ skip
      · obtain ⟨rfl, rfl⟩ : now = t.now ∧ batch = _ := by simpa using same
        refine ⟨rfl, running, ?_, fun entry member => ?_⟩
        · rw [List.map_map]
          exact ordered.distinct.sublist ((List.takeWhile_sublist _).map _)
        · obtain ⟨a, due, rfl⟩ := List.mem_map.mp member
          obtain ⟨member, come⟩ := (Schedule.mem_due_iff ordered.sorted).mp due
          exact ⟨come, a, member, rfl, rfl⟩

/-- An alarm that fires once is at every moment scheduled, or removed by one removal, or taken into
one batch; a periodic alarm is scheduled until one removal. A removal answers whether the alarm was
scheduled. After it, whatever it answered, and after an alarm was taken for the last time, no batch
contains the id and it is not scheduled again. A batch is taken while the clock is started; it has
scheduled alarms whose deadlines have come, none of them twice. -/
theorem alarm_fates (reach : Reachable t) :
    (∀ callback deadline u, Run (t.addOnce callback deadline) u →
      u.clock.alarms.ids.count t.clock.nextId + u.removals t.clock.nextId +
        u.takings t.clock.nextId = 1) ∧
    (∀ callback period u, Run (t.addPeriodic callback period) u →
      u.clock.alarms.ids.count t.clock.nextId + u.removals t.clock.nextId = 1) ∧
    (∀ id, (t.clock.remove id).2.1 = true ↔ id ∈ t.clock.alarms.ids) ∧
    (∀ id, (t.remove id).removals id =
      t.removals id + if (t.clock.remove id).2.1 = true then 1 else 0) ∧
    (∀ id u, id < t.clock.nextId → Run (t.remove id) u →
      id ∉ u.clock.alarms.ids ∧ u.takings id = (t.remove id).takings id) ∧
    (∀ id u, id < t.clock.nextId → id ∉ t.clock.alarms.ids → Run t u →
      id ∉ u.clock.alarms.ids ∧ u.removals id = t.removals id ∧ u.takings id = t.takings id) ∧
    ∀ u, Next t u → ∃ new, u.notices = new ++ t.notices ∧
      (∀ id, .removed id ∈ new → u = t.remove id ∧ (t.clock.remove id).2.1 = true) ∧
      ∀ now batch, .taken now batch ∈ new → now = t.now ∧ t.clock.isRunning = true ∧
        (batch.map (·.1)).Nodup ∧ ∀ entry ∈ batch, entry.2 ≤ now ∧
          ∃ a ∈ t.clock.alarms, a.id = entry.1 ∧ a.deadline = entry.2 := by
  have answers : ∀ id, (t.clock.remove id).2.1 = true ↔ id ∈ t.clock.alarms.ids := by
    intro id
    rw [← Schedule.hasId_iff_mem_ids, Clock.remove]
    split <;> simp [*]
  refine ⟨?_, ?_, answers, ?_, ?_, ?_, ?_⟩
  · intro callback deadline u run
    have reach' := reach.next (.addOnce t callback deadline)
    have fated := Fated.of_add (u := t.addOnce callback deadline) reach rfl rfl rfl rfl
    simpa using (fated.run reach' run).one
  · intro callback period u run
    have reach' := reach.next (.addPeriodic t callback period)
    have fated := Fated.of_add (u := t.addPeriodic callback period) reach rfl rfl rfl rfl
    simpa using (fated.run reach' run).one
  · intro id
    by_cases scheduled : t.clock.alarms.hasId id = true <;>
      simp [Timeline.removals, Timeline.remove, Clock.remove, turn, scheduled]
  · intro id u issued run
    have reach' := reach.next (.remove t id)
    obtain ⟨gone, -, takings⟩ := (gone_remove issued).run reach' run
    exact ⟨gone.2, takings⟩
  · intro id u issued absent run
    obtain ⟨gone, counts⟩ := Gone.run reach ⟨issued, absent⟩ run
    exact ⟨gone.2, counts⟩
  · intro u step
    obtain ⟨new, told, removed, taken⟩ := (step.change reach.sound).told reach.ordered
    refine ⟨new, told, fun id member => ?_, taken⟩
    obtain ⟨same, present⟩ := removed id member
    exact ⟨same, (answers id).mpr present⟩

/-- A session that goes on by adding an alarm is a run from there. -/
theorem run_of_added (s : ClockSession) (patience : Nat) (label : String) (deadline : Instant)
    (script : List ClockAction) (rest : List ClockSession.Step) :
    Run (s.timeline.addOnce ⟨label, script⟩ deadline)
      (s.steps patience (.act (.add label deadline script) :: rest)).timeline :=
  (ClockSession.settle_run patience (s.begin (.act (.add label deadline script))).1).trans
    (ClockSession.steps_run patience _ rest)

/-- Three alarms of one instant are taken in one batch. The callback of the first removes the other
two: too late for the second, which fires once, and in time for the third. -/
theorem fates_in_one_batch :
    let s := ClockSession.steps 20 {}
      [.act .start, .act (.add "a" (.ofParts 1 0) [.remove "b", .remove "c"])]
    let u := (s.steps 20 [.act (.add "b" (.ofParts 1 0) []),
      .act (.addPeriodic "c" (.ofParts 1 0) []), .advance (.ofParts 1 0)]).timeline
    s.timeline.Reachable ∧
      u.clock.alarms.ids.count 2 + u.removals 2 + u.takings 2 = 1 ∧ u.takings 2 = 1 ∧
      u.clock.alarms.ids.count 3 = 0 ∧ u.removals 3 = 1 ∧ u.takings 3 = 1 := by
  intro s u
  have reach : s.timeline.Reachable :=
    ClockSession.reachable_new.run (ClockSession.steps_run ..)
  have issued : s.timeline.clock.nextId = 2 := by decide +kernel
  obtain ⟨once, -⟩ := alarm_fates reach
  have sum := once _ _ u (run_of_added s 20 "b" (.ofParts 1 0) [] _)
  rw [issued] at sum
  exact ⟨reach, sum, by decide +kernel⟩

end Timeline
end EventEngine
