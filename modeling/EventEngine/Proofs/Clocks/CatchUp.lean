import EventEngine.Proofs.Clocks.Order

/-!
# Catching up

A periodic alarm that was missed goes on at the first instant of its grid that is still ahead. The
way there may be interrupted: going on from an instant that was reached before leads to the same
instant, also where the steps become hundred years long, and where time ends.
-/
namespace EventEngine.Schedule

variable {α : Type} {now t₁ t₂ t next : Instant} {period : Duration} {s : Schedule α} {a : Alarm α}

/-- Where a step leads nowhere later it leads nowhere. -/
theorem deadlineAfter_of_ends (ends : ¬ next < next.deadlineAfter period) :
    next.deadlineAfter period = next := by
  have le := next.le_deadlineAfter period
  rw [Instant.lt_def] at ends
  rw [Instant.le_def] at le
  have same : (next.deadlineAfter period).nanos = next.nanos := by omega
  exact congrArg Instant.mk same

/-- The instant at which a catch-up ends does not depend on what has been counted. -/
theorem catchUp_fst (now : Instant) (period : Duration) (next : Instant)
    (skipped skipped' : UInt32) :
    (catchUp now period next skipped).1 = (catchUp now period next skipped').1 := by
  induction next, skipped using catchUp.induct now period generalizing skipped' with
  | case1 next skipped come moves ih =>
    rw [catchUp_of_moves come moves, catchUp_of_moves come moves]
    exact ih _
  | case2 next skipped come ends => rw [catchUp_of_ends ends, catchUp_of_ends ends]
  | case3 next skipped ahead => rw [catchUp_of_ahead ahead, catchUp_of_ahead ahead]

/-- A catch-up may be interrupted. -/
theorem catchUp_catchUp (le : t₁ ≤ t₂) (next : Instant) (skipped skipped' : UInt32) :
    (catchUp t₂ period (catchUp t₁ period next skipped).1 skipped').1 =
      (catchUp t₂ period next skipped').1 := by
  induction next, skipped using catchUp.induct t₁ period with
  | case1 next skipped come moves ih =>
    have come' : next ≤ t₂ := Nat.le_trans come le
    rw [catchUp_of_moves come moves, ih, catchUp_of_moves come' moves]
    exact catchUp_fst ..
  | case2 next skipped come ends => rw [catchUp_of_ends ends]
  | case3 next skipped ahead => rw [catchUp_of_ahead ahead]

/-- From an instant that has come, the next one is gone on from. -/
theorem catchUp_eq_following (come : next ≤ now) (skipped : UInt32) :
    (catchUp now period next skipped).1 = following now period next := by
  rw [following_eq]
  by_cases moves : next < next.deadlineAfter period
  · rw [catchUp_of_moves come moves]
    exact catchUp_fst ..
  · rw [deadlineAfter_of_ends moves]
    exact catchUp_fst ..

/-- Following the grid by way of an earlier instant leads where following it at once does. -/
theorem following_following (le : t₁ ≤ t₂) (period : Duration) (deadline : Instant) :
    following t₂ period deadline =
      if following t₁ period deadline ≤ t₂ then
        following t₂ period (following t₁ period deadline)
      else following t₁ period deadline := by
  have resumed : (catchUp t₂ period (following t₁ period deadline) 0).1 =
      following t₂ period deadline := by
    rw [following_eq, following_eq]
    exact catchUp_catchUp le _ 0 0
  rw [← resumed]
  split
  · next come => exact catchUp_eq_following come 0
  · next ahead => rw [catchUp_of_ahead ahead]

/-- What two takings make of an alarm the later one alone makes of it. -/
theorem after_after (le : t₁ ≤ t₂) (a : Alarm α) :
    (a.after t₁).bind (Alarm.after t₂) = a.after t₂ := by
  by_cases due : a.deadline ≤ t₁
  · have due' : a.deadline ≤ t₂ := Nat.le_trans due le
    rw [Alarm.after_of_due due, Alarm.after_of_due due']
    cases periodic : a.period with
    | none => simp [Alarm.renewed, periodic]
    | some period =>
      have resumed := following_following le period a.deadline
      simp only [Alarm.renewed, Alarm.after, periodic, Option.map_some, Option.bind_some]
      split
      · next come => rw [resumed, if_pos come]
      · next ahead => rw [resumed, if_neg ahead]
  · rw [Alarm.after_of_not_due due, Option.bind_some]

/-- Taking what is due at an instant and then at a later one leaves what the later taking alone
leaves. -/
theorem Ordered.afterTaking_afterTaking (ordered : s.Ordered) (le : t₁ ≤ t₂) :
    (s.afterTaking t₁).afterTaking t₂ = s.afterTaking t₂ := by
  have first : Ordered (s.afterTaking t₁) := ordered.afterTaking
  refine Ordered.eq_of_perm first.afterTaking ordered.afterTaking ?_
  calc ((s.afterTaking t₁).afterTaking t₂).Perm ((s.afterTaking t₁).filterMap (Alarm.after t₂)) :=
        first.sorted.afterTaking_perm
    List.Perm _ ((s.filterMap (Alarm.after t₁)).filterMap (Alarm.after t₂)) :=
        ordered.sorted.afterTaking_perm.filterMap _
    _ = s.filterMap (Alarm.after t₂) := by
        rw [List.filterMap_filterMap]
        exact List.filterMap_congr fun a _ => after_after le a
    List.Perm _ (s.afterTaking t₂) := ordered.sorted.afterTaking_perm.symm

theorem Ordered.mem_afterTaking (ordered : s.Ordered) {b : Alarm α} :
    b ∈ s.afterTaking now ↔ ∃ a ∈ s, a.after now = some b := by
  rw [ordered.sorted.afterTaking_perm.mem_iff, List.mem_filterMap]

/-- Two takings fire the same alarms as the later one alone. -/
theorem Ordered.mem_due_due (ordered : s.Ordered) (le : t₁ ≤ t₂) (id : AlarmId) :
    id ∈ ids (s.due t₁) ++ ids ((s.afterTaking t₁).due t₂) ↔ id ∈ ids (s.due t₂) := by
  have first : Ordered (s.afterTaking t₁) := ordered.afterTaking
  simp only [List.mem_append, mem_ids, mem_due_iff ordered.sorted, mem_due_iff first.sorted,
    ordered.mem_afterTaking]
  constructor
  · rintro (⟨a, ⟨member, come⟩, rfl⟩ | ⟨b, ⟨⟨a, member, left⟩, come⟩, rfl⟩)
    · exact ⟨a, ⟨member, Nat.le_trans come le⟩, rfl⟩
    · refine ⟨a, ⟨member, ?_⟩, (Alarm.id_of_after left).symm⟩
      by_cases due : a.deadline ≤ t₁
      · exact Nat.le_trans due le
      · rw [Alarm.after_of_not_due due] at left
        rwa [← Option.some.inj left] at come
  · rintro ⟨a, ⟨member, come⟩, rfl⟩
    by_cases due : a.deadline ≤ t₁
    · exact .inl ⟨a, ⟨member, due⟩, rfl⟩
    · exact .inr ⟨a, ⟨⟨a, member, Alarm.after_of_not_due due⟩, come⟩, rfl⟩

theorem Ordered.count_due (ordered : s.Ordered) (member : a ∈ s) :
    (ids (s.due now)).count a.id = if a.deadline ≤ now then 1 else 0 := by
  have fewer : (s.due now).Sublist s := List.takeWhile_sublist _
  have distinct : (ids (s.due now)).Nodup := ordered.distinct.sublist (fewer.map _)
  split
  · next come =>
    have due : a ∈ s.due now := mem_due ordered.sorted member come
    exact List.count_eq_one_of_mem distinct (mem_ids_of_mem due)
  · next late =>
    refine List.count_eq_zero.mpr fun present => ?_
    obtain ⟨b, due, same⟩ := mem_ids.mp present
    obtain ⟨member', come⟩ := (mem_due_iff ordered.sorted).mp due
    obtain rfl := ordered.eq_of_id member' member same
    exact late come

/-- An alarm that fires once is fired once, whether the clock looks twice or once. -/
theorem Ordered.count_due_due (ordered : s.Ordered) (le : t₁ ≤ t₂) (member : a ∈ s)
    (once : a.period = none) :
    (ids (s.due t₁) ++ ids ((s.afterTaking t₁).due t₂)).count a.id =
      if a.deadline ≤ t₂ then 1 else 0 := by
  have first : Ordered (s.afterTaking t₁) := ordered.afterTaking
  rw [List.count_append, ordered.count_due member]
  by_cases due : a.deadline ≤ t₁
  · have due' : a.deadline ≤ t₂ := Nat.le_trans due le
    have gone : a.id ∉ ids ((s.afterTaking t₁).due t₂) := by
      intro present
      obtain ⟨b, member', same⟩ := mem_ids.mp present
      obtain ⟨a', ha', left⟩ := ordered.mem_afterTaking.mp (mem_of_mem_due member')
      obtain rfl := ordered.eq_of_id ha' member ((Alarm.id_of_after left).symm.trans same)
      simp [Alarm.after_of_due due, Alarm.renewed, once] at left
    rw [if_pos due, if_pos due', List.count_eq_zero.mpr gone]
  · have stays : a ∈ s.afterTaking t₁ :=
      ordered.mem_afterTaking.mpr ⟨a, member, Alarm.after_of_not_due due⟩
    rw [if_neg due, first.count_due stays, Nat.zero_add]

end EventEngine.Schedule
