import EventEngine.Proofs.Clocks.Steps
import Mathlib.Data.List.Nodup
import Mathlib.Data.List.Count
import Mathlib.Tactic.Conv

/-!
# The order of a schedule

An ordered schedule is strictly ascending by deadline and id, and no two of its alarms have the same
id. So it is determined by which alarms it holds: what an operation leaves is found alarm by alarm,
without following the list. Insertions and takings keep the order.
-/
namespace EventEngine

variable {α : Type}

namespace Alarm

/-- The alarm is due earlier, or at the same instant under a smaller id. -/
def Before (a b : Alarm α) : Prop :=
  a.deadline < b.deadline ∨ (a.deadline = b.deadline ∧ a.id < b.id)

instance (a b : Alarm α) : Decidable (a.Before b) := inferInstanceAs (Decidable (_ ∨ _))

theorem Before.asymm {a b : Alarm α} (before : a.Before b) : ¬ b.Before a := by
  intro after
  rcases before with earlier | ⟨same, smaller⟩ <;> rcases after with later | ⟨same', smaller'⟩
  · exact Nat.lt_asymm earlier later
  · exact Nat.lt_irrefl _ (same' ▸ earlier)
  · exact Nat.lt_irrefl _ (same ▸ later)
  · exact Nat.lt_asymm smaller smaller'

theorem Before.deadline_le {a b : Alarm α} (before : a.Before b) : a.deadline ≤ b.deadline := by
  rcases before with earlier | ⟨same, -⟩
  · exact Nat.le_of_lt earlier
  · exact same ▸ Nat.le_refl _

/-- The alarm as it is put back once it was taken at `now`, unless it fires once. -/
def renewed (now : Instant) (a : Alarm α) : Option (Alarm α) :=
  a.period.map fun period => { a with deadline := Schedule.following now period a.deadline }

/-- What a taking at `now` makes of the alarm: it is left alone unless it is due. -/
def after (now : Instant) (a : Alarm α) : Option (Alarm α) :=
  if a.deadline ≤ now then a.renewed now else some a

variable {now : Instant} {a b : Alarm α}

theorem renewed_eq_some : a.renewed now = some b ↔ ∃ period, a.period = some period ∧
    b = { a with deadline := Schedule.following now period a.deadline } := by
  rw [renewed, Option.map_eq_some_iff]
  simp only [eq_comm]

theorem after_of_due (due : a.deadline ≤ now) : a.after now = a.renewed now := if_pos due

theorem after_of_not_due (late : ¬ a.deadline ≤ now) : a.after now = some a := if_neg late

theorem id_of_after (left : a.after now = some b) : b.id = a.id := by
  unfold after at left
  split at left
  · obtain ⟨period, -, rfl⟩ := renewed_eq_some.mp left
    rfl
  · rw [← Option.some.inj left]

theorem period_of_after (left : a.after now = some b) : b.period = a.period := by
  unfold after at left
  split at left
  · obtain ⟨period, -, rfl⟩ := renewed_eq_some.mp left
    rfl
  · rw [← Option.some.inj left]

end Alarm

namespace Schedule

variable {a b : Alarm α} {s s' : Schedule α} {now : Instant}

def ids (s : Schedule α) : List AlarmId := s.map (·.id)

@[simp] theorem ids_cons : ids (a :: s) = a.id :: s.ids := rfl

theorem mem_ids {id : AlarmId} : id ∈ s.ids ↔ ∃ a ∈ s, a.id = id := List.mem_map

theorem mem_ids_of_mem (member : a ∈ s) : a.id ∈ s.ids := List.mem_map_of_mem member

/-- Strictly ascending by deadline and id, each alarm under an id of its own, and no period too
short. -/
structure Ordered (s : Schedule α) : Prop where
  ascending : s.Pairwise Alarm.Before
  distinct : s.ids.Nodup
  periods : ∀ a ∈ s, ∀ period, a.period = some period → Alarm.minPeriod.nanos ≤ period.nanos

theorem ordered_nil : Ordered ([] : Schedule α) := ⟨.nil, .nil, nofun⟩

/-- Without repeated ids the order is strict. -/
theorem Sorted.ascending (sorted : s.Sorted) (distinct : s.ids.Nodup) :
    s.Pairwise Alarm.Before := by
  have apart : s.Pairwise fun a b => a.id ≠ b.id := List.pairwise_map.mp distinct
  refine (List.Pairwise.and sorted apart).imp ?_
  intro a b ⟨notAfter, ne⟩
  rcases notAfter_iff.mp notAfter with earlier | ⟨same, le⟩
  · exact .inl earlier
  · refine .inr ⟨?_, Nat.lt_of_le_of_ne le ne⟩
    cases ha : a.deadline
    cases hb : b.deadline
    simp_all

theorem Ordered.sorted (ordered : s.Ordered) : s.Sorted := by
  refine ordered.ascending.imp ?_
  intro a b before
  rw [notAfter_iff]
  rcases before with earlier | ⟨same, smaller⟩
  · exact .inl earlier
  · exact .inr ⟨congrArg _ same, Nat.le_of_lt smaller⟩

/-- Which alarms there are determines an ordered schedule. -/
theorem Ordered.eq_of_perm (ordered : s.Ordered) (ordered' : s'.Ordered) (same : s.Perm s') :
    s = s' :=
  same.eq_of_pairwise (fun _ _ _ _ before after => absurd after before.asymm)
    ordered.ascending ordered'.ascending

/-- An id names one alarm. -/
theorem Ordered.eq_of_id (ordered : s.Ordered) (ha : a ∈ s) (hb : b ∈ s) (same : a.id = b.id) :
    a = b :=
  List.inj_on_of_nodup_map ordered.distinct ha hb same

theorem Ordered.sublist (ordered : s.Ordered) (fewer : s'.Sublist s) : s'.Ordered where
  ascending := ordered.ascending.sublist fewer
  distinct := ordered.distinct.sublist (fewer.map _)
  periods a member := ordered.periods a (fewer.subset member)

/-! ## Insertion -/

theorem insert_perm (a : Alarm α) (s : Schedule α) : (insert a s).Perm (a :: s) := by
  induction s with
  | nil => exact .refl _
  | cons b rest ih =>
    unfold insert
    split
    · exact (ih.cons b).trans (.swap a b rest)
    · exact .refl _

/-- An alarm under a new id is put in its place. -/
theorem Ordered.insert (ordered : s.Ordered) (fresh : a.id ∉ s.ids)
    (long : ∀ period, a.period = some period → Alarm.minPeriod.nanos ≤ period.nanos) :
    (insert a s).Ordered := by
  have distinct : (Schedule.insert a s).ids.Nodup := by
    have same : (Schedule.insert a s).ids.Perm (a.id :: s.ids) := (insert_perm a s).map _
    exact same.nodup_iff.mpr (List.nodup_cons.mpr ⟨fresh, ordered.distinct⟩)
  refine ⟨ordered.sorted.insert.ascending distinct, distinct, ?_⟩
  intro b member
  rcases mem_insert.mp member with rfl | member
  · exact long
  · exact ordered.periods b member

/-- The flag of an insertion: it holds just if the new alarm has become the first. -/
theorem comesFirst_iff (fresh : a ∉ s) :
    comesFirst a s = true ↔ (insert a s).head? = some a := by
  cases s with
  | nil => simp [comesFirst, insert]
  | cons b rest =>
    have ne : b ≠ a := fun same => fresh (by simp [same])
    cases notAfter : b.notAfter a with
    | false => simp [comesFirst, insert, notAfter]
    | true => simp [comesFirst, insert, notAfter, ne]

/-- Where the flag of an insertion does not hold, the earliest deadline is what it was. -/
theorem nextDeadline_insert (behind : comesFirst a s = false) :
    (insert a s).nextDeadline = s.nextDeadline := by
  cases s with
  | nil => cases behind
  | cons b rest =>
    have notAfter : b.notAfter a = true := by simpa [comesFirst] using behind
    simp [insert, notAfter, nextDeadline]

/-- The earliest deadline is the smallest of all deadlines. -/
theorem Ordered.nextDeadline_eq_some (ordered : s.Ordered) {t : Instant} :
    s.nextDeadline = some t ↔ (∃ a ∈ s, a.deadline = t) ∧ ∀ a ∈ s, t ≤ a.deadline := by
  cases s with
  | nil => simp [nextDeadline]
  | cons b rest =>
    obtain ⟨first, -⟩ := List.pairwise_cons.mp ordered.ascending
    have least : ∀ a ∈ b :: rest, b.deadline ≤ a.deadline := by
      intro a member
      rcases List.mem_cons.mp member with rfl | member
      · exact Nat.le_refl _
      · exact (first a member).deadline_le
    constructor
    · intro next
      obtain rfl : b.deadline = t := by simpa [nextDeadline] using next
      exact ⟨⟨b, by simp, rfl⟩, least⟩
    · rintro ⟨⟨a, member, rfl⟩, smallest⟩
      have le := smallest b (by simp)
      have ge := least a member
      rw [Instant.le_def] at le ge
      have same : b.deadline.nanos = a.deadline.nanos := by omega
      simp only [nextDeadline, List.head?_cons, Option.map_some, Option.some.injEq]
      cases hb : b.deadline
      cases ha : a.deadline
      simp_all

/-! ## Taking -/

/-- What is due at the head of the list is all that is due. -/
theorem due_eq_filter (sorted : s.Sorted) :
    s.due now = s.filter (·.deadline ≤ now) ∧
      s.dropWhile (·.deadline ≤ now) = s.filter (fun a => ¬ a.deadline ≤ now) := by
  induction s with
  | nil => exact ⟨rfl, rfl⟩
  | cons b rest ih =>
    obtain ⟨first, sorted'⟩ := List.pairwise_cons.mp sorted
    obtain ⟨due_rest, drop_rest⟩ := ih sorted'
    by_cases come : b.deadline ≤ now
    · simp only [due] at due_rest
      simp [due, come, due_rest, drop_rest]
    · have late : ∀ a ∈ rest, ¬ a.deadline ≤ now := by
        intro a member
        have := notAfter_iff.mp (first a member)
        rw [Instant.le_def] at come ⊢
        omega
      have none_due : rest.filter (·.deadline ≤ now) = [] :=
        List.filter_eq_nil_iff.mpr fun a member => by simpa using late a member
      have all_late : rest.filter (fun a => ¬ a.deadline ≤ now) = rest :=
        List.filter_eq_self.mpr fun a member => by simpa using late a member
      simp only [decide_not] at all_late
      simp [due, come, none_due, all_late]

theorem mem_due_iff (sorted : s.Sorted) : a ∈ s.due now ↔ a ∈ s ∧ a.deadline ≤ now := by
  rw [(due_eq_filter sorted).1]
  simp

theorem due_append_late (now : Instant) (s : Schedule α) :
    s.due now ++ s.dropWhile (·.deadline ≤ now) = s :=
  List.takeWhile_append_dropWhile

theorem foldl_reschedule_perm (now : Instant) (due rest : Schedule α) :
    (due.foldl (reschedule now) rest).Perm (due.filterMap (Alarm.renewed now) ++ rest) := by
  induction due generalizing rest with
  | nil => exact .refl _
  | cons a due ih =>
    refine (ih _).trans ?_
    cases periodic : a.period with
    | none => simp [reschedule, Alarm.renewed, periodic]
    | some period =>
      simp only [reschedule, Alarm.renewed, periodic, Option.map_some, List.filterMap_cons]
      exact ((insert_perm _ rest).append_left _).trans List.perm_middle

theorem afterTaking_perm (now : Instant) (s : Schedule α) :
    (s.afterTaking now).Perm
      ((s.due now).filterMap (Alarm.renewed now) ++ s.dropWhile (·.deadline ≤ now)) :=
  foldl_reschedule_perm now _ _

/-- A taking does the same to every alarm, wherever it stands. -/
theorem Sorted.afterTaking_perm (sorted : s.Sorted) :
    (s.afterTaking now).Perm (s.filterMap (Alarm.after now)) := by
  have due : ∀ a ∈ s.due now, a.renewed now = a.after now := fun a member =>
    (Alarm.after_of_due ((mem_due_iff sorted).mp member).2).symm
  have late : ∀ a ∈ s.dropWhile (·.deadline ≤ now), some a = a.after now := by
    intro a member
    rw [(due_eq_filter sorted).2] at member
    have late : ¬ a.deadline ≤ now := by simpa using (List.mem_filter.mp member).2
    exact (Alarm.after_of_not_due late).symm
  have parts : s.filterMap (Alarm.after now) =
      (s.due now).filterMap (Alarm.renewed now) ++ s.dropWhile (·.deadline ≤ now) := by
    conv_lhs => rw [← due_append_late now s, List.filterMap_append]
    rw [List.filterMap_congr due, ← List.filterMap_congr late, List.filterMap_some]
  rw [parts]
  exact Schedule.afterTaking_perm now s

/-- The alarms of one id are taken, and those of them that fire once are not put back. -/
theorem count_ids_afterTaking (now : Instant) (s : Schedule α) (id : AlarmId) :
    (s.afterTaking now).ids.count id + (ids ((s.due now).filter (·.period.isNone))).count id =
      s.ids.count id := by
  have renewed : ∀ due : Schedule α, (ids (due.filterMap (Alarm.renewed now))).count id +
      (ids (due.filter (·.period.isNone))).count id = due.ids.count id := by
    intro due
    induction due with
    | nil => rfl
    | cons a due ih =>
      cases periodic : a.period with
      | none =>
        simp only [Alarm.renewed, periodic, Option.map_none, List.filterMap_cons, List.filter_cons,
          Option.isNone_none, if_true, ids_cons, List.count_cons] at ih ⊢
        omega
      | some period =>
        simp only [Alarm.renewed, periodic, Option.map_some, List.filterMap_cons, List.filter_cons,
          Option.isNone_some, Bool.false_eq_true, if_false, ids_cons, List.count_cons] at ih ⊢
        omega
  have taken : (s.afterTaking now).ids.Perm
      (ids ((s.due now).filterMap (Alarm.renewed now)) ++
        ids (s.dropWhile (·.deadline ≤ now))) := by
    have same := (afterTaking_perm now s).map (·.id)
    rwa [List.map_append] at same
  have whole : s.ids.count id =
      (ids (s.due now)).count id + (ids (s.dropWhile (·.deadline ≤ now))).count id := by
    conv_lhs => rw [← due_append_late now s, ids, List.map_append, List.count_append]
    rfl
  have due := renewed (s.due now)
  rw [taken.count_eq, List.count_append, whole]
  omega

theorem Ordered.afterTaking (ordered : s.Ordered) : (s.afterTaking now).Ordered := by
  have distinct : (s.afterTaking now).ids.Nodup := by
    refine List.nodup_iff_count_le_one.mpr fun id => ?_
    have kept := count_ids_afterTaking now s id
    have once := List.nodup_iff_count_le_one.mp ordered.distinct id
    omega
  refine ⟨ordered.sorted.afterTaking.ascending distinct, distinct, ?_⟩
  intro b member
  obtain ⟨a, ha, left⟩ := List.mem_filterMap.mp (ordered.sorted.afterTaking_perm.subset member)
  rw [Alarm.period_of_after left]
  exact ordered.periods a ha

end Schedule
end EventEngine
