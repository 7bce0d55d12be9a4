import EventEngine.Proofs.Clocks.CatchUp
import EventEngine.Proofs.Clocks.Fates
import Mathlib.Data.List.Induction

/-!
# The grid of a periodic alarm

The deadlines of a periodic alarm lie on the grid that begins when it is added. Each time the alarm
is taken, it goes on at the first point of the grid that is still ahead, however late the taking
was. So the deadlines of the batches that contain the alarm are determined by when these batches
were taken, as long as the points of the grid can be represented.
-/
namespace EventEngine

variable {α : Type}

namespace Instant

variable {t₀ t now : Instant} {p : Duration} {k : Nat}

/-- The point `k` of the grid that begins at `t₀`. -/
def gridPoint (t₀ : Instant) (p : Duration) (k : Nat) : Instant := ⟨t₀.nanos + k * p.nanos⟩

/-- The first point of the grid after `t`. -/
def gridAfter (t₀ : Instant) (p : Duration) (t : Instant) : Instant :=
  t₀.gridPoint p ((t.nanos - t₀.nanos) / p.nanos + 1)

theorem le_antisymm (le : t ≤ now) (ge : now ≤ t) : t = now := by
  rw [le_def] at le ge
  have same : t.nanos = now.nanos := by omega
  exact congrArg Instant.mk same

theorem nanos_gridPoint_succ :
    (t₀.gridPoint p (k + 1)).nanos = (t₀.gridPoint p k).nanos + p.nanos := by
  simp only [gridPoint, Nat.add_mul, Nat.one_mul, Nat.add_assoc]

theorem gridPoint_mono {j : Nat} (le : j ≤ k) : t₀.gridPoint p j ≤ t₀.gridPoint p k :=
  Nat.add_le_add_left (Nat.mul_le_mul_right _ le) _

theorem lt_gridAfter (pos : 0 < p.nanos) : t < t₀.gridAfter p t := by
  have below : t.nanos - t₀.nanos < (t.nanos - t₀.nanos) / p.nanos * p.nanos + p.nanos :=
    Nat.lt_div_mul_add pos
  rw [lt_def, gridAfter, nanos_gridPoint_succ]
  simp only [gridPoint]
  omega

/-- No point of the grid lies between. -/
theorem gridAfter_le (begun : t₀ ≤ t) (later : t < t₀.gridPoint p k) :
    t₀.gridAfter p t ≤ t₀.gridPoint p k := by
  refine gridPoint_mono (Nat.div_lt_of_lt_mul ?_)
  simp only [lt_def, le_def, gridPoint] at later begun
  rw [Nat.mul_comm]
  omega

theorem gridPoint_succ_le (pos : 0 < p.nanos) (come : t₀.gridPoint p k ≤ t) :
    t₀.gridPoint p (k + 1) ≤ t₀.gridAfter p t := by
  refine gridPoint_mono (Nat.succ_le_succ ((Nat.le_div_iff_mul_le pos).mpr ?_))
  simp only [le_def, gridPoint] at come
  omega

/-- The points that have come are counted by a division. -/
theorem gridPoint_le_iff (pos : 0 < p.nanos) (begun : t₀ ≤ t) :
    t₀.gridPoint p k ≤ t ↔ k ≤ (t.nanos - t₀.nanos) / p.nanos := by
  rw [Nat.le_div_iff_mul_le pos]
  simp only [le_def, gridPoint] at begun ⊢
  omega

/-- From a point of the grid one period leads to the next point. -/
theorem deadlineAfter_gridPoint (fits : t₀.gridPoint p (k + 1) ≤ last) :
    (t₀.gridPoint p k).deadlineAfter p = t₀.gridPoint p (k + 1) := by
  rw [le_def, nanos_gridPoint_succ] at fits
  have same : (⟨(t₀.gridPoint p k).nanos + p.nanos⟩ : Instant) = t₀.gridPoint p (k + 1) :=
    congrArg Instant.mk nanos_gridPoint_succ.symm
  rw [deadlineAfter, add?, if_pos fits, same]

end Instant

namespace Schedule

variable {t₀ now : Instant} {p : Duration} {k : Nat}

/-- A catch-up from a point of the grid that is not past the next one ends at the next one. It
counts the points in between. -/
theorem catchUp_gridPoint (pos : 0 < p.nanos) (begun : t₀ ≤ now)
    (fits : t₀.gridAfter p now ≤ Instant.last) (next : Instant) (skipped : UInt32)
    (point : next = t₀.gridPoint p k) (le : next ≤ t₀.gridAfter p now) :
    catchUp now p next skipped = (t₀.gridAfter p now,
      skipped + .ofNat ((now.nanos - t₀.nanos) / p.nanos + 1 - k)) := by
  induction next, skipped using catchUp.induct now p generalizing k with
  | case1 next skipped come moves ih =>
    subst point
    have le' := Instant.gridPoint_succ_le pos come
    have step := Instant.deadlineAfter_gridPoint (Nat.le_trans le' fits)
    have few := (Instant.gridPoint_le_iff pos begun).mp come
    have one : (now.nanos - t₀.nanos) / p.nanos + 1 - k =
        1 + ((now.nanos - t₀.nanos) / p.nanos + 1 - (k + 1)) := by omega
    rw [catchUp_of_moves come moves, ih step (step ▸ le'), one, UInt32.ofNat_add, UInt32.add_assoc]
    rfl
  | case2 next skipped come ends =>
    subst point
    have le' := Instant.gridPoint_succ_le pos come
    have step := Instant.deadlineAfter_gridPoint (Nat.le_trans le' fits)
    rw [step, Instant.lt_def, Instant.nanos_gridPoint_succ] at ends
    omega
  | case3 next skipped ahead =>
    subst point
    have same := Instant.le_antisymm le (Instant.gridAfter_le begun (Nat.lt_of_not_le ahead))
    have none : (now.nanos - t₀.nanos) / p.nanos + 1 - k = 0 := by
      rw [Instant.gridPoint_le_iff pos begun] at ahead
      omega
    rw [catchUp_of_ahead ahead, none, same]
    simp

/-- An alarm on the grid that is taken late goes on at the first point that is still ahead. -/
theorem following_gridPoint (pos : 0 < p.nanos) (begun : t₀ ≤ now)
    (come : t₀.gridPoint p k ≤ now) (fits : t₀.gridAfter p now ≤ Instant.last) :
    following now p (t₀.gridPoint p k) = t₀.gridAfter p now := by
  have le := Instant.gridPoint_succ_le pos come
  have step := Instant.deadlineAfter_gridPoint (Nat.le_trans le fits)
  rw [following_eq, catchUp_gridPoint pos begun fits _ 0 step (step ▸ le)]

end Schedule

/-! ## Batches that contain an alarm -/

/-- When a batch was taken that contains the alarm, and the deadline that the alarm had. -/
def ClockNotice.batchOf? (id : AlarmId) : ClockNotice → Option (Instant × Instant)
  | taken now batch => (batch.lookup id).map fun deadline => (now, deadline)
  | _ => none

theorem ClockNotice.batchOf?_of_quiet {id : AlarmId} {notice : ClockNotice}
    (quiet : notice.isQuiet = true) : notice.batchOf? id = none := by
  cases notice with
  | taken now batch => cases quiet
  | _ => rfl

namespace Schedule

variable {s : Schedule α} {a : Alarm α} {id : AlarmId} {now : Instant}

theorem lookup_of_mem (distinct : s.ids.Nodup) (member : a ∈ s) :
    (s.map fun a => (a.id, a.deadline)).lookup a.id = some a.deadline := by
  induction s with
  | nil => cases member
  | cons b rest ih =>
    obtain ⟨absent, distinct⟩ := List.nodup_cons.mp distinct
    rw [List.map_cons, List.lookup_cons]
    rcases List.mem_cons.mp member with rfl | member
    · simp
    · have other : a.id ≠ b.id := by
        intro same
        exact absent (List.mem_map.mpr ⟨a, member, same⟩)
      rw [beq_false_of_ne other]
      exact ih distinct member

theorem lookup_of_absent (absent : id ∉ s.ids) :
    (s.map fun a => (a.id, a.deadline)).lookup id = none := by
  refine List.lookup_eq_none_iff.mpr ?_
  rintro _ member
  obtain ⟨b, hb, rfl⟩ := List.mem_map.mp member
  simpa using fun same : id = b.id => absent (same ▸ mem_ids_of_mem hb)

end Schedule

namespace Timeline

variable {t u : Timeline α} {id : AlarmId} {t₀ : Instant} {p : Duration}

/-- The batches that contained the alarm, in order: when each was taken, and the deadline that the
alarm had. -/
def batches (t : Timeline α) (id : AlarmId) : List (Instant × Instant) :=
  (t.notices.filterMap (ClockNotice.batchOf? id)).reverse

theorem batches_append {new : List ClockNotice} (told : u.notices = new ++ t.notices) :
    u.batches id = t.batches id ++ (new.filterMap (ClockNotice.batchOf? id)).reverse := by
  rw [batches, told, List.filterMap_append, List.reverse_append, batches]

theorem batches_of_untaken {new : List ClockNotice} (told : u.notices = new ++ t.notices)
    (untaken : ∀ notice ∈ new, notice.batchOf? id = none) : u.batches id = t.batches id := by
  rw [batches_append told, List.filterMap_eq_nil_iff.mpr untaken]
  exact List.append_nil _

theorem batches_cons {notice : ClockNotice} (told : u.notices = notice :: t.notices)
    (untaken : notice.batchOf? id = none) : u.batches id = t.batches id := by
  refine batches_of_untaken (List.singleton_append ▸ told) fun notice' member => ?_
  rwa [List.mem_singleton.mp member]

theorem batches_of_taken {skips : List ClockNotice} {now : Instant}
    {batch : List (AlarmId × Instant)} (told : u.notices = skips ++ .taken now batch :: t.notices)
    (quiet : ∀ notice ∈ skips, notice.isQuiet = true) : u.batches id =
      t.batches id ++ (batch.lookup id).toList.map fun deadline => (now, deadline) := by
  have nothing : skips.filterMap (ClockNotice.batchOf? id) = [] :=
    List.filterMap_eq_nil_iff.mpr fun notice member =>
      ClockNotice.batchOf?_of_quiet (quiet notice member)
  rw [List.append_cons] at told
  rw [batches_append told, List.filterMap_append, nothing]
  cases lookup : batch.lookup id <;> simp [ClockNotice.batchOf?, lookup]

/-- In a step the alarm stays as it is and no batch contains it, or what is due is taken. -/
theorem Change.batches (change : Change t u) (issued : id < t.clock.nextId) :
    (u.batches id = t.batches id ∧ ∀ a ∈ u.clock.alarms, a.id = id → a ∈ t.clock.alarms) ∨
    (u.clock.alarms = t.clock.alarms.afterTaking t.now ∧ u.batches id = t.batches id ++
      (((t.clock.alarms.due t.now).map fun a => (a.id, a.deadline)).lookup id).toList.map
        fun deadline => (t.now, deadline)) := by
  cases change with
  | quiet new alarms _ told quiet =>
    have untaken : ∀ notice ∈ new, notice.batchOf? id = none :=
      fun notice member => ClockNotice.batchOf?_of_quiet (quiet notice member)
    exact .inl ⟨batches_of_untaken told untaken, fun a member _ => alarms ▸ member⟩
  | add a new alarms _ told =>
    refine .inl ⟨batches_cons told rfl, fun b member named => ?_⟩
    rcases Schedule.mem_insert.mp (alarms ▸ member) with rfl | member
    · exact absurd (named.symm.trans new) (Nat.ne_of_lt issued)
    · exact member
  | remove gone _ alarms _ told =>
    refine .inl ⟨batches_cons told rfl, fun b member _ => ?_⟩
    exact (Schedule.mem_remove.mp (alarms ▸ member)).1
  | take skips _ alarms _ told quiet => exact .inr ⟨alarms, batches_of_taken told quiet⟩

/-- In a step the alarm stays as it is, or it is due and taken, and renewed if it is periodic. -/
theorem Change.left_or_taken (change : Change t u) (ordered : t.clock.alarms.Ordered)
    (issued : id < t.clock.nextId) :
    (u.batches id = t.batches id ∧ ∀ b ∈ u.clock.alarms, b.id = id → b ∈ t.clock.alarms) ∨
    ∃ a ∈ t.clock.alarms, a.id = id ∧ a.deadline ≤ t.now ∧
      u.batches id = t.batches id ++ [(t.now, a.deadline)] ∧
      ∀ b ∈ u.clock.alarms, b.id = id → a.renewed t.now = some b := by
  rcases change.batches issued with kept | ⟨alarms, told⟩
  · exact .inl kept
  · have few : (Schedule.ids (t.clock.alarms.due t.now)).Nodup :=
      ordered.distinct.sublist ((List.takeWhile_sublist _).map _)
    by_cases present : id ∈ Schedule.ids (t.clock.alarms.due t.now)
    · obtain ⟨a, due, rfl⟩ := Schedule.mem_ids.mp present
      obtain ⟨member, come⟩ := (Schedule.mem_due_iff ordered.sorted).mp due
      rw [Schedule.lookup_of_mem few due] at told
      refine .inr ⟨a, member, rfl, come, told, fun b here same => ?_⟩
      obtain ⟨a', member', left⟩ := ordered.mem_afterTaking.mp (alarms ▸ here)
      obtain rfl := ordered.eq_of_id member' member ((Alarm.id_of_after left).symm.trans same)
      rwa [Alarm.after_of_due come] at left
    · rw [Schedule.lookup_of_absent present] at told
      refine .inl ⟨told.trans (List.append_nil _), fun b here same => ?_⟩
      obtain ⟨a, member, left⟩ := ordered.mem_afterTaking.mp (alarms ▸ here)
      have late : ¬ a.deadline ≤ t.now := fun come => present
        (Schedule.mem_ids.mpr ⟨a, (Schedule.mem_due_iff ordered.sorted).mpr ⟨member, come⟩,
          (Alarm.id_of_after left).symm.trans same⟩)
      rw [Alarm.after_of_not_due late, Option.some.injEq] at left
      exact left ▸ member

end Timeline

/-! ## Batches on the grid -/

section Batches

variable {t₀ : Instant} {p : Duration} {batches before : List (Instant × Instant)}
  {b : Instant × Instant}

/-- The deadline that an alarm is to have in the next batch that contains it: the first point of the
grid, or the first one after the last batch was taken. -/
def nextOnGrid (t₀ : Instant) (p : Duration) (batches : List (Instant × Instant)) : Instant :=
  (batches.getLast?.map fun b => t₀.gridAfter p b.1).getD (t₀.gridPoint p 1)

/-- All deadlines that the alarm is to have in these batches can be represented. -/
def Representable (t₀ : Instant) (p : Duration) (batches : List (Instant × Instant)) : Prop :=
  ∀ before b, before ++ [b] <+: batches → nextOnGrid t₀ p before ≤ Instant.last

/-- In each batch the alarm has the deadline that it is to have, and this deadline has come. -/
def OnGrid (t₀ : Instant) (p : Duration) (batches : List (Instant × Instant)) : Prop :=
  ∀ before b, before ++ [b] <+: batches → b.2 = nextOnGrid t₀ p before ∧ b.2 ≤ b.1

@[simp] theorem nextOnGrid_nil : nextOnGrid t₀ p [] = t₀.gridPoint p 1 := rfl

@[simp] theorem nextOnGrid_concat : nextOnGrid t₀ p (before ++ [b]) = t₀.gridAfter p b.1 := by
  simp [nextOnGrid]

theorem nextOnGrid_point (t₀ : Instant) (p : Duration) (batches : List (Instant × Instant)) :
    ∃ k, 1 ≤ k ∧ nextOnGrid t₀ p batches = t₀.gridPoint p k := by
  rcases List.eq_nil_or_concat' batches with rfl | ⟨before, b, rfl⟩
  · exact ⟨1, Nat.le_refl _, rfl⟩
  · exact ⟨_, Nat.le_add_left _ _, nextOnGrid_concat⟩

theorem Representable.prefix (fits : Representable t₀ p batches) (earlier : before <+: batches) :
    Representable t₀ p before :=
  fun before' b first => fits before' b (first.trans earlier)

/-- It is enough that the first point can be represented, and the one after each batch. -/
theorem representable_of_le (first : t₀.gridPoint p 1 ≤ Instant.last)
    (later : ∀ b ∈ batches, t₀.gridAfter p b.1 ≤ Instant.last) : Representable t₀ p batches := by
  intro before b earlier
  rcases List.eq_nil_or_concat' before with rfl | ⟨init, l, rfl⟩
  · exact first
  · rw [nextOnGrid_concat]
    exact later l (earlier.subset (by simp))

theorem OnGrid.nil : OnGrid t₀ p [] := by
  intro before b first
  simp at first

theorem OnGrid.concat (steady : OnGrid t₀ p before) (deadline : b.2 = nextOnGrid t₀ p before)
    (come : b.2 ≤ b.1) : OnGrid t₀ p (before ++ [b]) := by
  intro before' b' first
  rcases List.prefix_concat_iff.mp first with same | earlier
  · obtain ⟨rfl, singleton⟩ := List.append_inj' same rfl
    obtain rfl := List.singleton_inj.mp singleton
    exact ⟨deadline, come⟩
  · exact steady before' b' earlier

/-- Every deadline is a point of the grid, and has come when the batch is taken. -/
theorem OnGrid.point (steady : OnGrid t₀ p batches) (member : b ∈ batches) :
    (∃ k, 1 ≤ k ∧ b.2 = t₀.gridPoint p k) ∧ b.2 ≤ b.1 := by
  obtain ⟨before, after, rfl⟩ := List.append_of_mem member
  obtain ⟨deadline, come⟩ := steady before b ⟨after, by simp⟩
  exact ⟨deadline ▸ nextOnGrid_point t₀ p before, come⟩

/-- The deadlines rise strictly: each lies after the instant of the batch before. -/
theorem OnGrid.rising (pos : 0 < p.nanos) (steady : OnGrid t₀ p batches) :
    batches.Pairwise fun b b' => b.2 < b'.2 := by
  induction batches using List.reverseRecOn with
  | nil => exact .nil
  | append_singleton before b ih =>
    have earlier : OnGrid t₀ p before := fun before' b' first =>
      steady before' b' (first.trans (List.prefix_append _ _))
    obtain ⟨deadline, -⟩ := steady before b (List.prefix_refl _)
    have rising := ih earlier
    refine List.pairwise_append.mpr ⟨rising, List.pairwise_singleton _ _, ?_⟩
    rintro b₁ member b' last
    obtain rfl := List.mem_singleton.mp last
    rcases List.eq_nil_or_concat' before with rfl | ⟨init, l, rfl⟩
    · cases member
    · -- the batch before was taken when its own deadline had come
      obtain ⟨-, come⟩ := earlier init l (List.prefix_refl _)
      have next : l.2 < b'.2 := by
        rw [deadline, nextOnGrid_concat]
        exact Nat.lt_of_le_of_lt come (Instant.lt_gridAfter pos)
      rcases List.mem_append.mp member with before | same
      · exact Nat.lt_trans ((List.pairwise_append.mp rising).2.2 b₁ before l (by simp)) next
      · obtain rfl := List.mem_singleton.mp same
        exact next

end Batches

/-! ## Alarms on the grid -/

namespace Timeline

variable {t u : Timeline α} {id : AlarmId} {t₀ : Instant} {p : Duration}

/-- The alarm was added with period `p` at `t₀`: it is taken at points of the grid, and scheduled at
the next one, unless time ends before. -/
structure Gridded (t₀ : Instant) (p : Duration) (id : AlarmId) (t : Timeline α) : Prop where
  begun : t₀ ≤ t.now
  issued : id < t.clock.nextId
  past : ∀ b ∈ t.batches id, b.1 ≤ t.now
  period : ∀ a ∈ t.clock.alarms, a.id = id → a.period = some p
  taken : Representable t₀ p (t.batches id) → OnGrid t₀ p (t.batches id)
  next : Representable t₀ p (t.batches id) → nextOnGrid t₀ p (t.batches id) ≤ Instant.last →
    ∀ a ∈ t.clock.alarms, a.id = id → a.deadline = nextOnGrid t₀ p (t.batches id)

/-- Taking the alarm keeps it on the grid. -/
theorem Gridded.of_taking (gridded : Gridded t₀ p id t) (pos : 0 < p.nanos) {a : Alarm α}
    (member : a ∈ t.clock.alarms) (named : a.id = id) (come : a.deadline ≤ t.now)
    (told : u.batches id = t.batches id ++ [(t.now, a.deadline)])
    (left : ∀ b ∈ u.clock.alarms, b.id = id → a.renewed t.now = some b) :
    (Representable t₀ p (u.batches id) → OnGrid t₀ p (u.batches id)) ∧
    (Representable t₀ p (u.batches id) → nextOnGrid t₀ p (u.batches id) ≤ Instant.last →
      ∀ b ∈ u.clock.alarms, b.id = id → b.deadline = nextOnGrid t₀ p (u.batches id)) := by
  rw [told, nextOnGrid_concat]
  have before : Representable t₀ p (t.batches id ++ [(t.now, a.deadline)]) →
      Representable t₀ p (t.batches id) ∧ a.deadline = nextOnGrid t₀ p (t.batches id) := by
    intro fits
    have fits' := fits.prefix (List.prefix_append _ _)
    exact ⟨fits', gridded.next fits' (fits _ _ (List.prefix_refl _)) a member named⟩
  refine ⟨fun fits => ?_, fun fits fits' b here same => ?_⟩
  · obtain ⟨fits', deadline⟩ := before fits
    exact (gridded.taken fits').concat deadline come
  · obtain ⟨-, deadline⟩ := before fits
    obtain ⟨k, -, point⟩ := nextOnGrid_point t₀ p (t.batches id)
    have renewed := left b here same
    rw [Alarm.renewed, gridded.period a member named] at renewed
    rw [← Option.some.inj renewed]
    rw [deadline, point] at come ⊢
    exact Schedule.following_gridPoint pos gridded.begun come fits'

theorem Gridded.step (reach : Reachable t) (gridded : Gridded t₀ p id t) (pos : 0 < p.nanos)
    (step : Next t u) : Gridded t₀ p id u := by
  have change := step.change reach.sound
  have period : ∀ b ∈ u.clock.alarms, b.id = id → b.period = some p := by
    intro b member named
    obtain ⟨a, member, named, same⟩ := change.period_of_mem gridded.issued member named
    exact same ▸ gridded.period a member named
  have passes := (step.now_le reach.now_le).1
  have begun := Nat.le_trans gridded.begun passes
  have past : ∀ b ∈ t.batches id, b.1 ≤ u.now :=
    fun b member => Nat.le_trans (gridded.past b member) passes
  have issued := Nat.lt_of_lt_of_le gridded.issued change.nextId_le
  rcases change.left_or_taken reach.ordered gridded.issued with
    ⟨told, kept⟩ | ⟨a, member, named, come, told, left⟩
  · refine ⟨begun, issued, told ▸ past, period, told ▸ gridded.taken, ?_⟩
    rw [told]
    exact fun fits fits' b member named => gridded.next fits fits' b (kept b member named) named
  · obtain ⟨taken, next⟩ := gridded.of_taking pos member named come told left
    refine ⟨begun, issued, fun b member => ?_, period, taken, next⟩
    rcases List.mem_append.mp (told ▸ member) with earlier | new
    · exact past b earlier
    · obtain rfl := List.mem_singleton.mp new
      exact passes

theorem Gridded.run (reach : Reachable t) (gridded : Gridded t₀ p id t) (pos : 0 < p.nanos)
    (run : Run t u) : Gridded t₀ p id u := by
  induction run with
  | refl => exact gridded
  | tail before step ih => exact ih.step (reach.run before) pos step

/-- Nothing is known of batches with an alarm that is still to be added. -/
theorem Reachable.batches_eq_nil (reach : Reachable t) (unissued : t.clock.nextId ≤ id) :
    t.batches id = [] := by
  have untaken := (reach.unissued id unissued).2
  refine List.reverse_eq_nil_iff.mpr (List.filterMap_eq_nil_iff.mpr fun notice member => ?_)
  cases notice with
  | taken now batch =>
    refine Option.map_eq_none_iff.mpr (List.lookup_eq_none_iff.mpr fun entry contained => ?_)
    have absent := List.count_eq_zero.mp untaken
    simp only [List.mem_flatMap, not_exists, not_and] at absent
    have other : entry.1 ≠ id := fun same =>
      absent _ member (List.mem_map.mpr ⟨entry, contained, same⟩)
    simpa using other.symm
  | _ => rfl

end Timeline
end EventEngine
