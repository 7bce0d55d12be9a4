import EventEngine.Proofs.StopGuarantees

/-!
# Alarms that are left behind

A handler knows of one alarm, and a stop or a destruction removes this one. An alarm that the
handler does not know of stays scheduled. It is never one that the start of the present worker has
added, as long as the handler keeps its clock: it was there before, left by a worker that has
panicked.
-/
namespace EventEngine

variable {π : Type} {h : HandlerId}

namespace World

variable {g : HandlerId} {c c' : ClockId} {id : AlarmId} {s₀ s u v w : World π} {x : Handler π}

/-! ## Alarms of a handler come by its starts -/

/-- Where no alarm of the handler is added, the alarms that it has were there before. -/
theorem Ticks.holds (ticks : Ticks (fun _ a => a.callback ≠ .handler h) v w)
    (held : w.Holds c id h) : v.Holds c id h := by
  have steps := ticks.steps c
  unfold Holds at held ⊢
  generalize w.clock c = k at steps held
  induction steps with
  | refl => exact held
  | tail _ step ih =>
    obtain ⟨a, member, rfl, callback⟩ := held
    rcases step.alarms member with ⟨b, earlier, leads⟩ | ⟨foreign, -⟩
    · exact ih ⟨b, earlier, leads.id.symm, leads.callback.symm.trans callback⟩
    · exact absurd callback foreign

theorem holds_armed_cases (held : (w.armed g x c').Holds c id h) : w.Holds c id h ∨
    (c = c' ∧ x.timeout.isSome = true ∧ id = (w.clock c').nextId) := by
  by_cases here : c = c'
  · have there : c' < w.clocks.length := by
      obtain ⟨a, member, -⟩ := held
      have ticks : Ticks (ArmedAt w.now g) w (w.armed g x c') := Ticks.refl.modify.armTimeout
      rw [← here, ← ticks.length]
      exact lt_length_of_mem member
    exact ((holds_armed there).mp held).imp_right And.right
  · refine .inl ?_
    unfold Holds at held ⊢
    rwa [clock_armed_ne here] at held

/-- The second section of a start adds no alarm of the handler but the one that it registers. -/
theorem holds_installs (found : w.find? h = some x) (installs : Installs w h x c' v)
    (held : v.Holds c id h) : w.Holds c id h ∨
      v.launches h ≠ w.launches h ∧ c = c' ∧ v.bond? h = some (some id, x.clock) := by
  have hx := (find?_eq_some.mp found).1
  have adds (launched : Launches w h x c' v) : w.Holds c id h ∨
      v.launches h ≠ w.launches h ∧ c = c' ∧ v.bond? h = some (some id, x.clock) := by
    have count := launched.count
    have armed : (w.armed h x c').Holds c id h := by
      unfold Holds at held ⊢
      rwa [clock_congr launched.clocks] at held
    refine (holds_armed_cases armed).imp_right fun ⟨here, timeout, new⟩ => ⟨by omega, here, ?_⟩
    obtain ⟨setup, timeout⟩ := Option.isSome_iff_exists.mp timeout
    simp [launched.bond? hx, timeout, new]
  cases installs with
  | running _ => exact .inl held
  | launched idle spawns => exact adds (.launched idle spawns)
  | refused _ _ =>
    obtain ⟨armed, kept⟩ := holds_disarmTimeout.mp held
    refine .inl ((holds_armed_cases armed).resolve_right ?_)
    rintro ⟨rfl, timeout, rfl⟩
    obtain ⟨setup, timeout⟩ := Option.isSome_iff_exists.mp timeout
    exact kept ⟨by simp [Handler.armedWith, timeout], rfl⟩
  | crashed idle crashes => exact adds (.crashed idle crashes)

/-- An alarm that a handler has was there before, or a start has just come to the making of a
worker, and the handler knows of its alarm, if no start was in progress on another clock. -/
theorem Next.holds_cases (step : Next v w) (held : w.Holds c id h) :
    v.Holds c id h ∨ w.launches h ≠ v.launches h ∧
      ((∀ x, v.handlers[h]? = some x → x.OnClock) → w.bond? h = some (some id, some c)) := by
  rcases step.second_section h with ⟨ticks, -⟩ | ⟨t, c', y, u, w', before, comes, installs, after⟩
  · exact .inl (ticks.holds held)
  · have held' : w'.Holds c id h := by
      unfold Holds at held ⊢
      rwa [after.clock] at held
    rcases holds_installs comes.found installs held' with earlier | ⟨launched, rfl, bond⟩
    · unfold Holds at earlier
      rw [alarms_comes comes, before.clock] at earlier
      exact .inl earlier
    · rw [(after.still h).launches, (after.still h).bond?, ← (before.still h).launches,
        ← launches_congr (comes.story h), bond]
      refine .inr ⟨launched, fun onClock => ?_⟩
      cases comes with
      | atOnce _ uses _ => exact congrArg (fun c => some (some id, some c)) uses
      | @later x found pending =>
        obtain ⟨z, found', same⟩ := (before.still h).symm.find? found
        have starts : z.starts = x.starts := congrArg (·.starts) same
        have clock : z.clock = x.clock := congrArg (·.clock) same
        have kept : x.clock = some c :=
          clock ▸ onClock z (find?_eq_some.mp found').1 c (starts ▸ pending)
        exact congrArg (fun clock => some (some id, clock)) kept

theorem Run.holds (run : Run v w) (launches : w.launches h = v.launches h)
    (held : w.Holds c id h) : v.Holds c id h := by
  induction run with
  | refl => exact held
  | @tail u w before step ih =>
    have le := Run.launches_le (h := h) before
    have le' := Run.launches_le (h := h) (.single step)
    rcases step.holds_cases held with earlier | ⟨launched, -⟩
    · exact ih (by omega) earlier
    · exact absurd (by omega) launched

theorem not_holds_of_spent (spent : (w.clock c).Spent id) : ¬ w.Holds c id h := by
  rintro ⟨a, member, rfl, -⟩
  exact spent.2 a member rfl

/-! ## What a handler that keeps its clock does not know of -/

/-- Of the alarms that a running handler has, those that are not the one it would remove were there
before its worker was started, if it has kept its clock since then. -/
theorem holds_before_launch (reach : Reachable s₀) (step : Next s₀ s)
    (launched : s.launches h ≠ s₀.launches h)
    (onClock : ∀ y, s₀.handlers[h]? = some y → y.OnClock)
    (keeps : Relation.ReflTransGen (KeepsClock h) s v) (launches : v.launches h = s.launches h)
    (found : v.find? h = some x) (running : x.isRunning = true) (held : v.Holds c id h)
    (unknown : ¬ v.Drops h c id) : s₀.Holds c id h := by
  have run := run_of_keepsClock keeps
  have held_s := run.holds launches held
  refine (step.holds_cases held_s).resolve_right fun ⟨_, bond⟩ => ?_
  obtain ⟨z, hz, bond⟩ := Option.map_eq_some_iff.mp (bond onClock)
  obtain ⟨registered, clock⟩ := Prod.mk.inj bond
  have there : c < s.clocks.length := by
    obtain ⟨a, member, -⟩ := held_s
    exact lt_length_of_mem member
  rcases drops_or_spent_of_launch reach step launched onClock hz registered clock there keeps
    (run.startups_eq launches) found running with ⟨drops, -⟩ | spent
  · exact unknown drops
  · exact not_holds_of_spent spent held

/-- The handler knows of all its alarms. -/
def Traced (h : HandlerId) (w : World π) : Prop :=
  ∀ c id, w.Holds c id h → w.bond? h = some (some id, some c)

/-- As long as no dispatcher and no making of a worker panics, a handler that keeps its clock keeps
track of its alarms. -/
theorem Traced.next (reach : Reachable v) (traced : Traced h v) (calm : v.crashes h = 0)
    (keeps : KeepsClock h v w) : Traced h w := by
  intro c id held
  rcases keeps.step.holds_cases held with earlier | ⟨-, bond⟩
  · obtain ⟨x, hx, same⟩ := Option.map_eq_some_iff.mp (traced c id earlier)
    obtain ⟨registered, clock⟩ := Prod.mk.inj same
    have running : x.isRunning = true := by
      refine (Bool.not_eq_false _).mp fun idle => ?_
      have vacant : x.worker = none := by simpa [Handler.isRunning] using idle
      have unregistered := unregistered_of_idle reach calm hx vacant
      rw [registered] at unregistered
      cases unregistered
    have issued : id < (v.clock c).nextId := by
      obtain ⟨a, member, rfl, -⟩ := earlier
      exact (reach.sound c).ids a member
    exact (keeps.bond_or_spent hx running registered clock issued).resolve_right fun spent =>
      not_holds_of_spent spent held
  · exact bond keeps.onClock

theorem traced_of_keepsClock {w₀ : World π} (fresh : Fresh w₀) (calm : w.crashes h = 0)
    (keeps : Relation.ReflTransGen (KeepsClock h) w₀ w) : Traced h w := by
  induction keeps with
  | refl => exact fun c id held => absurd held (not_holds_of_fresh fresh)
  | @tail v w before step ih =>
    have le := Run.crashes_le (h := h) (.single step.step)
    have calm' : v.crashes h = 0 := by omega
    exact (ih calm').next (fresh.reachable.run (run_of_keepsClock before)) calm' step

end World
end EventEngine
