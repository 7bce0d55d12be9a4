import EventEngine.Proofs.Timeouts

/-!
# Clocks that can be started

A start of a handler goes through its second section on a clock that its first section has started,
perhaps long ago. So the clocks on which starts are pending, and those that know of an alarm of a
handler, can be started: nothing in the way of making their thread comes or goes.
-/
namespace EventEngine

variable {π : Type} {h g : HandlerId} {c : ClockId}

theorem Clock.Steps.spawnFault {α : Type} {kind : Clock α → Alarm α → Prop} {k k' : Clock α}
    (steps : Clock.Steps kind k k') : k'.spawnFault = k.spawnFault := by
  induction steps with
  | refl => rfl
  | tail _ step ih => exact step.spawnFault.trans ih

namespace World

variable {t u v w : World π} {x : Handler π}

theorem Next.spawnFault (step : Next v w) (c : ClockId) :
    (w.clock c).spawnFault = (v.clock c).spawnFault :=
  Clock.Steps.spawnFault (step.ticks.steps c)

theorem Run.spawnFault (run : Run v w) (c : ClockId) :
    (w.clock c).spawnFault = (v.clock c).spawnFault := by
  induction run with
  | refl => rfl
  | tail _ step ih => exact (step.spawnFault c).trans ih

/-! ## Pending starts -/

theorem pendingStarts_adopted : (w.adopted g).pendingStarts h = w.pendingStarts h :=
  pendingStarts_modify fun _ => rfl

theorem pendingStarts_installs (hx : w.handlers[g]? = some x) (installs : Installs w g x c v) :
    v.pendingStarts h = w.pendingStarts h := by
  by_cases hg : g = h
  · subst hg
    have armed := handlers_armed hx c
    rw [pendingStarts_eq hx]
    cases installs with
    | running _ => exact pendingStarts_eq hx
    | launched _ _ =>
      have launched : (((w.armed g x c).modify g Handler.launch).note (.started g)).handlers[g]? =
          some (x.armedWith (w.clock c).nextId).launch := by
        simp [armed]
      exact (pendingStarts_eq launched).trans rfl
    | refused _ _ => exact (pendingStarts_eq (handlers_disarmTimeout armed)).trans rfl
    | crashed _ _ =>
      have crashed : ((w.armed g x c).note (.spawnPanicked g)).handlers[g]? =
          some (x.armedWith (w.clock c).nextId) := armed
      exact (pendingStarts_eq crashed).trans rfl
  · exact (still_installs_ne installs hg).pendingStarts

theorem pendingStarts_start (found : w.find? g = some x) :
    (w.start g x).1.pendingStarts h = w.pendingStarts h := by
  have started := starts found
  generalize (w.start g x).1 = w' at started
  cases started with
  | failed _ => exact pendingStarts_adopted
  | @opened k notices _ _ installs =>
    have hx : ((w.adopted g).setClock (x.clock.getD sharedClock) k notices).handlers[g]? =
        some x.adopt := (find?_eq_some.mp (find?_adopted found)).1
    exact (pendingStarts_installs hx installs).trans pendingStarts_adopted

theorem pendingStarts_requestStop (who : Caller) (destroys : Bool) :
    (w.requestStop who g x destroys).1.pendingStarts h = w.pendingStarts h := by
  have disarmed : (w.disarmTimeout g x x.clock).pendingStarts h = w.pendingStarts h := by
    have forgotten : (w.modify g ({ · with timeoutAlarm := none })).pendingStarts h =
        w.pendingStarts h := pendingStarts_modify fun _ => rfl
    unfold disarmTimeout
    split
    · rfl
    · split <;> exact forgotten
  have requested : ((w.disarmTimeout g x x.clock).modify g Handler.requestStop).pendingStarts h =
      w.pendingStarts h :=
    (pendingStarts_modify (f := Handler.requestStop) fun _ => rfl).trans disarmed
  unfold requestStop
  split
  · split <;> exact requested
  · rfl

/-- A start is pending on a clock only if it was before, or has just started this clock. -/
theorem Next.pendingStarts (step : Next v w) (pending : c ∈ w.pendingStarts h) :
    c ∈ v.pendingStarts h ∨ ∃ k notices, (v.clock c).start = .ok (k, notices) := by
  have kept : w.pendingStarts h = v.pendingStarts h → c ∈ v.pendingStarts h :=
    fun same => same ▸ pending
  cases step.concerns h with
  | others _ same => exact .inl (kept same)
  | start before found after =>
    exact .inl (kept ((after.still h).pendingStarts.trans
      ((pendingStarts_start found).trans (before.still h).pendingStarts)))
  | @beginStart t x k notices before found started after =>
    have hx := (find?_eq_some.mp found).1
    have opened : (((t.adopted h).setClock (x.clock.getD sharedClock) k notices).modify h
        (·.opened (x.clock.getD sharedClock))).handlers[h]? =
          some (x.adopt.opened (x.clock.getD sharedClock)) := by
      simp [adopted, hx]
    rw [(after.still h).pendingStarts, pendingStarts_eq opened] at pending
    rcases List.mem_cons.mp pending with rfl | earlier
    · exact .inr ⟨k, notices, before.clock _ ▸ started⟩
    · rw [← (before.still h).pendingStarts, pendingStarts_eq hx]
      exact .inl earlier
  | @endStart t x d before found _ after =>
    have entered := (find?_eq_some.mp (find?_entered found d)).1
    have installs := installs (find?_entered found d) d
    rw [(after.still h).pendingStarts, pendingStarts_installs entered installs,
      pendingStarts_eq entered] at pending
    rw [← (before.still h).pendingStarts, pendingStarts_eq (find?_eq_some.mp found).1]
    exact .inl (List.mem_of_mem_erase pending)
  | stop before found running after =>
    exact .inl (kept ((after.still h).pendingStarts.trans
      ((pendingStarts_requestStop ..).trans (before.still h).pendingStarts)))
  | @setClock _ _ c' before found after =>
    exact .inl (kept ((after.still h).pendingStarts.trans
      ((pendingStarts_modify (f := ({ · with clock := some c' })) fun _ => rfl).trans
        (before.still h).pendingStarts)))

/-! ## What a start leaves -/

theorem Reachable.spawns (reach : Reachable w) {k : Clock AlarmOwner} {notices : List ClockNotice}
    (started : (w.clock c).start = .ok (k, notices)) : (w.clock c).spawnFault = none := by
  rcases Clock.start_cases started with ⟨running, -⟩ | ⟨-, spawns, -⟩
  · exact (reach.sound c).spawns running
  · exact spawns

/-- A clock on which a start is pending can be started, and so can one that knows of an alarm of the
handler. -/
theorem Reachable.startable (reach : Reachable w) (h : HandlerId) :
    (∀ c ∈ w.pendingStarts h, (w.clock c).spawnFault = none) ∧
      ∀ c id, (w.clock c).Knows id (.handler h) → (w.clock c).spawnFault = none := by
  refine reach.induct (P := fun w => (∀ c ∈ w.pendingStarts h, (w.clock c).spawnFault = none) ∧
    ∀ c id, (w.clock c).Knows id (.handler h) → (w.clock c).spawnFault = none) ?_ ?_
  · intro w fresh
    refine ⟨fun c pending => ?_, fun c id knows => absurd knows (unknown_of_fresh fresh)⟩
    cases hx : w.handlers[h]? with
    | none => simp [pendingStarts, hx] at pending
    | some x =>
      obtain ⟨_, _, _, _, _, _, rfl⟩ := fresh.handlers x (List.mem_of_getElem? hx)
      rw [pendingStarts_eq hx] at pending
      cases pending
  · rintro v w reach ⟨pending, knows⟩ step
    refine ⟨fun c later => ?_, fun c id known => ?_⟩
    · rw [step.spawnFault]
      rcases step.pendingStarts later with earlier | ⟨k, notices, started⟩
      · exact pending c earlier
      · exact reach.spawns started
    · rw [step.spawnFault]
      rcases step.knows_cases known with earlier | ⟨t, d, y, u, w', before, comes, installs, after⟩
      · exact knows c id earlier
      · by_cases here : c = d
        · subst here
          cases comes with
          | atOnce _ _ started => exact reach.spawns (before.clock c ▸ started)
          | later found member =>
            refine pending c ?_
            rw [← (before.still h).pendingStarts, pendingStarts_eq (find?_eq_some.mp found).1]
            exact member
        · rw [after.clock, clock_installs_ne installs here, clock_comes_ne comes here,
            before.clock] at known
          exact knows c id known

end World
end EventEngine
